import AmneziaVpn.IpRange

/-!
# The set of ranges

`IpRangeSet` keeps its ranges in a sorted set. `add` walks through it with an iterator, swallows the
ranges that the growing new range overlaps or touches, and stops early behind the last one that can
matter or when the new range turns out to be covered.
-/

namespace AmneziaVpn

open List IpRange

structure IpRangeSet where
  ranges : List IpRange

namespace IpRangeSet

def empty : IpRangeSet := ⟨[]⟩

/-- `a < b && !a.isMaxIp() && a.inc() != b`, evaluated from left to right. -/
def gapBetween (a b : IpAddress) : Outcome Bool :=
  if a < b ∧ ¬ a.isMaxIp then a.inc.map fun next => !next.equals b else .ok false

/-- The loop of `add`: the ranges that stay, and the range to add unless it is covered. -/
def addLoop (rangeToAdd : IpRange) : List IpRange → Outcome (List IpRange × Option IpRange)
  | [] => .ok ([], some rangeToAdd)
  | curRange :: rest => do
    if ← gapBetween rangeToAdd.end curRange.start then
      .ok (curRange :: rest, some rangeToAdd)
    else
      match ← curRange.plus rangeToAdd with
      | none => do
        let (kept, toAdd) ← addLoop rangeToAdd rest
        return (curRange :: kept, toAdd)
      | some resultRange =>
        if resultRange.equals curRange then .ok (curRange :: rest, none)
        else addLoop resultRange rest

variable (s : IpRangeSet)

def add (ipRange : IpRange) : Outcome IpRangeSet := do
  match ← addLoop ipRange s.ranges with
  | (kept, some toAdd) => return ⟨treeSetAdd compareTo toAdd kept⟩
  | (kept, none) => return ⟨kept⟩

/-- The loop of `remove`: the ranges that stay and the pieces of those that were cut. -/
def removeLoop (ipRange : IpRange) : List IpRange → Outcome (List IpRange × List IpRange)
  | [] => .ok ([], [])
  | curRange :: rest =>
    if ipRange.end < curRange.start then .ok (curRange :: rest, [])
    else do
      match ← curRange.minus ipRange with
      | none => do
        let (kept, splitRanges) ← removeLoop ipRange rest
        return (curRange :: kept, splitRanges)
      | some resultRanges => do
        let (kept, splitRanges) ← removeLoop ipRange rest
        return (kept, resultRanges ++ splitRanges)

def remove (ipRange : IpRange) : Outcome IpRangeSet := do
  let (kept, splitRanges) ← removeLoop ipRange s.ranges
  return ⟨splitRanges.foldl (fun ranges r => treeSetAdd compareTo r ranges) kept⟩

def covers (a : IpAddress) : Prop := ∃ r ∈ s.ranges, r.covers a

/-- `r` ends before `q` starts, and no address of their family joins the two. -/
def Before (r q : IpRange) : Prop := r.hi < q.lo ∧ (r.SameFamily q → r.hi + 1 < q.lo)

def Apart (r q : IpRange) : Prop := Before r q ∨ Before q r

variable {r q : IpRange} {l : List IpRange} {x cur : IpRange}

theorem Apart.symm (h : Apart r q) : Apart q r := Or.symm h

theorem apart_of_not_joinable (h : ¬ r.Joinable q) : Apart r q := by
  have hr := r.lo_hi
  have hq := q.lo_hi
  simp only [Joinable, Apart, Before, SameFamily] at h ⊢
  omega

theorem Before.mono {r q r' q' : IpRange} (h : Before r q) (hr : r'.hi ≤ r.hi) (hq : q.lo ≤ q'.lo)
    (hfam : r'.SameFamily q' → r.SameFamily q) : Before r' q' := by
  refine ⟨by have := h.1; omega, fun hs => ?_⟩
  have := h.2 (hfam hs)
  omega

theorem gapBetween_eq (a b : IpAddress) :
    gapBetween a b =
      .ok (decide (a.rank < b.rank ∧ a.isMaxIp = false ∧ (a.size = b.size → a.rank + 1 ≠ b.rank))) := by
  have hlt := IpAddress.lt_iff_rank a b
  rw [gapBetween]
  by_cases h : a < b ∧ ¬ a.isMaxIp
  · have hmax : a.isMaxIp = false := Bool.eq_false_of_not_eq_true h.2
    obtain ⟨next, hnext, hs, hrank⟩ := IpAddress.inc_eq_ok hmax
    have hfam := IpAddress.size_eq_iff next b
    have hab := hlt.mp h.1
    rw [if_pos h, hnext]
    change Except.ok (!next.equals b) = _
    congr 1
    rw [Bool.eq_iff_iff, Bool.not_eq_true', ← Bool.not_eq_true, IpAddress.equals_iff,
      decide_eq_true_iff]
    simp only [hab, hmax, true_and]
    omega
  · rw [if_neg h, decide_eq_false]
    rintro ⟨hab, hmax, -⟩
    exact h ⟨hlt.mpr hab, by simp [hmax]⟩

theorem Before.trans {r q t : IpRange} (hrq : Before r q) (hqt : Before q t) : Before r t := by
  have hq := q.lo_hi
  have h₁ := hrq.1
  have h₂ := hqt.1
  exact ⟨by omega, fun _ => by omega⟩

theorem compareTo_neg_of_before (h : Before r q) : r.compareTo q < 0 := by
  have hr := r.lo_hi
  have := h.1
  rw [(compareTo_spec r q).1]
  omega

theorem compareTo_pos_of_before (h : Before r q) : ¬ q.compareTo r < 0 ∧ ¬ q.compareTo r = 0 := by
  have hr := r.lo_hi
  have := h.1
  rw [(compareTo_spec q r).1, (compareTo_spec q r).2]
  omega

theorem treeSetAdd_spec {y : IpRange} (hl : l.Pairwise Before) (hy : ∀ r ∈ l, Apart r y) :
    (treeSetAdd compareTo y l).Pairwise Before ∧
      ∀ r, r ∈ treeSetAdd compareTo y l ↔ r = y ∨ r ∈ l := by
  induction l with
  | nil => simp [treeSetAdd]
  | cons q l ih =>
    obtain ⟨hq, hl'⟩ := pairwise_cons.mp hl
    rw [treeSetAdd]
    rcases hy q mem_cons_self with hqy | hyq
    · obtain ⟨hlt, heq⟩ := compareTo_pos_of_before hqy
      obtain ⟨hpair, hmem⟩ := ih hl' (fun r hr => hy r (mem_cons_of_mem _ hr))
      rw [if_neg hlt, if_neg heq]
      refine ⟨pairwise_cons.mpr ⟨fun r hr => ?_, hpair⟩, fun r => ?_⟩
      · rcases (hmem r).mp hr with rfl | hr
        · exact hqy
        · exact hq r hr
      · rw [mem_cons, hmem, mem_cons]
        tauto
    · rw [if_pos (compareTo_neg_of_before hyq)]
      refine ⟨pairwise_cons.mpr ⟨fun r hr => ?_, hl⟩, fun r => mem_cons⟩
      rcases mem_cons.mp hr with rfl | hr
      · exact hyq
      · exact hyq.trans (hq r hr)

theorem covers_join {r q u : IpRange} (hj : r.Joinable q) (hlo : u.lo = min r.lo q.lo)
    (hhi : u.hi = max r.hi q.hi) (a : IpAddress) : u.covers a ↔ r.covers a ∨ q.covers a := by
  have hr := r.lo_hi
  have hq := q.lo_hi
  have := hj.2
  rw [covers_iff, covers_iff, covers_iff]
  omega

/-- What the loop of `add` leaves and still has to add. -/
structure Added (x : IpRange) (l kept : List IpRange) (toAdd : Option IpRange) : Prop where
  sublist : kept.Sublist l
  family : ∀ y ∈ toAdd, y.SameFamily x
  lo_eq : ∀ y ∈ toAdd, y.lo = x.lo ∨ ∃ r ∈ l, y.lo = r.lo
  apart : ∀ y ∈ toAdd, ∀ r ∈ kept, Apart r y
  covers_iff : ∀ a, (∃ r ∈ kept, r.covers a) ∨ (∃ y ∈ toAdd, y.covers a) ↔
    (∃ r ∈ l, r.covers a) ∨ x.covers a

theorem Added.stop (hcur : ∀ r ∈ l, Before cur r) (h : Before x cur) :
    Added x (cur :: l) (cur :: l) (some x) := by
  refine ⟨List.Sublist.refl _, ?_, ?_, ?_, by simp⟩ <;> rintro y ⟨⟩
  · exact Iff.rfl
  · exact .inl rfl
  · intro r hr
    rcases mem_cons.mp hr with rfl | hr
    · exact .inr h
    · exact .inr (h.trans (hcur r hr))

theorem Added.covered (h : ∀ a, x.covers a → cur.covers a) :
    Added x (cur :: l) (cur :: l) none := by
  refine ⟨List.Sublist.refl _, by simp, by simp, by simp, fun a => ⟨?_, ?_⟩⟩
  · rintro (hr | ⟨y, hy, -⟩)
    · exact .inl hr
    · cases hy
  · rintro (hr | hx)
    · exact .inl hr
    · exact .inl ⟨cur, mem_cons_self, h a hx⟩

theorem Added.merge {x cur u : IpRange} {l kept : List IpRange} {toAdd : Option IpRange}
    (h : Added u l kept toAdd) (hj : cur.Joinable x) (hlo : u.lo = min cur.lo x.lo)
    (hhi : u.hi = max cur.hi x.hi) : Added x (cur :: l) kept toAdd := by
  have hu : u.SameFamily x := by
    have hf := hj.1
    unfold SameFamily at hf ⊢
    omega
  refine ⟨h.sublist.cons _, fun y hy => (h.family y hy).trans hu, fun y hy => ?_, h.apart,
    fun a => ?_⟩
  · rcases h.lo_eq y hy with hy | ⟨r, hr, hy⟩
    · rcases min_choice cur.lo x.lo with hmin | hmin
      · exact .inr ⟨cur, mem_cons_self, by rw [hy, hlo, hmin]⟩
      · exact .inl (by rw [hy, hlo, hmin])
    · exact .inr ⟨r, mem_cons_of_mem _ hr, hy⟩
  · rw [h.covers_iff, covers_join hj hlo hhi]
    simp only [mem_cons, exists_eq_or_imp]
    constructor
    · rintro (hr | hc | hx)
      exacts [.inl (.inr hr), .inl (.inl hc), .inr hx]
    · rintro ((hc | hr) | hx)
      exacts [.inr (.inl hc), .inl hr, .inr (.inr hx)]

theorem Added.skip {l kept : List IpRange} {toAdd : Option IpRange} (h : Added x l kept toAdd)
    (hcur : ∀ r ∈ l, Before cur r) (hx : Before cur x ∨ Before x cur ∧ ¬ x.SameFamily cur) :
    Added x (cur :: l) (cur :: kept) toAdd := by
  refine ⟨h.sublist.cons_cons _, h.family, fun y hy => ?_, fun y hy r hr => ?_, fun a => ?_⟩
  · rcases h.lo_eq y hy with hy | ⟨r, hr, hy⟩
    · exact .inl hy
    · exact .inr ⟨r, mem_cons_of_mem _ hr, hy⟩
  · rcases mem_cons.mp hr with rfl | hr
    · have hfam := h.family y hy
      rcases hx with hx | ⟨hx, hne⟩
      · rcases h.lo_eq y hy with hlo | ⟨q, hq, hlo⟩
        · exact .inl (hx.mono le_rfl hlo.ge fun hs => hs.trans hfam)
        · refine .inl ((hcur q hq).mono le_rfl hlo.ge fun hs => hs.trans ?_)
          rw [hlo]
      · right
        have hr := r.lo_hi
        have hy := y.lo_hi
        have hyr : ¬ y.SameFamily r := fun hs => hne (hfam.symm.trans hs)
        refine ⟨?_, fun hs => absurd hs hyr⟩
        have hx := hx.1
        have hxl := x.lo_hi
        unfold SameFamily at hfam hyr hne
        omega
    · exact h.apart y hy r hr
  · simp only [mem_cons, exists_eq_or_imp]
    rw [or_assoc, h.covers_iff, or_assoc]

theorem not_isMaxIp_of_before (h : Before r q) (hs : r.SameFamily q) : r.end.isMaxIp = false := by
  have hr := r.lo_hi
  have hq : q.lo < 2 ^ 32 + 2 ^ 128 := q.start.rank_lt
  have hlt := h.1
  rw [← Bool.not_eq_true, IpAddress.isMaxIp_iff]
  change ¬ (r.hi = 2 ^ 32 - 1 ∨ r.hi = 2 ^ 32 + 2 ^ 128 - 1)
  unfold SameFamily at hs
  omega

theorem addLoop_spec (x : IpRange) (l : List IpRange) (hl : l.Pairwise Before) :
    ∃ kept toAdd, addLoop x l = .ok (kept, toAdd) ∧ Added x l kept toAdd := by
  induction l generalizing x with
  | nil =>
    refine ⟨[], some x, rfl, List.Sublist.refl _, ?_, ?_, ?_, by simp⟩ <;> simp [SameFamily]
  | cons cur l ih =>
    obtain ⟨hcur, hl'⟩ := pairwise_cons.mp hl
    have hsize : x.end.size = cur.start.size ↔ x.SameFamily cur := by
      rw [sameFamily_iff, x.size_eq]
    by_cases hgap : x.end.rank < cur.start.rank ∧ x.end.isMaxIp = false ∧
        (x.end.size = cur.start.size → x.end.rank + 1 ≠ cur.start.rank)
    · refine ⟨cur :: l, some x, ?_, Added.stop hcur ⟨hgap.1, fun hf => ?_⟩⟩
      · simp [addLoop, gapBetween_eq, decide_eq_true hgap, bind, Except.bind]
      · exact lt_of_le_of_ne hgap.1 (hgap.2.2 (hsize.mpr hf))
    by_cases hj : cur.Joinable x
    · obtain ⟨u, hu, hlo, hhi⟩ := plus_of_joinable hj
      by_cases heq : u.equals cur
      · refine ⟨cur :: l, none, ?_, Added.covered fun a hx => ?_⟩
        · simp [addLoop, gapBetween_eq, decide_eq_false hgap, bind, Except.bind, hu, heq, Bool.false_eq_true]
        · rw [← (equals_iff u cur).mp heq, covers_join hj hlo hhi]
          exact .inr hx
      · obtain ⟨kept, toAdd, hrun, hadded⟩ := ih u hl'
        refine ⟨kept, toAdd, ?_, hadded.merge hj hlo hhi⟩
        simp [addLoop, gapBetween_eq, decide_eq_false hgap, bind, Except.bind, hu, heq, Bool.false_eq_true, hrun]
    · obtain ⟨kept, toAdd, hrun, hadded⟩ := ih x hl'
      refine ⟨cur :: kept, toAdd, ?_, hadded.skip hcur ?_⟩
      · simp [addLoop, gapBetween_eq, decide_eq_false hgap, bind, Except.bind, plus_of_not_joinable hj, Bool.false_eq_true, hrun, pure, Except.pure]
      · rcases apart_of_not_joinable hj with hbefore | hbefore
        · exact .inl hbefore
        · refine .inr ⟨hbefore, fun hs => hgap ⟨hbefore.1, ?_, fun _ => (hbefore.2 hs).ne⟩⟩
          exact not_isMaxIp_of_before hbefore hs

theorem covers_treeSetAdd {y : IpRange} (hl : l.Pairwise Before) (hy : ∀ r ∈ l, Apart r y)
    (a : IpAddress) :
    covers ⟨treeSetAdd compareTo y l⟩ a ↔ y.covers a ∨ ∃ r ∈ l, r.covers a := by
  simp [covers, (treeSetAdd_spec hl hy).2, or_and_right, exists_or]

theorem add_spec (x : IpRange) (hs : s.ranges.Pairwise Before) :
    ∃ t, s.add x = .ok t ∧ t.ranges.Pairwise Before ∧
      ∀ a, t.covers a ↔ x.covers a ∨ s.covers a := by
  obtain ⟨kept, toAdd, hrun, hadded⟩ := addLoop_spec x s.ranges hs
  have hkept := hs.sublist hadded.sublist
  cases toAdd with
  | none =>
    refine ⟨⟨kept⟩, by simp only [add, hrun, bind, Except.bind, pure, Except.pure], hkept,
      fun a => ?_⟩
    have h := hadded.covers_iff a
    simp only [reduceCtorEq, Option.mem_def, false_and, exists_false, or_false] at h
    exact h.trans or_comm
  | some y =>
    have hy := hadded.apart y rfl
    refine ⟨⟨treeSetAdd compareTo y kept⟩, ?_, (treeSetAdd_spec hkept hy).1, fun a => ?_⟩
    · simp [add, hrun, bind, Except.bind, pure, Except.pure]
    · have h := hadded.covers_iff a
      simp only [Option.mem_def, Option.some.injEq, exists_eq_left'] at h
      rw [covers_treeSetAdd hkept hy, or_comm, h, or_comm]
      rfl

end IpRangeSet

end AmneziaVpn
