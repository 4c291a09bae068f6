import AmneziaVpn.IpRangeSet

/-!
# Whole histories of a set of ranges

The loop of `remove` leaves ranges and pieces that are apart, as the loop of `add` does.
-/

namespace AmneziaVpn.IpRangeSet

open List
open IpRange

def Within (p r : IpRange) : Prop := r.lo ≤ p.lo ∧ p.hi ≤ r.hi

variable {r : IpRange}

theorem Within.sameFamily {p : IpRange} (h : Within p r) : p.SameFamily r := by
  have hp := p.lo_hi
  have hr := r.lo_hi
  have := h.1
  have := h.2
  unfold SameFamily
  omega

variable {q : IpRange}

theorem Before.within {p t : IpRange} (h : Before r q) (hp : Within p r) (ht : Within t q) :
    Before p t :=
  h.mono hp.2 ht.1 fun hs => hp.sameFamily.symm.trans (hs.trans ht.sameFamily)

theorem pairwise_toList {α : Type*} {R : α → α → Prop} (o : Option α) : o.toList.Pairwise R := by
  cases o <;> simp

/-- Cutting a range leaves at most two pieces of it, which cover what is outside of the cut. -/
theorem minus_pieces (h : r.lo ≤ q.hi ∧ q.lo ≤ r.hi) :
    ∃ ps, r.minus q = .ok (some ps) ∧ ps.Pairwise Before ∧ (∀ p ∈ ps, Within p r) ∧
      ∀ a, (∃ p ∈ ps, p.covers a) ↔ r.covers a ∧ ¬ q.covers a := by
  obtain ⟨below, above, hrun, ⟨hnb, hb⟩, hna, ha⟩ := minus_of_meet h
  have hq := q.lo_hi
  have hpieces : ∀ p ∈ below.toList ++ above.toList,
      p.lo = r.lo ∧ p.hi + 1 = q.lo ∨ p.lo = q.hi + 1 ∧ p.hi = r.hi := by
    intro p hp
    rcases mem_append.mp hp with hp | hp
    · exact .inl (hb p (Option.mem_toList.mp hp))
    · exact .inr (ha p (Option.mem_toList.mp hp))
  refine ⟨_, hrun, pairwise_append.mpr ⟨pairwise_toList _, pairwise_toList _, ?_⟩,
    fun p hp => ?_, fun a => ?_⟩
  · intro p hp t ht
    have hp := hb p (Option.mem_toList.mp hp)
    have ht := ha t (Option.mem_toList.mp ht)
    exact ⟨by omega, fun _ => by omega⟩
  · have := p.lo_hi
    have := hpieces p hp
    exact ⟨by omega, by omega⟩
  · rw [covers_iff, covers_iff]
    constructor
    · rintro ⟨p, hp, hcov⟩
      have := hpieces p hp
      rw [covers_iff] at hcov
      omega
    · rintro ⟨hr, hnq⟩
      by_cases hlt : a.rank < q.lo
      · obtain ⟨p, rfl⟩ := Option.ne_none_iff_exists'.mp (hnb.not.mpr (by omega))
        have := hb p rfl
        exact ⟨p, by simp, (covers_iff p a).mpr (by omega)⟩
      · obtain ⟨p, rfl⟩ := Option.ne_none_iff_exists'.mp (hna.not.mpr (by omega))
        have := ha p rfl
        exact ⟨p, by simp, (covers_iff p a).mpr (by omega)⟩

/-- What the loop of `remove` leaves and the pieces it cuts. -/
structure Removed (x : IpRange) (l kept split : List IpRange) : Prop where
  sublist : kept.Sublist l
  within : ∀ p ∈ split, ∃ r ∈ l, Within p r
  split_apart : split.Pairwise Apart
  apart : ∀ r ∈ kept, ∀ p ∈ split, Apart r p
  covers_iff : ∀ a, (∃ p ∈ kept, p.covers a) ∨ (∃ p ∈ split, p.covers a) ↔
    (∃ r ∈ l, r.covers a) ∧ ¬ x.covers a

variable {l : List IpRange}

theorem Removed.untouched {x : IpRange} (h : ∀ r ∈ l, x.hi < r.lo) : Removed x l l [] := by
  refine ⟨List.Sublist.refl _, by simp, List.Pairwise.nil, by simp, fun a => ⟨?_, ?_⟩⟩
  · rintro (⟨r, hr, ha⟩ | ⟨p, hp, -⟩)
    · have := h r hr
      refine ⟨⟨r, hr, ha⟩, ?_⟩
      rw [IpRange.covers_iff] at ha ⊢
      omega
    · cases hp
  · exact fun ha => .inl ha.1

theorem Removed.keep {x cur : IpRange} {kept split : List IpRange} (h : Removed x l kept split)
    (hcur : ∀ r ∈ l, Before cur r) (hx : ∀ a, cur.covers a → ¬ x.covers a) :
    Removed x (cur :: l) (cur :: kept) split := by
  refine ⟨h.sublist.cons_cons _, fun p hp => ?_, h.split_apart, fun r hr p hp => ?_, fun a => ?_⟩
  · obtain ⟨r, hr, hpr⟩ := h.within p hp
    exact ⟨r, mem_cons_of_mem _ hr, hpr⟩
  · rcases mem_cons.mp hr with rfl | hr
    · obtain ⟨q, hq, hpq⟩ := h.within p hp
      exact .inl ((hcur q hq).within ⟨le_rfl, le_rfl⟩ hpq)
    · exact h.apart r hr p hp
  · simp only [mem_cons, exists_eq_or_imp]
    rw [or_assoc, h.covers_iff, or_and_right, and_iff_left_of_imp (hx a)]

theorem Removed.cut {x cur : IpRange} {kept split ps : List IpRange} (h : Removed x l kept split)
    (hcur : ∀ r ∈ l, Before cur r) (hps : ps.Pairwise Before) (hin : ∀ p ∈ ps, Within p cur)
    (hcov : ∀ a, (∃ p ∈ ps, p.covers a) ↔ cur.covers a ∧ ¬ x.covers a) :
    Removed x (cur :: l) kept (ps ++ split) := by
  refine ⟨h.sublist.cons _, fun p hp => ?_, pairwise_append.mpr ⟨hps.imp .inl, h.split_apart,
    fun p hp t ht => ?_⟩, fun r hr p hp => ?_, fun a => ?_⟩
  · rcases mem_append.mp hp with hp | hp
    · exact ⟨cur, mem_cons_self, hin p hp⟩
    · obtain ⟨r, hr, hpr⟩ := h.within p hp
      exact ⟨r, mem_cons_of_mem _ hr, hpr⟩
  · obtain ⟨r, hr, htr⟩ := h.within t ht
    exact .inl ((hcur r hr).within (hin p hp) htr)
  · rcases mem_append.mp hp with hp | hp
    · exact .inr ((hcur r (h.sublist.subset hr)).within (hin p hp) ⟨le_rfl, le_rfl⟩)
    · exact h.apart r hr p hp
  · simp only [mem_append, mem_cons, or_and_right, exists_or, exists_eq_left]
    rw [or_left_comm, h.covers_iff, hcov]

theorem removeLoop_spec (x : IpRange) (l : List IpRange) (hl : l.Pairwise Before) :
    ∃ kept split, removeLoop x l = .ok (kept, split) ∧ Removed x l kept split := by
  induction l with
  | nil => exact ⟨[], [], rfl, Removed.untouched (by simp)⟩
  | cons cur l ih =>
    obtain ⟨hcur, hl'⟩ := pairwise_cons.mp hl
    have hlt : x.end < cur.start ↔ x.hi < cur.lo := IpAddress.lt_iff_rank _ _
    by_cases hstop : x.hi < cur.lo
    · refine ⟨cur :: l, [], if_pos (hlt.mpr hstop), Removed.untouched fun r hr => ?_⟩
      rcases mem_cons.mp hr with rfl | hr
      · exact hstop
      · have := (hcur r hr).1
        have := cur.lo_hi
        omega
    obtain ⟨kept, split, hrun, hremoved⟩ := ih hl'
    by_cases hmeet : x.lo ≤ cur.hi
    · obtain ⟨ps, hminus, hps, hin, hcov⟩ := minus_pieces (r := cur) (q := x) (by omega)
      refine ⟨kept, ps ++ split, ?_, hremoved.cut hcur hps hin hcov⟩
      simp [removeLoop, if_neg (hlt.not.mpr hstop), hminus, hrun, bind, Except.bind, pure, Except.pure]
    · refine ⟨cur :: kept, split, ?_, hremoved.keep hcur fun a ha => ?_⟩
      · simp [removeLoop, if_neg (hlt.not.mpr hstop), minus_of_disjoint (r := cur) (q := x)
          (by omega), hrun, bind, Except.bind, pure, Except.pure]
      · rw [covers_iff] at ha ⊢
        omega

/-- Pieces apart from each other and from the ranges are inserted one after another. -/
theorem treeSetAddAll_spec (ps : List IpRange) (hl : l.Pairwise Before) (hps : ps.Pairwise Apart)
    (hlps : ∀ r ∈ l, ∀ p ∈ ps, Apart r p) :
    (ps.foldl (fun ranges r => treeSetAdd IpRange.compareTo r ranges) l).Pairwise Before ∧
      ∀ r, r ∈ ps.foldl (fun ranges r => treeSetAdd IpRange.compareTo r ranges) l ↔
        r ∈ l ∨ r ∈ ps := by
  induction ps generalizing l with
  | nil => simpa using hl
  | cons p ps ih =>
    obtain ⟨hp, hps'⟩ := pairwise_cons.mp hps
    obtain ⟨hpair, hmem⟩ := treeSetAdd_spec hl fun r hr => hlps r hr p mem_cons_self
    obtain ⟨hpair', hmem'⟩ := ih hpair hps' fun r hr t ht => by
      rcases (hmem r).mp hr with rfl | hr
      · exact hp t ht
      · exact hlps r hr t (mem_cons_of_mem _ ht)
    refine ⟨hpair', fun r => ?_⟩
    rw [foldl_cons, hmem', hmem, mem_cons, or_assoc, or_left_comm]

variable (s : IpRangeSet)

theorem remove_spec (x : IpRange) (hs : s.ranges.Pairwise Before) :
    ∃ t, s.remove x = .ok t ∧ t.ranges.Pairwise Before ∧
      ∀ a, t.covers a ↔ s.covers a ∧ ¬ x.covers a := by
  obtain ⟨kept, split, hrun, hremoved⟩ := removeLoop_spec x s.ranges hs
  obtain ⟨hpair, hmem⟩ := treeSetAddAll_spec split (hs.sublist hremoved.sublist)
    hremoved.split_apart hremoved.apart
  refine ⟨_, by simp only [remove, hrun, bind, Except.bind, pure, Except.pure], hpair,
    fun a => ?_⟩
  simp only [covers, hmem, or_and_right, exists_or]
  exact hremoved.covers_iff a

inductive Op where
  | add (ipRange : IpRange)
  | remove (ipRange : IpRange)

def Op.ipRange : Op → IpRange
  | .add r => r
  | .remove r => r

def step : Op → Outcome IpRangeSet
  | .add r => s.add r
  | .remove r => s.remove r

def run (ops : List Op) : Outcome IpRangeSet := ops.foldlM step s

def lastTouching (a : IpAddress) (ops : List Op) : Option Op :=
  ops.reverse.find? fun op => decide (op.ipRange.covers a)

theorem step_spec (op : Op) (hs : s.ranges.Pairwise Before) :
    ∃ t, s.step op = .ok t ∧ t.ranges.Pairwise Before ∧
      ∀ a, t.covers a ↔ if op.ipRange.covers a then op = .add op.ipRange else s.covers a := by
  cases op with
  | add r =>
    obtain ⟨t, hrun, hpair, hcov⟩ := add_spec s r hs
    refine ⟨t, hrun, hpair, fun a => ?_⟩
    rw [hcov, Op.ipRange]
    split_ifs with h <;> simp [h]
  | remove r =>
    obtain ⟨t, hrun, hpair, hcov⟩ := remove_spec s r hs
    refine ⟨t, hrun, hpair, fun a => ?_⟩
    rw [hcov, Op.ipRange]
    split_ifs with h <;> simp [h]

theorem lastTouching_cons (a : IpAddress) (op : Op) (ops : List Op) :
    lastTouching a (op :: ops) =
      (lastTouching a ops).or (if op.ipRange.covers a then some op else none) := by
  simp [lastTouching, reverse_cons, find?_append, find?_singleton, decide_eq_true_eq]

theorem run_spec (ops : List Op) (s : IpRangeSet) (hs : s.ranges.Pairwise Before) :
    ∃ t, s.run ops = .ok t ∧ t.ranges.Pairwise Before ∧
      ∀ a, t.covers a ↔
        (∃ r, lastTouching a ops = some (.add r)) ∨ lastTouching a ops = none ∧ s.covers a := by
  induction ops generalizing s with
  | nil => exact ⟨s, rfl, hs, fun a => by simp [lastTouching]⟩
  | cons op ops ih =>
    obtain ⟨s', hstep, hs', hcov'⟩ := step_spec s op hs
    obtain ⟨t, hrun, ht, hcov⟩ := ih s' hs'
    refine ⟨t, ?_, ht, fun a => ?_⟩
    · rw [run, foldlM_cons, hstep]
      exact hrun
    · rw [hcov, hcov', lastTouching_cons]
      cases lastTouching a ops with
      | some last => simp
      | none =>
        by_cases h : op.ipRange.covers a
        · cases op <;> simp_all [Op.ipRange]
        · simp [h]

theorem Before.disjoint (h : Before r q) (a : IpAddress) : ¬ (r.covers a ∧ q.covers a) := by
  have := h.1
  rw [covers_iff, covers_iff]
  omega

theorem Before.not_adjacent (h : Before r q) :
    r.end.inc ≠ .ok q.start ∧ q.end.inc ≠ .ok r.start := by
  have hr := r.lo_hi
  have hq := q.lo_hi
  have hlt := h.1
  refine ⟨fun hinc => ?_, fun hinc => ?_⟩
  · obtain ⟨hsize, hrank⟩ := IpAddress.size_rank_of_inc hinc
    have hgap := h.2 ((sameFamily_iff r q).mpr (r.size_eq.trans hsize.symm))
    change q.lo = r.hi + 1 at hrank
    omega
  · have hrank : r.lo = q.hi + 1 := (IpAddress.size_rank_of_inc hinc).2
    omega

/-- An address is in the set exactly when the last call on a range with it was an `add`. -/
theorem run_from_empty (ops : List Op) :
    ∃ s, empty.run ops = .ok s ∧
      s.ranges.Pairwise (fun r q => r.compareTo q < 0) ∧
      s.ranges.Pairwise (fun r q => ∀ a, ¬ (r.covers a ∧ q.covers a)) ∧
      s.ranges.Pairwise (fun r q => r.end.inc ≠ .ok q.start ∧ q.end.inc ≠ .ok r.start) ∧
      ∀ a, s.covers a ↔ ∃ r, lastTouching a ops = some (.add r) := by
  obtain ⟨s, hrun, hs, hcov⟩ := run_spec ops empty List.Pairwise.nil
  refine ⟨s, hrun, hs.imp compareTo_neg_of_before, hs.imp Before.disjoint,
    hs.imp Before.not_adjacent, fun a => ?_⟩
  rw [hcov]
  simp [covers, empty]

end AmneziaVpn.IpRangeSet
