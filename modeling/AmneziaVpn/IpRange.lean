import AmneziaVpn.IpAddress

/-!
# Ranges of addresses

An `IpRange` holds two addresses of one family in ascending order; the constructor throws otherwise.
-/

namespace AmneziaVpn

open IpAddress

@[ext] structure IpRange where
  start : IpAddress
  «end» : IpAddress
  size_eq : start.size = «end».size
  start_le_end : start ≤ «end»
deriving DecidableEq

namespace IpRange

def create (start «end» : IpAddress) : Outcome IpRange :=
  if hs : start.size ≠ «end».size then
    .error (.illegalArgumentException
      ("Unable to create a range between IPv4 and IPv6 addresses (start IP: [" ++ start.toString ++
        "], end IP: [" ++ «end».toString ++ "])"))
  else if hle : «end» < start then
    .error (.illegalArgumentException
      ("Start IP: [" ++ start.toString ++ "] is greater then end IP: [" ++ «end».toString ++ "]"))
  else
    .ok ⟨start, «end», not_not.mp hs, by
      rw [lt_iff_rank] at hle
      rw [le_iff_rank]
      omega⟩

variable (r other : IpRange)

def compareTo : ℤ :=
  let d := r.start.compareTo other.start
  if d = 0 then r.end.compareTo other.end else d

def equals : Bool := r.compareTo other = 0

def contains : Bool := r.start ≤ other.start ∧ other.end ≤ r.end

def isIntersect : Bool := r.start ≤ other.end ∧ other.start ≤ r.end

variable (a b : IpAddress)

def minOf : IpAddress := if a ≤ b then a else b

def maxOf : IpAddress := if b ≤ a then a else b

/-- `a > b && !a.isMinIp() && a.dec() == b`, evaluated from left to right. -/
def justAbove : Outcome Bool :=
  if b < a ∧ ¬ a.isMinIp then a.dec.map (·.equals b) else .ok false

/-- `a < b && !a.isMaxIp() && a.inc() == b`. -/
def justBelow : Outcome Bool :=
  if a < b ∧ ¬ a.isMaxIp then a.inc.map (·.equals b) else .ok false

def plus : Outcome (Option IpRange) := do
  if ← justAbove r.start other.end then some <$> create other.start r.end
  else if ← justBelow r.end other.start then some <$> create r.start other.end
  else if !r.isIntersect other then .ok none
  else some <$> create (minOf r.start other.start) (maxOf r.end other.end)

def partBelow : Outcome (List IpRange) :=
  if r.start < other.start then do
    let last ← other.start.dec
    let part ← create r.start last
    return [part]
  else .ok []

def partAbove : Outcome (List IpRange) :=
  if other.end < r.end then do
    let first ← other.end.inc
    let part ← create first r.end
    return [part]
  else .ok []

def minus : Outcome (Option (List IpRange)) :=
  if other.contains r then .ok (some [])
  else if !r.isIntersect other then .ok none
  else do
    let below ← partBelow r other
    let above ← partAbove r other
    return some (below ++ above)

def covers : Prop := r.start ≤ a ∧ a ≤ r.end

instance (r : IpRange) (a : IpAddress) : Decidable (r.covers a) :=
  inferInstanceAs (Decidable (_ ∧ _))

def lo : ℕ := r.start.rank

def hi : ℕ := r.end.rank

theorem covers_iff : r.covers a ↔ r.lo ≤ a.rank ∧ a.rank ≤ r.hi := by
  rw [covers, le_iff_rank, le_iff_rank]
  rfl

/-- The two ends are in order, in one family, and among the addresses there are. -/
theorem lo_hi : r.lo ≤ r.hi ∧ (r.lo < 2 ^ 32 ↔ r.hi < 2 ^ 32) ∧ r.hi < 2 ^ 32 + 2 ^ 128 :=
  ⟨(le_iff_rank _ _).mp r.start_le_end, (size_eq_iff _ _).mp r.size_eq,
    r.end.rank_lt⟩

theorem covers_iff_value :
    r.covers a ↔ a.size = r.start.size ∧ r.start.value ≤ a.value ∧ a.value ≤ r.end.value := by
  have hsize : a.size = r.start.size ↔ (a.rank < 2 ^ 32 ↔ r.lo < 2 ^ 32) :=
    size_eq_iff a r.start
  have hr := r.lo_hi
  rw [covers_iff]
  by_cases h : a.size = r.start.size
  · have hstart := rank_sub_rank h
    have hend := rank_sub_rank (h.trans r.size_eq)
    change a.value + r.lo = a.rank + r.start.value at hstart
    change a.value + r.hi = a.rank + r.end.value at hend
    omega
  · omega

theorem eq_of_lo_hi {r q : IpRange} (hlo : r.lo = q.lo) (hhi : r.hi = q.hi) : r = q :=
  IpRange.ext (rank_injective hlo) (rank_injective hhi)

variable (q : IpRange)

theorem compareTo_spec :
    (r.compareTo q < 0 ↔ r.lo < q.lo ∨ r.lo = q.lo ∧ r.hi < q.hi) ∧
      (r.compareTo q = 0 ↔ r.lo = q.lo ∧ r.hi = q.hi) := by
  have hs := IpAddress.compareTo_spec r.start q.start
  have he := IpAddress.compareTo_spec r.end q.end
  simp only [compareTo, lo, hi]
  split_ifs <;> omega

theorem equals_iff : r.equals q = true ↔ r = q := by
  rw [equals, decide_eq_true_iff, (compareTo_spec r q).2]
  constructor
  · rintro ⟨hlo, hhi⟩
    exact eq_of_lo_hi hlo hhi
  · rintro rfl
    exact ⟨rfl, rfl⟩

theorem contains_iff : r.contains q = true ↔ r.lo ≤ q.lo ∧ q.hi ≤ r.hi := by
  rw [contains, decide_eq_true_iff, le_iff_rank, le_iff_rank]
  rfl

theorem isIntersect_iff : r.isIntersect q = true ↔ r.lo ≤ q.hi ∧ q.lo ≤ r.hi := by
  rw [isIntersect, decide_eq_true_iff, le_iff_rank, le_iff_rank]
  rfl

theorem create_eq_ok {a b : IpAddress} (hs : a.size = b.size) (hle : a.rank ≤ b.rank) :
    ∃ r, create a b = .ok r ∧ r.lo = a.rank ∧ r.hi = b.rank := by
  have hlt : ¬ b < a := by
    rw [lt_iff_rank]
    omega
  exact ⟨⟨a, b, hs, (le_iff_rank a b).mpr hle⟩, by
    rw [create, dif_neg (not_not.mpr hs), dif_neg hlt], rfl, rfl⟩

theorem justAbove_eq : justAbove a b = .ok (decide (a.size = b.size ∧ a.rank = b.rank + 1)) := by
  have hsize := size_eq_iff a b
  have hmin := isMinIp_iff a
  have hlt := lt_iff_rank b a
  rw [justAbove]
  by_cases h : b < a ∧ ¬ a.isMinIp
  · obtain ⟨prev, hprev, hs, hrank⟩ := dec_eq_ok (Bool.eq_false_of_not_eq_true h.2)
    have hfam := size_eq_iff prev a
    rw [if_pos h, hprev]
    change Except.ok (prev.equals b) = _
    congr 1
    rw [Bool.eq_iff_iff, IpAddress.equals_iff, decide_eq_true_iff]
    omega
  · rw [if_neg h]
    rw [hlt, hmin] at h
    rw [decide_eq_false (by omega)]

theorem justBelow_eq : justBelow a b = .ok (decide (a.size = b.size ∧ a.rank + 1 = b.rank)) := by
  have hsize := size_eq_iff a b
  have hmax := isMaxIp_iff a
  have hb := b.rank_lt
  have hlt := lt_iff_rank a b
  rw [justBelow]
  by_cases h : a < b ∧ ¬ a.isMaxIp
  · obtain ⟨next, hnext, hs, hrank⟩ := inc_eq_ok (Bool.eq_false_of_not_eq_true h.2)
    have hfam := size_eq_iff next a
    rw [if_pos h, hnext]
    change Except.ok (next.equals b) = _
    congr 1
    rw [Bool.eq_iff_iff, IpAddress.equals_iff, decide_eq_true_iff]
    omega
  · rw [if_neg h]
    rw [hlt, hmax] at h
    rw [decide_eq_false (by omega)]

def SameFamily : Prop := r.lo < 2 ^ 32 ↔ q.lo < 2 ^ 32

instance (r q : IpRange) : Decidable (r.SameFamily q) := inferInstanceAs (Decidable (_ ↔ _))

theorem sameFamily_iff : r.SameFamily q ↔ r.start.size = q.start.size :=
  (size_eq_iff _ _).symm

def Joinable : Prop := r.SameFamily q ∧ r.lo ≤ q.hi + 1 ∧ q.lo ≤ r.hi + 1

theorem rank_minOf : (minOf a b).rank = min a.rank b.rank := by
  rw [minOf]
  split_ifs with h <;> rw [le_iff_rank] at h <;> omega

theorem rank_maxOf : (maxOf a b).rank = max a.rank b.rank := by
  rw [maxOf]
  split_ifs with h <;> rw [le_iff_rank] at h <;> omega

theorem create_span {a b : IpAddress} {l h : ℕ} (ha : a.rank = l) (hb : b.rank = h) (hle : l ≤ h)
    (hfam : l < 2 ^ 32 ↔ h < 2 ^ 32) : ∃ r, create a b = .ok r ∧ r.lo = l ∧ r.hi = h := by
  subst ha hb
  exact create_eq_ok ((size_eq_iff a b).mpr hfam) hle

theorem plus_eq :
    r.plus q =
      if r.SameFamily q ∧ r.lo = q.hi + 1 then some <$> create q.start r.end
      else if r.SameFamily q ∧ r.hi + 1 = q.lo then some <$> create r.start q.end
      else if r.lo ≤ q.hi ∧ q.lo ≤ r.hi then
        some <$> create (minOf r.start q.start) (maxOf r.end q.end)
      else .ok none := by
  have habove : r.start.size = q.end.size ∧ r.start.rank = q.end.rank + 1 ↔
      r.SameFamily q ∧ r.lo = q.hi + 1 := by
    rw [sameFamily_iff, q.size_eq]
    rfl
  have hbelow : r.end.size = q.start.size ∧ r.end.rank + 1 = q.start.rank ↔
      r.SameFamily q ∧ r.hi + 1 = q.lo := by
    rw [sameFamily_iff, r.size_eq]
    rfl
  have hint : (!r.isIntersect q) = true ↔ ¬ (r.lo ≤ q.hi ∧ q.lo ≤ r.hi) := by
    rw [Bool.not_eq_true', ← Bool.not_eq_true, isIntersect_iff]
  simp only [plus, justAbove_eq, justBelow_eq, bind, Except.bind, decide_eq_true_eq, habove,
    hbelow, hint, ite_not]

theorem plus_of_joinable {r q : IpRange} (h : r.Joinable q) :
    ∃ u, r.plus q = .ok (some u) ∧ u.lo = min r.lo q.lo ∧ u.hi = max r.hi q.hi := by
  obtain ⟨hfam, hrq, hqr⟩ := h
  have hr := r.lo_hi
  have hq := q.lo_hi
  have hfam' : r.lo < 2 ^ 32 ↔ q.lo < 2 ^ 32 := hfam
  rw [plus_eq]
  split_ifs with habove hbelow hint
  · obtain ⟨u, hu, hlo, hhi⟩ := create_span (a := q.start) (b := r.end) (l := q.lo) (h := r.hi)
      rfl rfl (by omega) (by omega)
    exact ⟨u, by rw [hu]; rfl, by omega, by omega⟩
  · obtain ⟨u, hu, hlo, hhi⟩ := create_span (a := r.start) (b := q.end) (l := r.lo) (h := q.hi)
      rfl rfl (by omega) (by omega)
    exact ⟨u, by rw [hu]; rfl, by omega, by omega⟩
  · obtain ⟨u, hu, hlo, hhi⟩ := create_span (rank_minOf r.start q.start) (rank_maxOf r.end q.end)
      (by change min r.lo q.lo ≤ max r.hi q.hi; omega)
      (by change min r.lo q.lo < _ ↔ max r.hi q.hi < _; omega)
    exact ⟨u, by rw [hu]; rfl, hlo, hhi⟩
  · simp only [hfam, true_and] at habove hbelow
    omega

theorem plus_of_not_joinable {r q : IpRange} (h : ¬ r.Joinable q) : r.plus q = .ok none := by
  have hr := r.lo_hi
  have hq := q.lo_hi
  have hj : r.Joinable q ↔
      (r.lo < 2 ^ 32 ↔ q.lo < 2 ^ 32) ∧ r.lo ≤ q.hi + 1 ∧ q.lo ≤ r.hi + 1 := Iff.rfl
  rw [hj] at h
  rw [plus_eq, if_neg, if_neg, if_neg]
  · omega
  · rintro ⟨hfam, hadj⟩
    exact h ⟨hfam, by omega, by omega⟩
  · rintro ⟨hfam, hadj⟩
    exact h ⟨hfam, by omega, by omega⟩

theorem partBelow_eq {r q : IpRange} (h : r.lo ≤ q.hi ∧ q.lo ≤ r.hi) :
    ∃ below : Option IpRange, r.partBelow q = .ok below.toList ∧ (below = none ↔ q.lo ≤ r.lo) ∧
      ∀ p ∈ below, p.lo = r.lo ∧ p.hi + 1 = q.lo := by
  have hr := r.lo_hi
  have hq := q.lo_hi
  have hlt : r.start < q.start ↔ r.lo < q.lo := lt_iff_rank _ _
  rw [partBelow]
  by_cases hc : r.lo < q.lo
  · have hmin : q.start.isMinIp = false := by
      rw [Bool.eq_false_iff, Ne, isMinIp_iff]
      change ¬ (q.lo = 0 ∨ q.lo = 2 ^ 32)
      omega
    obtain ⟨last, hlast, _, hrank⟩ := dec_eq_ok hmin
    change q.lo = _ at hrank
    obtain ⟨p, hp, hlo, hhi⟩ := create_span (a := r.start) (b := last) (l := r.lo)
      (h := q.lo - 1) rfl (by omega) (by omega) (by omega)
    refine ⟨some p, ?_, by simp [hc], ?_⟩
    · simp [if_pos (hlt.mpr hc), hlast, bind, Except.bind, hp, pure, Except.pure, Option.toList_some]
    · rintro p ⟨⟩
      omega
  · exact ⟨none, if_neg (hlt.not.mpr hc), by simpa using hc, by simp⟩

theorem partAbove_eq {r q : IpRange} (h : r.lo ≤ q.hi ∧ q.lo ≤ r.hi) :
    ∃ above : Option IpRange, r.partAbove q = .ok above.toList ∧ (above = none ↔ r.hi ≤ q.hi) ∧
      ∀ p ∈ above, p.lo = q.hi + 1 ∧ p.hi = r.hi := by
  have hr := r.lo_hi
  have hq := q.lo_hi
  have hlt : q.end < r.end ↔ q.hi < r.hi := lt_iff_rank _ _
  rw [partAbove]
  by_cases hc : q.hi < r.hi
  · have hmax : q.end.isMaxIp = false := by
      rw [Bool.eq_false_iff, Ne, isMaxIp_iff]
      change ¬ (q.hi = 2 ^ 32 - 1 ∨ q.hi = 2 ^ 32 + 2 ^ 128 - 1)
      omega
    obtain ⟨first, hfirst, _, hrank⟩ := inc_eq_ok hmax
    change _ = q.hi + 1 at hrank
    obtain ⟨p, hp, hlo, hhi⟩ := create_span (a := first) (b := r.end) (l := q.hi + 1)
      (h := r.hi) hrank rfl (by omega) (by omega)
    refine ⟨some p, ?_, by simp [hc], ?_⟩
    · simp [if_pos (hlt.mpr hc), hfirst, bind, Except.bind, hp, pure, Except.pure, Option.toList_some]
    · rintro p ⟨⟩
      exact ⟨hlo, hhi⟩
  · exact ⟨none, if_neg (hlt.not.mpr hc), by simpa using hc, by simp⟩

theorem minus_of_disjoint {r q : IpRange} (h : r.hi < q.lo ∨ q.hi < r.lo) :
    r.minus q = .ok none := by
  have hr := r.lo_hi
  have hq := q.lo_hi
  rw [minus, if_neg, if_pos]
  · rw [Bool.not_eq_true', ← Bool.not_eq_true, isIntersect_iff]
    omega
  · rw [contains_iff]
    omega

/-- Where the ranges meet, what is left of `r` is its part below and its part above `q`. -/
theorem minus_of_meet {r q : IpRange} (h : r.lo ≤ q.hi ∧ q.lo ≤ r.hi) :
    ∃ below above : Option IpRange, r.minus q = .ok (some (below.toList ++ above.toList)) ∧
      ((below = none ↔ q.lo ≤ r.lo) ∧ ∀ p ∈ below, p.lo = r.lo ∧ p.hi + 1 = q.lo) ∧
      (above = none ↔ r.hi ≤ q.hi) ∧ ∀ p ∈ above, p.lo = q.hi + 1 ∧ p.hi = r.hi := by
  by_cases hc : q.contains r
  · have := (contains_iff q r).mp hc
    refine ⟨none, none, by rw [minus, if_pos hc]; rfl, ⟨?_, by simp⟩, ?_, by simp⟩
    · simpa using this.1
    · simpa using this.2
  · obtain ⟨below, hbelow, hbspan⟩ := partBelow_eq h
    obtain ⟨above, habove, haspan⟩ := partAbove_eq h
    refine ⟨below, above, ?_, hbspan, haspan⟩
    have hint : ¬ (!r.isIntersect q) = true := by
      rw [Bool.not_eq_true', Bool.not_eq_false, isIntersect_iff]
      exact h
    rw [minus, if_neg hc, if_neg hint]
    simp [hbelow, habove, bind, Except.bind, pure, Except.pure]

end IpRange

end AmneziaVpn
