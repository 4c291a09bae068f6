import Mathlib.Tactic

/-!
# The pieces of a list between separators

A list is cut at every occurrence of a separator, and the pieces that are not empty are kept.
Glueing puts a separator before each of them.
-/

namespace Pieces

open List

variable {α : Type*} {c : α} {l r w a p : List α}

theorem separator_induction {motive : List α → Prop} (c : α) (free : ∀ a, c ∉ a → motive a)
    (cut : ∀ a r, c ∉ a → motive r → motive (a ++ c :: r)) (l : List α) : motive l := by
  induction hn : l.length using Nat.strong_induction_on generalizing l with
  | _ n ih =>
    by_cases hc : c ∈ l
    · obtain ⟨a, r, rfl, ha⟩ := eq_append_cons_of_mem hc
      apply cut a r ha
      apply ih r.length ?_ r rfl
      rw [← hn, length_append, length_cons]
      omega
    · exact free l hc

theorem prefix_append_cons_iff (hw : c ∉ w) : w <+: l ++ c :: r ↔ w <+: l := by
  constructor
  · intro h
    rcases prefix_or_prefix_of_prefix h (prefix_append l (c :: r)) with hl | ⟨t, rfl⟩
    · exact hl
    · rw [prefix_append_right_inj, prefix_cons_iff] at h
      rcases h with rfl | ⟨t, rfl, -⟩
      · rw [append_nil]
      · exact absurd (mem_append_right l mem_cons_self) hw
  · intro h
    exact h.trans (prefix_append l (c :: r))

theorem infix_append_cons_iff (hw : c ∉ w) :
    w <:+: l ++ c :: r ↔ w <:+: l ∨ w <:+: r := by
  induction l with
  | nil =>
    have hstart : w <+: c :: r ↔ w <+: [] := prefix_append_cons_iff (l := []) hw
    rw [nil_append, infix_cons_iff, hstart, prefix_nil, infix_nil]
  | cons x l ih =>
    have hstart : w <+: x :: (l ++ c :: r) ↔ w <+: x :: l :=
      prefix_append_cons_iff (l := x :: l) hw
    rw [cons_append, infix_cons_iff, hstart, ih, infix_cons_iff, or_assoc]

theorem twice_infix_append_iff (ha : c ∉ a) : [c, c] <:+: a ++ c :: r ↔ [c, c] <:+: c :: r := by
  induction a with
  | nil => rfl
  | cons x a ih =>
    have hx : c ≠ x := fun h => ha (h ▸ mem_cons_self)
    rw [cons_append, infix_cons_iff, cons_prefix_cons,
      ih fun h => ha (mem_cons_of_mem x h)]
    simp [hx]

def glue (c : α) (ps : List (List α)) : List α := c :: [c].intercalate ps

variable {ps : List (List α)}

theorem glue_of_ne_nil (h : ps ≠ []) : glue c ps = ps.flatMap (c :: ·) := by
  induction ps with
  | nil => exact absurd rfl h
  | cons p ps ih =>
    cases ps with
    | nil => simp [glue]
    | cons q ps =>
      have hrest := ih (cons_ne_nil q ps)
      rw [flatMap_cons, ← hrest]
      simp [glue, intercalate_cons_cons]

theorem intercalate_concat (h : ps ≠ []) :
    [c].intercalate (ps ++ [p]) = [c].intercalate ps ++ c :: p := by
  have hglue : glue c (ps ++ [p]) = glue c ps ++ c :: p := by
    rw [glue_of_ne_nil (append_ne_nil_of_left_ne_nil h _), glue_of_ne_nil h,
      flatMap_append, flatMap_singleton]
  exact (List.cons.inj hglue).2

theorem mem_intercalate {x : α} (h : x ∈ [c].intercalate ps) : x = c ∨ ∃ p ∈ ps, x ∈ p := by
  cases ps with
  | nil => cases h
  | cons p ps =>
    have hx : x ∈ glue c (p :: ps) := mem_cons_of_mem c h
    rw [glue_of_ne_nil (cons_ne_nil p ps), mem_flatMap] at hx
    obtain ⟨q, hq, hx⟩ := hx
    rcases mem_cons.mp hx with rfl | hx
    · exact Or.inl rfl
    · exact Or.inr ⟨q, hq, hx⟩

section Splitting

variable [DecidableEq α]

theorem not_mem_of_mem_splitOn (h : p ∈ l.splitOn c) : c ∉ p := by
  induction l using separator_induction c with
  | free a ha =>
    rw [splitOn_eq_singleton ha, mem_singleton] at h
    exact h ▸ ha
  | cut a r ha ih =>
    rw [splitOn_append_cons_self, splitOn_eq_singleton ha, mem_append,
      mem_singleton] at h
    rcases h with rfl | h
    · exact ha
    · exact ih h

theorem exists_infix_splitOn_iff (hw : c ∉ w) :
    w <:+: l ↔ ∃ p ∈ l.splitOn c, w <:+: p := by
  induction l using separator_induction c with
  | free a ha => simp [splitOn_eq_singleton ha]
  | cut a r ha ih =>
    simp [infix_append_cons_iff hw, splitOn_append_cons_self, splitOn_eq_singleton ha, ih]

theorem nil_mem_splitOn_iff :
    [] ∈ l.splitOn c ↔ l = [] ∨ [c, c] <:+: c :: l ∨ l.getLast? = some c := by
  induction l using separator_induction c with
  | free a ha =>
    rw [splitOn_eq_singleton ha, mem_singleton]
    constructor
    · intro h
      exact Or.inl h.symm
    · rintro (h | h | h)
      · exact h.symm
      · rw [infix_cons_iff, cons_prefix_cons] at h
        rcases h with ⟨-, h⟩ | h
        · exact absurd (h.subset mem_cons_self) ha
        · exact absurd (h.subset mem_cons_self) ha
      · exact absurd (mem_of_getLast? h) ha
  | cut a r ha ih =>
    have hlast : (a ++ c :: r).getLast? = some c ↔ r = [] ∨ r.getLast? = some c := by
      rw [getLast?_append, getLast?_cons]
      cases h : r.getLast? with
      | none => simp [getLast?_eq_none_iff.mp h]
      | some x =>
        have hne : r ≠ [] := by
          rintro rfl
          cases h
        simp [hne]
    have htwice : [c, c] <:+: c :: (a ++ c :: r) ↔ a = [] ∨ [c, c] <:+: c :: r := by
      cases a with
      | nil =>
        simp only [nil_append, true_or, iff_true]
        exact ⟨[], r, rfl⟩
      | cons x a =>
        have hx : c ≠ x := fun h => ha (h ▸ mem_cons_self)
        rw [infix_cons_iff, twice_infix_append_iff ha]
        simp [hx]
    rw [splitOn_append_cons_self, splitOn_eq_singleton ha, mem_append,
      mem_singleton, ih, hlast, htwice]
    have hne : a ++ c :: r ≠ [] := by simp
    simp only [hne, false_or, eq_comm (a := ([] : List α)), or_assoc]
    exact or_congr_right or_left_comm

def pieces (c : α) (l : List α) : List (List α) := (l.splitOn c).filter (· ≠ [])

@[simp] theorem pieces_nil : pieces c [] = [] := rfl

@[simp] theorem pieces_append_cons : pieces c (l ++ c :: r) = pieces c l ++ pieces c r := by
  unfold pieces
  rw [splitOn_append_cons_self, filter_append]

@[simp] theorem pieces_cons_self : pieces c (c :: r) = pieces c r :=
  pieces_append_cons (l := [])

theorem pieces_of_not_mem (h : c ∉ l) (hne : l ≠ []) : pieces c l = [l] := by
  unfold pieces
  rw [splitOn_eq_singleton h, filter_cons_of_pos (by simpa using hne), filter_nil]

theorem not_mem_of_mem_pieces (h : p ∈ pieces c l) : c ∉ p :=
  not_mem_of_mem_splitOn (mem_of_mem_filter h)

theorem ne_nil_of_mem_pieces (h : p ∈ pieces c l) : p ≠ [] := by
  simpa using of_mem_filter h

theorem exists_infix_pieces_iff (hw : c ∉ w) (hne : w ≠ []) :
    w <:+: l ↔ ∃ p ∈ pieces c l, w <:+: p := by
  rw [exists_infix_splitOn_iff hw]
  constructor
  · rintro ⟨p, hp, hwp⟩
    refine ⟨p, mem_filter.mpr ⟨hp, ?_⟩, hwp⟩
    rw [decide_eq_true_iff]
    rintro rfl
    exact hne (infix_nil.mp hwp)
  · rintro ⟨p, hp, hwp⟩
    exact ⟨p, mem_of_mem_filter hp, hwp⟩

theorem infix_of_mem_pieces (h : p ∈ pieces c l) : p <:+: l :=
  (exists_infix_pieces_iff (not_mem_of_mem_pieces h) (ne_nil_of_mem_pieces h)).mpr
    ⟨p, h, infix_rfl⟩

theorem pieces_glue {ps : List (List α)} (hps : ∀ p ∈ ps, c ∉ p ∧ p ≠ []) :
    pieces c (glue c ps) = ps := by
  cases ps with
  | nil => simp [glue, List.intercalate]
  | cons p ps =>
    rw [glue, pieces_cons_self, pieces,
      splitOn_intercalate c (fun q hq => (hps q hq).1) (cons_ne_nil p ps),
      filter_eq_self]
    intro q hq
    simpa using (hps q hq).2

theorem intercalate_pieces_iff (hr : r ≠ []) :
    [c].intercalate (pieces c r) = r ↔ [] ∉ r.splitOn c := by
  constructor
  · intro h
    have hne : pieces c r ≠ [] := by
      intro hnil
      rw [hnil] at h
      exact hr h.symm
    have hsplit := splitOn_intercalate c (fun p => not_mem_of_mem_pieces) hne
    rw [h] at hsplit
    rw [hsplit]
    intro hmem
    exact ne_nil_of_mem_pieces hmem rfl
  · intro h
    have hall : pieces c r = r.splitOn c := by
      apply filter_eq_self.mpr
      intro p hp
      rw [decide_eq_true_iff]
      rintro rfl
      exact h hp
    rw [hall, intercalate_splitOn]

theorem glue_pieces_iff :
    glue c (pieces c l) = l ↔
      l = [c] ∨ l.head? = some c ∧ l.getLast? ≠ some c ∧ ¬ [c, c] <:+: l := by
  cases l with
  | nil => simp [glue]
  | cons x r =>
    by_cases hx : x = c
    · subst hx
      by_cases hr : r = []
      · simp [hr, glue]
      · have hlast : (x :: r).getLast? = r.getLast? := by
          obtain ⟨y, r, rfl⟩ := exists_cons_of_ne_nil hr
          exact getLast?_cons_cons
        rw [hlast]
        simp only [glue, pieces_cons_self, List.cons.injEq, true_and, hr, false_or,
          head?_cons]
        rw [intercalate_pieces_iff hr, nil_mem_splitOn_iff]
        tauto
    · have hglue : glue c (pieces c (x :: r)) ≠ x :: r := by
        intro h
        exact hx (List.cons.inj h).1.symm
      simp [hglue, hx]

end Splitting

end Pieces
