import AmneziaVpn.Pieces

/-!
# Lists of terminated lines

A list of lines is written with a terminator after each of them. Splitting at the terminator gives
the lines back, and an empty rest, if and only if no line has the terminator in it.
-/

namespace TerminatedLines

open Pieces List

variable {α : Type*} {c : α} {w l r : List α} {ls : List (List α)}

def unlines (c : α) (ls : List (List α)) : List α := ls.flatMap (· ++ [c])

theorem unlines_cons : unlines c (l :: ls) = l ++ c :: unlines c ls := by
  rw [unlines, flatMap_cons, append_assoc]
  rfl

theorem unlines_append (ls ms : List (List α)) :
    unlines c (ls ++ ms) = unlines c ls ++ unlines c ms := flatMap_append

theorem infix_unlines_iff (hw : c ∉ w) (hne : w ≠ []) :
    w <:+: unlines c ls ↔ ∃ l ∈ ls, w <:+: l := by
  induction ls with
  | nil => simp [unlines, infix_nil, hne]
  | cons l ls ih => rw [unlines_cons, infix_append_cons_iff hw, ih, exists_mem_cons_iff]

/-- A word that shares no character with a separator lies on one side of it. -/
theorem infix_append_append_iff {s : List α} (hs : s ≠ []) (hw : ∀ x ∈ s, x ∉ w) (hne : w ≠ []) :
    w <:+: l ++ (s ++ r) ↔ w <:+: l ∨ w <:+: r := by
  induction s generalizing l with
  | nil => exact absurd rfl hs
  | cons x s ih =>
    rw [forall_mem_cons] at hw
    rw [cons_append, infix_append_cons_iff hw.1]
    by_cases hnil : s = []
    · rw [hnil, nil_append]
    · have hrest := ih (l := []) hnil hw.2
      rw [nil_append, infix_nil, or_iff_right hne] at hrest
      rw [hrest]

theorem infix_intercalate_iff {s : List α} (hs : s ≠ []) (hw : ∀ x ∈ s, x ∉ w) (hne : w ≠ []) :
    w <:+: s.intercalate ls ↔ ∃ l ∈ ls, w <:+: l := by
  induction ls with
  | nil => simp [infix_nil, hne]
  | cons l ls ih =>
    cases ls with
    | nil => simp
    | cons m ls =>
      rw [intercalate_cons_cons, append_assoc, infix_append_append_iff hs hw hne, ih,
        ← exists_mem_cons_iff]

section Splitting

variable [DecidableEq α]

theorem splitOn_unlines (h : ∀ l ∈ ls, c ∉ l) : (unlines c ls).splitOn c = ls ++ [[]] := by
  induction ls with
  | nil => rfl
  | cons l ls ih =>
    rw [forall_mem_cons] at h
    rw [unlines_cons, splitOn_append_cons_self, splitOn_eq_singleton h.1, ih h.2]
    rfl

theorem splitOn_unlines_iff : (unlines c ls).splitOn c = ls ++ [[]] ↔ ∀ l ∈ ls, c ∉ l := by
  refine ⟨fun h l hl => ?_, splitOn_unlines⟩
  have hmem : l ∈ (unlines c ls).splitOn c := h ▸ mem_append_left _ hl
  exact not_mem_of_mem_splitOn hmem

def lines (c : α) (l : List α) : List (List α) := (l.splitOn c).dropLast

def remainder (c : α) (l : List α) : List α := ((l.splitOn c).getLast?).getD []

theorem lines_of_not_mem (h : c ∉ l) : lines c l = [] := by
  rw [lines, splitOn_eq_singleton h]
  rfl

theorem remainder_of_not_mem (h : c ∉ l) : remainder c l = l := by
  rw [remainder, splitOn_eq_singleton h]
  rfl

theorem lines_append_cons (h : c ∉ l) : lines c (l ++ c :: r) = l :: lines c r := by
  rw [lines, splitOn_append_cons_self, splitOn_eq_singleton h, singleton_append,
    dropLast_cons_of_ne_nil (splitOn_ne_nil c r)]
  rfl

theorem remainder_append_cons (h : c ∉ l) : remainder c (l ++ c :: r) = remainder c r := by
  rw [remainder, splitOn_append_cons_self, splitOn_eq_singleton h, singleton_append,
    getLast?_cons_of_ne_nil (splitOn_ne_nil c r)]
  rfl

theorem not_mem_remainder (c : α) (l : List α) : c ∉ remainder c l := by
  induction l using separator_induction c with
  | free l hl => rwa [remainder_of_not_mem hl]
  | cut l r hl ih => rwa [remainder_append_cons hl]

theorem lines_append (l r : List α) :
    lines c (l ++ r) = lines c l ++ lines c (remainder c l ++ r) := by
  induction l using separator_induction c with
  | free l hl => rw [lines_of_not_mem hl, remainder_of_not_mem hl, nil_append]
  | cut l m hl ih =>
    rw [append_assoc, cons_append, lines_append_cons hl, lines_append_cons hl,
      remainder_append_cons hl, ih, cons_append]

theorem remainder_append (l r : List α) : remainder c (l ++ r) = remainder c (remainder c l ++ r) := by
  induction l using separator_induction c with
  | free l hl => rw [remainder_of_not_mem hl]
  | cut l m hl ih =>
    rw [append_assoc, cons_append, remainder_append_cons hl, remainder_append_cons hl, ih]

/-- An initial part of the text has the first lines, one for every terminator in it. -/
theorem lines_of_prefix_unlines (h : ∀ l ∈ ls, c ∉ l) (hr : r <+: unlines c ls) :
    lines c r = ls.take (r.count c) := by
  induction ls generalizing r with
  | nil =>
    rw [prefix_nil.mp hr, take_nil]
    exact lines_of_not_mem not_mem_nil
  | cons l ls ih =>
    rw [forall_mem_cons] at h
    by_cases hc : c ∈ r
    · obtain ⟨a, s, rfl, ha⟩ := eq_append_cons_of_mem hc
      obtain ⟨t, ht⟩ := hr
      rw [unlines_cons, append_assoc, cons_append] at ht
      have hlines := congrArg (lines c) ht
      rw [lines_append_cons ha, lines_append_cons h.1] at hlines
      obtain rfl := (cons.inj hlines).1
      have hs : s <+: unlines c ls := ⟨t, (cons.inj (append_cancel_left ht)).2⟩
      rw [lines_append_cons ha, ih h.2 hs, count_append, count_eq_zero.mpr ha, count_cons_self,
        Nat.zero_add, take_succ_cons]
    · rw [lines_of_not_mem hc, count_eq_zero.mpr hc, take_zero]

end Splitting

section Cutting

variable [DecidableEq α]

def cutBefore (w : List α) : List α → List α
  | [] => []
  | x :: l => if w <+: x :: l then [] else x :: cutBefore w l

theorem cutBefore_of_prefix (h : w <+: l) : cutBefore w l = [] := by
  cases l with
  | nil => rfl
  | cons x l => rw [cutBefore, if_pos h]

theorem length_cutBefore_le : (cutBefore w (l ++ (w ++ r))).length ≤ l.length := by
  induction l with
  | nil => rw [nil_append, cutBefore_of_prefix (prefix_append w r)]
  | cons x l ih =>
    rw [cons_append, cutBefore]
    split_ifs
    · exact Nat.zero_le _
    · rw [length_cons, length_cons]
      omega

theorem cutBefore_append_cons (hw : c ∉ w) (hne : w ≠ []) (h : ¬ w <:+: l) :
    cutBefore w (l ++ c :: (w ++ r)) = l ++ [c] := by
  induction l with
  | nil =>
    have hstart : ¬ w <+: c :: (w ++ r) := fun hpre =>
      hne (prefix_nil.mp ((prefix_append_cons_iff (l := []) hw).mp hpre))
    rw [nil_append, cutBefore, if_neg hstart,
      cutBefore_of_prefix (prefix_append w r), nil_append]
  | cons x l ih =>
    rw [infix_cons_iff, not_or] at h
    have hstart : ¬ w <+: x :: (l ++ c :: (w ++ r)) := fun hpre =>
      h.1 ((prefix_append_cons_iff (l := x :: l) hw).mp hpre)
    rw [cons_append, cutBefore, if_neg hstart, ih h.2, cons_append]

/-- A terminated text is what comes before a word if and only if it does not have the word. -/
theorem cutBefore_append_iff (hw : c ∉ w) (hne : w ≠ []) :
    cutBefore w (l ++ c :: (w ++ r)) = l ++ [c] ↔ ¬ w <:+: l := by
  refine ⟨?_, cutBefore_append_cons hw hne⟩
  rintro hcut ⟨s, t, rfl⟩
  have hle : (cutBefore w (s ++ (w ++ (t ++ c :: (w ++ r))))).length ≤ s.length :=
    length_cutBefore_le
  have hassoc : s ++ (w ++ (t ++ c :: (w ++ r))) = s ++ w ++ t ++ c :: (w ++ r) := by simp
  rw [hassoc, hcut] at hle
  simp only [length_append, length_singleton] at hle
  omega

end Cutting

end TerminatedLines
