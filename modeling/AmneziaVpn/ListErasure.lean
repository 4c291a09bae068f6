import Mathlib.Tactic

/-!
# Erasing the first element with a property

When the list without one of its elements is the list without the first element that has a property.
-/

namespace ListErasure

open List

variable {α : Type*} {f : α → Bool} {x y : α} {l a b c : List α}

theorem eq_replicate_of_cons_eq_append (h : y :: l = l ++ [x]) :
    ∃ k, y :: l = List.replicate k x := by
  induction l generalizing y with
  | nil => exact ⟨1, h⟩
  | cons z l ih =>
    rw [cons_append, List.cons.injEq] at h
    obtain ⟨k, hk⟩ := ih h.2
    have hz : z = x := eq_of_mem_replicate (hk ▸ mem_cons_self)
    exact ⟨k + 1, by rw [h.1, hk, hz, replicate_succ]⟩

theorem of_eraseP_append_cons (h : (a ++ x :: c).eraseP f = a ++ c) : f x = true := by
  classical
  by_contra hx
  have hlength := congrArg List.length h
  rw [length_eraseP] at hlength
  simp only [length_append, length_cons] at hlength
  split_ifs at hlength with hany
  · obtain ⟨y, hy, hfy⟩ := any_eq_true.mp hany
    obtain ⟨z, l₁, l₂, -, hz, hsplit, herase⟩ := exists_of_eraseP hy hfy
    have hne : z ≠ x := fun hzx => hx (hzx ▸ hz)
    have hcount := congrArg (List.count x) hsplit
    rw [h] at herase
    have hcount' := congrArg (List.count x) herase
    simp only [count_append, count_cons, beq_self_eq_true, if_true, beq_iff_eq, hne,
      if_false] at hcount hcount'
    omega
  · omega

/-- The element itself is erased, or a copy of it with nothing but copies in between. -/
theorem eraseP_append_cons_eq_iff :
    (a ++ x :: c).eraseP f = a ++ c ↔
      f x = true ∧ ∃ l k, a = l ++ List.replicate k x ∧ ∀ y ∈ l, f y = false := by
  constructor
  · intro h
    have hx := of_eraseP_append_cons h
    refine ⟨hx, ?_⟩
    by_cases hany : ∃ y ∈ a, f y = true
    · obtain ⟨y, hy, hfy⟩ := hany
      obtain ⟨z, l₁, l₂, hl₁, hz, hsplit, herase⟩ := exists_of_eraseP hy hfy
      have hany : a.any f = true := any_eq_true.mpr ⟨y, hy, hfy⟩
      rw [eraseP_append, if_pos hany, herase, hsplit, append_assoc, append_assoc,
        append_cancel_left_eq] at h
      have hshift : z :: l₂ = l₂ ++ [x] := by
        have hc : l₂ ++ [x] ++ c = z :: l₂ ++ c := by
          rw [append_assoc, singleton_append, h]
        exact (append_cancel_right hc).symm
      obtain ⟨k, hk⟩ := eq_replicate_of_cons_eq_append hshift
      exact ⟨l₁, k, by rw [hsplit, hk], fun y hy => by simpa using hl₁ y hy⟩
    · push Not at hany
      exact ⟨a, 0, by simp, fun y hy => by simpa using hany y hy⟩
  · rintro ⟨hx, l, k, rfl, hl⟩
    have hnone : ¬ l.any f = true := by
      rw [any_eq_true]
      rintro ⟨y, hy, hfy⟩
      rw [hl y hy] at hfy
      cases hfy
    have hshift : List.replicate k x ++ x :: c = x :: (List.replicate k x ++ c) := by
      rw [← singleton_append, ← append_assoc, ← replicate_succ', replicate_succ,
        cons_append]
    rw [append_assoc, eraseP_append, if_neg hnone, hshift, eraseP_cons_of_pos hx,
      append_assoc]

section Blocks

variable {β : Type*} {m : β → Bool} {g : β → List α} {bs : List β}

theorem filter_eq_self_of_forall (h : ∀ b ∈ bs, m b = false) : bs.filter (fun b => !m b) = bs := by
  apply filter_eq_self.mpr
  intro b hb
  rw [h b hb]
  rfl

theorem filter_append_cons {before after : List β} {block : β} (hm : m block = true)
    (h : ∀ b ∈ before ++ after, m b = false) :
    (before ++ block :: after).filter (fun b => !m b) = before ++ after := by
  rw [filter_append, filter_cons_of_neg (by simp [hm]), ← filter_append,
    filter_eq_self_of_forall h]

theorem length_flatMap_filter_le (bs : List β) :
    ((bs.filter fun b => !m b).flatMap g).length ≤ (bs.flatMap g).length := by
  induction bs with
  | nil => exact Nat.le_refl _
  | cons b bs ih =>
    rw [filter_cons]
    split_ifs
    · rw [flatMap_cons, flatMap_cons, length_append, length_append]
      omega
    · rw [flatMap_cons, length_append]
      omega

theorem forall_of_length_flatMap_filter (hne : ∀ b, m b = true → g b ≠ [])
    (h : (bs.flatMap g).length ≤ ((bs.filter fun b => !m b).flatMap g).length) :
    ∀ b ∈ bs, m b = false := by
  induction bs with
  | nil => simp
  | cons b bs ih =>
    have hle := length_flatMap_filter_le (m := m) (g := g) bs
    rw [filter_cons] at h
    cases hm : m b with
    | false =>
      simp only [hm, Bool.not_false, if_true, flatMap_cons, length_append] at h
      intro b' hb'
      rcases mem_cons.mp hb' with rfl | hb'
      · exact hm
      · exact ih (by omega) b' hb'
    | true =>
      have hlength := length_pos_iff.mpr (hne b hm)
      simp only [hm, Bool.not_true, Bool.false_eq_true, if_false, flatMap_cons,
        length_append] at h
      omega

theorem eraseP_flatMap_eq_iff (hne : ∀ b, m b = true → g b ≠ []) :
    (bs.flatMap g).eraseP f = (bs.filter fun b => !m b).flatMap g ↔
      ((∀ b ∈ bs, m b = false) ∧ ∀ x ∈ bs.flatMap g, f x = false) ∨
        ∃ before block after x, bs = before ++ block :: after ∧ m block = true ∧
          (∀ b ∈ before ++ after, m b = false) ∧ g block = [x] ∧ f x = true ∧
          ∃ l k, before.flatMap g = l ++ List.replicate k x ∧ ∀ y ∈ l, f y = false := by
  constructor
  · intro h
    by_cases hmarked : ∃ b ∈ bs, m b = true
    · right
      obtain ⟨block, hblock, hm⟩ := hmarked
      obtain ⟨before, after, rfl⟩ := append_of_mem hblock
      have hbefore := length_flatMap_filter_le (m := m) (g := g) before
      have hafter := length_flatMap_filter_le (m := m) (g := g) after
      have hpos := length_pos_iff.mpr (hne block hm)
      have hlength := congrArg List.length h
      rw [length_eraseP, filter_append, filter_cons_of_neg (by simp [hm])] at hlength
      simp only [flatMap_append, flatMap_cons, length_append] at hlength
      have hnone : ∀ b ∈ before ++ after, m b = false := by
        intro b hb
        rcases mem_append.mp hb with hb | hb
        · exact forall_of_length_flatMap_filter hne (by split_ifs at hlength <;> omega) b hb
        · exact forall_of_length_flatMap_filter hne (by split_ifs at hlength <;> omega) b hb
      have hone : (g block).length = 1 := by split_ifs at hlength <;> omega
      obtain ⟨x, hx⟩ := length_eq_one_iff.mp hone
      rw [filter_append_cons hm hnone, flatMap_append, flatMap_append, flatMap_cons,
        hx, singleton_append, eraseP_append_cons_eq_iff] at h
      exact ⟨before, block, after, x, rfl, hm, hnone, hx, h⟩
    · left
      have hnone : ∀ b ∈ bs, m b = false := by
        intro b hb
        cases hm : m b with
        | false => rfl
        | true => exact absurd ⟨b, hb, hm⟩ hmarked
      rw [filter_eq_self_of_forall hnone, eraseP_eq_self_iff] at h
      exact ⟨hnone, fun x hx => Bool.eq_false_iff.mpr (h x hx)⟩
  · rintro (⟨hnone, hx⟩ | ⟨before, block, after, x, rfl, hm, hnone, hx, h⟩)
    · rw [filter_eq_self_of_forall hnone, eraseP_eq_self_iff]
      exact fun x hmem => Bool.eq_false_iff.mp (hx x hmem)
    · rw [filter_append_cons hm hnone, flatMap_append, flatMap_append, flatMap_cons,
        hx, singleton_append, eraseP_append_cons_eq_iff]
      exact h

end Blocks

end ListErasure
