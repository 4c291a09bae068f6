import Mathlib.Tactic

/-!
# The first maximum of a list

A loop keeps the best candidate that it has met and replaces it only by a better one.
-/

namespace FirstMaximum

open List

variable {α β σ : Type*} [LinearOrder β]

/-- The candidates before an element rank below it, and those after it do not rank above it. -/
structure IsFirstMaximum (rank : α → β) (p : α → Prop) (l : List α) (x : α) : Prop where
  candidate : p x
  split : ∃ before after, l = before ++ x :: after ∧ (∀ y ∈ before, p y → rank y < rank x) ∧
    ∀ y ∈ after, p y → rank y ≤ rank x

variable {rank : α → β} {p : α → Prop} {l : List α} {x y : α}

theorem IsFirstMaximum.skip (h : IsFirstMaximum rank p l x) (hy : p y → rank y ≤ rank x) :
    IsFirstMaximum rank p (l ++ [y]) x := by
  obtain ⟨before, after, rfl, hbefore, hafter⟩ := h.split
  refine ⟨h.candidate, before, after ++ [y], by simp, hbefore, ?_⟩
  rw [forall_mem_append, forall_mem_singleton]
  exact ⟨hafter, hy⟩

theorem IsFirstMaximum.replace (h : IsFirstMaximum rank p l x) (hy : p y)
    (hlt : rank x < rank y) : IsFirstMaximum rank p (l ++ [y]) y := by
  obtain ⟨before, after, rfl, hbefore, hafter⟩ := h.split
  refine ⟨hy, before ++ x :: after, [], rfl, ?_, fun z hz => absurd hz not_mem_nil⟩
  rw [forall_mem_append, forall_mem_cons]
  exact ⟨fun z hz hpz => (hbefore z hz hpz).trans hlt, fun _ => hlt,
    fun z hz hpz => (hafter z hz hpz).trans_lt hlt⟩

theorem isFirstMaximum_append_singleton (h : ∀ z ∈ l, ¬ p z) (hx : p x) :
    IsFirstMaximum rank p (l ++ [x]) x :=
  ⟨hx, l, [], rfl, fun z hz hpz => absurd hpz (h z hz), fun _ hz => absurd hz not_mem_nil⟩

variable {step : σ → α → σ} {start : σ} {of : α → σ}

/-- The loop ends where it started, without a candidate, or with the first maximum. -/
theorem foldl_firstMaximum (hskip : ∀ s x, ¬ p x → step s x = s)
    (hfirst : ∀ x, p x → step start x = of x)
    (hbetter : ∀ x y, p y → rank x < rank y → step (of x) y = of y)
    (hkeep : ∀ x y, p y → rank y ≤ rank x → step (of x) y = of x) (l : List α) :
    (l.foldl step start = start ∧ ∀ x ∈ l, ¬ p x) ∨
      ∃ x, IsFirstMaximum rank p l x ∧ l.foldl step start = of x := by
  induction l using List.reverseRecOn with
  | nil => exact .inl ⟨rfl, fun x hx => absurd hx not_mem_nil⟩
  | append_singleton l y ih =>
    rw [foldl_append, foldl_cons, foldl_nil]
    rcases ih with ⟨hfold, hnone⟩ | ⟨x, hx, hfold⟩
    · rw [hfold]
      by_cases hy : p y
      · exact .inr ⟨y, isFirstMaximum_append_singleton hnone hy, hfirst y hy⟩
      · refine .inl ⟨hskip start y hy, ?_⟩
        rw [forall_mem_append, forall_mem_singleton]
        exact ⟨hnone, hy⟩
    · rw [hfold]
      by_cases hy : p y
      · rcases le_or_gt (rank y) (rank x) with hle | hlt
        · exact .inr ⟨x, hx.skip fun _ => hle, hkeep x y hy hle⟩
        · exact .inr ⟨y, hx.replace hy hlt, hbetter x y hy hlt⟩
      · exact .inr ⟨x, hx.skip fun h => absurd h hy, hskip (of x) y hy⟩

end FirstMaximum
