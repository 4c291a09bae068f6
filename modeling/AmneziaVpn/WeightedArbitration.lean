import Mathlib.Tactic

/-!
# Filters decided by weight

A filter has conditions, a weight and an action. Conditions on one field are alternatives and
different fields must all be met.
-/

namespace WeightedArbitration

open List

variable {φ γ κ : Type*}

def satisfied [DecidableEq κ] (field : γ → κ) (holds : γ → Bool) (conds : List γ) : Bool :=
  conds.all fun k => conds.any fun l => field l == field k && holds l

def heaviest (matching : φ → Bool) (weight : φ → ℕ) (fs : List φ) : List φ :=
  (fs.filter matching).filter fun f => (fs.filter matching).all fun g => weight g ≤ weight f

def decides (matching : φ → Bool) (weight : φ → ℕ) (p : φ → Bool) (fs : List φ) : Bool :=
  !(heaviest matching weight fs).isEmpty && (heaviest matching weight fs).all p

variable {matching : φ → Bool} {weight : φ → ℕ} {p : φ → Bool} {fs : List φ}

theorem mem_heaviest {f : φ} :
    f ∈ heaviest matching weight fs ↔
      (f ∈ fs ∧ matching f = true) ∧
        ∀ g ∈ fs, matching g = true → weight g ≤ weight f := by
  simp only [heaviest, mem_filter, all_eq_true, decide_eq_true_eq, and_imp]

theorem exists_mem_heaviest {f : φ} (hf : f ∈ fs) (hm : matching f = true) :
    ∃ g, g ∈ heaviest matching weight fs := by
  have hmem : f ∈ fs.filter matching := mem_filter.mpr ⟨hf, hm⟩
  cases hmax : (fs.filter matching).argmax weight with
  | none =>
    rw [argmax_eq_none.mp hmax] at hmem
    exact absurd hmem not_mem_nil
  | some g =>
    have hg := mem_filter.mp (argmax_mem hmax)
    have hle : ∀ x ∈ fs, matching x = true → weight x ≤ weight g := fun x hx hmx =>
      le_of_mem_argmax (mem_filter.mpr ⟨hx, hmx⟩) hmax
    exact ⟨g, mem_heaviest.mpr ⟨hg, hle⟩⟩

theorem decides_of_mem {f : φ} (hf : f ∈ fs) (hm : matching f = true)
    (hp : ∀ g ∈ fs, matching g = true → weight f ≤ weight g → p g = true) :
    decides matching weight p fs = true := by
  obtain ⟨g, hg⟩ := (exists_mem_heaviest hf hm : ∃ g, g ∈ heaviest matching weight fs)
  have hne : (heaviest matching weight fs).isEmpty = false := by
    cases hl : heaviest matching weight fs with
    | nil => rw [hl] at hg; exact absurd hg not_mem_nil
    | cons a l => rfl
  have hall : (heaviest matching weight fs).all p = true := by
    rw [all_eq_true]
    intro x hx
    obtain ⟨⟨hxs, hxm⟩, hmax⟩ := mem_heaviest.mp hx
    exact hp x hxs hxm (hmax f hf hm)
  rw [decides, hne, hall]
  rfl

theorem not_decides_of_mem {f : φ} (hf : f ∈ fs) (hm : matching f = true) (hp : p f = false)
    (hmax : ∀ g ∈ fs, matching g = true → weight g ≤ weight f) :
    decides matching weight p fs = false := by
  have hall : (heaviest matching weight fs).all p = false := by
    rw [all_eq_false]
    exact ⟨f, mem_heaviest.mpr ⟨⟨hf, hm⟩, hmax⟩, by simp [hp]⟩
  rw [decides, hall, Bool.and_false]

end WeightedArbitration
