import Mathlib.Tactic

/-!
# Operations that report success

An operation changes a state and reports whether it succeeded. A caller stops at the first failure
or carries on regardless.
-/

namespace FallibleOps

variable {σ α : Type*}

abbrev Op (σ : Type*) := σ → Bool × σ

namespace Op

variable (a : Op σ)

variable (b : Op σ)

/-- Stop if the first operation fails. -/
def andThen : Op σ := fun s => if (a s).1 then b (a s).2 else (false, (a s).2)

/-- Carry on whatever the operation reports. -/
def ignore : Op σ := fun s => (true, (a s).2)

def allOf (f : α → Op σ) : List α → Op σ
  | [] => fun s => (true, s)
  | x :: xs => (f x).andThen (allOf f xs)

def each (f : α → Op σ) : List α → Op σ
  | [] => fun s => (true, s)
  | x :: xs => (f x).ignore.andThen (each f xs)

variable (s : σ)

@[simp] theorem andThen_fst : (a.andThen b s).1 = ((a s).1 && (b (a s).2).1) := by
  unfold andThen
  cases (a s).1 <;> rfl

theorem andThen_of_true {a : Op σ} {s : σ} (h : (a s).1 = true) (b : Op σ) :
    a.andThen b s = b (a s).2 := by
  simp [andThen, h]

theorem andThen_of_false {a : Op σ} {s : σ} (h : (a s).1 = false) (b : Op σ) :
    a.andThen b s = (false, (a s).2) := by
  simp [andThen, h]

theorem andThen_assoc (c : Op σ) : (a.andThen b).andThen c = a.andThen (b.andThen c) := by
  funext s
  unfold andThen
  cases (a s).1 <;> rfl

@[simp] theorem ignore_fst : (a.ignore s).1 = true := rfl

@[simp] theorem ignore_snd : (a.ignore s).2 = (a s).2 := rfl

@[simp] theorem ignore_andThen : a.ignore.andThen b s = b (a s).2 := rfl

variable (f : α → Op σ)

@[simp] theorem allOf_nil : allOf f [] s = (true, s) := rfl

@[simp] theorem each_nil : each f [] s = (true, s) := rfl

@[simp] theorem each_cons (x : α) (xs : List α) (s : σ) :
    each f (x :: xs) s = each f xs (f x s).2 := rfl

@[simp] theorem each_fst (xs : List α) (s : σ) : (each f xs s).1 = true := by
  induction xs generalizing s with
  | nil => rfl
  | cons x xs ih => exact ih (f x s).2

variable (R : σ → σ → Prop)

/-- The states before and after are related, whatever the operation reports. -/
def Keeps (a : Op σ) : Prop := ∀ s, R s (a s).2

/-- The states before and after are related if what the operation reports is one of `w`. -/
def KeepsWhen (w : Bool → Prop) (R : σ → σ → Prop) (a : Op σ) : Prop := ∀ s, w (a s).1 → R s (a s).2

/-- The states before and after are related if the operation succeeds. -/
def KeepsOnSuccess (a : Op σ) : Prop := ∀ s, (a s).1 = true → R s (a s).2

section Keeps

variable {w : Bool → Prop} {R : σ → σ → Prop} {a b : Op σ}

theorem Keeps.onSuccess (h : Keeps R a) : KeepsOnSuccess R a := fun s _ => h s

theorem Keeps.when (h : Keeps R a) : KeepsWhen w R a := fun s _ => h s

theorem KeepsWhen.keeps (h : KeepsWhen (fun _ => True) R a) : Keeps R a := fun s => h s trivial

theorem Keeps.ignore (h : Keeps R a) : Keeps R a.ignore := h

theorem KeepsWhen.andThen [IsTrans σ R] (hw : w true) (ha : KeepsWhen w R a)
    (hb : KeepsWhen w R b) : KeepsWhen w R (a.andThen b) := by
  intro s hs
  unfold Op.andThen at hs ⊢
  split_ifs at hs ⊢ with htrue
  · exact IsTrans.trans _ _ _ (ha s (htrue ▸ hw)) (hb _ hs)
  · exact ha s (Bool.eq_false_of_not_eq_true htrue ▸ hs)

theorem Keeps.andThen [IsTrans σ R] (ha : Keeps R a) (hb : Keeps R b) : Keeps R (a.andThen b) :=
  (KeepsWhen.andThen trivial ha.when hb.when).keeps

theorem Keeps.allOf [IsPreorder σ R] {f : α → Op σ} (h : ∀ x, Keeps R (f x)) (xs : List α) :
    Keeps R (allOf f xs) := by
  induction xs with
  | nil => exact fun s => refl s
  | cons x xs ih => exact (h x).andThen ih

theorem Keeps.each [IsPreorder σ R] {f : α → Op σ} (h : ∀ x, Keeps R (f x)) (xs : List α) :
    Keeps R (each f xs) := by
  induction xs with
  | nil => exact fun s => refl s
  | cons x xs ih => exact (h x).ignore.andThen ih

theorem KeepsOnSuccess.andThen [IsTrans σ R] (ha : KeepsOnSuccess R a) (hb : KeepsOnSuccess R b) :
    KeepsOnSuccess R (a.andThen b) := KeepsWhen.andThen (w := (· = true)) rfl ha hb

end Keeps

def Leads (P : σ → Prop) (a : Op σ) (Q : σ → Prop) : Prop :=
  ∀ s, P s → (a s).1 = true → Q (a s).2

variable {P : σ → Prop}

theorem Leads.andThen {Q R : σ → Prop} {a b : Op σ} (ha : Leads P a Q) (hb : Leads Q b R) :
    Leads P (a.andThen b) R := by
  intro s hs h
  rw [andThen_fst, Bool.and_eq_true] at h
  rw [andThen_of_true h.1]
  exact hb _ (ha s hs h.1) h.2

def Succeeds (P : σ → Prop) (a : Op σ) (Q : σ → Prop) : Prop :=
  ∀ s, P s → (a s).1 = true ∧ Q (a s).2

theorem Succeeds.andThen {Q R : σ → Prop} {a b : Op σ} (ha : Succeeds P a Q) (hb : Succeeds Q b R) :
    Succeeds P (a.andThen b) R := by
  intro s hs
  obtain ⟨htrue, hq⟩ := ha s hs
  rw [andThen_of_true htrue]
  exact hb _ hq

theorem Succeeds.allOf {f : α → Op σ} {xs : List α} (h : ∀ x ∈ xs, Succeeds P (f x) P) :
    Succeeds P (allOf f xs) P := by
  induction xs with
  | nil => exact fun s hs => ⟨rfl, hs⟩
  | cons x xs ih =>
    exact (h x List.mem_cons_self).andThen (ih fun y hy => h y (List.mem_cons_of_mem x hy))

theorem of_allOf {f : α → Op σ} {xs : List α} {s : σ} (h : (allOf f xs s).1 = true) :
    ∀ x ∈ xs, ∃ s', (f x s').1 = true := by
  induction xs generalizing s with
  | nil => simp
  | cons x xs ih =>
    rw [allOf, andThen_fst, Bool.and_eq_true] at h
    intro y hy
    rcases List.mem_cons.mp hy with rfl | hy
    · exact ⟨s, h.1⟩
    · exact ih h.2 y hy

end Op

end FallibleOps
