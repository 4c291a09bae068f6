import Mathlib.Tactic

/-!
# Tables of filter chains

A table gives each chain that exists its list of rules. The first part is the commands that edit a
table: each fails, and leaves the table alone, when a chain it names does not exist.
-/

namespace FilterChains

open List Function

/-- The chains of a table; `none` stands for a chain that does not exist. -/
abbrev Table (χ ρ : Type) := χ → Option (List ρ)

/-- What the commands need to know of chains and rules. -/
structure Dialect (χ ρ : Type) where
  names : List χ
  builtin : χ → Bool
  target : ρ → Option χ
  accepts : ρ → Bool

inductive Command (χ ρ : Type)
  | newChain (c : χ)
  | flush (c : χ)
  | deleteChain (c : χ)
  | append (c : χ) (r : ρ)
  | insert (c : χ) (r : ρ)
  | delete (c : χ) (r : ρ)
  | check (c : χ) (r : ρ)
  | list (c : χ)
  /-- Whether the listing of `c` has a jump to `d` in its first line. -/
  | firstJumps (c d : χ)
  /-- Delete by number the first rule of the listing of `c`, after the first line, that jumps to
  `d`. Without such a line no number is given, and what is deleted is a rule equal to `r`. -/
  | deleteListed (c d : χ) (r : ρ)

variable {χ ρ : Type}

section Commands

variable [DecidableEq χ] [DecidableEq ρ] (D : Dialect χ ρ)

variable (t : Table χ ρ)

def referenced (c : χ) : Bool :=
  D.names.any fun d => ((t d).getD []).any fun r => D.target r = some c

/-- A rule can be added when its text is understood and the chain it jumps to exists. -/
def addable (r : ρ) : Bool :=
  D.accepts r && (D.target r).all fun d => (t d).isSome

def deleteFirst (c : χ) (rules : List ρ) (r : ρ) : Option (Table χ ρ) :=
  if r ∈ rules then some (update t c (some (rules.erase r))) else none

def Command.exec : Command χ ρ → Table χ ρ → Option (Table χ ρ)
  | newChain c, t => if (t c).isSome then none else some (update t c (some []))
  | flush c, t => (t c).map fun _ => update t c (some [])
  | deleteChain c, t => (t c).bind fun rules =>
      if rules = [] ∧ D.builtin c = false ∧ referenced D t c = false then
        some (update t c none)
      else none
  | append c r, t => (t c).bind fun rules =>
      if addable D t r then some (update t c (some (rules ++ [r]))) else none
  | insert c r, t => (t c).bind fun rules =>
      if addable D t r then some (update t c (some (r :: rules))) else none
  | delete c r, t => (t c).bind fun rules => deleteFirst t c rules r
  | check c r, t => (t c).bind fun rules => if r ∈ rules then some t else none
  | list c, t => (t c).map fun _ => t
  | firstJumps c d, t => (t c).bind fun rules =>
      if (rules.head?.bind D.target) = some d then some t else none
  | deleteListed c d r, t => (t c).bind fun rules =>
      if rules.tail.any fun s => D.target s = some d then
        some (update t c
          (some (rules.take 1 ++ rules.tail.eraseP fun s => D.target s = some d)))
      else deleteFirst t c rules r

namespace Command

variable {D} {t : Table χ ρ} {c d : χ} {r : ρ} {rules : List ρ}

theorem exec_newChain (h : t c = none) :
    (newChain c).exec D t = some (update t c (some [])) := by
  simp [exec, h]

theorem exec_flush (h : t c = some rules) :
    (flush c).exec D t = some (update t c (some [])) := by
  simp [exec, h]

theorem exec_flush_of_none (h : t c = none) : (flush c).exec D t = none := by
  simp [exec, h]

theorem exec_append (h : t c = some rules) (hr : addable D t r = true) :
    (append c r).exec D t = some (update t c (some (rules ++ [r]))) := by
  simp [exec, h, hr]

theorem exec_append_of_not_addable (hr : addable D t r = false) :
    (append c r).exec D t = none := by
  cases h : t c <;> simp [exec, h, hr]

theorem exec_append_of_none (h : t c = none) : (append c r).exec D t = none := by
  simp [exec, h]

theorem exec_insert (h : t c = some rules) (hr : addable D t r = true) :
    (insert c r).exec D t = some (update t c (some (r :: rules))) := by
  simp [exec, h, hr]

theorem exec_check (h : t c = some rules) (hr : r ∈ rules) : (check c r).exec D t = some t := by
  simp [exec, h, hr]

theorem exec_check_of_notMem (h : t c = some rules) (hr : r ∉ rules) :
    (check c r).exec D t = none := by
  simp [exec, h, hr]

theorem exec_check_of_none (h : t c = none) : (check c r).exec D t = none := by
  simp [exec, h]

theorem exec_firstJumps (h : t c = some (r :: rules)) (hr : D.target r = some d) :
    (firstJumps c d).exec D t = some t := by
  simp [exec, h, hr]

theorem exec_firstJumps_of_ne (h : t c = some rules) (hr : ∀ r ∈ rules.head?, D.target r ≠ some d) :
    (firstJumps c d).exec D t = none := by
  cases rules with
  | nil => simp [exec, h]
  | cons s rules =>
    have hs : D.target s ≠ some d := hr s rfl
    simp [exec, h, hs]

theorem exec_deleteListed {s : ρ} (h : t c = some (s :: rules))
    (hd : ∃ r ∈ rules, D.target r = some d) :
    (deleteListed c d r).exec D t = some (update t c
      (some (s :: rules.eraseP fun r => D.target r = some d))) := by
  simp [exec, h, hd]

theorem exec_deleteListed_of_none {s : ρ} (h : t c = some (s :: rules))
    (hd : ∀ r ∈ rules, D.target r ≠ some d) :
    (deleteListed c d r).exec D t = deleteFirst t c (s :: rules) r := by
  have hnone : ¬ ∃ r ∈ rules, D.target r = some d := fun ⟨r, hr, heq⟩ => hd r hr heq
  simp [exec, h, hnone]

theorem exec_list_of_none (h : t c = none) : (list c).exec D t = none := by
  simp [exec, h]

end Command

end Commands

section Walk

variable {ν : Type}

inductive Action (χ ν : Type)
  | decide (v : ν)
  | jump (c : χ)
  | next

/-- The decision of the first rule that makes one, following jumps to at most the given depth. -/
def walk (act : ρ → Action χ ν) (t : Table χ ρ) : ℕ → List ρ → Option ν
  | 0, _ => none
  | depth + 1, rules => rules.findSome? fun r =>
      match act r with
      | .decide v => some v
      | .jump c => walk act t depth ((t c).getD [])
      | .next => none

variable {act : ρ → Action χ ν} {t : Table χ ρ} {depth : ℕ} {c : χ} {r : ρ} {rules : List ρ}

@[simp] theorem walk_nil : walk act t depth [] = none := by
  cases depth <;> rfl

theorem walk_append (xs ys : List ρ) :
    walk act t (depth + 1) (xs ++ ys) =
      (walk act t (depth + 1) xs).or (walk act t (depth + 1) ys) := by
  simp only [walk, findSome?_append]

theorem walk_cons_jump (h : act r = .jump c) :
    walk act t (depth + 1) (r :: rules) =
      (walk act t depth ((t c).getD [])).or (walk act t (depth + 1) rules) := by
  simp only [walk, findSome?_cons, h]
  cases walk act t depth ((t c).getD []) <;> rfl

theorem findSome?_congr {α : Type} {f g : α → Option ν} {l : List α} (h : ∀ a ∈ l, f a = g a) :
    l.findSome? f = l.findSome? g := by
  induction l with
  | nil => rfl
  | cons a l ih =>
    rw [findSome?_cons, findSome?_cons, h a mem_cons_self,
      ih fun b hb => h b (mem_cons_of_mem a hb)]

end Walk

end FilterChains
