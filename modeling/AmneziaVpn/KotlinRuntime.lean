import Mathlib.Tactic

/-!
# The part of the Kotlin runtime the Android client relies on

Exceptions, the three kinds of sets with their iteration orders, and reading an `Int` from text. The
order of a `hashSetOf` is not specified, so it is a parameter: some rearrangement of the elements.
-/

namespace AmneziaVpn

open List

/-- `outOfFuel` marks a loop cut off by its bound. -/
inductive Throwable
  | runtimeException (message : String)
  | illegalArgumentException (message : String)
  | indexOutOfBoundsException
  | numberFormatException (text : String)
  | uninitializedPropertyAccessException (property : String)
  | jsonException (message : String)
  | badConfigException (message : String)
  | outOfFuel
deriving DecidableEq, Repr

abbrev Outcome (α : Type) := Except Throwable α

theorem bind_eq_ok {α β : Type} {x : Outcome α} {f : α → Outcome β} {r : β} :
    x >>= f = .ok r ↔ ∃ a, x = .ok a ∧ f a = .ok r := by
  cases x with
  | error e => simp [bind, Except.bind]
  | ok a => simp [bind, Except.bind]

theorem exists_ok_of_isOk {α : Type} {x : Outcome α} (h : x.isOk) : ∃ a, x = .ok a := by
  cases x with
  | error e => simp [Except.isOk, Except.toBool] at h
  | ok a => exact ⟨a, rfl⟩

section Sets

variable {α : Type}

/-- `TreeSet.add` on the elements listed in ascending order. -/
def treeSetAdd (compareTo : α → α → ℤ) (x : α) : List α → List α
  | [] => [x]
  | y :: ys =>
      if compareTo x y < 0 then x :: y :: ys
      else if compareTo x y = 0 then y :: ys
      else y :: treeSetAdd compareTo x ys

/-- `LinkedHashSet.add`: an element that is already there keeps its place. -/
def linkedHashSetAdd [DecidableEq α] (s : List α) (x : α) : List α :=
  if x ∈ s then s else s ++ [x]

def linkedHashSetAddAll [DecidableEq α] (s xs : List α) : List α :=
  xs.foldl linkedHashSetAdd s

@[simp] theorem mem_linkedHashSetAdd [DecidableEq α] (s : List α) (x y : α) :
    y ∈ linkedHashSetAdd s x ↔ y ∈ s ∨ y = x := by
  rw [linkedHashSetAdd]
  split_ifs with h
  · constructor
    · exact Or.inl
    · rintro (hy | rfl)
      · exact hy
      · exact h
  · simp

@[simp] theorem mem_linkedHashSetAddAll [DecidableEq α] (s xs : List α) (y : α) :
    y ∈ linkedHashSetAddAll s xs ↔ y ∈ s ∨ y ∈ xs := by
  induction xs generalizing s with
  | nil => simp [linkedHashSetAddAll]
  | cons x xs ih =>
    change y ∈ linkedHashSetAddAll (linkedHashSetAdd s x) xs ↔ _
    rw [ih, mem_linkedHashSetAdd, mem_cons, or_assoc]

theorem linkedHashSetAddAll_eq_append [DecidableEq α] (s xs : List α) :
    ∃ new, linkedHashSetAddAll s xs = s ++ new ∧ ∀ y, y ∈ new ↔ y ∈ xs ∧ y ∉ s := by
  induction xs generalizing s with
  | nil => exact ⟨[], by simp [linkedHashSetAddAll], by simp⟩
  | cons x xs ih =>
    obtain ⟨new, hnew, hmem⟩ := ih (linkedHashSetAdd s x)
    change ∃ new, linkedHashSetAddAll (linkedHashSetAdd s x) xs = s ++ new ∧ _
    by_cases hx : x ∈ s
    · rw [linkedHashSetAdd, if_pos hx] at hnew hmem
      refine ⟨new, by rw [linkedHashSetAdd, if_pos hx, hnew], fun y => ?_⟩
      rw [hmem, mem_cons]
      constructor
      · exact fun h => ⟨.inr h.1, h.2⟩
      · rintro ⟨rfl | hy, hs⟩
        · exact absurd hx hs
        · exact ⟨hy, hs⟩
    · rw [linkedHashSetAdd, if_neg hx] at hnew hmem
      refine ⟨x :: new, by rw [linkedHashSetAdd, if_neg hx, hnew]; simp, fun y => ?_⟩
      rw [mem_cons, hmem, mem_cons, mem_append, mem_singleton]
      constructor
      · rintro (rfl | ⟨hy, hs⟩)
        · exact ⟨.inl rfl, hx⟩
        · exact ⟨.inr hy, fun h => hs (.inl h)⟩
      · rintro ⟨hy, hs⟩
        by_cases hyx : y = x
        · exact .inl hyx
        · exact .inr ⟨hy.resolve_left hyx, fun h => h.elim hs hyx⟩

theorem nodup_linkedHashSetAddAll [DecidableEq α] {s : List α} (hs : s.Nodup) (xs : List α) :
    (linkedHashSetAddAll s xs).Nodup := by
  induction xs generalizing s with
  | nil => exact hs
  | cons x xs ih =>
    apply ih
    rw [linkedHashSetAdd]
    split_ifs with hx
    · exact hs
    · exact nodup_append.mpr ⟨hs, nodup_singleton x, by
        rintro y hy _ hyx rfl
        exact hx (mem_singleton.mp hyx ▸ hy)⟩

theorem linkedHashSetAddAll_of_nodup [DecidableEq α] (s : List α) {xs : List α} (hxs : xs.Nodup) :
    linkedHashSetAddAll s xs = s ++ xs.filter (· ∉ s) := by
  induction xs generalizing s with
  | nil => simp [linkedHashSetAddAll]
  | cons x xs ih =>
    obtain ⟨hx, hxs⟩ := nodup_cons.mp hxs
    change linkedHashSetAddAll (linkedHashSetAdd s x) xs = _
    rw [ih _ hxs, linkedHashSetAdd]
    by_cases hmem : x ∈ s
    · rw [if_pos hmem, filter_cons_of_neg (by simp [hmem])]
    · rw [if_neg hmem, filter_cons_of_pos (by simp [hmem]), append_assoc]
      have hrest : xs.filter (· ∉ s ++ [x]) = xs.filter (· ∉ s) := by
        apply filter_congr
        intro y hy
        have hyx : y ≠ x := fun h => hx (h ▸ hy)
        simp [hyx]
      rw [hrest, singleton_append]

/-- An iteration order of `HashSet`. -/
structure HashOrder (α : Type) where
  iterate : List α → List α
  perm : ∀ s, (iterate s).Perm s

@[simp] theorem HashOrder.mem_iterate (o : HashOrder α) (s : List α) (x : α) :
    x ∈ o.iterate s ↔ x ∈ s := (o.perm s).mem_iff

def HashOrder.insertion : HashOrder α := ⟨id, fun _ => List.Perm.refl _⟩

end Sets

/-- Decimal digits as a number; no digits at all give `none`. -/
def decimal? : List Char → Option ℕ
  | [] => none
  | cs => if cs.all Char.isDigit then some (Nat.ofDigitChars 10 cs 0) else none

/-- `String.toInt()`. -/
def toInt (s : String) : Outcome ℤ :=
  let magnitude := match s.toList with
    | '-' :: cs => (decimal? cs).map fun n => -(n : ℤ)
    | '+' :: cs => (decimal? cs).map fun n => (n : ℤ)
    | cs => (decimal? cs).map fun n => (n : ℤ)
  match magnitude with
  | some n => if -2 ^ 31 ≤ n ∧ n < 2 ^ 31 then .ok n else .error (.numberFormatException s)
  | none => .error (.numberFormatException s)

/-- `Char.isWhitespace()`: control characters that separate, and all kinds of space characters. -/
def isWhitespace (c : Char) : Bool :=
  (9 ≤ c.toNat && c.toNat ≤ 13) || (0x1c ≤ c.toNat && c.toNat ≤ 0x20) || c.toNat == 0xa0 ||
    c.toNat == 0x1680 || (0x2000 ≤ c.toNat && c.toNat ≤ 0x200a) || c.toNat == 0x2028 ||
    c.toNat == 0x2029 || c.toNat == 0x202f || c.toNat == 0x205f || c.toNat == 0x3000

/-- `String.trim()` -/
def trim (s : List Char) : List Char :=
  ((s.dropWhile isWhitespace).reverse.dropWhile isWhitespace).reverse

end AmneziaVpn
