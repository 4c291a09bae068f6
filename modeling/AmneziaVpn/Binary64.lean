import Mathlib.Tactic

/-!
# Natural numbers as doubles

A double has a significand of 53 bits. Around a number of more bits the doubles lie as far apart as
the last bit of such a significand counts, and the number is rounded to the nearest of them, to the
even one in the middle between two.
-/

namespace Binary64

variable (n : ℕ)

def unit : ℕ := 2 ^ (n.log2 - 52)

def nearest : ℕ :=
  if 2 * (n % unit n) < unit n ∨ 2 * (n % unit n) = unit n ∧ n / unit n % 2 = 0 then
    n / unit n * unit n
  else (n / unit n + 1) * unit n

theorem unit_pos : 0 < unit n := Nat.two_pow_pos _

theorem unit_dvd_nearest : unit n ∣ nearest n := by
  unfold nearest
  split_ifs
  · exact Nat.dvd_mul_left _ _
  · exact Nat.dvd_mul_left _ _

theorem nearest_eq_self_iff : nearest n = n ↔ unit n ∣ n := by
  refine ⟨fun h => ?_, fun h => ?_⟩
  · have hdvd := unit_dvd_nearest n
    rwa [h] at hdvd
  · have hzero : n % unit n = 0 := Nat.mod_eq_zero_of_dvd h
    rw [nearest, if_pos (.inl (by rw [hzero]; exact unit_pos n)), Nat.div_mul_cancel h]

end Binary64
