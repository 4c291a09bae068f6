import Mathlib.Data.LawfulXor.Basic
import Mathlib.Tactic

/-!
# Masks of low bits

Setting the low `k` bits of a number moves it to the end of its block of length `2 ^ k`, and two
numbers lie in one block exactly when their exclusive or vanishes above those bits.
-/

namespace PrefixMasks

theorem ones_shiftRight (w n : ℕ) (h : n ≤ w) : (2 ^ w - 1) >>> n = 2 ^ (w - n) - 1 := by
  obtain ⟨m, rfl⟩ := Nat.exists_eq_add_of_le h
  have hm := Nat.one_le_two_pow (n := m)
  have hn := Nat.one_le_two_pow (n := n)
  rw [Nat.shiftRight_eq_div_pow, Nat.add_sub_cancel_left, pow_add]
  apply Nat.div_eq_of_lt_le
  · calc
      (2 ^ m - 1) * 2 ^ n = 2 ^ n * 2 ^ m - 2 ^ n := by rw [Nat.sub_mul, one_mul, mul_comm]
      _ ≤ 2 ^ n * 2 ^ m - 1 := Nat.sub_le_sub_left hn _
  · rw [Nat.sub_add_cancel hm, mul_comm (2 ^ m)]
    exact Nat.sub_lt (Nat.mul_pos hn hm) Nat.one_pos

theorem or_ones (a k : ℕ) : a ||| (2 ^ k - 1) = a / 2 ^ k * 2 ^ k + (2 ^ k - 1) := by
  have hlt : 2 ^ k - 1 < 2 ^ k := Nat.sub_lt (Nat.two_pow_pos k) Nat.one_pos
  rw [mul_comm, Nat.two_pow_add_eq_or_of_lt hlt]
  apply Nat.eq_of_testBit_eq
  intro i
  simp only [Nat.testBit_or, Nat.testBit_two_pow_sub_one, Nat.testBit_two_pow_mul,
    Nat.testBit_div_two_pow]
  by_cases hi : i < k
  · simp [hi]
  · simp [hi, Nat.le_of_not_lt hi]

theorem xor_shiftRight_eq_zero_iff (a b k : ℕ) :
    (a ^^^ b) >>> k = 0 ↔ a / 2 ^ k = b / 2 ^ k := by
  rw [Nat.shiftRight_xor_distrib, xor_eq_zero_iff, Nat.shiftRight_eq_div_pow,
    Nat.shiftRight_eq_div_pow]

theorem div_eq_of_le {x y k l : ℕ} (hkl : k ≤ l) (h : x / 2 ^ k = y / 2 ^ k) :
    x / 2 ^ l = y / 2 ^ l := by
  rw [← Nat.add_sub_cancel' hkl, pow_add, ← Nat.div_div_eq_div_mul, ← Nat.div_div_eq_div_mul, h]

/-- What lies between a number and the end of its block lies in the block. -/
theorem div_eq_of_between {v x k : ℕ} (hlo : v ≤ x) (hhi : x ≤ v / 2 ^ k * 2 ^ k + (2 ^ k - 1)) :
    x / 2 ^ k = v / 2 ^ k := by
  have hpos := Nat.two_pow_pos k
  apply Nat.div_eq_of_lt_le
  · exact (Nat.div_mul_le_self v _).trans hlo
  · rw [Nat.add_mul, one_mul]
    omega

theorem between_of_div_eq {v x k : ℕ} (hdvd : 2 ^ k ∣ v) (h : x / 2 ^ k = v / 2 ^ k) :
    v ≤ x ∧ x ≤ v / 2 ^ k * 2 ^ k + (2 ^ k - 1) := by
  have hv := Nat.div_mul_cancel hdvd
  have hx := Nat.div_add_mod x (2 ^ k)
  have hmod := Nat.mod_lt x (Nat.two_pow_pos k)
  rw [h, mul_comm, hv] at hx
  rw [hv]
  omega

end PrefixMasks
