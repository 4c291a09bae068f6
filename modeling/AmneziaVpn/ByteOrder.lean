import Mathlib.Tactic

/-!
# Byte strings as numbers

`leValue` reads a byte string with its least significant byte first, `beValue` reads it in network
order.
-/

namespace ByteOrder

open List

def leValue : List UInt8 → ℕ
  | [] => 0
  | b :: bs => b.toNat + 256 * leValue bs

variable (l : List UInt8)

def beValue : ℕ := leValue l.reverse

@[simp] theorem leValue_nil : leValue [] = 0 := rfl

variable (b : UInt8) (bs : List UInt8)

@[simp] theorem leValue_cons :
    leValue (b :: bs) = b.toNat + 256 * leValue bs := rfl

theorem leValue_append (m : List UInt8) :
    leValue (l ++ m) = leValue l + 256 ^ l.length * leValue m := by
  induction l with
  | nil => simp
  | cons b bs ih =>
    simp only [cons_append, leValue_cons, ih, length_cons, pow_succ]
    ring

theorem leValue_lt : leValue l < 256 ^ l.length := by
  induction l with
  | nil => simp
  | cons b bs ih =>
    have hb := b.toNat_lt
    simp only [leValue_cons, length_cons, pow_succ]
    omega

theorem leValue_inj {l m : List UInt8} (hlen : l.length = m.length)
    (h : leValue l = leValue m) : l = m := by
  induction l generalizing m with
  | nil => exact (length_eq_zero_iff.mp hlen.symm).symm
  | cons b bs ih =>
    cases m with
    | nil => simp at hlen
    | cons c cs =>
      have hb := b.toNat_lt
      have hc := c.toNat_lt
      simp only [leValue_cons] at h
      have hbc : b = c := UInt8.toNat_inj.mp (by omega)
      rw [hbc, ih (by simpa using hlen) (by omega)]

@[simp] theorem beValue_nil : beValue [] = 0 := rfl

theorem beValue_append (m : List UInt8) :
    beValue (l ++ m) = beValue l * 256 ^ m.length + beValue m := by
  simp only [beValue, reverse_append, leValue_append, length_reverse]
  ring

@[simp] theorem beValue_singleton : beValue [b] = b.toNat := by
  simp [beValue]

theorem beValue_cons : beValue (b :: bs) = b.toNat * 256 ^ bs.length + beValue bs := by
  simpa using beValue_append [b] bs

theorem beValue_lt : beValue l < 256 ^ l.length := by
  simpa [beValue] using leValue_lt l.reverse

theorem beValue_inj {l m : List UInt8} (hlen : l.length = m.length)
    (h : beValue l = beValue m) : l = m :=
  reverse_injective (leValue_inj (by simpa using hlen) h)

@[simp] theorem beValue_replicate_zero (n : ℕ) : beValue (List.replicate n 0) = 0 := by
  induction n with
  | zero => rfl
  | succ n ih => simp [replicate_succ, beValue_cons, ih]

theorem beValue_replicate_ones (n : ℕ) :
    beValue (List.replicate n 255) + 1 = 256 ^ n := by
  induction n with
  | zero => rfl
  | succ n ih =>
    rw [replicate_succ, beValue_cons, length_replicate, pow_succ, Nat.add_assoc, ih]
    change 255 * 256 ^ n + 256 ^ n = _
    ring

/-- Two strings that first differ in their leading byte compare as that byte does. -/
theorem beValue_cons_lt_of_lt {b c : UInt8} {bs cs : List UInt8}
    (hlen : bs.length = cs.length) (h : b.toNat < c.toNat) :
    beValue (b :: bs) < beValue (c :: cs) := by
  have hbs := beValue_lt bs
  rw [beValue_cons, beValue_cons, ← hlen]
  calc
    _ < b.toNat * 256 ^ bs.length + 256 ^ bs.length := by omega
    _ = (b.toNat + 1) * 256 ^ bs.length := by ring
    _ ≤ c.toNat * 256 ^ bs.length := Nat.mul_le_mul_right _ h
    _ ≤ _ := Nat.le_add_right _ _

theorem all_eq_replicate {l : List UInt8} {b : UInt8} (h : l.all (· == b)) :
    l = List.replicate l.length b := by
  rw [eq_replicate_iff]
  refine ⟨rfl, fun c hc => ?_⟩
  simpa using all_eq_true.mp h c hc

theorem all_ones_iff : l.all (· == 255) = true ↔ beValue l + 1 = 256 ^ l.length := by
  constructor
  · intro h
    rw [all_eq_replicate h, length_replicate, beValue_replicate_ones]
  · intro h
    have hl : l = List.replicate l.length 255 := by
      apply beValue_inj (by simp)
      have := beValue_replicate_ones l.length
      omega
    rw [hl]
    simp

theorem all_zero_iff : l.all (· == 0) = true ↔ beValue l = 0 := by
  constructor
  · intro h
    rw [all_eq_replicate h, beValue_replicate_zero]
  · intro h
    have hl : l = List.replicate l.length 0 := beValue_inj (by simp) (by simp [h])
    rw [hl]
    simp

theorem exists_leValue {n v : ℕ} (h : v < 256 ^ n) :
    ∃ l : List UInt8, l.length = n ∧ leValue l = v := by
  induction n generalizing v with
  | zero =>
    rw [pow_zero] at h
    exact ⟨[], rfl, by simp; omega⟩
  | succ n ih =>
    rw [pow_succ] at h
    obtain ⟨l, hlen, hl⟩ := ih (v := v / 256) (by omega)
    refine ⟨.ofNat (v % 256) :: l, by simp [hlen], ?_⟩
    rw [leValue_cons, hl, UInt8.toNat_ofNat']
    omega

theorem exists_beValue {n v : ℕ} (h : v < 256 ^ n) :
    ∃ l : List UInt8, l.length = n ∧ beValue l = v := by
  obtain ⟨l, hlen, hl⟩ := exists_leValue h
  exact ⟨l.reverse, by simpa using hlen, by simpa [beValue] using hl⟩

section Prefix

variable {pre post : List UInt8} {b c : UInt8} {e : ℕ}

theorem beValue_middle (pre post : List UInt8) (b : UInt8) :
    beValue (pre ++ b :: post) =
      (beValue pre * 256 + b.toNat) * 2 ^ (8 * post.length) + beValue post := by
  rw [beValue_append, beValue_cons, length_cons, pow_succ, pow_mul]
  norm_num
  ring

theorem div_middle :
    beValue (pre ++ b :: post) / 2 ^ (8 * post.length + e) =
      (beValue pre * 256 + b.toNat) / 2 ^ e := by
  have hlt : beValue post < 2 ^ (8 * post.length) := by
    have := beValue_lt post
    rw [pow_mul]
    norm_num
    exact this
  rw [pow_add, ← Nat.div_div_eq_div_mul, beValue_middle, Nat.mul_comm,
    Nat.mul_add_div (Nat.two_pow_pos _), Nat.div_eq_of_lt hlt, Nat.add_zero]

theorem floor_middle (he : e ≤ 8) :
    beValue (pre ++ b :: post) / 2 ^ (8 * post.length + e) * 2 ^ (8 * post.length + e) =
      (beValue pre * 256 + b.toNat / 2 ^ e * 2 ^ e) * 2 ^ (8 * post.length) := by
  have hbyte : (beValue pre * 256 + b.toNat) / 2 ^ e * 2 ^ e =
      beValue pre * 256 + b.toNat / 2 ^ e * 2 ^ e := by
    interval_cases e <;> omega
  rw [div_middle, ← hbyte, pow_add]
  ring

theorem div_middle_eq_iff {pre' post' : List UInt8} (hpre : pre.length = pre'.length)
    (hpost : post.length = post'.length) (he : e ≤ 8) :
    beValue (pre ++ b :: post) / 2 ^ (8 * post.length + e) =
        beValue (pre' ++ c :: post') / 2 ^ (8 * post.length + e) ↔
      pre = pre' ∧ b.toNat / 2 ^ e = c.toNat / 2 ^ e := by
  have hb := b.toNat_lt
  have hc := c.toNat_lt
  have hsplit : (beValue pre * 256 + b.toNat) / 2 ^ e = (beValue pre' * 256 + c.toNat) / 2 ^ e ↔
      beValue pre = beValue pre' ∧ b.toNat / 2 ^ e = c.toNat / 2 ^ e := by
    interval_cases e <;> omega
  rw [div_middle]
  nth_rewrite 1 [hpost]
  rw [div_middle, hsplit]
  exact and_congr_left fun _ => ⟨beValue_inj hpre, congrArg beValue⟩

theorem getD_eq_getElem {l : List UInt8} {q : ℕ} (h : q < l.length) : l.getD q 0 = l[q] := by
  rw [getD_eq_getElem?_getD, getElem?_eq_getElem h, Option.getD_some]

theorem eq_take_append_getD_cons {l : List UInt8} {q : ℕ} (hq : q < l.length) :
    l = l.take q ++ l.getD q 0 :: l.drop (q + 1) := by
  rw [getD_eq_getElem hq, ← drop_eq_getElem_cons hq, take_append_drop]

theorem div_eq_iff_take {l m : List UInt8} (hlen : l.length = m.length) (n : ℕ) :
    beValue l / 2 ^ (8 * l.length - n) = beValue m / 2 ^ (8 * l.length - n) ↔
      l.take (n / 8) = m.take (n / 8) ∧
        (l.getD (n / 8) 0).toNat / 2 ^ (8 - n % 8) = (m.getD (n / 8) 0).toNat / 2 ^ (8 - n % 8) := by
  by_cases hn : n < 8 * l.length
  · have hpre : (l.take (n / 8)).length = (m.take (n / 8)).length := by
      rw [length_take, length_take, hlen]
    have hpost : (l.drop (n / 8 + 1)).length = (m.drop (n / 8 + 1)).length := by
      rw [length_drop, length_drop, hlen]
    have hexp : 8 * (l.drop (n / 8 + 1)).length + (8 - n % 8) = 8 * l.length - n := by
      rw [length_drop]
      omega
    have hiff := div_middle_eq_iff (b := l.getD (n / 8) 0) (c := m.getD (n / 8) 0) hpre hpost
      (Nat.sub_le 8 (n % 8))
    rwa [hexp, ← eq_take_append_getD_cons (by omega), ← eq_take_append_getD_cons (by omega)] at hiff
  · have hzero : 8 * l.length - n = 0 := by omega
    have hl : l.getD (n / 8) 0 = 0 := by
      rw [getD_eq_getElem?_getD, getElem?_eq_none (by omega), Option.getD_none]
    have hm : m.getD (n / 8) 0 = 0 := by
      rw [getD_eq_getElem?_getD, getElem?_eq_none (by omega), Option.getD_none]
    rw [hzero, pow_zero, Nat.div_one, Nat.div_one, hl, hm, and_iff_left rfl,
      take_of_length_le (by omega), take_of_length_le (by omega)]
    exact ⟨beValue_inj hlen, congrArg beValue⟩

theorem beValue_clear_suffix (he : e ≤ 8) (hc : c.toNat = b.toNat / 2 ^ e * 2 ^ e) :
    beValue (pre ++ c :: List.replicate post.length 0) =
      beValue (pre ++ b :: post) / 2 ^ (8 * post.length + e) * 2 ^ (8 * post.length + e) := by
  rw [floor_middle he, beValue_middle, hc, beValue_replicate_zero, length_replicate,
    Nat.add_zero]

/-- Setting the bits behind a prefix gives the last value with that prefix. -/
theorem beValue_set_suffix (he : e ≤ 8) (hc : c.toNat = b.toNat / 2 ^ e * 2 ^ e + (2 ^ e - 1)) :
    beValue (pre ++ c :: List.replicate post.length 255) =
      beValue (pre ++ b :: post) / 2 ^ (8 * post.length + e) * 2 ^ (8 * post.length + e) +
        (2 ^ (8 * post.length + e) - 1) := by
  have hones := beValue_replicate_ones post.length
  have hpow : 256 ^ post.length = 2 ^ (8 * post.length) := by
    rw [pow_mul]
    norm_num
  rw [floor_middle he, beValue_middle, hc, length_replicate, pow_add, ← hpow]
  have he' := Nat.two_pow_pos e
  obtain ⟨d, hd⟩ : ∃ d, 2 ^ e = d + 1 := ⟨2 ^ e - 1, by omega⟩
  have hlast : beValue (List.replicate post.length 255) = 256 ^ post.length - 1 := by omega
  have hpos : 0 < 256 ^ post.length := by positivity
  rw [hd, hlast, Nat.add_sub_cancel]
  have hprod : 256 ^ post.length * (d + 1) = 256 ^ post.length * d + 256 ^ post.length := by ring
  rw [hprod, Nat.add_sub_assoc hpos]
  ring

end Prefix

end ByteOrder

namespace ByteStream

open ByteOrder List

def writeNat : ℕ → ℕ → List UInt8
  | 0, _ => []
  | n + 1, v => writeNat n (v / 256) ++ [UInt8.ofNat v]

def readNat (n : ℕ) (s : List UInt8) : ℕ × List UInt8 :=
  if n ≤ s.length then (beValue (s.take n), s.drop n) else (0, [])

def writeBytes (b : List UInt8) : List UInt8 := writeNat 4 b.length ++ b

/-- The length of all ones stands for the null string. -/
def readBytes (s : List UInt8) : List UInt8 × List UInt8 :=
  let (length, rest) := readNat 4 s
  if length = 2 ^ 32 - 1 then ([], rest)
  else if length ≤ rest.length then (rest.take length, rest.drop length)
  else ([], [])

@[simp] theorem length_writeNat (n v : ℕ) : (writeNat n v).length = n := by
  induction n generalizing v with
  | zero => rfl
  | succ n ih => simp [writeNat, ih]

theorem beValue_writeNat {n v : ℕ} (h : v < 256 ^ n) : beValue (writeNat n v) = v := by
  induction n generalizing v with
  | zero =>
    obtain rfl : v = 0 := by simpa using h
    rfl
  | succ n ih =>
    have hdiv : v / 256 < 256 ^ n := by
      rw [pow_succ] at h
      exact Nat.div_lt_of_lt_mul (by rwa [mul_comm])
    rw [writeNat, beValue_append, ih hdiv, length_singleton, beValue_singleton,
      UInt8.toNat_ofNat']
    omega

theorem readNat_writeNat {n v : ℕ} (h : v < 256 ^ n) (rest : List UInt8) :
    readNat n (writeNat n v ++ rest) = (v, rest) := by
  unfold readNat
  rw [if_pos (by simp), take_left' (length_writeNat n v), drop_left' (length_writeNat n v),
    beValue_writeNat h]

theorem readBytes_writeBytes {b : List UInt8} (h : b.length < 2 ^ 32 - 1) (rest : List UInt8) :
    readBytes (writeBytes b ++ rest) = (b, rest) := by
  unfold readBytes writeBytes
  rw [append_assoc, readNat_writeNat (by omega)]
  dsimp only
  rw [if_neg (by omega), if_pos (by simp), take_left, drop_left]

end ByteStream
