import Mathlib.Tactic

/-!
# Base64 without padding

The encoder turns three bytes into four characters and leaves out the padding.
-/

namespace Base64

open List

structure Alphabet where
  digit : ℕ → Char
  value? : Char → Option ℕ
  value?_digit : ∀ n < 64, value? (digit n) = some n

def digitWith (c62 c63 : Char) (n : ℕ) : Char :=
  if n < 26 then Char.ofNat (n + 65)
  else if n < 52 then Char.ofNat (n + 71)
  else if n < 62 then Char.ofNat (n - 4)
  else if n = 62 then c62
  else c63

def valueWith (c62 c63 : Char) (c : Char) : Option ℕ :=
  if 'A' ≤ c ∧ c ≤ 'Z' then some (c.toNat - 65)
  else if 'a' ≤ c ∧ c ≤ 'z' then some (c.toNat - 71)
  else if '0' ≤ c ∧ c ≤ '9' then some (c.toNat + 4)
  else if c = c62 then some 62
  else if c = c63 then some 63
  else none

def standard : Alphabet where
  digit := digitWith '+' '/'
  value? := valueWith '+' '/'
  value?_digit := by decide

def url : Alphabet where
  digit := digitWith '-' '_'
  value? := valueWith '-' '_'
  value?_digit := by decide

section Codec

variable (A : Alphabet)

def encode : List UInt8 → List Char
  | [] => []
  | [a] => [A.digit (a.toNat / 4), A.digit (a.toNat % 4 * 16)]
  | [a, b] =>
      [A.digit (a.toNat / 4), A.digit (a.toNat % 4 * 16 + b.toNat / 16),
        A.digit (b.toNat % 16 * 4)]
  | a :: b :: c :: rest =>
      A.digit (a.toNat / 4) :: A.digit (a.toNat % 4 * 16 + b.toNat / 16) ::
        A.digit (b.toNat % 16 * 4 + c.toNat / 64) :: A.digit (c.toNat % 64) :: encode rest

/-- Decoding with `nbits` bits of value `buf` still to be given out. -/
def decodeFrom (buf nbits : ℕ) : List Char → List UInt8
  | [] => []
  | c :: cs =>
      match A.value? c with
      | none => decodeFrom buf nbits cs
      | some d =>
          if nbits + 6 < 8 then decodeFrom (buf * 64 + d) (nbits + 6) cs
          else
            UInt8.ofNat ((buf * 64 + d) / 2 ^ (nbits - 2)) ::
              decodeFrom ((buf * 64 + d) % 2 ^ (nbits - 2)) (nbits - 2) cs

def decode (text : List Char) : List UInt8 := decodeFrom A 0 0 text

variable {A}

theorem decodeFrom_digit_of_lt {buf nbits n : ℕ} (hn : n < 64) (h : nbits < 2) (cs : List Char) :
    decodeFrom A buf nbits (A.digit n :: cs) = decodeFrom A (buf * 64 + n) (nbits + 6) cs := by
  rw [decodeFrom, A.value?_digit n hn]
  exact if_pos (by omega)

theorem decodeFrom_digit_of_le {buf nbits n : ℕ} (hn : n < 64) (h : 2 ≤ nbits) (cs : List Char) :
    decodeFrom A buf nbits (A.digit n :: cs) =
      UInt8.ofNat ((buf * 64 + n) / 2 ^ (nbits - 2)) ::
        decodeFrom A ((buf * 64 + n) % 2 ^ (nbits - 2)) (nbits - 2) cs := by
  rw [decodeFrom, A.value?_digit n hn]
  exact if_neg (by omega)

theorem decodeFrom_first {a : UInt8} {low : ℕ} (hlow : low < 16) (cs : List Char) :
    decodeFrom A 0 0 (A.digit (a.toNat / 4) :: A.digit (a.toNat % 4 * 16 + low) :: cs) =
      a :: decodeFrom A low 4 cs := by
  have ha := a.toNat_lt
  rw [decodeFrom_digit_of_lt (by omega) (by omega), decodeFrom_digit_of_le (by omega) (by omega)]
  have hbyte : ((0 * 64 + a.toNat / 4) * 64 + (a.toNat % 4 * 16 + low)) / 2 ^ (0 + 6 - 2) =
      a.toNat := by
    norm_num
    omega
  have hrest : ((0 * 64 + a.toNat / 4) * 64 + (a.toNat % 4 * 16 + low)) % 2 ^ (0 + 6 - 2) =
      low := by
    norm_num
    omega
  rw [hbyte, hrest, UInt8.ofNat_toNat]

theorem decodeFrom_second {b : UInt8} {low : ℕ} (hlow : low < 4) (cs : List Char) :
    decodeFrom A (b.toNat / 16) 4 (A.digit (b.toNat % 16 * 4 + low) :: cs) =
      b :: decodeFrom A low 2 cs := by
  have hb := b.toNat_lt
  rw [decodeFrom_digit_of_le (by omega) (by omega)]
  have hbyte : (b.toNat / 16 * 64 + (b.toNat % 16 * 4 + low)) / 2 ^ (4 - 2) = b.toNat := by
    norm_num
    omega
  have hrest : (b.toNat / 16 * 64 + (b.toNat % 16 * 4 + low)) % 2 ^ (4 - 2) = low := by
    norm_num
    omega
  rw [hbyte, hrest, UInt8.ofNat_toNat]

theorem decodeFrom_third {c : UInt8} (cs : List Char) :
    decodeFrom A (c.toNat / 64) 2 (A.digit (c.toNat % 64) :: cs) = c :: decodeFrom A 0 0 cs := by
  have hc := c.toNat_lt
  rw [decodeFrom_digit_of_le (by omega) (by omega)]
  have hbyte : (c.toNat / 64 * 64 + c.toNat % 64) / 2 ^ (2 - 2) = c.toNat := by
    norm_num
    omega
  have hrest : (c.toNat / 64 * 64 + c.toNat % 64) % 2 ^ (2 - 2) = 0 := by
    norm_num
    omega
  rw [hbyte, hrest, UInt8.ofNat_toNat]

theorem decode_encode (bytes : List UInt8) : decode A (encode A bytes) = bytes := by
  unfold decode
  induction bytes using encode.induct with
  | case1 => rfl
  | case2 a =>
    rw [encode, ← Nat.add_zero (a.toNat % 4 * 16), decodeFrom_first (by omega)]
    rfl
  | case3 a b =>
    have hb := b.toNat_lt
    rw [encode, ← Nat.add_zero (b.toNat % 16 * 4), decodeFrom_first (by omega),
      decodeFrom_second (by omega)]
    rfl
  | case4 a b c rest ih =>
    have hb := b.toNat_lt
    have hc := c.toNat_lt
    rw [encode, decodeFrom_first (by omega), decodeFrom_second (by omega), decodeFrom_third, ih]

theorem decodeFrom_append_skipped {skipped : List Char} (h : ∀ c ∈ skipped, A.value? c = none)
    (text : List Char) (buf nbits : ℕ) :
    decodeFrom A buf nbits (text ++ skipped) = decodeFrom A buf nbits text := by
  induction text generalizing buf nbits with
  | nil =>
    induction skipped with
    | nil => rfl
    | cons c cs ih =>
      have hrest := ih fun x hx => h x (mem_cons_of_mem c hx)
      simpa [decodeFrom, h c mem_cons_self] using hrest
  | cons c cs ih =>
    rw [cons_append, decodeFrom, decodeFrom]
    cases A.value? c with
    | none => exact ih buf nbits
    | some d => simp only [ih]

theorem exists_digit_of_mem_encode {bytes : List UInt8} {x : Char} (hx : x ∈ encode A bytes) :
    ∃ n < 64, x = A.digit n := by
  induction bytes using encode.induct with
  | case1 => simp [encode] at hx
  | case2 a =>
    have ha := a.toNat_lt
    simp only [encode, mem_cons, not_mem_nil, or_false] at hx
    rcases hx with rfl | rfl
    · exact ⟨_, by omega, rfl⟩
    · exact ⟨_, by omega, rfl⟩
  | case3 a b =>
    have ha := a.toNat_lt
    have hb := b.toNat_lt
    simp only [encode, mem_cons, not_mem_nil, or_false] at hx
    rcases hx with rfl | rfl | rfl
    · exact ⟨_, by omega, rfl⟩
    · exact ⟨_, by omega, rfl⟩
    · exact ⟨_, by omega, rfl⟩
  | case4 a b c rest ih =>
    have ha := a.toNat_lt
    have hb := b.toNat_lt
    have hc := c.toNat_lt
    simp only [encode, mem_cons] at hx
    rcases hx with rfl | rfl | rfl | rfl | hx
    · exact ⟨_, by omega, rfl⟩
    · exact ⟨_, by omega, rfl⟩
    · exact ⟨_, by omega, rfl⟩
    · exact ⟨_, by omega, rfl⟩
    · exact ih hx

end Codec

end Base64
