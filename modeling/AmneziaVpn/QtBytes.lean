import AmneziaVpn.Base64
import AmneziaVpn.IpAddressText
import AmneziaVpn.QtText

/-!
# Byte strings as text

A byte string is printed in hexadecimal digits or in base 64 with padding. Reading hexadecimal
digits skips everything else and pairs the digits from the end.
-/

namespace AmneziaVpn.QByteArray

open List

variable (bytes : QByteArray)

/-- `toHex()` -/
def toHex : String :=
  String.ofList (bytes.flatMap fun b => [(b.toNat / 16).digitChar, (b.toNat % 16).digitChar])

def hexValue? (b : UInt8) : Option ℕ := hexDigit? (Char.ofNat b.toNat)

def pairs : List ℕ → QByteArray
  | high :: low :: rest => UInt8.ofNat (16 * high + low) :: pairs rest
  | _ => []

/-- `QByteArray::fromHex`. The first of an odd number of digits is a byte of its own. -/
def fromHex (text : QByteArray) : QByteArray :=
  let digits := text.filterMap hexValue?
  if digits.length % 2 = 0 then pairs digits else pairs (0 :: digits)

/-- `toBase64()` -/
def toBase64 : String :=
  String.ofList (Base64.encode Base64.standard bytes ++
    List.replicate ((3 - bytes.length % 3) % 3) '=')

theorem toBase64_ne_empty {bytes : QByteArray} (h : bytes ≠ []) : toBase64 bytes ≠ "" := by
  have hencode : Base64.encode Base64.standard bytes ≠ [] := by
    match bytes, h with
    | [_], _ => exact cons_ne_nil _ _
    | [_, _], _ => exact cons_ne_nil _ _
    | _ :: _ :: _ :: _, _ => exact cons_ne_nil _ _
  intro hempty
  have hnil := congrArg String.toList hempty
  rw [toBase64, String.toList_ofList] at hnil
  exact hencode (append_eq_nil_iff.mp hnil).1

theorem not_mem_toHex {c : Char} (hc : ∀ n < 16, n.digitChar ≠ c) (bytes : QByteArray) :
    c ∉ (toHex bytes).toList := by
  intro h
  rw [toHex, String.toList_ofList, mem_flatMap] at h
  obtain ⟨b, -, hb⟩ := h
  have hlt := b.toNat_lt
  rcases mem_pair.mp hb with rfl | rfl
  · exact hc (b.toNat / 16) (by omega) rfl
  · exact hc (b.toNat % 16) (by omega) rfl

theorem utf8Size_digitChar {n : ℕ} (h : n < 16) : n.digitChar.utf8Size = 1 := by
  interval_cases n <;> rfl

theorem hexValue?_digitChar {n : ℕ} (h : n < 16) :
    hexValue? n.digitChar.val.toUInt8 = some n := by
  interval_cases n <;> rfl

def digits : List ℕ := bytes.flatMap fun b => [b.toNat / 16, b.toNat % 16]

theorem filterMap_toHex : (QString.toUtf8 (toHex bytes)).filterMap hexValue? = digits bytes := by
  unfold toHex digits
  induction bytes with
  | nil => rfl
  | cons b bytes ih =>
    have hb := b.toNat_lt
    rw [flatMap_cons, flatMap_cons, cons_append, cons_append, nil_append,
      QString.toUtf8_cons (utf8Size_digitChar (by omega)),
      QString.toUtf8_cons (utf8Size_digitChar (by omega)),
      filterMap_cons_some (hexValue?_digitChar (by omega)),
      filterMap_cons_some (hexValue?_digitChar (by omega)), ih]
    rfl

theorem pairs_digits : pairs (digits bytes) = bytes := by
  unfold digits
  induction bytes with
  | nil => rfl
  | cons b bytes ih =>
    have hbyte : UInt8.ofNat (16 * (b.toNat / 16) + b.toNat % 16) = b := by
      rw [Nat.div_add_mod, UInt8.ofNat_toNat]
    rw [flatMap_cons, cons_append, cons_append, nil_append, pairs, hbyte, ih]

theorem length_digits : (digits bytes).length = 2 * bytes.length := by
  unfold digits
  induction bytes with
  | nil => rfl
  | cons b bytes ih =>
    rw [flatMap_cons, length_append, ih, length_cons, length_cons]
    simp
    omega

theorem fromHex_of_digits {text bytes : QByteArray}
    (h : text.filterMap hexValue? = digits bytes) : fromHex text = bytes := by
  have heven : (digits bytes).length % 2 = 0 := by
    rw [length_digits]
    omega
  unfold fromHex
  dsimp only
  rw [h, if_pos heven, pairs_digits]

theorem fromHex_toHex : fromHex (QString.toUtf8 (toHex bytes)) = bytes :=
  fromHex_of_digits (filterMap_toHex bytes)

end AmneziaVpn.QByteArray
