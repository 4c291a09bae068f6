import AmneziaVpn.ByteOrder
import AmneziaVpn.PrefixMasks

/-!
# Addresses of the daemon

`QHostAddress` of the Qt library and the class `IPAddress` the daemon builds on it, with the
functions that the Windows firewall calls. A length below zero, or a length above 128 in
`broadcastAddress`, has no defined behaviour in the source.
-/

namespace AmneziaVpn

structure Q_IPV6ADDR where
  c : List UInt8
  length_eq : c.length = 16
deriving DecidableEq

namespace Q_IPV6ADDR

def zero : Q_IPV6ADDR := ⟨List.replicate 16 0, List.length_replicate⟩

def value (a : Q_IPV6ADDR) : ℕ := ByteOrder.beValue a.c

theorem value_injective : Function.Injective value := by
  intro a b h
  have hc : a.c = b.c := ByteOrder.beValue_inj (a.length_eq.trans b.length_eq.symm) h
  cases a
  cases b
  cases hc
  rfl

end Q_IPV6ADDR

inductive NetworkLayerProtocol
  | IPv4Protocol
  | IPv6Protocol
  | UnknownNetworkLayerProtocol
deriving DecidableEq

/-- An address. `null` is what a text that is no address is read as. -/
inductive QHostAddress
  | null
  | ipv4 (a : UInt32)
  | ipv6 (a : Q_IPV6ADDR)
deriving DecidableEq

open QHostAddress

namespace QHostAddress

def protocol : QHostAddress → NetworkLayerProtocol
  | null => .UnknownNetworkLayerProtocol
  | ipv4 _ => .IPv4Protocol
  | ipv6 _ => .IPv6Protocol

end QHostAddress

/-- A negative length comes only with a null address. -/
structure QtParser where
  parse : String → QHostAddress
  parseSubnet : String → QHostAddress × ℤ
  parseSubnet_nonneg : ∀ text, (parseSubnet text).1 ≠ .null → 0 ≤ (parseSubnet text).2

structure IPAddress where
  m_address : QHostAddress
  m_prefixLength : ℤ
deriving DecidableEq

namespace IPAddress

variable (ip : IPAddress)

/-- The end of the constructor from a text, where the length is cut down to the family's. -/
def clamp : IPAddress :=
  match ip.m_address with
  | .ipv4 _ => if ip.m_prefixLength ≥ 32 then { ip with m_prefixLength := 32 } else ip
  | .ipv6 _ => if ip.m_prefixLength ≥ 128 then { ip with m_prefixLength := 128 } else ip
  | .null => ip

def ofString (qt : QtParser) (ip : String) : IPAddress :=
  if ip.toList.contains '/' then clamp ⟨(qt.parseSubnet ip).1, (qt.parseSubnet ip).2⟩
  else clamp ⟨qt.parse ip, 999999⟩

def type : NetworkLayerProtocol := ip.m_address.protocol

def bits : ℕ := ip.m_prefixLength.toNat

def broadcastBytes (raw : List UInt8) (n : ℕ) : List UInt8 :=
  let offset := (n + 7) / 8
  let filled := raw.take offset ++ List.replicate (16 - offset) 0xff
  if n % 8 ≠ 0 then filled.modify (n / 8) (· ||| (0xff >>> UInt8.ofNat (n % 8))) else filled

theorem length_broadcastBytes {raw : List UInt8} (h : raw.length = 16) (n : ℕ) :
    (broadcastBytes raw n).length = 16 := by
  have hfill : (raw.take ((n + 7) / 8) ++
      List.replicate (16 - (n + 7) / 8) (0xff : UInt8)).length = 16 := by
    rw [List.length_append, List.length_take, List.length_replicate, h]
    omega
  unfold broadcastBytes
  split_ifs
  · rw [List.length_modify, hfill]
  · exact hfill

def broadcastAddress : QHostAddress :=
  match ip.m_address with
  | .ipv6 a => .ipv6 ⟨broadcastBytes a.c ip.bits, length_broadcastBytes a.length_eq ip.bits⟩
  | .ipv4 a =>
    .ipv4 (if ip.m_prefixLength < 32 then a ||| (0xffffffff >>> UInt32.ofNat ip.bits) else a)
  | .null => .null

def sameBytes (a b : List UInt8) (n : ℕ) : Bool :=
  a.take (n / 8) == b.take (n / 8) &&
    (n % 8 == 0 ||
      (a.getD (n / 8) 0 ^^^ b.getD (n / 8) 0) >>> UInt8.ofNat (8 - n % 8) == 0)

def contains (address : QHostAddress) : Bool :=
  if address.protocol ≠ ip.m_address.protocol then false
  else if ip.m_prefixLength = 0 then true
  else
    match ip.m_address, address with
    | .ipv6 a, .ipv6 b => sameBytes a.c b.c ip.bits
    | .ipv4 a, .ipv4 b =>
      (if ip.m_prefixLength < 32 then (a ^^^ b) >>> UInt32.ofNat (32 - ip.bits) else a ^^^ b) == 0
    | _, _ => false

end IPAddress

open ByteOrder PrefixMasks List

def QHostAddress.value : QHostAddress → ℕ
  | null => 0
  | ipv4 a => a.toNat
  | ipv6 a => a.value

namespace IPAddress

section Ipv4

variable {a b : UInt32} {n : ℕ}

theorem toNat_or_ones_ipv4 (h : n < 32) :
    (a ||| (0xffffffff >>> UInt32.ofNat n)).toNat =
      a.toNat / 2 ^ (32 - n) * 2 ^ (32 - n) + (2 ^ (32 - n) - 1) := by
  have hn : (UInt32.ofNat n).toNat % 32 = n := by
    rw [UInt32.toNat_ofNat']
    omega
  rw [UInt32.toNat_or, UInt32.toNat_shiftRight, hn, ← or_ones, ← ones_shiftRight 32 n h.le]
  rfl

theorem xor_shiftRight_ipv4 (hn : 0 < n) (h : n < 32) :
    (a ^^^ b) >>> UInt32.ofNat (32 - n) = 0 ↔
      a.toNat / 2 ^ (32 - n) = b.toNat / 2 ^ (32 - n) := by
  have hk : (UInt32.ofNat (32 - n)).toNat % 32 = 32 - n := by
    rw [UInt32.toNat_ofNat']
    omega
  rw [← UInt32.toNat_inj, UInt32.toNat_shiftRight, UInt32.toNat_xor, hk]
  exact xor_shiftRight_eq_zero_iff _ _ _

end Ipv4

theorem toNat_or_ones_byte (b : UInt8) {r : ℕ} (h : r < 8) :
    (b ||| (0xff >>> UInt8.ofNat r)).toNat =
      b.toNat / 2 ^ (8 - r) * 2 ^ (8 - r) + (2 ^ (8 - r) - 1) := by
  have hr : (UInt8.ofNat r).toNat % 8 = r := by
    rw [UInt8.toNat_ofNat']
    omega
  rw [UInt8.toNat_or, UInt8.toNat_shiftRight, hr, ← or_ones, ← ones_shiftRight 8 r h.le]
  rfl

theorem xor_shiftRight_byte (b c : UInt8) {r : ℕ} (hr : 0 < r) (h : r < 8) :
    (b ^^^ c) >>> UInt8.ofNat (8 - r) = 0 ↔ b.toNat / 2 ^ (8 - r) = c.toNat / 2 ^ (8 - r) := by
  have hk : (UInt8.ofNat (8 - r)).toNat % 8 = 8 - r := by
    rw [UInt8.toNat_ofNat']
    omega
  rw [← UInt8.toNat_inj, UInt8.toNat_shiftRight, UInt8.toNat_xor, hk]
  exact xor_shiftRight_eq_zero_iff _ _ _

theorem modify_length_append (f : UInt8 → UInt8) (pre post : List UInt8) (b : UInt8) :
    (pre ++ b :: post).modify pre.length f = pre ++ f b :: post := by
  induction pre with
  | nil => rfl
  | cons a pre ih => rw [cons_append, length_cons, modify_succ_cons, ih]; rfl

variable {n : ℕ}

/-- The broadcast bytes fill the byte that the prefix ends in and all bytes behind it. -/
theorem broadcastBytes_eq {l : List UInt8} (hl : l.length = 16) (hn : n < 128) :
    broadcastBytes l n = l.take (n / 8) ++
      (l.getD (n / 8) 0 ||| (0xff >>> UInt8.ofNat (n % 8))) :: List.replicate (15 - n / 8) 0xff := by
  have hq : n / 8 < 16 := by omega
  have htake : (l.take (n / 8)).length = n / 8 := by
    rw [length_take]
    omega
  unfold broadcastBytes
  dsimp only
  split_ifs with hr
  · have hoff : (n + 7) / 8 = n / 8 + 1 := by omega
    have hlt : n / 8 < l.length := by omega
    have hlen : 16 - (n / 8 + 1) = 15 - n / 8 := by omega
    have hmod := modify_length_append (· ||| (0xff >>> UInt8.ofNat (n % 8))) (l.take (n / 8))
      (List.replicate (15 - n / 8) 0xff) l[n / 8]
    rw [htake] at hmod
    rw [hoff, take_succ_eq_append_getElem hlt, append_assoc, singleton_append, hlen,
      hmod, getD_eq_getElem hlt]
  · have hoff : (n + 7) / 8 = n / 8 := by omega
    have hr0 : n % 8 = 0 := by omega
    have hones (b : UInt8) : b ||| (0xff >>> UInt8.ofNat 0) = 0xff := by
      have hb := b.toNat_lt
      rw [← UInt8.toNat_inj, toNat_or_ones_byte b (by norm_num), Nat.div_eq_of_lt hb]
      rfl
    have hlen : 16 - n / 8 = 15 - n / 8 + 1 := by omega
    rw [hoff, hr0, hones, hlen, replicate_succ]

theorem value_broadcastBytes {l : List UInt8} (hl : l.length = 16) (hn : n < 128) :
    beValue (broadcastBytes l n) =
      beValue l / 2 ^ (128 - n) * 2 ^ (128 - n) + (2 ^ (128 - n) - 1) := by
  have hpost : (l.drop (n / 8 + 1)).length = 15 - n / 8 := by
    rw [length_drop]
    omega
  have hexp : 8 * (l.drop (n / 8 + 1)).length + (8 - n % 8) = 128 - n := by
    rw [hpost]
    omega
  rw [broadcastBytes_eq hl hn, ← hpost,
    beValue_set_suffix (Nat.sub_le 8 _) (toNat_or_ones_byte _ (Nat.mod_lt n (by norm_num))), hexp,
    ← eq_take_append_getD_cons (by omega)]

theorem sameBytes_iff {l m : List UInt8} (hl : l.length = 16) (hm : m.length = 16) :
    sameBytes l m n = true ↔ beValue l / 2 ^ (128 - n) = beValue m / 2 ^ (128 - n) := by
  have hbits : 128 - n = 8 * l.length - n := by rw [hl]
  have hbyte : (n % 8 = 0 ∨
      (l.getD (n / 8) 0 ^^^ m.getD (n / 8) 0) >>> UInt8.ofNat (8 - n % 8) = 0) ↔
      (l.getD (n / 8) 0).toNat / 2 ^ (8 - n % 8) =
        (m.getD (n / 8) 0).toNat / 2 ^ (8 - n % 8) := by
    rcases Nat.eq_zero_or_pos (n % 8) with hr | hr
    · have hb := (l.getD (n / 8) 0).toNat_lt
      have hc := (m.getD (n / 8) 0).toNat_lt
      rw [hr, Nat.div_eq_of_lt hb, Nat.div_eq_of_lt hc]
      exact iff_of_true (Or.inl rfl) rfl
    · rw [or_iff_right hr.ne', xor_shiftRight_byte _ _ hr (Nat.mod_lt n (by norm_num))]
  rw [hbits, div_eq_iff_take (hl.trans hm.symm) n, ← hbyte]
  simp [sameBytes]

def hostBits (ip : IPAddress) : ℕ :=
  match ip.m_address with
  | .ipv4 _ => 32 - ip.bits
  | .ipv6 _ => 128 - ip.bits
  | .null => 0

def InRange (ip : IPAddress) : Prop :=
  match ip.m_address with
  | .ipv4 _ => 0 ≤ ip.m_prefixLength ∧ ip.m_prefixLength ≤ 32
  | .ipv6 _ => 0 ≤ ip.m_prefixLength ∧ ip.m_prefixLength ≤ 128
  | .null => True

def NoHostBits (ip : IPAddress) : Prop := 2 ^ ip.hostBits ∣ ip.m_address.value

variable {ip : IPAddress} {x : QHostAddress}

theorem clamp_inRange (h : ip.m_address ≠ .null → 0 ≤ ip.m_prefixLength) : ip.clamp.InRange := by
  obtain ⟨a, n⟩ := ip
  cases a with
  | null => trivial
  | ipv4 a =>
    have h0 : 0 ≤ n := h (by simp)
    simp only [clamp]
    split_ifs with hn
    · exact ⟨by norm_num, le_rfl⟩
    · exact ⟨h0, (not_le.mp hn).le⟩
  | ipv6 a =>
    have h0 : 0 ≤ n := h (by simp)
    simp only [clamp]
    split_ifs with hn
    · exact ⟨by norm_num, le_rfl⟩
    · exact ⟨h0, (not_le.mp hn).le⟩

theorem ofString_inRange (qt : QtParser) (text : String) : (ofString qt text).InRange := by
  unfold ofString
  split_ifs
  · exact clamp_inRange (qt.parseSubnet_nonneg text)
  · exact clamp_inRange fun _ => by norm_num

theorem contains_ipv4_iff (a b : UInt32) (hn : n ≤ 32) :
    contains ⟨.ipv4 a, n⟩ (.ipv4 b) = true ↔
      b.toNat / 2 ^ (32 - n) = a.toNat / 2 ^ (32 - n) := by
  have ha := a.toNat_lt
  have hb := b.toNat_lt
  simp only [contains, protocol, bits, Int.toNat_natCast, ne_eq, not_true_eq_false,
    if_false]
  rcases Nat.eq_zero_or_pos n with rfl | hpos
  · simp [Nat.div_eq_of_lt ha, Nat.div_eq_of_lt hb]
  · have hne : (n : ℤ) ≠ 0 := by omega
    rcases hn.lt_or_eq with hlt | rfl
    · have hlt' : (n : ℤ) < 32 := by omega
      rw [if_neg hne, if_pos hlt', beq_iff_eq, xor_shiftRight_ipv4 hpos hlt]
      exact eq_comm
    · rw [if_neg hne, if_neg (by norm_num), beq_iff_eq, UInt32.xor_eq_zero_iff]
      simp [eq_comm, UInt32.toNat_inj]

theorem contains_ipv6_iff (a b : Q_IPV6ADDR) (hn : n ≤ 128) :
    contains ⟨.ipv6 a, n⟩ (.ipv6 b) = true ↔
      b.value / 2 ^ (128 - n) = a.value / 2 ^ (128 - n) := by
  simp only [contains, protocol, bits, Q_IPV6ADDR.value, Int.toNat_natCast, ne_eq,
    not_true_eq_false, if_false]
  rcases Nat.eq_zero_or_pos n with rfl | hpos
  · have ha := beValue_lt a.c
    have hb := beValue_lt b.c
    have hpow : (256 : ℕ) ^ 16 = 2 ^ (128 - 0) := by norm_num
    rw [a.length_eq, hpow] at ha
    rw [b.length_eq, hpow] at hb
    rw [Nat.div_eq_of_lt ha, Nat.div_eq_of_lt hb]
    exact iff_of_true rfl rfl
  · rw [if_neg (by omega), sameBytes_iff a.length_eq b.length_eq]
    exact eq_comm

/-- The addresses of the prefix are those of its family that agree with it above the host bits. -/
theorem contains_iff (h : ip.InRange) (hx : x ≠ .null) :
    ip.contains x = true ↔
      x.protocol = ip.type ∧
        x.value / 2 ^ ip.hostBits = ip.m_address.value / 2 ^ ip.hostBits := by
  obtain ⟨a, n⟩ := ip
  cases a with
  | null => cases x <;> simp_all [contains, type, protocol]
  | ipv4 a =>
    cases x with
    | null => exact absurd rfl hx
    | ipv6 b => simp [contains, type, protocol]
    | ipv4 b =>
      obtain ⟨m, rfl⟩ := Int.eq_ofNat_of_zero_le h.1
      have hm : m ≤ 32 := Int.ofNat_le.mp h.2
      exact (contains_ipv4_iff a b hm).trans (and_iff_right rfl).symm
  | ipv6 a =>
    cases x with
    | null => exact absurd rfl hx
    | ipv4 b => simp [contains, type, protocol]
    | ipv6 b =>
      obtain ⟨m, rfl⟩ := Int.eq_ofNat_of_zero_le h.1
      have hm : m ≤ 128 := Int.ofNat_le.mp h.2
      exact (contains_ipv6_iff a b hm).trans (and_iff_right rfl).symm

theorem value_broadcastAddress (h : ip.InRange) :
    ip.broadcastAddress.value =
      ip.m_address.value / 2 ^ ip.hostBits * 2 ^ ip.hostBits + (2 ^ ip.hostBits - 1) := by
  obtain ⟨a, n⟩ := ip
  cases a with
  | null => simp [broadcastAddress, hostBits, value]
  | ipv4 a =>
    obtain ⟨m, rfl⟩ := Int.eq_ofNat_of_zero_le h.1
    have hm : m ≤ 32 := Int.ofNat_le.mp h.2
    simp only [broadcastAddress, hostBits, bits, value, Int.toNat_natCast]
    rcases hm.lt_or_eq with hlt | rfl
    · rw [if_pos (by omega), toNat_or_ones_ipv4 hlt]
    · rw [if_neg (by norm_num)]
      simp
  | ipv6 a =>
    obtain ⟨m, rfl⟩ := Int.eq_ofNat_of_zero_le h.1
    have hm : m ≤ 128 := Int.ofNat_le.mp h.2
    simp only [broadcastAddress, hostBits, bits, value, Q_IPV6ADDR.value,
      Int.toNat_natCast]
    rcases hm.lt_or_eq with hlt | rfl
    · exact value_broadcastBytes a.length_eq hlt
    · have hall : broadcastBytes a.c 128 = a.c := by
        simp [broadcastBytes, take_of_length_le a.length_eq.le]
      simp [hall]

theorem contains_of_between (h : ip.InRange) (hx : x ≠ .null) (hp : x.protocol = ip.type)
    (hlo : ip.m_address.value ≤ x.value) (hhi : x.value ≤ ip.broadcastAddress.value) :
    ip.contains x = true := by
  rw [value_broadcastAddress h] at hhi
  exact (contains_iff h hx).mpr ⟨hp, div_eq_of_between hlo hhi⟩

theorem between_of_contains (h : ip.InRange) (hbits : ip.NoHostBits) (hx : x ≠ .null)
    (hc : ip.contains x = true) :
    x.protocol = ip.type ∧ ip.m_address.value ≤ x.value ∧
      x.value ≤ ip.broadcastAddress.value := by
  obtain ⟨hp, hdiv⟩ := (contains_iff h hx).mp hc
  rw [value_broadcastAddress h]
  exact ⟨hp, between_of_div_eq hbits hdiv⟩

end IPAddress

end AmneziaVpn
