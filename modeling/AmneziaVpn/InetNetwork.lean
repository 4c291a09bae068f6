import AmneziaVpn.IpRange

/-!
# Networks and their ranges

An `InetNetwork` is an address with a prefix length that nobody checks: the length is any `Int` and
the address may have bits behind the prefix. It works on the byte the prefix ends in, so a length
beyond the address gives a single address, a small negative length the whole family, and a length of
`-8` or less throws.
-/

namespace AmneziaVpn

open ByteOrder List

variable (a : InetAddress)

def InetAddress.isInet4 : Bool := a.address.length = 4

def InetAddress.maxPrefixLength : ℤ := if a.isInet4 then 32 else 128

structure InetNetwork where
  address : InetAddress
  mask : ℤ
deriving DecidableEq

namespace InetNetwork

def ofText (address : String) (mask : ℤ) : Outcome InetNetwork :=
  (parseInetAddress address).map (⟨·, mask⟩)

def ofAddress (address : InetAddress) : InetNetwork := ⟨address, address.maxPrefixLength⟩

variable (n : InetNetwork)

def isIpv4 : Bool := n.address.isInet4

def isIpv6 : Bool := !n.isIpv4

def parse (data : String) : Outcome InetNetwork := do
  let split := data.toList.splitOn '/'
  let address ← parseInetAddress (.ofList (split.headD []))
  if split.length = 1 then return ofAddress address
  let mask ← toInt (.ofList (split.getLastD []))
  return ⟨address, mask⟩

def ip : IpAddress := .ofInetAddress n.address

def hostBits : ℕ := min (8 * n.ip.size) (n.ip.maxMask - n.mask).toNat

/-- The addresses of the family that agree with the address of the network on its prefix. -/
def contains (a : IpAddress) : Prop :=
  a.size = n.ip.size ∧ a.value / 2 ^ n.hostBits = n.ip.value / 2 ^ n.hostBits

instance (n : InetNetwork) (a : IpAddress) : Decidable (n.contains a) :=
  inferInstanceAs (Decidable (_ ∧ _))

def IsPrefix : Prop := 0 ≤ n.mask ∧ n.mask ≤ n.ip.maxMask

instance (n : InetNetwork) : Decidable n.IsPrefix := inferInstanceAs (Decidable (_ ∧ _))

/-- A prefix length of the family, and no bit set behind the prefix. -/
def IsCidr : Prop := n.IsPrefix ∧ 2 ^ n.hostBits ∣ n.ip.value

instance (n : InetNetwork) : Decidable n.IsCidr := inferInstanceAs (Decidable (_ ∧ _))

end InetNetwork

namespace IpRange

/-- `(0xffu shl bits).toUByte()` -/
def byteMask (bits : ℕ) : UInt8 := ((0xff : UInt32) <<< UInt32.ofNat bits).toUInt8

variable (ip : IpAddress) (i : ℕ)

/-- The address with byte `i` replaced and the bytes behind it filled. -/
def fillFrom (h : i < ip.address.length) (b filler : UInt8) : IpAddress :=
  ⟨ip.address.take i ++ b :: List.replicate (ip.address.length - (i + 1)) filler, by
    have := ip.size_eq
    simp only [length_append, length_take, length_cons, length_replicate]
    omega⟩

def fromMask (inetAddress : InetAddress) (mask : ℤ) : Outcome (IpAddress × IpAddress) :=
  let ip := IpAddress.ofInetAddress inetAddress
  let lastByte := mask.tdiv 8
  if hsize : lastByte < ip.size then
    if hneg : lastByte < 0 then .error .indexOutOfBoundsException
    else
      have h : lastByte.toNat < ip.address.length := by
        have : (ip.size : ℤ) = ip.address.length := rfl
        omega
      let mask := byteMask (8 - mask.tmod 8).toNat
      let b := ip.address.get ⟨lastByte.toNat, h⟩
      .ok (fillFrom ip lastByte.toNat h (b &&& mask) 0,
        fillFrom ip lastByte.toNat h (b ||| ~~~mask) 0xff)
  else .ok (ip, ip)

def network (inetNetwork : InetNetwork) : Outcome IpRange := do
  let (start, last) ← fromMask inetNetwork.address inetNetwork.mask
  create start last

theorem byteMask_spec {bits : ℕ} (hpos : 0 < bits) (hlt : bits < 16) (b : UInt8) :
    (b &&& byteMask bits).toNat = b.toNat / 2 ^ min bits 8 * 2 ^ min bits 8 ∧
      (b ||| ~~~byteMask bits).toNat =
        b.toNat / 2 ^ min bits 8 * 2 ^ min bits 8 + (2 ^ min bits 8 - 1) := by
  have hall : ∀ k : Fin 16, 0 < k.val → ∀ n : Fin 256,
      (UInt8.ofNat n &&& byteMask k).toNat = n / 2 ^ min k.val 8 * 2 ^ min k.val 8 ∧
      (UInt8.ofNat n ||| ~~~byteMask k).toNat =
        n / 2 ^ min k.val 8 * 2 ^ min k.val 8 + (2 ^ min k.val 8 - 1) := by
    decide +kernel
  simpa using hall ⟨bits, hlt⟩ hpos ⟨b.toNat, b.toNat_lt⟩

theorem tdiv_tmod_eight (m : ℤ) :
    m = 8 * m.tdiv 8 + m.tmod 8 ∧ -8 < m.tmod 8 ∧ m.tmod 8 < 8 ∧ (0 ≤ m → 0 ≤ m.tmod 8) ∧
      (m ≤ 0 → m.tmod 8 ≤ 0) := by
  refine ⟨(Int.mul_tdiv_add_tmod m 8).symm, Int.lt_tmod_of_pos m (by omega),
    Int.tmod_lt_of_pos m (by omega), fun h => Int.tmod_nonneg 8 h, fun h => ?_⟩
  have := Int.tmod_nonneg 8 (a := -m) (by omega)
  rw [Int.neg_tmod] at this
  omega

theorem fromMask_of_neg {a : InetAddress} {mask : ℤ} (h : mask ≤ -8) :
    fromMask a mask = .error .indexOutOfBoundsException := by
  have hdiv : mask.tdiv 8 < 0 := by
    have := tdiv_tmod_eight mask
    omega
  rw [fromMask, dif_pos (by omega), dif_pos hdiv]

theorem value_fillFrom (h : i < ip.address.length) (b filler : UInt8) :
    (fillFrom ip i h b filler).value =
      beValue (ip.address.take i ++
        b :: List.replicate (ip.address.drop (i + 1)).length filler) := by
  rw [length_drop]
  rfl

theorem size_fillFrom (h : i < ip.address.length) (b filler : UInt8) :
    (fillFrom ip i h b filler).size = ip.size := by
  simp only [fillFrom, IpAddress.size, length_append, length_take, length_cons,
    length_replicate]
  omega

variable {n : InetNetwork}

/-- The two ends of a network: the bits behind the prefix cleared and set. -/
theorem fromMask_spec (h : -8 < n.mask) :
    ∃ start last, fromMask n.address n.mask = .ok (start, last) ∧
      start.size = n.ip.size ∧ last.size = n.ip.size ∧
      start.value = n.ip.value / 2 ^ n.hostBits * 2 ^ n.hostBits ∧
      last.value = n.ip.value / 2 ^ n.hostBits * 2 ^ n.hostBits + (2 ^ n.hostBits - 1) := by
  have hmax : n.ip.maxMask = n.ip.size * 8 := rfl
  have hmask := tdiv_tmod_eight n.mask
  by_cases hsize : n.mask.tdiv 8 < n.ip.size
  · have hneg : ¬ n.mask.tdiv 8 < 0 := by omega
    have hlen : (n.ip.size : ℤ) = n.ip.address.length := rfl
    have hi : (n.mask.tdiv 8).toNat < n.ip.address.length := by omega
    have hbits : 0 < (8 - n.mask.tmod 8).toNat ∧ (8 - n.mask.tmod 8).toNat < 16 := by omega
    have hhost : n.hostBits = 8 * (n.ip.address.drop ((n.mask.tdiv 8).toNat + 1)).length +
        min (8 - n.mask.tmod 8).toNat 8 := by
      rw [length_drop, InetNetwork.hostBits, hmax]
      omega
    have hvalue : n.ip.value = beValue (n.ip.address.take (n.mask.tdiv 8).toNat ++
        n.ip.address.get ⟨_, hi⟩ :: n.ip.address.drop ((n.mask.tdiv 8).toNat + 1)) := by
      rw [get_eq_getElem, ← drop_eq_getElem_cons hi, take_append_drop]
      rfl
    have hbyte := byteMask_spec hbits.1 hbits.2 (n.ip.address.get ⟨_, hi⟩)
    refine ⟨_, _, (dif_pos hsize).trans (dif_neg hneg), size_fillFrom _ _ _ _ _,
      size_fillFrom _ _ _ _ _, ?_, ?_⟩
    · rw [value_fillFrom, hvalue, hhost]
      exact beValue_clear_suffix (by omega) hbyte.1
    · rw [value_fillFrom, hvalue, hhost]
      exact beValue_set_suffix (by omega) hbyte.2
  · have hhost : n.hostBits = 0 := by
      rw [InetNetwork.hostBits, hmax]
      omega
    refine ⟨n.ip, n.ip, dif_neg hsize, rfl, rfl, ?_, ?_⟩
    · simp [hhost]
    · simp [hhost]

theorem div_eq_iff_floor_le {v w k : ℕ} :
    w / 2 ^ k = v / 2 ^ k ↔ v / 2 ^ k * 2 ^ k ≤ w ∧ w ≤ v / 2 ^ k * 2 ^ k + (2 ^ k - 1) := by
  have hpos := Nat.two_pow_pos k
  rw [Nat.div_eq_iff hpos]
  omega

theorem network_spec (h : -8 < n.mask) :
    ∃ r, network n = .ok r ∧ r.start.size = n.ip.size ∧
      r.start.value = n.ip.value / 2 ^ n.hostBits * 2 ^ n.hostBits ∧
      r.end.value = n.ip.value / 2 ^ n.hostBits * 2 ^ n.hostBits + (2 ^ n.hostBits - 1) := by
  obtain ⟨start, last, hrun, hstart, hlast, hvstart, hvlast⟩ := fromMask_spec h
  have hle : start.rank ≤ last.rank := by
    have := IpAddress.rank_sub_rank (hstart.trans hlast.symm)
    omega
  obtain ⟨r, hr, hlo, hhi⟩ := create_eq_ok (hstart.trans hlast.symm) hle
  obtain rfl := IpAddress.rank_injective hlo
  obtain rfl := IpAddress.rank_injective hhi
  refine ⟨r, ?_, hstart, hvstart, hvlast⟩
  simp only [network, hrun, bind, Except.bind, hr]

theorem network_eq_ok (h : -8 < n.mask) :
    ∃ r, network n = .ok r ∧ ∀ a, r.covers a ↔ n.contains a := by
  obtain ⟨r, hr, hstart, hvstart, hvlast⟩ := network_spec h
  refine ⟨r, hr, fun a => ?_⟩
  rw [covers_iff_value, hstart, hvstart, hvlast, ← div_eq_iff_floor_le]
  rfl

theorem network_of_neg (h : n.mask ≤ -8) : network n = .error .indexOutOfBoundsException := by
  rw [network, fromMask_of_neg h]
  rfl

end IpRange

end AmneziaVpn
