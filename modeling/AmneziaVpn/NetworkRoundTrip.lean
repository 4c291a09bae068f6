import AmneziaVpn.IpRangeCover

/-!
# A network cut back out of its range

The range of a network is one aligned block, so `subnets` gives one network.
-/

namespace AmneziaVpn.IpRange

open ByteOrder DyadicCover

variable (n : InetNetwork)

def cutAgain : Outcome (List InetNetwork) := do
  let range ← network n
  range.subnets

/-- The network of the address and the mask, with the bits behind the prefix cleared. -/
structure Cleared (ip : IpAddress) (mask : ℤ) (m : InetNetwork) : Prop where
  mask_eq : m.mask = mask
  size_eq : m.ip.size = ip.size
  value_eq : m.ip.value = ip.value / 2 ^ (ip.maxMask - mask).toNat * 2 ^ (ip.maxMask - mask).toNat

def networkBlock : Block :=
  ⟨n.ip.value / 2 ^ n.hostBits * 2 ^ n.hostBits, n.hostBits⟩

theorem networkBlock_aligned : (networkBlock n).Aligned := Nat.dvd_mul_left _ _

/-- The range of a network gives one network, read back from the first address of the block. -/
theorem cutAgain_spec {n : InetNetwork} (h : -8 < n.mask) :
    ∃ m, cutAgain n = .ok [m] ∧ BlockNetwork n.ip.size (networkBlock n) m := by
  obtain ⟨r, hr, hstart, hvstart, hvlast⟩ := network_spec h
  have hpos := Nat.two_pow_pos n.hostBits
  obtain ⟨bs, ns, hsub, hgreedy, hns⟩ := subnets_spec r
  have hend : r.end.value = (networkBlock n).start + 2 ^ (networkBlock n).exp - 1 := by
    simp only [networkBlock]
    omega
  have hexp : (networkBlock n).exp ≤ 8 * r.start.size := by
    rw [hstart]
    exact Nat.min_le_left _ _
  rw [hend, show r.start.value = (networkBlock n).start from hvstart] at hgreedy
  obtain rfl := Greedy.of_block hexp (networkBlock_aligned n) hgreedy
  obtain ⟨m, hm, rfl⟩ : ∃ m, BlockNetwork r.start.size (networkBlock n) m ∧ ns = [m] := by
    cases hns with
    | cons hm hnil =>
      cases hnil
      exact ⟨_, hm, rfl⟩
  refine ⟨m, ?_, hstart ▸ hm⟩
  simp [cutAgain, hr, bind, Except.bind, hsub]

variable (ip : IpAddress) (mask : ℤ)

def ofIp : InetNetwork := ⟨⟨ip.address, ip.size_eq⟩, mask⟩

@[simp] theorem ip_ofIp : (ofIp ip mask).ip = ip := rfl

@[simp] theorem mask_ofIp : (ofIp ip mask).mask = mask := rfl

theorem hostBits_ofIp {mask : ℤ} (hlo : 0 ≤ mask) :
    (ofIp ip mask).hostBits = (ip.maxMask - mask).toNat := by
  have hmax : ip.maxMask = ip.size * 8 := rfl
  rw [InetNetwork.hostBits, ip_ofIp, mask_ofIp, hmax]
  omega

theorem networkBlock_mapped_iff {ip : IpAddress} {mask : ℤ} (hsize : ip.size = 16) (hlo : 0 ≤ mask) :
    (mappedFirst ≤ (networkBlock (ofIp ip mask)).start ∧
      (networkBlock (ofIp ip mask)).start < mappedFirst + 2 ^ 32) ↔ Mapped ip ∧ 96 ≤ mask := by
  have hmax : ip.maxMask = 128 := by simp [IpAddress.maxMask, hsize]
  have hbits := hostBits_ofIp ip hlo
  have hstart : (networkBlock (ofIp ip mask)).start ≤ ip.value := Nat.div_mul_le_self _ _
  constructor
  · intro hmapped
    obtain ⟨hexp, hfit⟩ := mapped_block (networkBlock_aligned _) hmapped
    have hvalue : ip.value < (networkBlock (ofIp ip mask)).start + 2 ^ (ofIp ip mask).hostBits :=
      Nat.lt_div_mul_add (Nat.two_pow_pos _)
    have hexp' : (ofIp ip mask).hostBits ≤ 32 := hexp
    have hfit' : (networkBlock (ofIp ip mask)).start + 2 ^ (ofIp ip mask).hostBits ≤
      mappedFirst + 2 ^ 32 := hfit
    exact ⟨⟨hsize, by omega, by omega⟩, by omega⟩
  · rintro ⟨⟨-, hfirst, hlast⟩, hmask⟩
    have hdvd : 2 ^ (ofIp ip mask).hostBits ∣ mappedFirst :=
      (pow_dvd_pow 2 (by omega)).trans (Nat.dvd_mul_left _ _)
    obtain ⟨q, hq⟩ := hdvd
    refine ⟨?_, by omega⟩
    rw [hq, Nat.mul_comm]
    apply Nat.mul_le_mul_right
    rw [Nat.le_div_iff_mul_le (Nat.two_pow_pos _), Nat.mul_comm, ← hq]
    exact hfirst

variable {m : InetNetwork}

theorem cleared_of_block {ip : IpAddress} {mask : ℤ} (hlo : 0 ≤ mask) (hhi : mask ≤ ip.maxMask)
    (h : BlockNetwork ip.size (networkBlock (ofIp ip mask)) m) :
    Cleared ip mask m ↔ ¬ (Mapped ip ∧ 96 ≤ mask) := by
  have hmax : ip.maxMask = ip.size * 8 := rfl
  have hbits := hostBits_ofIp ip hlo
  constructor
  · intro hcleared hmapped
    have hstart := (networkBlock_mapped_iff hmapped.1.1 hlo).mpr hmapped
    obtain ⟨first, hsize, hvalue, -, hget⟩ := h
    have hfirst : Mapped first := ⟨hsize.trans hmapped.1.1, hvalue ▸ hstart⟩
    obtain ⟨a, ha, hlen⟩ := getByAddress_of_mapped hfirst
    rw [hget, Option.some.injEq] at ha
    have hfour : m.ip.size = 4 := by
      change m.address.address.length = 4
      rw [ha, hlen]
    have := hcleared.size_eq
    have := hmapped.1.1
    omega
  · intro hclear
    have hexp : (networkBlock (ofIp ip mask)).exp ≤ 8 * ip.size := Nat.min_le_left _ _
    obtain ⟨-, hsize, hblock⟩ := h.spec (networkBlock_aligned _) hexp
      (fun hsize => (networkBlock_mapped_iff hsize hlo).not.mpr hclear)
    obtain ⟨-, -, -, hmask, -⟩ := h
    refine ⟨?_, hsize, ?_⟩
    · rw [hmask, show (networkBlock (ofIp ip mask)).exp = (ofIp ip mask).hostBits from rfl, hbits]
      omega
    · rw [← hbits]
      exact congrArg Block.start hblock

def cutText : Outcome (List InetNetwork) := do
  let n ← InetNetwork.ofText ip.toString mask
  cutAgain n

theorem cutText_of_not_mapped {ip : IpAddress} (h : ¬ Mapped ip) (mask : ℤ) :
    cutText ip mask = cutAgain (ofIp ip mask) := by
  obtain ⟨a, ha, hparse⟩ := parseInetAddress_toString ip
  rw [getByAddress_of_not_mapped h, Option.some.injEq] at ha
  simp only [cutText, InetNetwork.ofText, hparse, Except.map, bind, Except.bind, ← ha]
  rfl

theorem size_of_cutText_mapped {ip : IpAddress} (h : Mapped ip) {mask : ℤ} (hlo : 0 ≤ mask)
    (hm : cutText ip mask = .ok [m]) : m.ip.size = 4 := by
  obtain ⟨a, ha, hparse⟩ := parseInetAddress_toString ip
  obtain ⟨a', ha', hlen⟩ := getByAddress_of_mapped h
  rw [ha, Option.some.injEq] at ha'
  obtain ⟨m', hrun, hblock⟩ := cutAgain_spec (n := ⟨a, mask⟩) (by simp only; omega)
  have hsame : cutText ip mask = cutAgain ⟨a, mask⟩ := by
    simp [cutText, InetNetwork.ofText, hparse, Except.map, bind, Except.bind]
  rw [hsame, hrun, Except.ok.injEq, List.singleton_inj] at hm
  subst hm
  obtain ⟨first, hsize, -, -, hget⟩ := hblock
  have hfour : first.address.length = 4 := by
    rw [ha'] at hsize
    exact hsize.trans hlen
  rw [InetAddress.getByAddress, dif_pos hfour, Option.some.injEq] at hget
  change m'.address.address.length = 4
  rw [← hget, hfour]

/-- A network comes back with the bits behind the prefix cleared, except for IPv4-mapped addresses. -/
theorem cutAgain_cleared_iff (ip : IpAddress) (mask : ℤ) (hlo : 0 ≤ mask) (hhi : mask ≤ ip.maxMask) :
    ((∃ m, cutAgain (ofIp ip mask) = .ok [m] ∧ Cleared ip mask m) ↔ ¬ (Mapped ip ∧ 96 ≤ mask)) ∧
      ((∃ m, cutText ip mask = .ok [m] ∧ Cleared ip mask m) ↔ ¬ Mapped ip) := by
  obtain ⟨m, hrun, hblock⟩ := cutAgain_spec (n := ofIp ip mask) (by rw [mask_ofIp]; omega)
  have hcleared := cleared_of_block hlo hhi hblock
  have hfirst : (∃ m, cutAgain (ofIp ip mask) = .ok [m] ∧ Cleared ip mask m) ↔
      ¬ (Mapped ip ∧ 96 ≤ mask) := by
    rw [← hcleared]
    constructor
    · rintro ⟨m', hrun', hm'⟩
      rw [hrun, Except.ok.injEq, List.singleton_inj] at hrun'
      exact hrun' ▸ hm'
    · intro hm
      exact ⟨m, hrun, hm⟩
  refine ⟨hfirst, ?_⟩
  constructor
  · rintro ⟨m', hrun', hm'⟩ hmapped
    have hfour := size_of_cutText_mapped hmapped hlo hrun'
    have := hm'.size_eq
    have := hmapped.1
    omega
  · intro hnot
    rw [cutText_of_not_mapped hnot]
    exact hfirst.mpr fun h => hnot h.1

/-- The range of `10.1.2.3/8` is cut into `10.0.0.0/8`. -/
theorem cutAgain_cleared_ten :
    ((∃ m, cutAgain (ofIp ⟨[10, 1, 2, 3], .inl rfl⟩ 8) = .ok [m] ∧
      Cleared ⟨[10, 1, 2, 3], .inl rfl⟩ 8 m) ∧
      ∃ m, cutText ⟨[10, 1, 2, 3], .inl rfl⟩ 8 = .ok [m] ∧
        Cleared ⟨[10, 1, 2, 3], .inl rfl⟩ 8 m) := by
  have hiff := cutAgain_cleared_iff ⟨[10, 1, 2, 3], .inl rfl⟩ 8 (by decide) (by decide)
  have hnot : ¬ Mapped ⟨[10, 1, 2, 3], .inl rfl⟩ := fun h => absurd h.1 (by decide)
  exact ⟨hiff.1.mpr fun h => hnot h.1, hiff.2.mpr hnot⟩

/-- The network `::ffff:1.2.3.4/120` comes back as `1.2.3.4/32`. -/
theorem cutText_mapped :
    cutText ⟨ipv4MappedPrefix ++ [1, 2, 3, 4], .inr rfl⟩ 120 =
        .ok [⟨⟨[1, 2, 3, 4], .inl rfl⟩, 32⟩] ∧
      ¬ ∃ m, cutText ⟨ipv4MappedPrefix ++ [1, 2, 3, 4], .inr rfl⟩ 120 = .ok [m] ∧
        Cleared ⟨ipv4MappedPrefix ++ [1, 2, 3, 4], .inr rfl⟩ 120 m := by
  have hrun : cutText ⟨ipv4MappedPrefix ++ [1, 2, 3, 4], .inr rfl⟩ 120 =
      .ok [⟨⟨[1, 2, 3, 4], .inl rfl⟩, 32⟩] := by decide +kernel
  refine ⟨hrun, ?_⟩
  rintro ⟨m, hm, hcleared⟩
  rw [hrun, Except.ok.injEq, List.singleton_inj] at hm
  have hmask := hcleared.mask_eq
  rw [← hm] at hmask
  exact absurd hmask (by decide)

end AmneziaVpn.IpRange
