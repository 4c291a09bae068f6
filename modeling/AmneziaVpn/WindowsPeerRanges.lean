import AmneziaVpn.ActivateMessage
import AmneziaVpn.LinuxDaemon
import AmneziaVpn.WindowsFilters

/-!
# The ranges that the filters of a peer block

A filter blocks the addresses from the address of a prefix to its broadcast address.
-/

namespace AmneziaVpn

namespace IPAddress

/-- The shifts and lengths with which the broadcast address is computed are defined. -/
def BroadcastDefined (ip : IPAddress) : Prop :=
  match ip.m_address with
  | .ipv4 _ => 0 ≤ ip.m_prefixLength
  | .ipv6 _ => 0 ≤ ip.m_prefixLength ∧ ip.m_prefixLength ≤ 128
  | .null => True

theorem inRange_clamp {ip : IPAddress} (h : ip.BroadcastDefined) : ip.clamp.InRange := by
  obtain ⟨a, n⟩ := ip
  apply clamp_inRange
  intro hnull
  cases a with
  | null => exact absurd rfl hnull
  | ipv4 a => exact h
  | ipv6 a => exact h.1

theorem clamp_same {ip : IPAddress} (h : ip.BroadcastDefined) :
    ip.clamp.m_address = ip.m_address ∧ ip.clamp.broadcastAddress = ip.broadcastAddress ∧
      ip.clamp.contains = ip.contains ∧ ip.clamp.hostBits = ip.hostBits := by
  obtain ⟨a, n⟩ := ip
  unfold clamp
  cases a with
  | null => exact ⟨rfl, rfl, rfl, rfl⟩
  | ipv6 a =>
    dsimp only
    split_ifs with hn
    · obtain rfl : n = 128 := le_antisymm h.2 hn
      exact ⟨rfl, rfl, rfl, rfl⟩
    · exact ⟨rfl, rfl, rfl, rfl⟩
  | ipv4 a =>
    dsimp only
    split_ifs with hn
    · have hzero : n ≠ 0 := by omega
      have hbits : 32 - n.toNat = 0 := by omega
      refine ⟨rfl, ?_, ?_, ?_⟩
      · simp [broadcastAddress, not_lt.mpr hn]
      · funext x
        cases x <;> simp [contains, not_lt.mpr hn, hzero]
      · simp [hostBits, bits, hbits]
    · exact ⟨rfl, rfl, rfl, rfl⟩

end IPAddress

theorem QHostAddress.exists_lower {a : QHostAddress} (ha : a ≠ .null) {v : ℕ} (hv : v ≤ a.value) :
    ∃ x : QHostAddress, x ≠ .null ∧ x.protocol = a.protocol ∧ x.value = v := by
  cases a with
  | null => exact absurd rfl ha
  | ipv4 a =>
    have hlt : v < 2 ^ 32 := hv.trans_lt a.toNat_lt
    exact ⟨.ipv4 (UInt32.ofNat v), by simp, rfl, UInt32.toNat_ofNat_of_lt' hlt⟩
  | ipv6 a =>
    have hlt : v < 256 ^ 16 := hv.trans_lt (a.length_eq ▸ ByteOrder.beValue_lt a.c)
    obtain ⟨bytes, hlength, hvalue⟩ := ByteOrder.exists_beValue hlt
    exact ⟨.ipv6 ⟨bytes, hlength⟩, by simp, rfl, hvalue⟩

namespace IPAddress

theorem between_iff_contains_iff {ip : IPAddress} (h : ip.InRange) (hnull : ip.m_address ≠ .null) :
    (∀ x : QHostAddress, x ≠ .null → ((x.protocol = ip.type ∧ ip.m_address.value ≤ x.value ∧
      x.value ≤ ip.broadcastAddress.value) ↔ ip.contains x = true)) ↔ ip.NoHostBits := by
  constructor
  · intro hexact
    have hfloor := Nat.div_mul_le_self ip.m_address.value (2 ^ ip.hostBits)
    obtain ⟨x, hx, hprotocol, hvalue⟩ := QHostAddress.exists_lower hnull hfloor
    have hcontains : ip.contains x = true := by
      rw [contains_iff h hx, hvalue, Nat.mul_div_cancel _ (Nat.two_pow_pos _)]
      exact ⟨hprotocol, rfl⟩
    obtain ⟨-, hlow, -⟩ := (hexact x hx).mpr hcontains
    rw [hvalue] at hlow
    exact ⟨_, (Nat.mul_comm _ _ ▸ (le_antisymm hfloor hlow)).symm⟩
  · intro hbits x hx
    constructor
    · rintro ⟨hprotocol, hlow, hhigh⟩
      exact contains_of_between h hx hprotocol hlow hhigh
    · exact between_of_contains h hbits hx

end IPAddress

namespace WindowsFirewall

def Filter.concerns (f : Filter) (x : QHostAddress) : Bool :=
  (f.layerKey == layerOut x.protocol || f.layerKey == layerIn x.protocol) &&
    f.conditions.all fun
      | .remoteRange low high => low.between high (importAddress x)
      | .remoteAddress value => importAddress x == value
      | _ => true

def BlocksExactly (ip : IPAddress) : Prop :=
  ip.BroadcastDefined ∧ ∀ f ∈ rangeFilters .block ip LOW_WEIGHT, ∀ x : QHostAddress, x ≠ .null →
    (f.concerns x = true ↔ ip.contains x = true)

theorem concerns_iff {ip : IPAddress} {f : Filter} (hf : f ∈ rangeFilters .block ip LOW_WEIGHT)
    {x : QHostAddress} (hx : x ≠ .null) :
    f.concerns x = true ↔
      (x.protocol = ip.type ∧ ip.m_address.value ≤ x.value ∧
        x.value ≤ ip.broadcastAddress.value) ∨
      (ip.m_address = .null ∧ x = .ipv6 .zero) := by
  obtain ⟨layer, hlayer, rfl⟩ := List.mem_map.mp hf
  have hconcerns : Filter.concerns ⟨[.remoteRange (importAddress ip.m_address)
      (importAddress ip.broadcastAddress)], .block, LOW_WEIGHT, layer⟩ x = true ↔
      (layer = layerOut x.protocol ∨ layer = layerIn x.protocol) ∧
        (importAddress ip.m_address).between (importAddress ip.broadcastAddress)
          (importAddress x) = true := by
    simp [Filter.concerns]
  rw [hconcerns, between_iff hx]
  refine and_iff_right_of_imp fun hbetween => ?_
  have hfamily : layerOut ip.type = layerOut x.protocol ∧ layerIn ip.type = layerIn x.protocol := by
    rcases hbetween with ⟨hprotocol, -⟩ | ⟨hnull, rfl⟩
    · rw [hprotocol]
      exact ⟨rfl, rfl⟩
    · rw [IPAddress.type, hnull]
      exact ⟨rfl, rfl⟩
  simpa [hfamily] using hlayer

/-- The filters block the prefix if its address has no host bits. -/
theorem blocksExactly_iff (ip : IPAddress) :
    BlocksExactly ip ↔ ip.BroadcastDefined ∧ ip.m_address ≠ .null ∧ ip.NoHostBits := by
  unfold BlocksExactly
  refine and_congr_right fun hdefined => ?_
  obtain ⟨haddress, hbroadcast, hcontains, hhostBits⟩ := IPAddress.clamp_same hdefined
  by_cases hnull : ip.m_address = .null
  · refine iff_of_false (fun h => ?_) fun h => h.1 hnull
    have hmem : _ ∈ rangeFilters .block ip LOW_WEIGHT := List.mem_cons_self
    have hzero := (h _ hmem (.ipv6 .zero) (by simp)).mp
      ((concerns_iff hmem (by simp)).mpr (Or.inr ⟨hnull, rfl⟩))
    simp [IPAddress.contains, hnull, QHostAddress.protocol] at hzero
  · have hexact := IPAddress.between_iff_contains_iff (IPAddress.inRange_clamp hdefined)
      (haddress ▸ hnull)
    rw [IPAddress.type, haddress, hbroadcast, hcontains] at hexact
    rw [IPAddress.NoHostBits, ← haddress, ← hhostBits, ← IPAddress.NoHostBits, ← hexact, haddress,
      and_iff_right hnull]
    constructor
    · intro h x hx
      have hmem : _ ∈ rangeFilters .block ip LOW_WEIGHT := List.mem_cons_self
      rw [← h _ hmem x hx, concerns_iff hmem hx]
      exact (or_iff_left fun hor => hnull hor.1).symm
    · intro h f hf x hx
      rw [concerns_iff hf hx, ← h x hx]
      exact or_iff_left fun hor => hnull hor.1

theorem host_bits_not_blocked :
    let ip : IPAddress := ⟨.ipv4 0x0a000002, 8⟩
    let range : LocalSocketController.AddressRange := ⟨"10.0.0.2", 8, false, by decide⟩
    Daemon.parseRange sampleQt.toQtParser (.object range.toJson) = some ip ∧
      ip.contains (.ipv4 0x0a000001) = true ∧
      ∀ f ∈ rangeFilters .block ip LOW_WEIGHT, f.concerns (.ipv4 0x0a000001) = false := by
  refine ⟨?_, by decide, by decide⟩
  rw [LocalSocketController.parseRange_toJson]
  decide

end WindowsFirewall

end AmneziaVpn
