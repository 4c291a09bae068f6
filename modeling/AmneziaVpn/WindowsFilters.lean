import AmneziaVpn.MozillaIpAddress
import AmneziaVpn.WindowsFirewallEffects

/-!
# What the filters of the Windows firewall apply to

One lemma for each group of filters: the connections that a filter of the group applies to, and
whether there is one that applies.
-/

namespace AmneziaVpn.WindowsFirewall

open WeightedArbitration List Condition

namespace Connection

def isTcpOrUdp (c : Connection) : Bool := c.protocol == IPPROTO_UDP || c.protocol == IPPROTO_TCP

/-- A request to a DHCP server. Over IPv4 it is a broadcast. -/
def isDhcp (c : Connection) : Bool :=
  c.protocol == IPPROTO_UDP && c.localPort == 68 && c.remotePort == 67 &&
    (c.remote.protocol != .IPv4Protocol || c.remote == .ipv4 0xffffffff)

end Connection

variable {sys : Platform} {config : InterfaceConfig} {c : Connection} {f : Filter}

theorem applies_iff :
    f.applies c = true ↔
      f.layerKey = layerOut c.remote.protocol ∧
        satisfied field (holds c) f.conditions = true := by
  simp [Filter.applies]

variable {x y : QHostAddress}

theorem importAddress_eq_iff (hx : x ≠ .null) :
    importAddress x = importAddress y ↔ x = y ∨ (y = .null ∧ x = .ipv6 .zero) := by
  cases x <;> cases y <;> simp_all [importAddress]

theorem layerOut_of_importAddress (h : importAddress x = importAddress y) :
    layerOut y.protocol = layerOut x.protocol := by
  cases x <;> cases y <;> simp_all [importAddress, layerOut, QHostAddress.protocol]

section Groups

variable {weight : UInt8}

theorem adapter_of_applies {index : Int32} (hf : f ∈ adapterFilters index weight)
    (h : f.applies c = true) : c.interfaceIndex = index.toUInt32 := by
  obtain ⟨layer, -, rfl⟩ := mem_map.mp hf
  simpa [satisfied, holds] using (applies_iff.mp h).2

theorem app_of_applies (hf : f ∈ appRule sys) (h : f.applies c = true) :
    sys.appIdFromFileName sys.getCurrentPath = some c.app := by
  unfold appRule at hf
  cases hid : sys.appIdFromFileName sys.getCurrentPath with
  | none => rw [hid] at hf; exact absurd hf not_mem_nil
  | some id =>
    rw [hid] at hf
    obtain ⟨layer, -, rfl⟩ := mem_map.mp hf
    have happ : c.app = id := by simpa [satisfied, holds] using (applies_iff.mp h).2
    rw [happ]

theorem not_applies_hyperV (hf : f ∈ hyperVFilters weight) : f.applies c = false := by
  obtain ⟨layer, -, rfl⟩ := mem_map.mp hf
  simp [Filter.applies, satisfied, holds]

theorem dhcp_of_applies (hf : f ∈ dhcpFilters weight) (h : f.applies c = true) :
    c.isDhcp = true := by
  obtain ⟨hlayer, hconds⟩ := applies_iff.mp h
  rcases mem_append.mp hf with hv4 | hrest
  · cases mem_singleton.mp hv4
    have hall : ((c.protocol = IPPROTO_UDP ∧ c.localPort = 68) ∧ c.remotePort = 67) ∧
        importAddress c.remote = .uint32 0xffffffff := by
      simpa [satisfied, field, holds, and_assoc] using hconds
    have himport : importAddress c.remote = importAddress (.ipv4 0xffffffff) := hall.2
    have hremote : c.remote = .ipv4 0xffffffff := by
      rcases (importAddress_eq_iff c.remote_known).mp himport with hr | hr
      · exact hr
      · exact absurd hr.1 (by simp)
    simp [Connection.isDhcp, hall, hremote]
  · obtain ⟨layer, hl, rfl⟩ := mem_map.mp hrest
    have hall : (c.protocol = IPPROTO_UDP ∧ c.localPort = 68) ∧ c.remotePort = 67 := by
      simpa [satisfied, field, holds, and_assoc] using hconds
    have hfamily : c.remote.protocol ≠ .IPv4Protocol := by
      intro hv4
      rw [hv4] at hlayer
      dsimp only at hlayer
      subst hlayer
      revert hl
      simp [layerOut]
    simp [Connection.isDhcp, hall, hfamily]

variable {addr : IPAddress} {port : UInt16} {action : Action}

theorem port_of_mem (hf : f ∈ portFilters port weight) : f.action = .block ∧ f.weight = weight := by
  obtain ⟨layer, -, rfl⟩ := mem_map.mp hf
  exact ⟨rfl, rfl⟩

theorem exists_port_applies (weight : UInt8) (ht : c.isTcpOrUdp = true) (hp : c.remotePort = port) :
    ∃ f ∈ portFilters port weight, f.applies c = true := by
  refine ⟨⟨_, _, _, layerOut c.remote.protocol⟩, mem_map.mpr ⟨_, ?_, rfl⟩, ?_⟩
  · unfold layerOut
    split_ifs <;> simp
  · have ht' : c.protocol = IPPROTO_UDP ∨ c.protocol = IPPROTO_TCP := by
      simpa [Connection.isTcpOrUdp] using ht
    rw [applies_iff]
    rcases ht' with h | h <;> simp [satisfied, field, holds, hp, h]

variable {target : QHostAddress}

theorem address_of_applies (hf : f ∈ addressFilters target port weight) (h : f.applies c = true) :
    c.isTcpOrUdp = true ∧ c.remotePort = port ∧
      (c.remote = target ∨ (target = .null ∧ c.remote = .ipv6 .zero)) := by
  obtain ⟨layer, -, rfl⟩ := mem_map.mp hf
  have hall : (c.protocol = IPPROTO_UDP ∨ c.protocol = IPPROTO_TCP) ∧ c.remotePort = port ∧
      importAddress c.remote = importAddress target := by
    simpa [satisfied, field, holds, and_assoc] using (applies_iff.mp h).2
  exact ⟨by simpa [Connection.isTcpOrUdp] using hall.1, hall.2.1,
    (importAddress_eq_iff c.remote_known).mp hall.2.2⟩

theorem exists_address_applies (weight : UInt8) (ht : c.isTcpOrUdp = true)
    (hp : c.remotePort = port) (ha : importAddress c.remote = importAddress target) :
    ∃ f ∈ addressFilters target port weight,
      f.applies c = true ∧ f.action = .permit ∧ f.weight = weight := by
  have ht' : c.protocol = IPPROTO_UDP ∨ c.protocol = IPPROTO_TCP := by
    simpa [Connection.isTcpOrUdp] using ht
  refine ⟨⟨_, _, _, layerOut target.protocol⟩, mem_map.mpr ⟨_, by simp, rfl⟩, ?_, rfl, rfl⟩
  rw [applies_iff]
  refine ⟨layerOut_of_importAddress ha, ?_⟩
  rcases ht' with h | h <;> simp [satisfied, field, holds, hp, ha, h]

theorem between_iff {x : QHostAddress} (hx : x ≠ .null) :
    (importAddress addr.m_address).between (importAddress addr.broadcastAddress)
        (importAddress x) = true ↔
      (x.protocol = addr.type ∧ addr.m_address.value ≤ x.value ∧
        x.value ≤ addr.broadcastAddress.value) ∨
      (addr.m_address = .null ∧ x = .ipv6 .zero) := by
  have hzero (a : Q_IPV6ADDR) : a.value ≤ Q_IPV6ADDR.zero.value ↔ a = .zero := by
    have hz : Q_IPV6ADDR.zero.value = 0 := ByteOrder.beValue_replicate_zero 16
    rw [hz, Nat.le_zero, ← hz]
    exact Q_IPV6ADDR.value_injective.eq_iff
  have hlow (a : Q_IPV6ADDR) : Q_IPV6ADDR.zero.value ≤ a.value := by
    have hz : Q_IPV6ADDR.zero.value = 0 := ByteOrder.beValue_replicate_zero 16
    rw [hz]
    exact Nat.zero_le _
  obtain ⟨a, n⟩ := addr
  cases a <;> cases x <;>
    simp_all [importAddress, Value.between, IPAddress.broadcastAddress, IPAddress.type,
      QHostAddress.protocol, QHostAddress.value, UInt32.le_iff_toNat_le]

theorem range_applies_iff {layer : Layer} :
    (⟨[.remoteRange (importAddress addr.m_address) (importAddress addr.broadcastAddress)], action,
      weight, layer⟩ : Filter).applies c = true ↔
      layer = layerOut c.remote.protocol ∧
        ((c.remote.protocol = addr.type ∧ addr.m_address.value ≤ c.remote.value ∧
          c.remote.value ≤ addr.broadcastAddress.value) ∨
        (addr.m_address = .null ∧ c.remote = .ipv6 .zero)) := by
  rw [applies_iff, ← between_iff c.remote_known]
  simp [satisfied, holds]

theorem range_of_applies (haddr : addr.InRange) (hf : f ∈ rangeFilters action addr weight)
    (h : f.applies c = true) :
    addr.contains c.remote = true ∨ (addr.m_address = .null ∧ c.remote = .ipv6 .zero) := by
  obtain ⟨layer, -, rfl⟩ := mem_map.mp hf
  rcases (range_applies_iff.mp h).2 with ⟨hp, hlo, hhi⟩ | hnull
  · exact Or.inl (IPAddress.contains_of_between haddr c.remote_known hp hlo hhi)
  · exact Or.inr hnull

theorem range_of_mem (hf : f ∈ rangeFilters action addr weight) :
    f.action = action ∧ f.weight = weight := by
  obtain ⟨layer, -, rfl⟩ := mem_map.mp hf
  exact ⟨rfl, rfl⟩

theorem exists_range_applies (action : Action) (weight : UInt8)
    (h : (c.remote.protocol = addr.type ∧ addr.m_address.value ≤ c.remote.value ∧
        c.remote.value ≤ addr.broadcastAddress.value) ∨
      (addr.m_address = .null ∧ c.remote = .ipv6 .zero)) :
    ∃ f ∈ rangeFilters action addr weight, f.applies c = true := by
  have hlayer : layerOut addr.type = layerOut c.remote.protocol := by
    rcases h with ⟨hp, -⟩ | ⟨hnull, hremote⟩
    · rw [hp]
    · rw [IPAddress.type, hnull, hremote]
      rfl
  exact ⟨_, mem_map.mpr ⟨layerOut addr.type, by simp, rfl⟩,
    range_applies_iff.mpr ⟨hlayer, h⟩⟩

end Groups

end AmneziaVpn.WindowsFirewall
