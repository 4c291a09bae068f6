import AmneziaVpn.WindowsFilters

/-!
# What the Windows kill switch blocks

An ordinary connection, one that no exemption of the configuration is meant for, only meets filters
that block.
-/

namespace AmneziaVpn.WindowsFirewall

open WeightedArbitration List

variable {sys : Platform} {config : InterfaceConfig} {c : Connection} {f : Filter}

/-- A connection that no exemption of the kill switch or of the peer is meant for. -/
structure Ordinary (sys : Platform) (vpnAdapterIndex : Int32) (config : InterfaceConfig)
    (c : Connection) : Prop where
  other_app : sys.appIdFromFileName sys.getCurrentPath ≠ some c.app
  off_vpn : c.interfaceIndex ≠ vpnAdapterIndex.toUInt32
  off_loopback : ∀ iface ∈ sys.allInterfaces, iface.isLoopback = true →
    c.interfaceIndex ≠ iface.index.toUInt32
  not_dhcp : c.isDhcp = false
  not_excluded : ∀ i ∈ config.m_excludedAddresses,
    (IPAddress.ofString sys.qt i).contains c.remote = false
  not_dns : c.isTcpOrUdp = true → c.remotePort = 53 → c.remote ∉ config.dnsServers sys.qt

def Guarded (config : InterfaceConfig) (c : Connection) : Prop :=
  (∃ r ∈ config.m_allowedIPAddressRanges, r.contains c.remote = true) ∨
    (c.isTcpOrUdp = true ∧ c.remotePort = 53)

/-- A connection to `::` that a text which is no address opens. -/
def OpenedByNull (sys : Platform) (config : InterfaceConfig) (c : Connection) : Prop :=
  c.remote = .ipv6 .zero ∧
    ((∃ i ∈ config.m_excludedAddresses, (IPAddress.ofString sys.qt i).m_address = .null) ∨
      (c.isTcpOrUdp = true ∧ c.remotePort = 53 ∧ .null ∈ config.dnsServers sys.qt))

section Run

variable {index : Int32}

theorem killSwitch_applies (ho : Ordinary sys index config c)
    (hf : f ∈ killSwitchFilters sys index) (h : f.applies c = true) :
    f.action = .block ∧ f.weight = MED_WEIGHT := by
  simp only [killSwitchFilters, mem_append] at hf
  rcases hf with hf | hf | hf | hf | hf | hf
  · exact absurd (adapter_of_applies hf h) ho.off_vpn
  · exact absurd (dhcp_of_applies hf h) (by rw [ho.not_dhcp]; exact Bool.false_ne_true)
  · exact absurd h (by rw [not_applies_hyperV hf]; exact Bool.false_ne_true)
  · exact absurd (app_of_applies hf h) ho.other_app
  · exact port_of_mem hf
  · obtain ⟨iface, hi, hf⟩ := mem_flatMap.mp hf
    obtain ⟨hmem, hloop⟩ := mem_filter.mp hi
    exact absurd (adapter_of_applies hf h) (ho.off_loopback iface hmem hloop)

theorem peer_applies (ho : Ordinary sys index config c) (hf : f ∈ peerFilters sys config)
    (h : f.applies c = true) :
    (f.action = .block ∧ f.weight = LOW_WEIGHT) ∨
      (f.weight = HIGH_WEIGHT ∧ OpenedByNull sys config c) := by
  simp only [peerFilters, mem_append] at hf
  rcases hf with hf | hf | hf
  · obtain ⟨r, -, hf⟩ := mem_flatMap.mp hf
    exact Or.inl (range_of_mem hf)
  · obtain ⟨server, hs, hf⟩ := mem_flatMap.mp hf
    obtain ⟨ht, hp, hremote⟩ := address_of_applies hf h
    have hweight : f.weight = HIGH_WEIGHT := by
      obtain ⟨layer, -, rfl⟩ := mem_map.mp hf
      rfl
    rcases hremote with rfl | ⟨rfl, hzero⟩
    · exact absurd hs (ho.not_dns ht hp)
    · exact Or.inr ⟨hweight, hzero, Or.inr ⟨ht, hp, hs⟩⟩
  · obtain ⟨i, hi, hf⟩ := mem_flatMap.mp hf
    rcases range_of_applies (IPAddress.ofString_inRange sys.qt i) hf h with hc | ⟨hnull, hzero⟩
    · exact absurd hc (by rw [ho.not_excluded i hi]; exact Bool.false_ne_true)
    · exact Or.inr ⟨(range_of_mem hf).2, hzero, Or.inl ⟨i, hi, hnull⟩⟩

theorem exists_block (sys : Platform) (index : Int32)
    (hallowed : ∀ r ∈ config.m_allowedIPAddressRanges, r.InRange ∧ r.NoHostBits)
    (hg : Guarded config c) :
    ∃ f ∈ killSwitchFilters sys index ++ peerFilters sys config, f.applies c = true := by
  rcases hg with ⟨r, hr, hc⟩ | ⟨ht, hp⟩
  · obtain ⟨hin, hbits⟩ := hallowed r hr
    obtain ⟨f, hf, h⟩ := exists_range_applies .block LOW_WEIGHT
      (Or.inl (IPAddress.between_of_contains hin hbits c.remote_known hc))
    have hmem : f ∈ peerFilters sys config :=
      mem_append_left _ (mem_flatMap.mpr ⟨r, hr, hf⟩)
    exact ⟨f, mem_append_right _ hmem, h⟩
  · obtain ⟨f, hf, h⟩ := exists_port_applies MED_WEIGHT ht hp
    have hmem : f ∈ killSwitchFilters sys index := by
      simp only [killSwitchFilters, mem_append]
      exact Or.inr (Or.inr (Or.inr (Or.inr (Or.inl hf))))
    exact ⟨f, mem_append_left _ hmem, h⟩

/-- A text that is no address puts a heavy filter in force that lets `::` through. -/
theorem exists_permit (h : OpenedByNull sys config c) :
    ∃ f ∈ peerFilters sys config,
      f.applies c = true ∧ f.action = .permit ∧ f.weight = HIGH_WEIGHT := by
  obtain ⟨hzero, ⟨i, hi, hnull⟩ | ⟨ht, hp, hs⟩⟩ := h
  · obtain ⟨f, hf, h⟩ := exists_range_applies .permit HIGH_WEIGHT
      (Or.inr ⟨hnull, hzero⟩)
    have hmem : f ∈ peerFilters sys config :=
      mem_append_right _ (mem_append_right _ (mem_flatMap.mpr ⟨i, hi, hf⟩))
    exact ⟨f, hmem, h, range_of_mem hf⟩
  · have himport : importAddress c.remote = importAddress .null := by rw [hzero]; rfl
    obtain ⟨f, hf, h⟩ := exists_address_applies HIGH_WEIGHT ht hp himport
    have hmem : f ∈ peerFilters sys config :=
      mem_append_right _ (mem_append_left _ (mem_flatMap.mpr ⟨.null, hs, hf⟩))
    exact ⟨f, hmem, h⟩

section Enabled

variable {s t u : State} (hbefore : ∀ f ∈ s.inForce, f.applies c = false)
  (hkill : enableKillSwitch sys index s = (true, t))
  (hpeer : enablePeerTraffic sys config t = (true, u))

include hkill hpeer

theorem inForce_enabled :
    u.inForce = s.inForce ++ (killSwitchFilters sys index ++ peerFilters sys config) := by
  rw [enablePeerTraffic_installs config t u hpeer, enableKillSwitch_installs index s t hkill,
    append_assoc]

include hbefore

theorem new_of_applies (hf : f ∈ u.inForce) (h : f.applies c = true) :
    f ∈ killSwitchFilters sys index ∨ f ∈ peerFilters sys config := by
  rw [inForce_enabled hkill hpeer] at hf
  rcases mem_append.mp hf with hold | hf
  · exact absurd h (by rw [hbefore f hold]; exact Bool.false_ne_true)
  · exact mem_append.mp hf

theorem not_blocks_of_opened (ho : Ordinary sys index config c)
    (hopen : OpenedByNull sys config c) : u.blocks c = false := by
  obtain ⟨f, hf, h, hpermit, hweight⟩ := exists_permit hopen
  have hmem : f ∈ u.inForce := by
    rw [inForce_enabled hkill hpeer]
    exact mem_append_right _ (mem_append_right _ hf)
  apply not_decides_of_mem hmem h (by rw [hpermit]; rfl)
  intro g hg hga
  rw [hweight]
  rcases new_of_applies hbefore hkill hpeer hg hga with hk | hp
  · rw [(killSwitch_applies ho hk hga).2]
    decide
  · rcases peer_applies ho hp hga with ⟨-, hw⟩ | ⟨hw, -⟩
    · rw [hw]
      decide
    · rw [hw]

theorem blocks_of_not_opened
    (hallowed : ∀ r ∈ config.m_allowedIPAddressRanges, r.InRange ∧ r.NoHostBits)
    (ho : Ordinary sys index config c) (hguard : Guarded config c)
    (hopen : ¬ OpenedByNull sys config c) : u.blocks c = true := by
  obtain ⟨f, hf, h⟩ := exists_block sys index hallowed hguard
  have hmem : f ∈ u.inForce := by
    rw [inForce_enabled hkill hpeer]
    exact mem_append_right _ hf
  apply decides_of_mem hmem h
  intro g hg hga _
  have hblock : g.action = .block := by
    rcases new_of_applies hbefore hkill hpeer hg hga with hk | hp
    · exact (killSwitch_applies ho hk hga).1
    · rcases peer_applies ho hp hga with ⟨hb, -⟩ | ⟨-, hn⟩
      · exact hb
      · exact absurd hn hopen
  rw [hblock]
  rfl

end Enabled

end Run

theorem nonneg_of_no_subnet (_ : String) (h : (QHostAddress.null, (-1 : ℤ)).1 ≠ .null) :
    0 ≤ (QHostAddress.null, (-1 : ℤ)).2 := absurd rfl h

def oneAddress : QtParser where
  parse text := if text = "10.8.0.1" then .ipv4 0x0a080001 else .null
  parseSubnet _ := (.null, -1)
  parseSubnet_nonneg := nonneg_of_no_subnet

def reliable : Platform where
  qt := oneAddress
  succeeds _ := true
  getCurrentPath := "AmneziaVPN-service.exe"
  appIdFromFileName _ := some [1]
  allInterfaces := [⟨true, 1⟩]

def initial : State := ⟨⟨[], none, 0⟩, [], [], 0⟩

variable (excluded : List String)

def tunnelAll : InterfaceConfig where
  m_serverPublicKey := "peer"
  m_serverIpv4Gateway := "10.8.0.2"
  m_serverIpv6Gateway := "dead:beef::1"
  m_dnsServer := "10.8.0.1"
  m_allowedIPAddressRanges := [⟨.ipv6 .zero, 0⟩]
  m_excludedAddresses := excluded

variable (a : Q_IPV6ADDR)

def webConnection : Connection where
  app := [2]
  interfaceIndex := 3
  protocol := IPPROTO_TCP
  localPort := 50000
  remotePort := 443
  remote := .ipv6 a
  remote_known := by simp

def afterKillSwitch : State := (enableKillSwitch reliable 7 initial).2

def afterPeer : State :=
  (enablePeerTraffic reliable (tunnelAll excluded) afterKillSwitch).2

def globalAddress : Q_IPV6ADDR := ⟨0x20 :: List.replicate 15 1, rfl⟩

theorem tunnelAll_allowed :
    ∀ r ∈ (tunnelAll excluded).m_allowedIPAddressRanges, r.InRange ∧ r.NoHostBits := by
  intro r hr
  cases mem_singleton.mp hr
  have hvalue : Q_IPV6ADDR.zero.value = 0 := ByteOrder.beValue_replicate_zero 16
  refine ⟨⟨le_rfl, by norm_num⟩, ?_⟩
  change 2 ^ (128 - 0) ∣ Q_IPV6ADDR.zero.value
  rw [hvalue]
  exact dvd_zero _

theorem webConnection_guarded : Guarded (tunnelAll excluded) (webConnection a) :=
  Or.inl ⟨_, mem_singleton.mpr rfl, rfl⟩

theorem webConnection_ordinary
    (h : ∀ i ∈ excluded, (IPAddress.ofString oneAddress i).contains (.ipv6 a) = false) :
    Ordinary reliable 7 (tunnelAll excluded) (webConnection a) where
  other_app := show some [1] ≠ some [2] by decide
  off_vpn := show (3 : UInt32) ≠ 7 by decide
  off_loopback iface hi _ := by
    cases mem_singleton.mp hi
    exact show (3 : UInt32) ≠ 1 by decide
  not_dhcp := rfl
  not_excluded := h
  not_dns _ hp := absurd hp (show (443 : UInt16) ≠ 53 by decide)

theorem reliable_enableKillSwitch :
    enableKillSwitch reliable 7 initial = (true, afterKillSwitch) ∧ afterKillSwitch.Idle := by
  have hruns : Runs State.Idle (enableKillSwitch reliable 7) :=
    enableKillSwitch_runs (fun _ => rfl) rfl 7
  have hidle : initial.Idle := rfl
  unfold afterKillSwitch
  exact ⟨hruns.eq hidle, (hruns initial hidle).2⟩

theorem reliable_enablePeerTraffic :
    enablePeerTraffic reliable (tunnelAll excluded) afterKillSwitch =
      (true, afterPeer excluded) := by
  have hruns : Runs State.Idle (enablePeerTraffic reliable (tunnelAll excluded)) :=
    enablePeerTraffic_runs (fun _ => rfl) (tunnelAll excluded)
  unfold afterPeer
  exact hruns.eq reliable_enableKillSwitch.2

end AmneziaVpn.WindowsFirewall
