import AmneziaVpn.XrayRoutes

/-!
# Coverage of an Xray configuration

What a built configuration covers, compared with what the split-tunnelling mode selects without the
server and without loopback.
-/

namespace AmneziaVpn.Xray

open ProtocolConfig (Builder)
open ProtocolConfig.Builder

variable {order : HashOrder InetNetwork}

/-- The mode of the configuration, and the networks its list names if the mode has one. -/
def Reads (config : ConfigJson) (mode : SplitTunnelType) (sites : List InetNetwork) : Prop :=
  SplitTunnelType.ofInt? config.splitTunnelType = some mode ∧
    (mode = .disable ∨
      ∃ texts, config.splitTunnelSites = some texts ∧ texts.mapM InetNetwork.parse = .ok sites)

variable {mode : SplitTunnelType} {sites : List InetNetwork} {server : InetAddress} {a : IpAddress}
  {b b' : Builder}

theorem ofInt?_eq_some {t : ℤ} (h : SplitTunnelType.ofInt? t = some mode) :
    t = match mode with
      | .disable => 0
      | .include => 1
      | .exclude => 2 := by
  unfold SplitTunnelType.ofInt? at h
  split at h
  · cases h
    rfl
  · cases h
    rfl
  · cases h
    rfl
  · cases h

theorem configSplitTunneling_listed {config : ConfigJson} (hreads : Reads config mode sites)
    (h : configSplitTunneling config b = .ok b') (hallow : b.allowSplitTunneling = true)
    (hincluded : b.includedAddresses = []) (hexcluded : b.excludedAddresses = []) :
    b'.routes = b.routes ∧ Listed mode sites b' := by
  obtain ⟨hmode, hsites⟩ := hreads
  have htype := ofInt?_eq_some hmode
  cases mode with
  | disable =>
    rw [Wireguard.configSplitTunneling_disabled htype] at h
    obtain rfl := Except.ok.inj h
    exact ⟨rfl, hincluded, hexcluded⟩
  | «include» =>
    obtain ⟨texts, htexts, hparse⟩ := hsites.resolve_left (by simp)
    rw [Wireguard.configSplitTunneling_including hallow htype htexts hparse] at h
    obtain rfl := Except.ok.inj h
    exact ⟨rfl, by simp [hincluded], hexcluded⟩
  | exclude =>
    obtain ⟨texts, htexts, hparse⟩ := hsites.resolve_left (by simp)
    rw [Wireguard.configSplitTunneling_excluding hallow htype htexts hparse] at h
    obtain rfl := Except.ok.inj h
    exact ⟨rfl, hincluded, by simp [hexcluded]⟩

theorem Listed.congr (h : Listed mode sites b)
    (hincluded : b'.includedAddresses = b.includedAddresses)
    (hexcluded : b'.excludedAddresses = b.excludedAddresses) : Listed mode sites b' := by
  cases mode <;> simpa only [Listed, hincluded, hexcluded] using h

/-- Neither the routes nor anything that decides about them differ. -/
structure SameRouting (b b' : Builder) : Prop where
  routes : b'.routes = b.routes
  includedAddresses : b'.includedAddresses = b.includedAddresses
  excludedAddresses : b'.excludedAddresses = b.excludedAddresses
  allowSplitTunneling : b'.allowSplitTunneling = b.allowSplitTunneling

theorem configDns_same {dns : String} (h : configDns dns b = .ok b') : SameRouting b b' := by
  unfold configDns at h
  split_ifs at h
  · cases hparse : parseInetAddress dns with
    | error e => simp [hparse] at h
    | ok address =>
      rw [hparse] at h
      obtain rfl := Except.ok.inj h
      exact ⟨rfl, rfl, rfl, rfl⟩
  · obtain rfl := Except.ok.inj h
    exact ⟨rfl, rfl, rfl, rfl⟩

theorem configMtu_same {mtu : String} (h : configMtu mtu b = .ok b') : SameRouting b b' := by
  unfold configMtu at h
  split_ifs at h
  · cases hint : toInt mtu with
    | error e => simp [hint] at h
    | ok m =>
      rw [hint] at h
      obtain rfl := Except.ok.inj h
      exact ⟨rfl, rfl, rfl, rfl⟩
  · obtain rfl := Except.ok.inj h
    exact ⟨rfl, rfl, rfl, rfl⟩

theorem routes_excludeRoute {b : Builder} (hb : b.routes = []) (server : InetAddress) :
    (((b.addRoute ipv4DefaultRoute).addRoute globalUnicast).excludeRoute
      (serverNetwork server)).routes = initialRoutes server := by
  have h : (⟨globalUnicast, true⟩ : Route) ∉ [⟨ipv4DefaultRoute, true⟩] := by decide
  simp only [excludeRoute, addRoute, hb, linkedHashSetAdd, List.not_mem_nil, if_false,
    List.nil_append, h, initialRoutes]
  simp

theorem covered_parseConfig {sdk : ℕ} (hsdk : sdk < tiramisu) {config : XrayConfigJson}
    {json : XrayJson} {hostName : String} (hhost : config.hostName = some hostName)
    (hserver : parseInetAddress hostName = .ok server)
    (hreads : Reads config.toConfigJson mode sites) {result : XrayConfig}
    (hbuild : parseConfig order sdk config json = .ok result) (a : IpAddress) :
    covered result.protocolConfig.routes a ↔
      (Tunnelled mode sites a ∧ ¬ (serverNetwork server).contains a) ∧ ¬ Loopback a ∧
        (IpRange.Mapped a → ∀ c : IpAddress, c.size = 16 → c.value ∈ IpRange.aroundMapped →
          Tunnelled mode sites c ∧ ¬ (serverNetwork server).contains c) := by
  have hnetwork : InetNetwork.ofText hostName 32 = .ok (serverNetwork server) := by
    rw [InetNetwork.ofText, hserver]
    rfl
  simp only [parseConfig, hhost, required] at hbuild
  obtain ⟨address, -, hbuild⟩ := bind_eq_ok.mp hbuild
  obtain ⟨base₁, hdns₁, hbuild⟩ := bind_eq_ok.mp hbuild
  obtain ⟨base₂, hdns₂, hbuild⟩ := bind_eq_ok.mp hbuild
  obtain ⟨_, h₄, hbuild⟩ := bind_eq_ok.mp hbuild
  obtain rfl := Except.ok.inj (ofText_ipv4DefaultRoute.symm.trans h₄)
  obtain ⟨_, h₆, hbuild⟩ := bind_eq_ok.mp hbuild
  obtain rfl := Except.ok.inj (ofText_globalUnicast_zero.symm.trans h₆)
  obtain ⟨_, hname, hbuild⟩ := bind_eq_ok.mp hbuild
  obtain rfl := Except.ok.inj hname
  rw [hnetwork] at hbuild
  obtain ⟨_, hexclude, hbuild⟩ := bind_eq_ok.mp hbuild
  obtain rfl := Except.ok.inj hexclude
  obtain ⟨base₃, hmtu, hbuild⟩ := bind_eq_ok.mp hbuild
  obtain ⟨port, -, hbuild⟩ := bind_eq_ok.mp hbuild
  have hsame₁ := configDns_same hdns₁
  have hsame₂ := configDns_same hdns₂
  have hsame₃ := configMtu_same hmtu
  obtain ⟨base₄, hsplit, hbuild⟩ := bind_eq_ok.mp hbuild
  obtain ⟨base₅, happs, hbuild⟩ := bind_eq_ok.mp hbuild
  obtain ⟨built, hconfig, hbuild⟩ := bind_eq_ok.mp hbuild
  obtain rfl := Except.ok.inj hbuild
  have hroutes₃ : base₃.routes = initialRoutes server :=
    hsame₃.routes.trans (routes_excludeRoute (hsame₂.routes.trans hsame₁.routes) server)
  have hallow : base₃.allowSplitTunneling = true := hsame₃.allowSplitTunneling.trans
    (hsame₂.allowSplitTunneling.trans hsame₁.allowSplitTunneling)
  have hincluded : base₃.includedAddresses = [] := hsame₃.includedAddresses.trans
    (hsame₂.includedAddresses.trans hsame₁.includedAddresses)
  have hexcluded : base₃.excludedAddresses = [] := hsame₃.excludedAddresses.trans
    (hsame₂.excludedAddresses.trans hsame₁.excludedAddresses)
  obtain ⟨hroutes₄, hlisted⟩ :=
    configSplitTunneling_listed hreads hsplit hallow hincluded hexcluded
  obtain ⟨hroutes₅, hincluded₅, hexcluded₅⟩ := Wireguard.configAppSplitTunneling_eq happs
  exact configBuild_listed hsdk (hroutes₅.trans (hroutes₄.trans hroutes₃))
    (hlisted.congr hincluded₅ hexcluded₅) hconfig a

/-- Mode, list and server do not meet the cases that go wrong. -/
structure Exact (mode : SplitTunnelType) (sites : List InetNetwork) (server : InetAddress) :
    Prop where
  server_alone : ∀ a, (serverNetwork server).contains a → Selected mode sites a →
    a = .ofInetAddress server ∨ Loopback a
  not_empty : mode = .include → sites ≠ []
  beyond_unicast : mode = .include → ipv6DefaultRoute ∈ sites → ∀ a : IpAddress, a.size = 16 →
    ¬ globalUnicast.contains a → a ≠ .ofInetAddress server → ¬ Loopback a →
      ∃ n ∈ sites, n ≠ ipv6DefaultRoute ∧ n.contains a
  around_mapped : ∀ a, IpRange.Mapped a → Selected mode sites a → a ≠ .ofInetAddress server →
    ∀ c : IpAddress, c.size = 16 → c.value ∈ IpRange.aroundMapped →
      Selected mode sites c ∧ c ≠ .ofInetAddress server

theorem serverNetwork_contains_self (server : InetAddress) :
    (serverNetwork server).contains (.ofInetAddress server) := ⟨rfl, rfl⟩

theorem eq_server_of_contains (hsize : a.size = 4) (h : (serverNetwork server).contains a) :
    a = .ofInetAddress server := by
  obtain ⟨hsame, hvalue⟩ := h
  have hserver : (serverNetwork server).ip.size = 4 := hsame.symm.trans hsize
  have hbits : (serverNetwork server).hostBits = 0 := by
    rw [InetNetwork.hostBits, IpAddress.maxMask, hserver]
    rfl
  rw [hbits, pow_zero, Nat.div_one, Nat.div_one] at hvalue
  exact IpAddress.ext (ByteOrder.beValue_inj hsame hvalue)

/-- Some IPv4 address is neither loopback nor in the network of the server. -/
theorem exists_outside (server : InetAddress) :
    ∃ a : IpAddress, a.size = 4 ∧ ¬ Loopback a ∧ ¬ (serverNetwork server).contains a := by
  have hloop₁ : ¬ Loopback ⟨[1, 0, 0, 0], .inl rfl⟩ := by
    rw [Loopback, not_or]
    decide
  have hloop₂ : ¬ Loopback ⟨[2, 0, 0, 0], .inl rfl⟩ := by
    rw [Loopback, not_or]
    decide
  by_cases h : (serverNetwork server).contains ⟨[1, 0, 0, 0], .inl rfl⟩
  · refine ⟨⟨[2, 0, 0, 0], .inl rfl⟩, rfl, hloop₂, fun h' => ?_⟩
    have := (eq_server_of_contains rfl h).trans (eq_server_of_contains rfl h').symm
    simp at this
  · exact ⟨_, rfl, hloop₁, h⟩

theorem ipv6DefaultRoute_contains : ipv6DefaultRoute.contains a ↔ a.size = 16 := by
  have hbits : ipv6DefaultRoute.hostBits = 128 := by decide
  have hsize : ipv6DefaultRoute.ip.size = 16 := rfl
  rw [InetNetwork.contains, hbits, hsize]
  refine ⟨And.left, fun h => ⟨h, ?_⟩⟩
  have hvalue : a.value < 2 ^ 128 := by
    have := a.value_lt
    rw [h] at this
    exact this
  rw [Nat.div_eq_of_lt hvalue]
  decide

theorem selected_of_tunnelled (hne : mode = .include → sites ≠ []) (h : Tunnelled mode sites a) :
    Selected mode sites a := by
  cases mode with
  | disable => exact h
  | exclude => exact h
  | «include» =>
    rw [Tunnelled, if_neg (hne rfl)] at h
    rcases h with ⟨n, hn, -, ha⟩ | ⟨hdefault, ha⟩
    · exact ⟨n, hn, ha⟩
    · exact ⟨_, hdefault, ipv6DefaultRoute_contains.mpr (globalUnicast_contains.mp ha).1⟩

theorem Exact.tunnelled (h : Exact mode sites server) (ha : Selected mode sites a)
    (hserver : a ≠ .ofInetAddress server) (hloop : ¬ Loopback a) : Tunnelled mode sites a := by
  cases mode with
  | disable => exact ha
  | exclude => exact ha
  | «include» =>
    rw [Tunnelled, if_neg (h.not_empty rfl)]
    obtain ⟨n, hn, hcontains⟩ := ha
    by_cases hdefault : n = ipv6DefaultRoute
    · subst hdefault
      have hsize := ipv6DefaultRoute_contains.mp hcontains
      by_cases hunicast : globalUnicast.contains a
      · exact .inr ⟨hn, hunicast⟩
      · exact .inl (h.beyond_unicast rfl hn a hsize hunicast hserver hloop)
    · exact .inl ⟨n, hn, hdefault, hcontains⟩

theorem Exact.outside (h : Exact mode sites server) (ha : Selected mode sites a)
    (hserver : a ≠ .ofInetAddress server) (hloop : ¬ Loopback a) :
    ¬ (serverNetwork server).contains a :=
  fun hcontains => (h.server_alone a hcontains ha).elim hserver hloop

/-- A configuration covers exactly what its mode selects, if and only if it is `Exact`. -/
theorem covers_selected_iff {sdk : ℕ} (hsdk : sdk < tiramisu) {config : XrayConfigJson}
    {json : XrayJson} {hostName : String} (hhost : config.hostName = some hostName)
    {server : InetAddress} (hserver : parseInetAddress hostName = .ok server)
    {mode : SplitTunnelType} {sites : List InetNetwork}
    (hreads : Reads config.toConfigJson mode sites) {result : XrayConfig}
    (hbuild : parseConfig order sdk config json = .ok result) :
    (∀ a, covered result.protocolConfig.routes a ↔
      Selected mode sites a ∧ a ≠ .ofInetAddress server ∧ ¬ Loopback a) ↔
      Exact mode sites server := by
  have hcov := covered_parseConfig hsdk hhost hserver hreads hbuild
  constructor
  · intro h
    have hnotEmpty : mode = .include → sites ≠ [] := by
      rintro rfl rfl
      obtain ⟨a, hsize, hloop, hout⟩ := exists_outside server
      have hmapped : ¬ IpRange.Mapped a := by
        intro hmapped
        have := hmapped.1
        omega
      have ha := (h a).mp ((hcov a).mpr
        ⟨⟨.inl hsize, hout⟩, hloop, fun hm => absurd hm hmapped⟩)
      simp [Selected] at ha
    refine ⟨fun a hcontains ha => ?_, hnotEmpty, ?_, ?_⟩
    · by_contra hnot
      rw [not_or] at hnot
      exact ((hcov a).mp ((h a).mpr ⟨ha, hnot⟩)).1.2 hcontains
    · rintro rfl hdefault a hsize hunicast hne hloop
      have hselected : Selected .include sites a :=
        ⟨_, hdefault, ipv6DefaultRoute_contains.mpr hsize⟩
      have htunnelled := ((hcov a).mp ((h a).mpr ⟨hselected, hne, hloop⟩)).1.1
      rw [Tunnelled, if_neg (hnotEmpty rfl)] at htunnelled
      exact htunnelled.resolve_right fun hright => hunicast hright.2
    · intro a hmapped ha hne c hsize hc
      have hloop := not_loopback_of_mapped hmapped
      obtain ⟨hc, hout⟩ := ((hcov a).mp ((h a).mpr ⟨ha, hne, hloop⟩)).2.2 hmapped c hsize hc
      refine ⟨selected_of_tunnelled hnotEmpty hc, ?_⟩
      rintro rfl
      exact hout (serverNetwork_contains_self server)
  · intro h a
    rw [hcov a]
    constructor
    · rintro ⟨⟨ha, hout⟩, hloop, -⟩
      refine ⟨selected_of_tunnelled h.not_empty ha, ?_, hloop⟩
      rintro rfl
      exact hout (serverNetwork_contains_self server)
    · rintro ⟨ha, hne, hloop⟩
      refine ⟨⟨h.tunnelled ha hne hloop, h.outside ha hne hloop⟩, hloop, ?_⟩
      intro hmapped c hsize hc
      have hcloop := not_loopback_of_around hsize hc
      obtain ⟨hc, hcne⟩ := h.around_mapped a hmapped ha hne c hsize hc
      exact ⟨h.tunnelled hc hcne hcloop, h.outside hc hcne hcloop⟩

theorem exact_of_ipv4 (sites : List InetNetwork) (hserver : server.isInet4)
    (hmode : mode ≠ .include) : Exact mode sites server := by
  have hfamily : ∀ a, Selected mode sites a → a.size = 4 ∨ globalUnicast.contains a := by
    intro a ha
    cases mode with
    | disable => exact ha
    | exclude => exact ha.1
    | «include» => exact absurd rfl hmode
  refine ⟨fun a hcontains _ => .inl (eq_server_of_contains ?_ hcontains),
    fun h => absurd h hmode, fun h => absurd h hmode, fun a hmapped ha => ?_⟩
  · have hlength : server.address.length = 4 := by simpa [InetAddress.isInet4] using hserver
    exact hcontains.1.trans hlength
  · exact absurd hmapped (not_mapped_of_unicast (hfamily a ha))

def ipv4Config : XrayConfigJson where
  wireguardConfigData := none
  splitTunnelType := 2
  splitTunnelSites := some ["8.8.8.8"]
  hostName := some "1.2.3.4"

def ipv6Config : XrayConfigJson where
  wireguardConfigData := none
  hostName := some "2001:db8::5"

def sampleJson : XrayJson := ⟨some [.object (some 10808)]⟩

theorem covers_selected_ipv4Config :
    ∃ result, parseConfig .insertion 29 ipv4Config sampleJson = .ok result ∧
      ∀ a, covered result.protocolConfig.routes a ↔
        Selected .exclude [⟨⟨[8, 8, 8, 8], .inl rfl⟩, 32⟩] a ∧ a ≠ ⟨[1, 2, 3, 4], .inl rfl⟩ ∧
          ¬ Loopback a := by
  have hok : (parseConfig .insertion 29 ipv4Config sampleJson).isOk := by decide +kernel
  have hserver : parseInetAddress "1.2.3.4" = .ok ⟨[1, 2, 3, 4], .inl rfl⟩ := by decide +kernel
  obtain ⟨result, hbuild⟩ := exists_ok_of_isOk hok
  exact ⟨result, hbuild, (covers_selected_iff (by decide) rfl hserver
    ⟨rfl, .inr ⟨_, rfl, by decide +kernel⟩⟩ hbuild).mpr (exact_of_ipv4 _ rfl (by simp))⟩

/-- A neighbour of an IPv6 server is selected and not covered. -/
theorem neighbour_not_covered :
    ∃ result, parseConfig .insertion 29 ipv6Config sampleJson = .ok result ∧
      ∃ a : IpAddress, Selected .disable [] a ∧ parseInetAddress "2001:db8::5" ≠ .ok ⟨a.1, a.2⟩ ∧
        ¬ Loopback a ∧ ¬ covered result.protocolConfig.routes a := by
  have hok : (parseConfig .insertion 29 ipv6Config sampleJson).isOk := by decide +kernel
  have hserver : parseInetAddress "2001:db8::5" =
      .ok ⟨[0x20, 1, 0xd, 0xb8, 0, 0, 0, 0, 0, 0, 0, 0, 0, 0, 0, 5], .inr rfl⟩ := by decide +kernel
  obtain ⟨result, hbuild⟩ := exists_ok_of_isOk hok
  refine ⟨result, hbuild, ⟨[0x20, 1, 0xd, 0xb8, 0, 0, 0, 0, 0, 0, 0, 0, 0, 0, 0, 6], .inr rfl⟩,
    .inr (by decide), by rw [hserver]; decide, ?_, fun hcov => ?_⟩
  · rw [Loopback, not_or]
    decide
  · have hreads : Reads ipv6Config.toConfigJson .disable [] := ⟨rfl, .inl rfl⟩
    have hout := ((covered_parseConfig (by decide) rfl hserver hreads hbuild _).mp hcov).1.2
    exact hout (by decide)

end AmneziaVpn.Xray
