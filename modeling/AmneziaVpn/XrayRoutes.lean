import AmneziaVpn.Wireguard
import AmneziaVpn.WireguardRoutes

/-!
# Routes of an Xray configuration

The server is excluded as a network of prefix length 32, behind everything that split tunnelling
puts in.
-/

namespace AmneziaVpn

open ProtocolConfig (Builder)

/-- `String.isNotBlank()` -/
def isNotBlank (s : String) : Bool := s.toList.any (!isWhitespace ·)

/-- Only `port` is read. -/
inductive InboundJson
  | object (port : Option ℤ)
  | other (className : String)

structure XrayJson where
  inbounds : Option (List InboundJson)

/-- Absent texts other than `hostName` read as empty. -/
structure XrayConfigJson extends ConfigJson where
  dns1 : String := ""
  dns2 : String := ""
  hostName : Option String
  mtu : String := ""

structure XrayConfig where
  protocolConfig : ProtocolConfig
  socksPort : ℤ
  maxMemory : ℤ

namespace XrayConfig

def defaultMtu : ℤ := 1500

/-- `XRAY_DEFAULT_MAX_MEMORY`, 50 MB -/
def defaultMaxMemory : ℤ := 50 * 2 ^ 20

structure Builder where
  base : ProtocolConfig.Builder := { blockingMode := false, mtu := defaultMtu }
  socksPort : ℤ := 0
  maxMemory : ℤ := defaultMaxMemory

def Builder.build (order : HashOrder InetNetwork) (sdk : ℕ) (b : Builder) : Outcome XrayConfig := do
  let base ← b.base.configBuild order sdk
  return ⟨.ofBuilder base, b.socksPort, b.maxMemory⟩

end XrayConfig

namespace Xray

/-- `config.optString(name).let { if (it.isNotBlank()) addDnsServer(parseInetAddress(it)) }` -/
def configDns (dns : String) (b : Builder) : Outcome Builder :=
  if isNotBlank dns then b.addDnsServer <$> parseInetAddress dns else .ok b

def configMtu (mtu : String) (b : Builder) : Outcome Builder :=
  if isNotBlank mtu then b.setMtu <$> toInt mtu else .ok b

/-- `(xrayJsonConfig.getJSONArray("inbounds")[0] as JSONObject).getInt("port")` -/
def socksPort (xrayJsonConfig : XrayJson) : Outcome ℤ := do
  let inbounds ← required "inbounds" xrayJsonConfig.inbounds
  match inbounds with
  | [] => .error (.jsonException "Index 0 out of range [0..0)")
  | .other className :: _ =>
      .error (.runtimeException (className ++ " cannot be cast to org.json.JSONObject"))
  | .object port :: _ => required "port" port

def parseConfig (order : HashOrder InetNetwork) (sdk : ℕ) (config : XrayConfigJson)
    (xrayJsonConfig : XrayJson) : Outcome XrayConfig := do
  let b : XrayConfig.Builder := {}
  let base := b.base.addAddress (← InetNetwork.ofText "10.0.42.2" 30)
  let base ← configDns config.dns1 base
  let base ← configDns config.dns2 base
  let base := base.addRoute (← InetNetwork.ofText "0.0.0.0" 0)
  let base := base.addRoute (← InetNetwork.ofText "2000::0" 3)
  let hostName ← required "hostName" config.hostName
  let base := base.excludeRoute (← InetNetwork.ofText hostName 32)
  let base ← configMtu config.mtu base
  let port ← socksPort xrayJsonConfig
  let base ← configSplitTunneling config.toConfigJson base
  let base ← configAppSplitTunneling config.toConfigJson base
  { b with base, socksPort := port }.build order sdk

end Xray

open ProtocolConfig (Builder)
open ProtocolConfig.Builder List

@[simp] theorem ofText_globalUnicast_zero : InetNetwork.ofText "2000::0" 3 = .ok globalUnicast := rfl

namespace Xray

def serverNetwork (server : InetAddress) : InetNetwork := ⟨server, 32⟩

def initialRoutes (server : InetAddress) : List Route :=
  [⟨ipv4DefaultRoute, true⟩, ⟨globalUnicast, true⟩, ⟨serverNetwork server, false⟩]

variable (mode : SplitTunnelType) (sites : List InetNetwork)

variable (a : IpAddress)

/-- What a mode is to send into the tunnel. -/
def Selected : Prop :=
  match mode with
  | .disable => a.size = 4 ∨ globalUnicast.contains a
  | .include => ∃ n ∈ sites, n.contains a
  | .exclude => (a.size = 4 ∨ globalUnicast.contains a) ∧ ∀ n ∈ sites, ¬ n.contains a

def Tunnelled : Prop :=
  match mode with
  | .include =>
      if sites = [] then a.size = 4 ∨ globalUnicast.contains a else UnicastSelected sites a
  | .disable => Selected .disable sites a
  | .exclude => Selected .exclude sites a

def Listed (b : Builder) : Prop :=
  match mode with
  | .disable => b.includedAddresses = [] ∧ b.excludedAddresses = []
  | .include => (∀ n, n ∈ b.includedAddresses ↔ n ∈ sites) ∧ b.excludedAddresses = []
  | .exclude => b.includedAddresses = [] ∧ ∀ n, n ∈ b.excludedAddresses ↔ n ∈ sites

theorem unicastSelected_unicastRoutes :
    UnicastSelected (unicastRoutes.map (·.inetNetwork)) a ↔ a.size = 4 ∨ globalUnicast.contains a :=
  unicastSelected_defaults (fun _ hr => absurd hr not_mem_nil) a

def Routed (order : HashOrder InetNetwork) (server : InetAddress) (b : Builder)
    (selected : IpAddress → Prop) : Prop :=
  ∃ included excluded, b.processSplitTunneling order = .ok (b.withRoutes (included ++ excluded)) ∧
    (∀ r ∈ included, r.include = true) ∧ (∀ r ∈ excluded, r.include = false) ∧
    ⟨serverNetwork server, false⟩ ∈ excluded ∧
    ∀ a, IncludedLast (unicastDefault (included ++ excluded)) a ↔
      selected a ∧ ¬ (serverNetwork server).contains a

variable {selected : IpAddress → Prop}

theorem routed_of_append {order : HashOrder InetNetwork} {server : InetAddress} {b : Builder}
    {included excluded : List Route}
    (hrun : b.processSplitTunneling order = .ok (b.withRoutes (included ++ excluded)))
    (hincluded : ∀ r ∈ included, r.include = true) (hexcluded : ∀ r ∈ excluded, r.include = false)
    (hserver : ⟨serverNetwork server, false⟩ ∈ excluded)
    (hselected : ∀ a, UnicastSelected (included.map (·.inetNetwork)) a ∧ (∀ r ∈ excluded, ¬ r.inetNetwork.contains a) ↔ selected a ∧ ¬ (serverNetwork server).contains a)
    : Routed order server b selected := by
  refine ⟨included, excluded, hrun, hincluded, hexcluded, hserver, fun a => ?_⟩
  rw [includedLast_unicastDefault hincluded hexcluded, hselected]

theorem Routed.congr {order : HashOrder InetNetwork} {server : InetAddress} {b : Builder}
    {selected' : IpAddress → Prop} (h : Routed order server b selected)
    (hiff : ∀ a, selected' a ↔ selected a) : Routed order server b selected' := by
  have : selected' = selected := funext fun a => propext (hiff a)
  rwa [this]

variable {order : HashOrder InetNetwork} {server : InetAddress} {b : Builder}

theorem serverNetwork_ne (server : InetAddress) {n : InetNetwork} (h : n.mask ≠ 32) : serverNetwork server ≠ n := by
  rintro rfl
  exact h rfl

theorem routed_of_empty (hroutes : b.routes = initialRoutes server)
    (hincluded : b.includedAddresses = []) (hexcluded : b.excludedAddresses = []) :
    Routed order server b fun a => a.size = 4 ∨ globalUnicast.contains a := by
  have hrun : b.processSplitTunneling order = .ok (b.withRoutes b.routes) := by
    unfold processSplitTunneling
    rw [if_neg (by simp [hincluded]), if_neg (by simp [hincluded]), if_neg (by simp [hexcluded])]
    rfl
  have hsplit : initialRoutes server = unicastRoutes ++ [⟨serverNetwork server, false⟩] := rfl
  rw [hroutes, hsplit] at hrun
  apply routed_of_append hrun
  · simp [unicastRoutes]
  · simp
  · simp
  · intro a
    rw [unicastSelected_unicastRoutes]
    simp

theorem routed_of_included (hroutes : b.routes = initialRoutes server)
    (hincluded : b.includedAddresses ≠ []) (hexcluded : b.excludedAddresses = []) :
    Routed order server b (UnicastSelected b.includedAddresses) := by
  obtain ⟨sites, hsites, hmem⟩ := linkedHashSetAddAll_eq_append ([] : List Route)
    ((order.iterate b.includedAddresses).map (⟨·, true⟩))
  rw [nil_append] at hsites
  have hsite : ∀ r, r ∈ sites ↔ r.include = true ∧ r.inetNetwork ∈ b.includedAddresses := by
    rintro ⟨n, inc⟩
    rw [hmem]
    cases inc <;> simp
  have hrun : b.processSplitTunneling order =
      .ok (b.withRoutes (sites ++ [⟨serverNetwork server, false⟩])) := by
    have hserver : (⟨serverNetwork server, false⟩ : Route) ∉ sites := by
      intro h
      cases ((hsite _).mp h).1
    have hfront : linkedHashSetAddAll [] ((order.iterate b.includedAddresses).map (⟨·, true⟩)) =
        sites := hsites
    have hrest : (((initialRoutes server).filter (·.inetNetwork ≠ ipv4DefaultRoute)).filter
        (·.inetNetwork ≠ ipv6DefaultRoute)).filter (·.inetNetwork ≠ globalUnicast) =
        [⟨serverNetwork server, false⟩] := by
      have h₄ : ipv4DefaultRoute ≠ globalUnicast := by decide
      have h₆ : ipv6DefaultRoute ≠ globalUnicast := by decide
      have hs₄ := serverNetwork_ne server (n := ipv4DefaultRoute) (by decide)
      have hs₆ := serverNetwork_ne server (n := ipv6DefaultRoute) (by decide)
      have hs := serverNetwork_ne server (n := globalUnicast) (by decide)
      simp [initialRoutes, h₄.symm, h₆.symm, hs₄, hs₆, hs]
    unfold processSplitTunneling
    rw [if_neg (by simp [hexcluded]), if_pos hincluded]
    simp only [prependRoutes, removeRoute, clearRoutes, addRoutes, hroutes, hrest, hfront,
      ofText_ipv4DefaultRoute, ofText_ipv6DefaultRoute, ofText_globalUnicast, bind, Except.bind,
      pure, Except.pure]
    simp [linkedHashSetAddAll, linkedHashSetAdd, hserver, withRoutes]
  apply routed_of_append hrun
  · exact fun r hr => ((hsite r).mp hr).1
  · simp
  · simp
  · intro a
    have hnetworks : ∀ n, n ∈ sites.map (·.inetNetwork) ↔ n ∈ b.includedAddresses := by
      intro n
      rw [mem_map]
      constructor
      · rintro ⟨r, hr, rfl⟩
        exact ((hsite r).mp hr).2
      · exact fun hn => ⟨⟨n, true⟩, (hsite _).mpr ⟨rfl, hn⟩, rfl⟩
    simp [UnicastSelected, hnetworks]

theorem routed_of_excluded (hroutes : b.routes = initialRoutes server)
    (hincluded : b.includedAddresses = []) (hexcluded : b.excludedAddresses ≠ []) :
    Routed order server b fun a => (a.size = 4 ∨ globalUnicast.contains a) ∧
      ∀ n ∈ b.excludedAddresses, ¬ n.contains a := by
  obtain ⟨sites, hsite, hrun⟩ := processSplitTunneling_excluding order hincluded hexcluded
  have hback : linkedHashSetAddAll (unicastRoutes ++ sites) (initialRoutes server) =
      unicastRoutes ++ linkedHashSetAdd sites ⟨serverNetwork server, false⟩ := by
    simp only [linkedHashSetAddAll, initialRoutes, foldl_cons, foldl_nil]
    simp only [linkedHashSetAdd, unicastRoutes, cons_append, nil_append, mem_cons, true_or, or_true,
      if_true, Route.mk.injEq, Bool.false_eq_true, and_false, false_or]
    split_ifs <;> rfl
  rw [hroutes, hback] at hrun
  apply routed_of_append hrun
  · simp [unicastRoutes]
  · intro r hr
    rcases (mem_linkedHashSetAdd _ _ _).mp hr with hr | rfl
    · exact ((hsite r).mp hr).1
    · rfl
  · simp
  · intro a
    have hforall : (∀ r ∈ linkedHashSetAdd sites ⟨serverNetwork server, false⟩,
        ¬ r.inetNetwork.contains a) ↔
        (∀ n ∈ b.excludedAddresses, ¬ n.contains a) ∧ ¬ (serverNetwork server).contains a := by
      simp only [mem_linkedHashSetAdd]
      constructor
      · exact fun h => ⟨fun n hn => h ⟨n, false⟩ (.inl ((hsite _).mpr ⟨rfl, hn⟩)),
          h _ (.inr rfl)⟩
      · rintro ⟨hall, hserver⟩ r (hr | rfl)
        · exact hall _ ((hsite r).mp hr).2
        · exact hserver
    rw [hforall, ← and_assoc]
    exact and_congr_left fun _ => and_congr_left fun _ => unicastSelected_unicastRoutes a

theorem routed_of_listed {mode : SplitTunnelType} {sites : List InetNetwork}
    (hroutes : b.routes = initialRoutes server) (hlisted : Listed mode sites b) :
    Routed order server b (Tunnelled mode sites) := by
  cases mode with
  | disable => exact routed_of_empty hroutes hlisted.1 hlisted.2
  | «include» =>
    obtain ⟨hincluded, hexcluded⟩ := hlisted
    by_cases hsites : sites = []
    · have hempty : b.includedAddresses = [] := by
        rw [eq_nil_iff_forall_not_mem]
        simp [hincluded, hsites]
      refine (routed_of_empty hroutes hempty hexcluded).congr fun a => ?_
      rw [Tunnelled, if_pos hsites]
    · have hne : b.includedAddresses ≠ [] := by
        obtain ⟨n, hn⟩ := exists_mem_of_ne_nil _ hsites
        exact ne_nil_of_mem ((hincluded n).mpr hn)
      refine (routed_of_included hroutes hne hexcluded).congr fun a => ?_
      rw [Tunnelled, if_neg hsites]
      simp [UnicastSelected, hincluded]
  | exclude =>
    obtain ⟨hincluded, hexcluded⟩ := hlisted
    by_cases hempty : b.excludedAddresses = []
    · have hsites : sites = [] := by
        rw [eq_nil_iff_forall_not_mem]
        simp [← hexcluded, hempty]
      refine (routed_of_empty hroutes hincluded hempty).congr fun a => ?_
      simp [Tunnelled, Selected, hsites]
    · refine (routed_of_excluded hroutes hincluded hempty).congr fun a => ?_
      simp [Tunnelled, Selected, hexcluded]

theorem configBuild_listed {sdk : ℕ} {b' : Builder} {mode : SplitTunnelType}
    {sites : List InetNetwork} (hsdk : sdk < tiramisu) (hroutes : b.routes = initialRoutes server)
    (hlisted : Listed mode sites b) (h : b.configBuild order sdk = .ok b') (a : IpAddress) :
    covered b'.routes a ↔
      (Tunnelled mode sites a ∧ ¬ (serverNetwork server).contains a) ∧ ¬ Loopback a ∧
        (IpRange.Mapped a → ∀ c : IpAddress, c.size = 16 → c.value ∈ IpRange.aroundMapped →
          Tunnelled mode sites c ∧ ¬ (serverNetwork server).contains c) := by
  obtain ⟨included, excluded, hsplit, -, -, hserver, hlast⟩ :=
    @routed_of_listed order _ _ _ _ hroutes hlisted
  have hsome : ∃ r ∈ unicastDefault (included ++ excluded), r.include = false :=
    ⟨_, mem_unicastDefault (mem_append_right _ hserver) rfl, rfl⟩
  rw [covered_configBuild hsdk hsplit hsome h, hlast]
  simp [KeptIfMapped, hlast]

end Xray

end AmneziaVpn
