import AmneziaVpn.AcceptedNetworks
import AmneziaVpn.RouteOrder
import AmneziaVpn.Wireguard

/-!
# The OpenVPN client of Android

`startVpn` makes one configuration builder for the whole connection and excludes the server in it.
-/

namespace AmneziaVpn

open ProtocolConfig (Builder)

/-- The callbacks between `tun_builder_new` and `tun_builder_establish` that change the builder. -/
inductive TunCallback
  | setMtu (mtu : ℤ)
  | addAddress (address : String) (prefixLength : ℤ)
  | addRoute (address : String) (prefixLength : ℤ)
  | excludeRoute (address : String) (prefixLength : ℤ)
  | addDnsServer (address : String)
  | rerouteGw (ipv4 ipv6 : Bool) (flags : ℕ)
  | addSearchDomain (domain : String)

namespace OpenVpnClient

/-- `EMULATED_EXCLUDE_ROUTES` -/
def emulatedExcludeRoutes : ℕ := 1 <<< 16

variable (configBuilder : Builder)

def tunBuilderNew : Builder := configBuilder.clearAddresses

/-- What a callback returns, and the builder after it. -/
def onCallback : TunCallback → Outcome (Bool × Builder)
  | .setMtu mtu => return (true, configBuilder.setMtu mtu)
  | .addAddress address prefixLength => do
      return (true, configBuilder.addAddress (← InetNetwork.ofText address prefixLength))
  | .addRoute address prefixLength =>
      if address = "remote_host" then return (false, configBuilder)
      else do
        return (true, configBuilder.addRoute (← InetNetwork.ofText address prefixLength))
  | .excludeRoute address prefixLength => do
      return (true, configBuilder.excludeRoute (← InetNetwork.ofText address prefixLength))
  | .addDnsServer address => do
      return (true, configBuilder.addDnsServer (← parseInetAddress address))
  | .rerouteGw ipv4 ipv6 flags =>
      if flags &&& emulatedExcludeRoutes ≠ 0 then return (true, configBuilder)
      else do
        let configBuilder ←
          if ipv4 then configBuilder.addRoute <$> InetNetwork.ofText "0.0.0.0" 0
          else .ok configBuilder
        let configBuilder ←
          if ipv6 then configBuilder.addRoute <$> InetNetwork.ofText "::" 0
          else .ok configBuilder
        return (true, configBuilder)
  | .addSearchDomain domain => return (true, configBuilder.setSearchDomain domain)

def onCallbacks (configBuilder : Builder) : List TunCallback → Outcome (Bool × Builder)
  | [] => return (true, configBuilder)
  | callback :: callbacks => do
      let (accepted, configBuilder) ← onCallback configBuilder callback
      if accepted then onCallbacks configBuilder callbacks else return (false, configBuilder)

/-- `VpnService.Builder.addRoute` takes a prefix length of the family without bits behind it. -/
def platformAccepts (routes : List Route) : Bool :=
  routes.all fun r => !r.include || decide r.inetNetwork.IsCidr

section Session

variable (order : HashOrder InetNetwork) (sdk : ℕ)

variable (configBuilder : Builder)

/-- `makeEstablish`: build, and hand the included routes to the platform. -/
def establish : Outcome Builder := do
  let configBuilder ← configBuilder.configBuild order sdk
  if platformAccepts configBuilder.routes then return configBuilder
  else .error (.illegalArgumentException "Bad address")

def session (callbacks : List TunCallback) : Outcome (Option Builder) := do
  let (accepted, configBuilder) ← onCallbacks (tunBuilderNew configBuilder) callbacks
  if accepted then some <$> establish order sdk configBuilder else return none

end Session

def startVpn (hostName : String) (config : ConfigJson) : Outcome Builder := do
  let remoteServer ← parseInetAddress hostName
  let configBuilder := openVpnBuilder.excludeRoute (InetNetwork.ofAddress remoteServer)
  let configBuilder ← configSplitTunneling config configBuilder
  configAppSplitTunneling config configBuilder

/-- What callbacks add to a builder. -/
structure Pushed where
  addresses : List InetNetwork := []
  dnsServers : List InetAddress := []
  routes : List Route := []
  mtu : Option ℤ := none
  searchDomain : Option String := none

namespace Pushed

variable (p : Pushed)

def into (b : Builder) : Builder :=
  { b with
    addresses := linkedHashSetAddAll b.addresses p.addresses
    dnsServers := linkedHashSetAddAll b.dnsServers p.dnsServers
    routes := linkedHashSetAddAll b.routes p.routes
    mtu := p.mtu.getD b.mtu
    searchDomain := p.searchDomain.or b.searchDomain }

def append (q : Pushed) : Pushed where
  addresses := p.addresses ++ q.addresses
  dnsServers := p.dnsServers ++ q.dnsServers
  routes := p.routes ++ q.routes
  mtu := q.mtu.or p.mtu
  searchDomain := q.searchDomain.or p.searchDomain

theorem into_into (q : Pushed) (b : Builder) : q.into (p.into b) = (p.append q).into b := by
  simp only [into, append, linkedHashSetAddAll, List.foldl_append, Option.or_assoc]
  cases q.mtu <;> rfl

end Pushed

end OpenVpnClient

namespace TunCallback

open OpenVpnClient

def network (address : String) (prefixLength : ℤ) : List InetNetwork :=
  (InetNetwork.ofText address prefixLength).toOption.toList

def pushed : TunCallback → Pushed
  | setMtu mtu => { mtu := some mtu }
  | addAddress address prefixLength => { addresses := network address prefixLength }
  | addRoute address prefixLength => { routes := (network address prefixLength).map (⟨·, true⟩) }
  | excludeRoute address prefixLength =>
      { routes := (network address prefixLength).map (⟨·, false⟩) }
  | addDnsServer address => { dnsServers := (parseInetAddress address).toOption.toList }
  | rerouteGw ipv4 ipv6 flags =>
      if flags &&& emulatedExcludeRoutes ≠ 0 then {}
      else { routes := (if ipv4 then [⟨ipv4DefaultRoute, true⟩] else []) ++
        if ipv6 then [⟨ipv6DefaultRoute, true⟩] else [] }
  | addSearchDomain domain => { searchDomain := some domain }

end TunCallback

namespace OpenVpnClient

variable (callbacks : List TunCallback)

def pushedBy : Pushed :=
  callbacks.foldr (fun callback rest => callback.pushed.append rest) {}

def pushedRoutes : List Route := (pushedBy callbacks).routes

theorem into_empty (b : Builder) : ({} : Pushed).into b = b := by
  cases b
  rfl

variable {callback : TunCallback}

theorem onCallback_eq {b b' : Builder} (h : onCallback b callback = .ok (true, b')) (d : Builder) :
    onCallback d callback = .ok (true, callback.pushed.into d) := by
  cases callback with
  | setMtu mtu => rfl
  | addAddress address prefixLength =>
    obtain ⟨n, hn, -⟩ := bind_eq_ok.mp h
    simp only [onCallback, TunCallback.pushed, TunCallback.network, hn, bind, Except.bind]
    rfl
  | addRoute address prefixLength =>
    by_cases hremote : address = "remote_host"
    · rw [onCallback, if_pos hremote] at h
      cases h
    · rw [onCallback, if_neg hremote] at h
      obtain ⟨n, hn, -⟩ := bind_eq_ok.mp h
      simp only [onCallback, if_neg hremote, TunCallback.pushed, TunCallback.network, hn, bind,
        Except.bind]
      rfl
  | excludeRoute address prefixLength =>
    obtain ⟨n, hn, -⟩ := bind_eq_ok.mp h
    simp only [onCallback, TunCallback.pushed, TunCallback.network, hn, bind, Except.bind]
    rfl
  | addDnsServer address =>
    obtain ⟨a, ha, -⟩ := bind_eq_ok.mp h
    simp only [onCallback, TunCallback.pushed, ha, bind, Except.bind]
    rfl
  | rerouteGw ipv4 ipv6 flags =>
    by_cases hflags : flags &&& emulatedExcludeRoutes ≠ 0
    · rw [onCallback, TunCallback.pushed, if_pos hflags, if_pos hflags, into_empty]
      rfl
    · rw [onCallback, TunCallback.pushed, if_neg hflags, if_neg hflags]
      cases ipv4 <;> cases ipv6 <;> rfl
  | addSearchDomain domain => rfl

theorem onCallbacks_eq {b b' : Builder} {callbacks : List TunCallback}
    (h : onCallbacks b callbacks = .ok (true, b')) (d : Builder) :
    onCallbacks d callbacks = .ok (true, (pushedBy callbacks).into d) := by
  induction callbacks generalizing b d with
  | nil =>
    rw [pushedBy, List.foldr_nil, into_empty]
    rfl
  | cons callback callbacks ih =>
    obtain ⟨⟨accepted, c⟩, hcallback, h⟩ := bind_eq_ok.mp h
    cases accepted with
    | false => cases h
    | true =>
      rw [onCallbacks, onCallback_eq hcallback d]
      change onCallbacks (callback.pushed.into d) callbacks = _
      rw [ih h, Pushed.into_into]
      rfl

theorem not_mapped_network {address : String} {prefixLength : ℤ} {n : InetNetwork}
    (h : n ∈ TunCallback.network address prefixLength) : ¬ IpRange.Mapped n.ip := by
  rw [TunCallback.network, Option.mem_toList] at h
  cases hread : InetNetwork.ofText address prefixLength with
  | error e => simp [hread, Except.toOption] at h
  | ok m =>
    obtain rfl : m = n := by simpa [hread, Except.toOption] using h
    exact IpRange.not_mapped_of_ofText hread

theorem not_mapped_pushed : ∀ r ∈ callback.pushed.routes, ¬ IpRange.Mapped r.inetNetwork.ip := by
  intro r hr
  cases callback with
  | setMtu mtu => cases hr
  | addAddress address prefixLength => cases hr
  | addRoute address prefixLength =>
    obtain ⟨n, hn, rfl⟩ := List.mem_map.mp hr
    exact not_mapped_network hn
  | excludeRoute address prefixLength =>
    obtain ⟨n, hn, rfl⟩ := List.mem_map.mp hr
    exact not_mapped_network hn
  | addDnsServer address => cases hr
  | rerouteGw ipv4 ipv6 flags =>
    have hdefault : r = ⟨ipv4DefaultRoute, true⟩ ∨ r = ⟨ipv6DefaultRoute, true⟩ := by
      rw [TunCallback.pushed] at hr
      split_ifs at hr <;> simp_all
    rcases hdefault with rfl | rfl
    · exact IpRange.not_mapped_of_ofText ofText_ipv4DefaultRoute
    · exact IpRange.not_mapped_of_ofText ofText_ipv6DefaultRoute
  | addSearchDomain domain => cases hr

theorem not_mapped_pushedRoutes :
    ∀ r ∈ pushedRoutes callbacks, ¬ IpRange.Mapped r.inetNetwork.ip := by
  induction callbacks with
  | nil =>
    intro r hr
    cases hr
  | cons callback callbacks ih =>
    intro r hr
    rcases List.mem_append.mp (show r ∈ callback.pushed.routes ++ pushedRoutes callbacks from hr)
      with hr | hr
    · exact not_mapped_pushed r hr
    · exact ih r hr

end OpenVpnClient

end AmneziaVpn
