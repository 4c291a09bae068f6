import AmneziaVpn.IpRangeSetSubnets

/-!
# The configuration builder of the Android client

A builder collects addresses, routes and split-tunnelling lists, and `configBuild` turns them into
the routes of the VPN interface.
-/

namespace AmneziaVpn

open InetNetwork

structure Route where
  inetNetwork : InetNetwork
  «include» : Bool
deriving DecidableEq

/-- `Build.VERSION_CODES.TIRAMISU` -/
def tiramisu : ℕ := 33

structure ProtocolConfig where
  addresses : List InetNetwork
  dnsServers : List InetAddress
  searchDomain : Option String
  routes : List Route
  includedAddresses : List InetNetwork
  excludedAddresses : List InetNetwork
  includedApplications : List String
  excludedApplications : List String
  allowAllAF : Bool
  blockingMode : Bool
  mtu : ℤ

namespace ProtocolConfig

structure Builder where
  addresses : List InetNetwork := []
  dnsServers : List InetAddress := []
  routes : List Route := []
  includedAddresses : List InetNetwork := []
  excludedAddresses : List InetNetwork := []
  includedApplications : List String := []
  excludedApplications : List String := []
  searchDomain : Option String := none
  allowAllAF : Bool := false
  blockingMode : Bool
  allowSplitTunneling : Bool := true
  mtu : ℤ := 0

def ofBuilder (builder : Builder) : ProtocolConfig where
  addresses := builder.addresses
  dnsServers := builder.dnsServers
  searchDomain := builder.searchDomain
  routes := builder.routes
  includedAddresses := builder.includedAddresses
  excludedAddresses := builder.excludedAddresses
  includedApplications := builder.includedApplications
  excludedApplications := builder.excludedApplications
  allowAllAF := builder.allowAllAF
  blockingMode := builder.blockingMode
  mtu := builder.mtu

namespace Builder

variable (b : Builder) (addr : InetNetwork)

def addAddress : Builder :=
  { b with addresses := linkedHashSetAdd b.addresses addr }

def clearAddresses : Builder := { b with addresses := [] }

def addDnsServer (dnsServer : InetAddress) : Builder :=
  { b with dnsServers := linkedHashSetAdd b.dnsServers dnsServer }

def setSearchDomain (domain : String) : Builder :=
  { b with searchDomain := some domain }

variable (route : InetNetwork)

def addRoute : Builder :=
  { b with routes := linkedHashSetAdd b.routes ⟨route, true⟩ }

variable (routes : List InetNetwork)

def addRoutes : Builder :=
  { b with routes := linkedHashSetAddAll b.routes (routes.map (⟨·, true⟩)) }

def excludeRoute : Builder :=
  { b with routes := linkedHashSetAdd b.routes ⟨route, false⟩ }

def excludeRoutes : Builder :=
  { b with routes := linkedHashSetAddAll b.routes (routes.map (⟨·, false⟩)) }

def removeRoute : Builder :=
  { b with routes := b.routes.filter (·.inetNetwork ≠ route) }

def clearRoutes : Builder := { b with routes := [] }

def prependRoutes (block : Builder → Outcome Builder) : Outcome Builder := do
  let savedRoutes := b.routes
  let b ← block b.clearRoutes
  return { b with routes := linkedHashSetAddAll b.routes savedRoutes }

def includeAddress : Builder :=
  { b with includedAddresses := linkedHashSetAdd b.includedAddresses addr }

def excludeAddress : Builder :=
  { b with excludedAddresses := linkedHashSetAdd b.excludedAddresses addr }

variable (application : String)

def includeApplication : Builder :=
  { b with includedApplications := linkedHashSetAdd b.includedApplications application }

def excludeApplication : Builder :=
  { b with excludedApplications := linkedHashSetAdd b.excludedApplications application }

def disableSplitTunneling : Builder := { b with allowSplitTunneling := false }

def setMtu (mtu : ℤ) : Builder := { b with mtu := mtu }

variable (order : HashOrder InetNetwork)

/-- Exclusive split tunnelling puts the default routes in front of the excluded ones. -/
def processSplitTunneling (b : Builder) : Outcome Builder := do
  if b.includedAddresses ≠ [] ∧ b.excludedAddresses ≠ [] then
    .error (.badConfigException
      "Config contains addresses for inclusive and exclusive split tunneling at the same time")
  else if b.includedAddresses ≠ [] then
    let b := b.removeRoute (← ofText "0.0.0.0" 0)
    let b := b.removeRoute (← ofText "::" 0)
    let b := b.removeRoute (← ofText "2000::" 3)
    b.prependRoutes fun b => return b.addRoutes (order.iterate b.includedAddresses)
  else if b.excludedAddresses ≠ [] then
    b.prependRoutes fun b => do
      let b := b.addRoute (← ofText "0.0.0.0" 0)
      let b := b.addRoute (← ofText "2000::" 3)
      return b.excludeRoutes (order.iterate b.excludedAddresses)
  else return b

/-- The IPv6 default route becomes `2000::/3` in front of all other routes. -/
def replaceIpv6DefaultRoute : Outcome Builder := do
  let ipv6DefaultRoute ← ofText "::" 0
  let isDefault := fun r : Route => r.include && r.inetNetwork = ipv6DefaultRoute
  let removed := b.routes.any isDefault
  let b := { b with routes := b.routes.filter (!isDefault ·) }
  if removed then
    b.prependRoutes fun b => do
      return b.addRoute (← ofText "2000::" 3)
  else return b

def applyRoute (ipRangeSet : IpRangeSet) (route : Route) : Outcome IpRangeSet := do
  let ipRange ← IpRange.network route.inetNetwork
  if route.include then ipRangeSet.add ipRange else ipRangeSet.remove ipRange

def flattenRoutes : Outcome Builder := do
  let ipRangeSet ← b.routes.foldlM applyRoute IpRangeSet.empty
  let ipRangeSet ← ipRangeSet.remove (← IpRange.network (← ofText "127.0.0.0" 8))
  let ipRangeSet ← ipRangeSet.remove (← IpRange.network (← ofText "::1" 128))
  let subnets ← ipRangeSet.subnets
  return subnets.foldl addRoute b.clearRoutes

/-- A loopback route: it starts with `127` or it is `::1/128`. -/
def isLoopbackRoute (ipv6Loopback : InetNetwork) (route : Route) : Bool :=
  route.include &&
    if route.inetNetwork.isIpv4 then route.inetNetwork.address.address.headD 0 == 127
    else route.inetNetwork = ipv6Loopback

variable (sdk : ℕ)

def processRoutes (b : Builder) : Outcome Builder := do
  let b ← b.replaceIpv6DefaultRoute
  let b ← if sdk < tiramisu ∧ b.routes.any (!·.include) then b.flattenRoutes else .ok b
  let ipv6Loopback ← ofText "::1" 128
  return { b with routes := b.routes.filter fun r => !isLoopbackRoute ipv6Loopback r }

def validate : Outcome Unit :=
  let errorMessage :=
    (if b.addresses = [] then "VPN interface network address not specified.\n" else "") ++
    (if b.routes = [] then "VPN interface route not specified.\n" else "") ++
    (if b.mtu = 0 then "MTU not set.\n" else "")
  if errorMessage ≠ "" then .error (.badConfigException errorMessage) else .ok ()

def configBuild (b : Builder) : Outcome Builder := do
  let b ← b.processSplitTunneling order
  let b ← b.processRoutes sdk
  b.validate
  return b

def build (b : Builder) : Outcome ProtocolConfig :=
  ofBuilder <$> b.configBuild order sdk

end Builder

end ProtocolConfig

end AmneziaVpn
