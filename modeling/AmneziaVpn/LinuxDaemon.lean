import AmneziaVpn.LinuxKillSwitch
import AmneziaVpn.WireguardInterface

/-!
# The platform of the Linux daemon

The interface belongs to the tunnel process, which is told its settings over a socket.
-/

namespace AmneziaVpn

open FallibleOps LinuxFirewall

/-- `QProcess::ProcessState` -/
inductive ProcessState
  | NotRunning
  | Starting
  | Running
deriving DecidableEq

/-- How a call to the system ends. -/
inductive Attempt
  | done
  | refused
  | failed
  | exited
deriving DecidableEq

inductive Via
  | tunnel
  | gateway
deriving DecidableEq

structure KernelRoute where
  destination : IPAddress
  via : Via
deriving DecidableEq

/-- The parameters applied last, unless a command failed. -/
inductive FirewallState
  | uninstalled
  | applied (params : FirewallParams)
  | unknown

structure LinuxPlatform where
  attempts : ℕ → Attempt
  calls : ℕ := 0
  m_tunnel : ProcessState := .NotRunning
  device : Device := {}
  m_rtmonitor : Bool := false
  routes : List KernelRoute := []
  firewall : FirewallState := .uninstalled
  resolvers : List QHostAddress := []

namespace LinuxPlatform

variable (p : LinuxPlatform)

def next : Attempt := p.attempts p.calls

def called : LinuxPlatform := { p with calls := p.calls + 1 }

def exited : LinuxPlatform :=
  { p with m_tunnel := .NotRunning, device := {}, routes := p.routes.filter (·.via ≠ .tunnel) }

def uapiCommand (f : Device → Device) : Op LinuxPlatform := fun p =>
  match p.next with
  | .done =>
      if p.m_tunnel = .Running then (true, { p.called with device := f p.device })
      else (false, p.called)
  | .exited => (false, p.called.exited)
  | _ => (false, p.called)

def interfaceRequest (f : LinuxPlatform → LinuxPlatform) : Op LinuxPlatform := fun p =>
  if p.m_tunnel = .Running ∧ p.next = .done then (true, f p.called) else (false, p.called)

/-- `buildAllowedIp` and `if_nametoindex` fail without a message to the kernel. -/
def rtmSendRoute (action : List KernelRoute → List KernelRoute) (route : KernelRoute) :
    Op LinuxPlatform := fun p =>
  if route.destination.type = .UnknownNetworkLayerProtocol then (false, p)
  else if route.via = .tunnel ∧ p.m_tunnel ≠ .Running then (false, p)
  else
    match p.next with
    | .done => (true, { p.called with routes := action p.routes })
    | .refused => (true, p.called)
    | _ => (false, p.called)

def newRoute (route : KernelRoute) : Op LinuxPlatform := rtmSendRoute (List.insert route) route

def delRoute (route : KernelRoute) : Op LinuxPlatform := rtmSendRoute (List.filter (· ≠ route)) route

def routeMonitor : RouteMonitor LinuxPlatform where
  present p := p.m_rtmonitor
  insertRoute range := newRoute ⟨range, .tunnel⟩
  deleteRoute range := delRoute ⟨range, .tunnel⟩
  addExclusionRoute range := newRoute ⟨range, .gateway⟩
  deleteExclusionRoute range := delRoute ⟨range, .gateway⟩

/-- A start that timed out leaves the process starting. -/
def startTunnel : Op LinuxPlatform := fun p =>
  match p.next with
  | .done => (true, { p.called with m_tunnel := .Running, device := {} })
  | .exited => (false, p.called.exited)
  | _ => (false, { p.called with m_tunnel := .Starting })

/-- Without a name the process is killed, but counts as running until its exit is noticed. -/
def waitForTunnelName : Op LinuxPlatform := fun p =>
  match p.next with
  | .done => (true, p.called)
  | .exited => (false, p.called.exited)
  | _ => (false, p.called)

def startMonitor : Op LinuxPlatform := fun p => (true, { p with m_rtmonitor := true })

section Interface

variable (qt : QtLibrary)

/-- `IPAddress::toString` -/
def rangeToString (range : IPAddress) : String :=
  qt.print range.m_address ++ "/" ++ toString range.m_prefixLength

variable (config : InterfaceConfig)

def firewallParams : FirewallParams :=
  if .ofString qt.toQtParser "0.0.0.0/0" ∈ config.m_allowedIPAddressRanges then
    ⟨[config.m_dnsServer], config.m_excludedAddresses, [], true,
      config.m_excludedAddresses ≠ [], false⟩
  else
    ⟨[config.m_dnsServer], [], config.m_allowedIPAddressRanges.map (rangeToString qt), false, false,
      true⟩

def applyFirewallRules (params : FirewallParams) : Op LinuxPlatform := fun p =>
  if p.next = .done then (true, { p.called with firewall := .applied params })
  else (false, { p.called with firewall := .unknown })

def enableKillSwitch : Op LinuxPlatform := fun p =>
  if config.m_killSwitchEnabled then (applyFirewallRules (firewallParams qt config)).ignore p
  else (true, p)

/-- `set=1` with `replace_peers=true` -/
def configureInterface : Op LinuxPlatform :=
  uapiCommand fun device =>
    { device with program := some (WireguardInterface.program qt config), peers := [] }

def addInterface : Op LinuxPlatform := fun p =>
  if p.m_tunnel ≠ .NotRunning then (false, p)
  else
    (startTunnel
    |>.andThen waitForTunnelName
    |>.andThen startMonitor
    |>.andThen (configureInterface qt config)
    |>.andThen (enableKillSwitch qt config)) p

/-- The process is asked to terminate, then killed. -/
def stopTunnel : Op LinuxPlatform := fun p =>
  if p.next = .done ∨ p.next = .exited then (true, p.called.exited) else (false, p.called)

def uninstallFirewall : Op LinuxPlatform := fun p =>
  if p.next = .done then (true, { p.called with firewall := .uninstalled })
  else (false, { p.called with firewall := .unknown })

def deleteInterface : Op LinuxPlatform := fun p =>
  let p := { p with m_rtmonitor := false }
  if p.m_tunnel = .NotRunning then (false, p)
  else (stopTunnel.ignore.andThen uninstallFirewall.ignore) p

def addInterfaceIPs : Op LinuxPlatform :=
  (interfaceRequest fun p => { p with
    device := { p.device with ipv4Address := some config.m_deviceIpv4Address } }).andThen
  (interfaceRequest fun p => { p with
    device := { p.device with ipv6Address := some config.m_deviceIpv6Address } })

def setMTUAndUp : Op LinuxPlatform :=
  interfaceRequest fun p => { p with device := { p.device with mtu := some config.m_deviceMTU } }

def linux : DaemonPlatform LinuxPlatform where
  toWireguardUtils := WireguardInterface.utils qt routeMonitor uapiCommand
  interfaceExists p := p.m_tunnel = .Running
  addInterface := addInterface qt
  deleteInterface := deleteInterface
  updateResolvers resolvers := interfaceRequest fun p => { p with resolvers }
  restoreResolvers p := (true, { p with resolvers := [] })
  addInterfaceIPs := addInterfaceIPs
  setMTUAndUp := setMTUAndUp
  run _ _ p := (true, p)

end Interface

def smooth : LinuxPlatform := { attempts := fun _ => .done }

end LinuxPlatform

def sampleQt : QtLibrary where
  parse text :=
    if text = "10.0.0.1" then .ipv4 0x0a000001
    else if text = "10.0.0.2" then .ipv4 0x0a000002
    else .null
  parseSubnet text :=
    if text = "0.0.0.0/1" then (.ipv4 0, 1)
    else if text = "128.0.0.0/1" then (.ipv4 0x80000000, 1)
    else if text = "::/1" then (.ipv6 .zero, 1)
    else if text = "8000::/1" then (.ipv6 ⟨0x80 :: List.replicate 15 0, rfl⟩, 1)
    else if text = "10.0.0.0/8" then (.ipv4 0x0a000000, 8)
    else (.null, -1)
  parseSubnet_nonneg text h := by
    split_ifs at h ⊢ <;> simp_all
  print _ := ""
  fromBase64 _ := []
  parse_empty := by decide
  parse_lowerIpv4 := by decide
  parse_upperIpv4 := by decide
  parse_lowerIpv6 := by decide
  parse_upperIpv6 := by decide

def sampleConfig : InterfaceConfig where
  m_hopType := .SingleHop
  m_privateKey := "a"
  m_deviceIpv4Address := "10.0.0.2"
  m_deviceIpv6Address := ""
  m_serverIpv4Gateway := ""
  m_serverIpv6Gateway := ""
  m_serverPublicKey := "b"
  m_serverIpv4AddrIn := some "10.0.0.1"
  m_serverPskKey := none
  m_serverIpv6AddrIn := none
  m_dnsServer := ""
  m_allowedIPAddressRanges := [⟨.ipv4 0x14000000, 8⟩]
  m_excludedAddresses := []
  m_killSwitchEnabled := true

end AmneziaVpn
