import AmneziaVpn.FallibleOps
import AmneziaVpn.MozillaIpAddress

/-!
# The daemon

The daemon keeps one connection for each kind of hop and brings the interface, the peers and the
routes up and down through the operations of its platform, any of which can fail.
-/

namespace AmneziaVpn

open FallibleOps

inductive HopType
  | SingleHop
  | MultiHopEntry
  | MultiHopExit
deriving DecidableEq

/-- Texts read as empty when null, except where the source asks for null. -/
structure InterfaceConfig where
  m_hopType : HopType
  m_privateKey : String
  m_deviceIpv4Address : String
  m_deviceIpv6Address : String
  m_serverIpv4Gateway : String
  m_serverIpv6Gateway : String
  m_serverPublicKey : String
  m_serverIpv4AddrIn : Option String
  m_serverPskKey : Option String
  m_serverIpv6AddrIn : Option String
  m_dnsServer : String
  m_serverPort : ℤ := 0
  m_deviceMTU : ℤ := 1420
  m_allowedIPAddressRanges : List IPAddress
  m_excludedAddresses : List String
  m_killSwitchEnabled : Bool
  m_junkPacketCount : String := ""
  m_junkPacketMinSize : String := ""
  m_junkPacketMaxSize : String := ""
  m_initPacketJunkSize : String := ""
  m_responsePacketJunkSize : String := ""
  m_initPacketMagicHeader : String := ""
  m_responsePacketMagicHeader : String := ""
  m_underloadPacketMagicHeader : String := ""
  m_transportPacketMagicHeader : String := ""

/-- The constructor of `IPAddress` from an address. A null address gets the length of IPv6. -/
def IPAddress.ofHostAddress (address : QHostAddress) : IPAddress :=
  if address.protocol = .IPv4Protocol then ⟨address, 32⟩ else ⟨address, 128⟩

/-- What switching the server asks of a platform. -/
structure WireguardUtils (σ : Type) where
  updatePeer : InterfaceConfig → Op σ
  deletePeer : InterfaceConfig → Op σ
  updateRoutePrefix : IPAddress → Op σ
  deleteRoutePrefix : IPAddress → Op σ
  addExclusionRoute : IPAddress → Op σ
  deleteExclusionRoute : IPAddress → Op σ

inductive RunOp
  | Up
  | Down
  | Switch

structure DaemonPlatform (σ : Type) extends WireguardUtils σ where
  interfaceExists : σ → Bool
  addInterface : InterfaceConfig → Op σ
  deleteInterface : Op σ
  updateResolvers : List QHostAddress → Op σ
  restoreResolvers : Op σ
  addInterfaceIPs : InterfaceConfig → Op σ
  setMTUAndUp : InterfaceConfig → Op σ
  run : RunOp → InterfaceConfig → Op σ

inductive Signal
  | connected (pubkey : String)
  | activationFailure
  | disconnected

structure ConnectionState where
  m_config : InterfaceConfig
  m_date : Option ℤ := none

/-- The set of excluded addresses has each address as many times as the source counts it. -/
structure Daemon (σ : Type) where
  m_connections : HopType → Option ConnectionState
  m_excludedAddrSet : List IPAddress
  m_handshakeTimer : Bool
  signals : List Signal
  platform : σ

namespace Daemon

variable {σ : Type} (qt : QtParser)

def initial (platform : σ) : Daemon σ := ⟨fun _ => none, [], false, [], platform⟩

def connections (d : Daemon σ) : List ConnectionState :=
  [.SingleHop, .MultiHopEntry, .MultiHopExit].filterMap d.m_connections

def onPlatform (a : Op σ) : Op (Daemon σ) := fun d =>
  ((a d.platform).1, { d with platform := (a d.platform).2 })

def emit (signal : Signal) (d : Daemon σ) : Daemon σ :=
  { d with signals := d.signals ++ [signal] }

def register (config : InterfaceConfig) (d : Daemon σ) : Daemon σ :=
  { d with
    m_connections := Function.update d.m_connections config.m_hopType (some ⟨config, none⟩) }

/-- Registered again, with the poll for handshakes started. -/
def established (config : InterfaceConfig) : Op (Daemon σ) := fun d =>
  (true, { d.register config with m_handshakeTimer := true })

section Switching

variable (U : WireguardUtils σ)

def addExclusionRoute (range : IPAddress) : Op (Daemon σ) := fun d =>
  if range ∈ d.m_excludedAddrSet then
    (true, { d with m_excludedAddrSet := range :: d.m_excludedAddrSet })
  else
    let (added, platform) := U.addExclusionRoute range d.platform
    if added then
      (true, { d with m_excludedAddrSet := range :: d.m_excludedAddrSet, platform })
    else (false, { d with platform })

/-- An address that is not counted is looked up as a count of zero and removed again. -/
def delExclusionRoute (range : IPAddress) : Op (Daemon σ) := fun d =>
  let d' := { d with m_excludedAddrSet := d.m_excludedAddrSet.erase range }
  if d.m_excludedAddrSet.count range > 1 then (true, d')
  else onPlatform (U.deleteExclusionRoute range) d'

def supportServerSwitching (current config : InterfaceConfig) : Bool :=
  current.m_privateKey = config.m_privateKey &&
    current.m_deviceIpv4Address = config.m_deviceIpv4Address &&
    current.m_deviceIpv6Address = config.m_deviceIpv6Address &&
    current.m_serverIpv4Gateway = config.m_serverIpv4Gateway &&
    current.m_serverIpv6Gateway = config.m_serverIpv6Gateway

def exclusions (config : InterfaceConfig) : List IPAddress :=
  config.m_excludedAddresses.map (IPAddress.ofString qt)

/-- The prefixes deleted for them by a switch: the texts are read as addresses. -/
def switchedExclusions (config : InterfaceConfig) : List IPAddress :=
  config.m_excludedAddresses.map fun i => .ofHostAddress (qt.parse i)

def goneRanges (lastConfig config : InterfaceConfig) : List IPAddress :=
  lastConfig.m_allowedIPAddressRanges.filter (· ∉ config.m_allowedIPAddressRanges)

def deleteOldPeer (lastConfig config : InterfaceConfig) : Op (Daemon σ) := fun d =>
  if config.m_serverPublicKey ≠ lastConfig.m_serverPublicKey then
    onPlatform (U.deletePeer lastConfig) d
  else (true, d)

def switchServer (lastConfig config : InterfaceConfig) : Op (Daemon σ) :=
  Op.each (addExclusionRoute U) (exclusions qt config)
  |>.andThen (onPlatform (U.updatePeer config))
  |>.andThen (Op.allOf (fun ip => onPlatform (U.updateRoutePrefix ip))
      config.m_allowedIPAddressRanges).ignore
  |>.andThen (Op.each (delExclusionRoute U) (switchedExclusions qt lastConfig))
  |>.andThen (Op.each (fun ip => onPlatform (U.deleteRoutePrefix ip)) (goneRanges lastConfig config))
  |>.andThen (deleteOldPeer U lastConfig config)
  |>.andThen fun d => (true, d.register config)

end Switching

variable (P : DaemonPlatform σ)

def maybeUpdateResolvers (config : InterfaceConfig) : Op (Daemon σ) := fun d =>
  if config.m_hopType = .MultiHopExit ∨ config.m_hopType = .SingleHop then
    let resolvers := [qt.parse config.m_dnsServer] ++
      if config.m_dnsServer = config.m_serverIpv4Gateway then
        [qt.parse config.m_serverIpv6Gateway]
      else []
    onPlatform (P.updateResolvers resolvers) d
  else (true, d)

def runDown : Op (Daemon σ) := fun d =>
  match d.connections with
  | [] => (true, d)
  | state :: _ => onPlatform (P.run .Down state.m_config) d

def deleteConnection (state : ConnectionState) : Op (Daemon σ) :=
  Op.each (fun ip => onPlatform (P.deleteRoutePrefix ip)) state.m_config.m_allowedIPAddressRanges
  |>.andThen (onPlatform (P.deletePeer state.m_config)).ignore

def clearExclusions : Op (Daemon σ) := fun d =>
  let (done, d') := Op.each (fun p => onPlatform (P.deleteExclusionRoute p))
    d.m_excludedAddrSet.dedup d
  (done, { d' with m_excludedAddrSet := [] })

def deactivate (emitSignals : Bool) : Op (Daemon σ) :=
  (runDown P)
  |>.andThen (fun d => (true, if emitSignals then d.emit .disconnected else d))
  |>.andThen (onPlatform P.restoreResolvers)
  |>.andThen (fun d => (P.interfaceExists d.platform, d))
  |>.andThen (fun d => Op.each (deleteConnection P) d.connections d)
  |>.andThen (clearExclusions P)
  |>.andThen (onPlatform P.deleteInterface)
  |>.andThen fun d => (true, { d with m_connections := fun _ => none })

def ensureInterface (config : InterfaceConfig) : Op (Daemon σ) := fun d =>
  if P.interfaceExists d.platform then (true, d) else onPlatform (P.addInterface config) d

def bringUpPeer (config : InterfaceConfig) : Op (Daemon σ) :=
  (Op.each (addExclusionRoute P.toWireguardUtils) (exclusions qt config))
  |>.andThen (onPlatform (P.updatePeer config))
  |>.andThen (maybeUpdateResolvers qt P config)
  |>.andThen (onPlatform (P.addInterfaceIPs config))
  |>.andThen (onPlatform (P.setMTUAndUp config))
  |>.andThen (Op.allOf (fun ip => onPlatform (P.updateRoutePrefix ip))
      config.m_allowedIPAddressRanges)
  |>.andThen (onPlatform (P.run .Up config))
  |>.andThen (established config)

def bringUp (config : InterfaceConfig) : Op (Daemon σ) :=
  (ensureInterface P config).andThen (bringUpPeer qt P config)

def switchTo (lastConfig config : InterfaceConfig) : Op (Daemon σ) :=
  (switchServer qt P.toWireguardUtils lastConfig config)
  |>.andThen (onPlatform P.restoreResolvers)
  |>.andThen (maybeUpdateResolvers qt P config)
  |>.andThen (onPlatform (P.run .Switch config))
  |>.andThen (established config)

def failureGuard (a : Op (Daemon σ)) : Op (Daemon σ) := fun d =>
  if (a d).1 then a d else (false, (a d).2.emit .activationFailure)

/-- After `deactivate` no connection is left. -/
def activate (config : InterfaceConfig) : Op (Daemon σ) := fun d =>
  failureGuard (match d.m_connections config.m_hopType with
    | none => bringUp qt P config
    | some current =>
        if supportServerSwitching current.m_config config then
          switchTo qt P current.m_config config
        else (deactivate P false).andThen (failureGuard (bringUp qt P config))) d

end Daemon

end AmneziaVpn
