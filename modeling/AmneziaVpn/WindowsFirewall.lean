import AmneziaVpn.MozillaIpAddress
import AmneziaVpn.WeightedArbitration

/-!
# The firewall of the Windows daemon

`WindowsFirewall` adds filters to one sublayer of the Windows Filtering Platform.
-/

namespace AmneziaVpn.WindowsFirewall

def LOW_WEIGHT : UInt8 := 0

def MED_WEIGHT : UInt8 := 7

def HIGH_WEIGHT : UInt8 := 13

def MAX_WEIGHT : UInt8 := 15

def IPPROTO_TCP : UInt8 := 6

def IPPROTO_UDP : UInt8 := 17

def FWP_CONDITION_L2_IS_VM2VM : UInt32 := 0x10

abbrev AppId := List UInt8

inductive Layer
  | ALE_AUTH_CONNECT_V4
  | ALE_AUTH_RECV_ACCEPT_V4
  | ALE_AUTH_CONNECT_V6
  | ALE_AUTH_RECV_ACCEPT_V6
  | OUTBOUND_MAC_FRAME_NATIVE
  | INBOUND_MAC_FRAME_NATIVE
deriving DecidableEq

inductive Value
  | uint32 (n : UInt32)
  | byteArray16 (a : Q_IPV6ADDR)
deriving DecidableEq

inductive Field
  | ALE_APP_ID
  | INTERFACE_INDEX
  | IP_PROTOCOL
  | IP_LOCAL_PORT
  | IP_REMOTE_PORT
  | IP_REMOTE_ADDRESS
  | L2_FLAGS
deriving DecidableEq

inductive Condition
  | appId (id : AppId)
  | interfaceIndex (index : UInt32)
  | protocol (number : UInt8)
  | localPort (port : UInt16)
  | remotePort (port : UInt16)
  | remoteAddress (value : Value)
  | remoteRange (valueLow valueHigh : Value)
  | l2Flags (flags : UInt32)
deriving DecidableEq

def Condition.field : Condition → Field
  | appId _ => .ALE_APP_ID
  | interfaceIndex _ => .INTERFACE_INDEX
  | protocol _ => .IP_PROTOCOL
  | localPort _ => .IP_LOCAL_PORT
  | remotePort _ => .IP_REMOTE_PORT
  | remoteAddress _ => .IP_REMOTE_ADDRESS
  | remoteRange _ _ => .IP_REMOTE_ADDRESS
  | l2Flags _ => .L2_FLAGS

inductive Action
  | permit
  | block
deriving DecidableEq

structure Filter where
  conditions : List Condition
  action : Action
  weight : UInt8
  layerKey : Layer
deriving DecidableEq

/-- A null address is read as zero bytes. -/
def importAddress : QHostAddress → Value
  | .ipv4 a => .uint32 a
  | .ipv6 a => .byteArray16 a
  | .null => .byteArray16 .zero

variable (family : NetworkLayerProtocol)

def layerOut : Layer :=
  if family = .IPv4Protocol then .ALE_AUTH_CONNECT_V4 else .ALE_AUTH_CONNECT_V6

def layerIn : Layer :=
  if family = .IPv4Protocol then .ALE_AUTH_RECV_ACCEPT_V4 else .ALE_AUTH_RECV_ACCEPT_V6

def appFilters (id : AppId) (weight : UInt8) : List Filter :=
  [.ALE_AUTH_CONNECT_V4, .ALE_AUTH_RECV_ACCEPT_V4].map fun layer =>
    ⟨[.appId id], .permit, weight, layer⟩

def adapterFilters (networkAdapter : Int32) (weight : UInt8) : List Filter :=
  [.ALE_AUTH_CONNECT_V4, .ALE_AUTH_RECV_ACCEPT_V4, .ALE_AUTH_CONNECT_V6,
    .ALE_AUTH_RECV_ACCEPT_V6].map fun layer =>
    ⟨[.interfaceIndex networkAdapter.toUInt32], .permit, weight, layer⟩

def addressFilters (targetIP : QHostAddress) (port : UInt16) (weight : UInt8) : List Filter :=
  [layerOut targetIP.protocol, layerIn targetIP.protocol].map fun layer =>
    ⟨[.protocol IPPROTO_UDP, .protocol IPPROTO_TCP, .remotePort port,
      .remoteAddress (importAddress targetIP)], .permit, weight, layer⟩

def rangeFilters (action : Action) (addr : IPAddress) (weight : UInt8) : List Filter :=
  [layerOut addr.type, layerIn addr.type].map fun layer =>
    ⟨[.remoteRange (importAddress addr.m_address) (importAddress addr.broadcastAddress)], action,
      weight, layer⟩

/-- Only the outbound IPv4 filter names the remote address. -/
def dhcpFilters (weight : UInt8) : List Filter :=
  [⟨[.protocol IPPROTO_UDP, .localPort 68, .remotePort 67,
      .remoteAddress (.uint32 0xffffffff)], .permit, weight, .ALE_AUTH_CONNECT_V4⟩] ++
  [.ALE_AUTH_RECV_ACCEPT_V4, .ALE_AUTH_CONNECT_V6, .ALE_AUTH_RECV_ACCEPT_V6].map fun layer =>
    ⟨[.protocol IPPROTO_UDP, .localPort 68, .remotePort 67], .permit, weight, layer⟩

def hyperVFilters (weight : UInt8) : List Filter :=
  [.OUTBOUND_MAC_FRAME_NATIVE, .INBOUND_MAC_FRAME_NATIVE].map fun layer =>
    ⟨[.l2Flags FWP_CONDITION_L2_IS_VM2VM], .permit, weight, layer⟩

def portFilters (port : UInt16) (weight : UInt8) : List Filter :=
  [.ALE_AUTH_CONNECT_V6, .ALE_AUTH_CONNECT_V4, .ALE_AUTH_RECV_ACCEPT_V4,
    .ALE_AUTH_RECV_ACCEPT_V6].map fun layer =>
    ⟨[.protocol IPPROTO_UDP, .protocol IPPROTO_TCP, .remotePort port], .block, weight, layer⟩

/-- The filters in force, and the filters as the open transaction sees them. -/
structure Engine where
  filters : List (ℕ × Filter)
  pending : Option (List (ℕ × Filter))
  nextId : ℕ

namespace Engine

variable (e : Engine)

def begin : Option Engine :=
  match e.pending with
  | none => some { e with pending := some e.filters }
  | some _ => none

def commit : Option Engine :=
  match e.pending with
  | some fs => some { e with filters := fs, pending := none }
  | none => none

def abort : Option Engine :=
  match e.pending with
  | some _ => some { e with pending := none }
  | none => none

def edit (f : List (ℕ × Filter) → List (ℕ × Filter)) : Engine :=
  match e.pending with
  | some fs => { e with pending := some (f fs) }
  | none => { e with filters := f e.filters }

def add (filter : Filter) : Engine :=
  { e.edit (· ++ [(e.nextId, filter)]) with nextId := e.nextId + 1 }

def delete (id : ℕ) : Engine := e.edit (·.filter fun entry => entry.1 != id)

end Engine

structure NetworkInterface where
  isLoopback : Bool
  index : Int32

/-- `succeeds n` says whether the engine carries out call `n`. -/
structure Platform where
  qt : QtParser
  succeeds : ℕ → Bool
  getCurrentPath : String
  appIdFromFileName : String → Option AppId
  allInterfaces : List NetworkInterface

structure State where
  engine : Engine
  m_activeRules : List ℕ
  m_peerRules : List (String × ℕ)
  calls : ℕ

abbrev Op := State → Bool × State

def Op.andThen (a b : Op) : Op := fun s =>
  match a s with
  | (true, s') => b s'
  | (false, s') => (false, s')

def Op.allOf : List Op → Op
  | [] => fun s => (true, s)
  | a :: as => a.andThen (allOf as)

variable (sys : Platform)

/-- A call to the engine, which also fails where the engine refuses it. -/
def call (f : Engine → Option Engine) : Op := fun s =>
  match sys.succeeds s.calls, f s.engine with
  | true, some e => (true, { s with engine := e, calls := s.calls + 1 })
  | _, _ => (false, { s with calls := s.calls + 1 })

def FwpmTransactionBegin : Op := call sys Engine.begin

def FwpmTransactionCommit0 : Op := call sys Engine.commit

def FwpmTransactionAbort0 : Op := call sys Engine.abort

def FwpmFilterDeleteById0 (id : ℕ) : Op := call sys fun e => some (e.delete id)

/-- The identifier of a new filter is recorded at once, also inside a transaction. -/
def enableFilter (filter : Filter) (peer : String) : Op := fun s =>
  match call sys (fun e => some (e.add filter)) s with
  | (false, s') => (false, s')
  | (true, s') =>
    if peer.isEmpty then
      (true, { s' with m_activeRules := s'.m_activeRules ++ [s.engine.nextId] })
    else (true, { s' with m_peerRules := (peer, s.engine.nextId) :: s'.m_peerRules })

def enableFilters (filters : List Filter) (peer : String) : Op :=
  Op.allOf (filters.map fun filter => enableFilter sys filter peer)

def allowTrafficForAppOnAll (exePath : String) (weight : UInt8) : Op :=
  match sys.appIdFromFileName exePath with
  | none => fun s => (false, s)
  | some id => enableFilters sys (appFilters id weight) ""

def allowTrafficOfAdapter (networkAdapter : Int32) (weight : UInt8) : Op :=
  enableFilters sys (adapterFilters networkAdapter weight) ""

def allowTrafficTo (targetIP : QHostAddress) (port : UInt16) (weight : UInt8) (peer : String) : Op :=
  enableFilters sys (addressFilters targetIP port weight) peer

variable (addr : IPAddress)

def allowTrafficToRange (weight : UInt8) (peer : String) : Op :=
  enableFilters sys (rangeFilters .permit addr weight) peer

def allowDHCPTraffic (weight : UInt8) : Op := enableFilters sys (dhcpFilters weight) ""

def allowHyperVTraffic (weight : UInt8) : Op := enableFilters sys (hyperVFilters weight) ""

def blockTrafficTo (weight : UInt8) (peer : String) : Op :=
  enableFilters sys (rangeFilters .block addr weight) peer

def blockTrafficToAll (rangeList : List IPAddress) (weight : UInt8) (peer : String) : Op :=
  Op.allOf (rangeList.map fun range => blockTrafficTo sys range weight peer)

def blockTrafficOnPort (port : UInt16) (weight : UInt8) : Op :=
  enableFilters sys (portFilters port weight) ""

def allowLoopbackTraffic (weight : UInt8) : Op :=
  Op.allOf ((sys.allInterfaces.filter (·.isLoopback)).map fun iface =>
    allowTrafficOfAdapter sys iface.index weight)

def deleteFilters (ids : List ℕ) (s : State) : State :=
  ids.foldl (fun s id => (FwpmFilterDeleteById0 sys id s).2) s

/-- A transaction that cannot be begun or committed is aborted when the function returns. -/
def disablePeerTraffic (pubkey : String) : Op := fun s =>
  match FwpmTransactionBegin sys s with
  | (false, s') => (false, (FwpmTransactionAbort0 sys s').2)
  | (true, s') =>
    let s'' := deleteFilters sys ((s'.m_peerRules.filter (·.1 == pubkey)).map (·.2)) s'
    match FwpmTransactionCommit0 sys
        { s'' with m_peerRules := s''.m_peerRules.filter (·.1 != pubkey) } with
    | (false, t) => (false, (FwpmTransactionAbort0 sys t).2)
    | (true, t) => (true, t)

def disableKillSwitch : Op := fun s =>
  match FwpmTransactionBegin sys s with
  | (false, s') => (false, (FwpmTransactionAbort0 sys s').2)
  | (true, s') =>
    match FwpmTransactionCommit0 sys
        (deleteFilters sys (s'.m_peerRules.map (·.2) ++ s'.m_activeRules) s') with
    | (false, t) => (false, (FwpmTransactionAbort0 sys t).2)
    | (true, t) => (true, { t with m_peerRules := [], m_activeRules := [] })

/-- A failed commit is not followed by an abort. -/
def FW_OK (rule : Op) : Op := fun s =>
  match FwpmTransactionBegin sys s with
  | (false, s') => (false, (disableKillSwitch sys s').2)
  | (true, s') =>
    match rule s' with
    | (false, t) => (false, (disableKillSwitch sys (FwpmTransactionAbort0 sys t).2).2)
    | (true, t) => FwpmTransactionCommit0 sys t

def enableKillSwitch (vpnAdapterIndex : Int32) : Op :=
  Op.allOf [FW_OK sys (allowTrafficOfAdapter sys vpnAdapterIndex MED_WEIGHT),
    FW_OK sys (allowDHCPTraffic sys MED_WEIGHT),
    FW_OK sys (allowHyperVTraffic sys MED_WEIGHT),
    FW_OK sys (allowTrafficForAppOnAll sys sys.getCurrentPath MAX_WEIGHT),
    FW_OK sys (blockTrafficOnPort sys 53 MED_WEIGHT),
    FW_OK sys (allowLoopbackTraffic sys MED_WEIGHT)]

structure InterfaceConfig where
  m_serverPublicKey : String
  m_serverIpv4Gateway : String
  m_serverIpv6Gateway : String
  m_dnsServer : String
  m_allowedIPAddressRanges : List IPAddress
  m_excludedAddresses : List String

variable (config : InterfaceConfig)

def InterfaceConfig.dnsServers (qt : QtParser) : List QHostAddress :=
  if config.m_dnsServer.isEmpty then []
  else if config.m_dnsServer == config.m_serverIpv4Gateway then
    [qt.parse config.m_dnsServer, qt.parse config.m_serverIpv6Gateway]
  else [qt.parse config.m_dnsServer]

def peerRules : Op :=
  (blockTrafficToAll sys config.m_allowedIPAddressRanges LOW_WEIGHT
    config.m_serverPublicKey).andThen
  ((Op.allOf ((config.dnsServers sys.qt).map fun server =>
    allowTrafficTo sys server 53 HIGH_WEIGHT config.m_serverPublicKey)).andThen
  (Op.allOf (config.m_excludedAddresses.map fun i =>
    allowTrafficToRange sys (.ofString sys.qt i) HIGH_WEIGHT config.m_serverPublicKey)))

def enablePeerTraffic : Op := fun s =>
  match FwpmTransactionBegin sys s with
  | (false, s') => (false, (disableKillSwitch sys s').2)
  | (true, s') =>
    match (peerRules sys config).andThen (FwpmTransactionCommit0 sys) s' with
    | (false, t) => (false, (disableKillSwitch sys (FwpmTransactionAbort0 sys t).2).2)
    | (true, t) => (true, t)

/-- An outbound connection as the engine sees it. -/
structure Connection where
  app : AppId
  interfaceIndex : UInt32
  protocol : UInt8
  localPort : UInt16
  remotePort : UInt16
  remote : QHostAddress
  remote_known : remote ≠ .null

/-- Whether a value lies between two others of its type. -/
def Value.between : Value → Value → Value → Bool
  | .uint32 low, .uint32 high, .uint32 x => low ≤ x && x ≤ high
  | .byteArray16 low, .byteArray16 high, .byteArray16 x =>
    low.value ≤ x.value && x.value ≤ high.value
  | _, _, _ => false

def Condition.holds (c : Connection) : Condition → Bool
  | .appId id => c.app == id
  | .interfaceIndex index => c.interfaceIndex == index
  | .protocol number => c.protocol == number
  | .localPort port => c.localPort == port
  | .remotePort port => c.remotePort == port
  | .remoteAddress value => importAddress c.remote == value
  | .remoteRange low high => low.between high (importAddress c.remote)
  | .l2Flags _ => false

def Filter.applies (c : Connection) (f : Filter) : Bool :=
  f.layerKey == layerOut c.remote.protocol &&
    WeightedArbitration.satisfied Condition.field (Condition.holds c) f.conditions

def State.inForce (s : State) : List Filter := s.engine.filters.map (·.2)

def State.blocks (s : State) (c : Connection) : Bool :=
  WeightedArbitration.decides (Filter.applies c) (·.weight.toNat) (·.action == .block) s.inForce

end AmneziaVpn.WindowsFirewall
