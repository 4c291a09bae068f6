import AmneziaVpn.Daemon

/-!
# Peers and routes of a WireGuard interface

The functions for peers and routes are the same on Linux and macOS. They differ in the route monitor
they call and in the socket of the tunnel process, both of which are parameters here.
-/

namespace AmneziaVpn

open FallibleOps

/-- What the daemon uses of Qt besides reading addresses. -/
structure QtLibrary extends QtParser where
  print : QHostAddress → String
  fromBase64 : String → List UInt8
  parse_empty : parse "" = .null
  parse_lowerIpv4 : parseSubnet "0.0.0.0/1" = (.ipv4 0, 1)
  parse_upperIpv4 : parseSubnet "128.0.0.0/1" = (.ipv4 0x80000000, 1)
  parse_lowerIpv6 : parseSubnet "::/1" = (.ipv6 .zero, 1)
  parse_upperIpv6 : parseSubnet "8000::/1" =
    (.ipv6 ⟨0x80 :: List.replicate 15 0, rfl⟩, 1)

structure Peer where
  publicKey : List UInt8
  presharedKey : Option (List UInt8)
  endpoint : String
  allowedIps : List IPAddress

/-- An empty parameter is not sent. -/
structure Program where
  privateKey : List UInt8
  jc : String
  jmin : String
  jmax : String
  s1 : String
  s2 : String
  h1 : String
  h2 : String
  h3 : String
  h4 : String
deriving DecidableEq

structure Device where
  program : Option Program := none
  peers : List Peer := []
  ipv4Address : Option String := none
  ipv6Address : Option String := none
  mtu : Option ℤ := none

structure RouteMonitor (σ : Type) where
  present : σ → Bool
  insertRoute : IPAddress → Op σ
  deleteRoute : IPAddress → Op σ
  addExclusionRoute : IPAddress → Op σ
  deleteExclusionRoute : IPAddress → Op σ

namespace WireguardInterface

variable {σ : Type} (qt : QtLibrary) (M : RouteMonitor σ) (uapi : (Device → Device) → Op σ)

variable (config : InterfaceConfig)

/-- `private_key=..` and the parameters behind it. -/
def program : Program where
  privateKey := qt.fromBase64 config.m_privateKey
  jc := config.m_junkPacketCount
  jmin := config.m_junkPacketMinSize
  jmax := config.m_junkPacketMaxSize
  s1 := config.m_initPacketJunkSize
  s2 := config.m_responsePacketJunkSize
  h1 := config.m_initPacketMagicHeader
  h2 := config.m_responsePacketMagicHeader
  h3 := config.m_underloadPacketMagicHeader
  h4 := config.m_transportPacketMagicHeader

/-- The address the peer is reached at: the one of IPv4 unless it is null. -/
def endpointAddress : Option String :=
  config.m_serverIpv4AddrIn.or config.m_serverIpv6AddrIn

def endpoint : Option String :=
  (config.m_serverIpv4AddrIn.or
    (config.m_serverIpv6AddrIn.map fun address => "[" ++ address ++ "]")).map fun address =>
      address ++ ":" ++ toString config.m_serverPort

def serverAddresses : List IPAddress :=
  [.ofString qt.toQtParser (config.m_serverIpv4AddrIn.getD ""),
    .ofString qt.toQtParser (config.m_serverIpv6AddrIn.getD "")]

def Device.updatePeer (peer : Peer) (device : Device) : Device :=
  { device with peers := device.peers.filter (·.publicKey ≠ peer.publicKey) ++ [peer] }

def Device.deletePeer (publicKey : List UInt8) (device : Device) : Device :=
  { device with peers := device.peers.filter (·.publicKey ≠ publicKey) }

/-- Exclude the server address, except for multihop exit servers. -/
def excludeServer : Op σ := fun p =>
  if config.m_hopType ≠ .MultiHopExit ∧ M.present p then
    Op.each M.addExclusionRoute (serverAddresses qt config) p
  else (true, p)

def includeServer : Op σ := fun p =>
  if config.m_hopType ≠ .MultiHopExit ∧ M.present p then
    Op.each M.deleteExclusionRoute (serverAddresses qt config) p
  else (true, p)

def updatePeer : Op σ :=
  match endpoint config with
  | none => fun p => (false, p)
  | some endpoint =>
      (excludeServer qt M config).andThen (uapi (Device.updatePeer
        ⟨qt.fromBase64 config.m_serverPublicKey, config.m_serverPskKey.map qt.fromBase64, endpoint,
          config.m_allowedIPAddressRanges⟩))

def deletePeer : Op σ :=
  (includeServer qt M config).andThen
    (uapi (Device.deletePeer (qt.fromBase64 config.m_serverPublicKey)))

/-- The two networks of prefix length 1 of a family. -/
def halves (type : NetworkLayerProtocol) : List IPAddress :=
  match type with
  | .IPv4Protocol =>
      [.ofString qt.toQtParser "0.0.0.0/1", .ofString qt.toQtParser "128.0.0.0/1"]
  | .IPv6Protocol => [.ofString qt.toQtParser "::/1", .ofString qt.toQtParser "8000::/1"]
  | .UnknownNetworkLayerProtocol => []

variable (range : IPAddress)

def updateRoutePrefix : Op σ := fun p =>
  if !M.present p then (false, p)
  else if range.m_prefixLength > 0 then M.insertRoute range p
  else if range.type = .UnknownNetworkLayerProtocol then (false, p)
  else Op.allOf M.insertRoute (halves qt range.type) p

/-- A route of positive length is inserted here as well. -/
def deleteRoutePrefix : Op σ := fun p =>
  if !M.present p then (false, p)
  else if range.m_prefixLength > 0 then M.insertRoute range p
  else if range.type = .UnknownNetworkLayerProtocol then (false, p)
  else Op.allOf M.deleteRoute (halves qt range.type) p

def addExclusionRoute : Op σ := fun p =>
  if !M.present p then (false, p) else M.addExclusionRoute range p

def deleteExclusionRoute : Op σ := fun p =>
  if !M.present p then (false, p) else M.deleteExclusionRoute range p

def utils : WireguardUtils σ where
  updatePeer := updatePeer qt M uapi
  deletePeer := deletePeer qt M uapi
  updateRoutePrefix := updateRoutePrefix qt M
  deleteRoutePrefix := deleteRoutePrefix qt M
  addExclusionRoute := addExclusionRoute M
  deleteExclusionRoute := deleteExclusionRoute M

end WireguardInterface

end AmneziaVpn
