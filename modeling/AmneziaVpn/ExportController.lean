import AmneziaVpn.QtRuntime

/-!
# The export of configurations

An export prints a server configuration as JSON, compresses it and writes it into a `vpn://` link in
Base64.
-/

namespace AmneziaVpn

inductive DockerContainer
  | None
  | Awg
  | WireGuard
  | OpenVpn
  | Cloak
  | ShadowSocks
  | Ipsec
  | Xray
  | SSXray
  | TorWebSite
  | Dns
  | Sftp
  | Socks5Proxy
deriving DecidableEq

inductive Proto
  | Any
  | OpenVpn
  | ShadowSocks
  | Cloak
  | WireGuard
  | Awg
  | Ikev2
  | L2tp
  | Xray
  | SSXray
  | TorWebSite
  | Dns
  | Sftp
  | Socks5Proxy
deriving DecidableEq

/-- The key of the enumeration in lower case, except for `Any`. -/
def ProtocolProps.protoToString : Proto → String
  | .Any => ""
  | .OpenVpn => "openvpn"
  | .ShadowSocks => "shadowsocks"
  | .Cloak => "cloak"
  | .WireGuard => "wireguard"
  | .Awg => "awg"
  | .Ikev2 => "ikev2"
  | .L2tp => "l2tp"
  | .Xray => "xray"
  | .SSXray => "ssxray"
  | .TorWebSite => "torwebsite"
  | .Dns => "dns"
  | .Sftp => "sftp"
  | .Socks5Proxy => "socks5proxy"

namespace ContainerProps

/-- `amnezia-` and the key of the enumeration in lower case, with two exceptions. -/
def containerToString : DockerContainer → String
  | .None => "none"
  | .Awg => "amnezia-awg"
  | .WireGuard => "amnezia-wireguard"
  | .OpenVpn => "amnezia-openvpn"
  | .Cloak => "amnezia-openvpn-cloak"
  | .ShadowSocks => "amnezia-shadowsocks"
  | .Ipsec => "amnezia-ipsec"
  | .Xray => "amnezia-xray"
  | .SSXray => "amnezia-ssxray"
  | .TorWebSite => "amnezia-torwebsite"
  | .Dns => "amnezia-dns"
  | .Sftp => "amnezia-sftp"
  | .Socks5Proxy => "amnezia-socks5proxy"

def allContainers : List DockerContainer :=
  [.None, .Awg, .WireGuard, .OpenVpn, .Cloak, .ShadowSocks, .Ipsec, .Xray, .SSXray, .TorWebSite,
    .Dns, .Sftp, .Socks5Proxy]

def containerFromString (container : String) : DockerContainer :=
  (allContainers.find? fun c => container == containerToString c).getD .None

def defaultProtocol : DockerContainer → Proto
  | .None => .Any
  | .OpenVpn => .OpenVpn
  | .Cloak => .Cloak
  | .ShadowSocks => .ShadowSocks
  | .WireGuard => .WireGuard
  | .Awg => .Awg
  | .Xray => .Xray
  | .Ipsec => .Ikev2
  | .SSXray => .SSXray
  | .TorWebSite => .TorWebSite
  | .Dns => .Dns
  | .Sftp => .Sftp
  | .Socks5Proxy => .Socks5Proxy

def protocolsForContainer : DockerContainer → List Proto
  | .None => []
  | .OpenVpn => [.OpenVpn]
  | .ShadowSocks => [.OpenVpn, .ShadowSocks]
  | .Cloak => [.OpenVpn, .ShadowSocks, .Cloak]
  | .Ipsec => [.Ikev2]
  | .Xray => [.Xray]
  | .SSXray => [.SSXray]
  | .Dns => [.Dns]
  | .Sftp => [.Sftp]
  | .Socks5Proxy => [.Socks5Proxy]
  | c => [defaultProtocol c]

end ContainerProps

namespace ExportController

open ContainerProps ProtocolProps

def withoutLastConfigs (containerConfig : QJsonObject) : QJsonObject :=
  let containerType := containerFromString (containerConfig.value "container").toString
  (protocolsForContainer containerType).foldl (fun containerConfig protocol =>
    let protocolConfig := (containerConfig.value (protoToString protocol)).toObject
    containerConfig.insert (protoToString protocol) (.object (protocolConfig.remove "last_config")))
    containerConfig

def fullAccessConfig (serverConfig : QJsonObject) : QJsonObject :=
  let containers := (serverConfig.value "containers").toArray
  serverConfig.insert "containers"
    (.array (containers.map fun container => .object (withoutLastConfigs container.toObject)))

/-- What `generateConnectionConfig` reads besides the server configuration. -/
structure Connection where
  container : DockerContainer
  containerConfig : QJsonObject
  createAndAppend : QJsonObject → Option QJsonObject
  dns : String × String

def connectionConfig (connection : Connection) (serverConfig : QJsonObject) :
    Option QJsonObject := do
  let name := containerToString connection.container
  let containerConfig ← connection.createAndAppend
    (connection.containerConfig.insert "container" (.string name))
  let serverConfig := ((serverConfig.remove "userName").remove "password").remove "port"
  let serverConfig := serverConfig.insert "containers" (.array [.object containerConfig])
  let serverConfig := serverConfig.insert "defaultContainer" (.string name)
  let serverConfig := serverConfig.insert "dns1" (.string connection.dns.1)
  return serverConfig.insert "dns2" (.string connection.dns.2)

variable (qt : QtRuntime)

def vpnLink (serverConfig : QJsonObject) : String :=
  "vpn://" ++ Utils.toBase64Url (qt.qCompress (QString.toUtf8 (qt.indented serverConfig)))

def generateFullAccessConfig (serverConfig : QJsonObject) : String :=
  vpnLink qt (fullAccessConfig serverConfig)

def generateConnectionConfig (connection : Connection) (serverConfig : QJsonObject) :
    Option String :=
  (connectionConfig connection serverConfig).map (vpnLink qt)

/-- The objects that are exported for a server configuration, with their links. -/
inductive Exports (serverConfig : QJsonObject) : QJsonObject → String → Prop
  | fullAccess :
      Exports serverConfig (fullAccessConfig serverConfig) (generateFullAccessConfig qt serverConfig)
  | connection {connection : Connection} {exported : QJsonObject} {link : String} :
      connectionConfig connection serverConfig = some exported →
      generateConnectionConfig qt connection serverConfig = some link →
      Exports serverConfig exported link

variable {qt}

theorem Exports.link_eq {serverConfig exported : QJsonObject} {link : String}
    (h : Exports qt serverConfig exported link) : link = vpnLink qt exported := by
  cases h with
  | fullAccess => rfl
  | connection hexported hlink =>
    rw [generateConnectionConfig, hexported] at hlink
    exact (Option.some.inj hlink).symm

theorem Exports.value_containers {serverConfig exported : QJsonObject} {link : String}
    (h : Exports qt serverConfig exported link) :
    ∃ items, exported.value "containers" = .array items := by
  cases h with
  | fullAccess => exact ⟨_, QJsonObject.value_insert_self⟩
  | @connection connection _ _ hexported _ =>
    unfold connectionConfig at hexported
    cases happend : connection.createAndAppend (connection.containerConfig.insert "container"
        (.string (containerToString connection.container))) with
    | none => simp [happend] at hexported
    | some containerConfig =>
      simp only [happend, Option.pure_def, Option.bind_eq_bind, Option.bind_some,
        Option.some.injEq] at hexported
      rw [← hexported, QJsonObject.value_insert_of_ne (by decide),
        QJsonObject.value_insert_of_ne (by decide), QJsonObject.value_insert_of_ne (by decide)]
      exact ⟨_, QJsonObject.value_insert_self⟩

end ExportController

end AmneziaVpn
