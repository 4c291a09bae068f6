import AmneziaVpn.ServersModel
import AmneziaVpn.MozillaIpAddress

/-!
# Opening a connection

A connection is opened to the default server. Its credentials are those of the default server, but
the configuration of the container is taken from the model of the user interface, which shows the
server that is being processed, and so are the name servers.
-/

namespace AmneziaVpn

open ContainerProps ProtocolProps

inductive ServiceType
  | None | Vpn | Other
  deriving DecidableEq

def ProtocolProps.protocolService : Proto → ServiceType
  | .Any | .SSXray => .None
  | .OpenVpn | .Cloak | .ShadowSocks | .WireGuard | .Awg | .Ikev2 | .Xray => .Vpn
  | _ => .Other

def ContainerProps.containerService (c : DockerContainer) : ServiceType :=
  protocolService (defaultProtocol c)

def containerOf (container : QJsonValue) : DockerContainer :=
  containerFromString (container.toObject.value "container").toString

structure ServerCredentials where
  hostName : String
  userName : String
  secretData : String
  port : ℤ
  deriving DecidableEq

structure ConnectionSettings where
  primaryDns : String
  secondaryDns : String
  isAmneziaDnsEnabled : Bool
  parseAddress : String → QHostAddress
  isSupportedByCurrentPlatform : DockerContainer → Bool
  createConfig : Proto → ServerCredentials → DockerContainer → QJsonObject → Except ErrorCode String
  appendClient : DockerContainer → ServerCredentials → QJsonObject → Option ErrorCode

def checkIPv4Format (settings : ConnectionSettings) (ip : String) : Bool :=
  ip ≠ "" && ip.toList.count '.' == 3 && (settings.parseAddress ip).protocol == .IPv4Protocol

namespace ServersModel

variable (server : QJsonObject)

def serverHasInstalledContainers : Bool :=
  (server.value "containers").toArray.any fun container =>
    containerService (containerOf container) == .Vpn || containerOf container == .SSXray

def serverCredentials : ServerCredentials where
  hostName := (server.value "hostName").toString
  userName := (server.value "userName").toString
  secretData := (server.value "password").toString
  port := (server.value "port").toInt

variable (settings : ConnectionSettings)

def dnsPair (server : QJsonObject) : String × String :=
  let isDnsContainerInstalled :=
    (server.value "containers").toArray.any fun container => containerOf container == .Dns
  let dns1 := (server.value "dns1").toString
  let dns2 := (server.value "dns2").toString
  (if dns1 = "" ∨ checkIPv4Format settings dns1 = false then
      if settings.isAmneziaDnsEnabled && isDnsContainerInstalled then "172.29.172.254"
      else settings.primaryDns
    else dns1,
    if dns2 = "" ∨ checkIPv4Format settings dns2 = false then settings.secondaryDns else dns2)

variable (m : ServersModel)

/-- The parameter is not used. -/
def getDnsPair (_serverIndex : ℤ) : String × String :=
  dnsPair settings (m.getServerConfig m.processedServerIndex)

variable (container : DockerContainer) (config : QJsonObject)

def withContainerConfig (server : QJsonObject) : QJsonObject :=
  let containers := (server.value "containers").toArray
  let containers :=
    match containers.findIdx? fun c => containerOf c == container with
    | some i => containers.set i (.object config)
    | none => containers
  server.insert "containers" (.array containers)

def updateContainerConfig : ServersModel :=
  m.editServer (withContainerConfig container config (m.getServerConfig m.processedServerIndex))
    m.processedServerIndex

end ServersModel

/-- The servers, and the containers that the user interface was last told to show. -/
structure Application where
  model : ServersModel
  containers : List QJsonValue

/-- `ContainersModel::getContainerConfig`: the last of the entries of a container. -/
def Application.getContainerConfig (s : Application) (container : DockerContainer) : QJsonObject :=
  ((s.containers.reverse.find? fun c => containerOf c == container).map QJsonValue.toObject).getD []

namespace ConnectionController

open ServersModel

/-- Every protocol of the container has a client configuration. -/
def isProtocolConfigExists (containerConfig : QJsonObject) (container : DockerContainer) : Bool :=
  (protocolsForContainer container).all fun protocol =>
    ((containerConfig.value (protoToString protocol)).toObject.value "last_config").toString ≠ ""

variable (settings : ConnectionSettings)

def createProtocolConfigForContainer (credentials : ServerCredentials) (container : DockerContainer)
    (containerConfig : QJsonObject) : Except ErrorCode QJsonObject :=
  if containerService container = .Other then .ok containerConfig
  else
    (protocolsForContainer container).foldlM (fun containerConfig protocol => do
      let protocolConfig := (containerConfig.value (protoToString protocol)).toObject
      let text ← settings.createConfig protocol credentials container containerConfig
      return containerConfig.insert (protoToString protocol)
        (.object (protocolConfig.insert "last_config" (.string text)))) containerConfig

/-- The error, the configuration of the container and the servers afterwards. -/
def updateProtocolConfig (container : DockerContainer) (credentials : ServerCredentials)
    (containerConfig : QJsonObject) (m : ServersModel) :
    Option ErrorCode × QJsonObject × ServersModel :=
  if isProtocolConfigExists containerConfig container then (none, containerConfig, m)
  else
    match createProtocolConfigForContainer settings credentials container containerConfig with
    | .error e => (some e, containerConfig, m)
    | .ok config =>
        (settings.appendClient container credentials config, config,
          m.updateContainerConfig container config)

/-- What a connection is opened with. -/
structure Used where
  container : DockerContainer
  containerConfig : QJsonObject
  credentials : ServerCredentials
  connected : Option (QJsonObject × String × String)

/-- What is used if the connection is not refused, and the servers afterwards. -/
def continueConnection (s : Application) : Option Used × ServersModel :=
  let serverIndex := s.model.defaultServerIndex
  let serverConfig := s.model.getServerConfig serverIndex
  let container := containerFromString (serverConfig.value "defaultContainer").toString
  if serverHasInstalledContainers serverConfig = false then (none, s.model)
  else if settings.isSupportedByCurrentPlatform container = false then (none, s.model)
  else if container = .None then (none, s.model)
  else
    let containerConfig := s.getContainerConfig container
    let credentials := serverCredentials serverConfig
    match updateProtocolConfig settings container credentials containerConfig s.model with
    | (some _, _, m) => (some ⟨container, containerConfig, credentials, none⟩, m)
    | (none, config, m) =>
        (some ⟨container, containerConfig, credentials,
          some (config, getDnsPair settings m serverIndex)⟩, m)

end ConnectionController

end AmneziaVpn
