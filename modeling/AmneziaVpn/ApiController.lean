import AmneziaVpn.ServersModel

/-!
# Configurations from the gateway

The gateway replies with an encrypted document that has a `vpn://` link to a configuration.
-/

namespace AmneziaVpn

open QString

inductive NetworkError
  | noError | operationCanceledError | timeoutError | otherError
  deriving DecidableEq

structure QNetworkReply where
  sslErrors : Bool
  error : NetworkError
  body : QByteArray

namespace QNetworkReply

def timedOut (reply : QNetworkReply) : Bool :=
  reply.error = .timeoutError ∨ reply.error = .operationCanceledError

end QNetworkReply

namespace ApiController

def checkErrors (sslErrors : Bool) (reply : QNetworkReply) : Option ErrorCode :=
  if sslErrors then some .apiConfigSslError
  else
    match reply.error with
    | .noError => none
    | .operationCanceledError | .timeoutError => some .apiConfigTimeoutError
    | .otherError => some .apiConfigDownloadError

structure ApiPayloadData where
  privKey : String
  wireGuardClientPrivKey : String

variable (qt : QtRuntime)

def linkedConfig (apiResponseBody : QByteArray) : QByteArray :=
  let data := ((qt.objectFromJson apiResponseBody).value "config").toString
  Utils.fromBase64Url (replace data "vpn://" "")

def configStr (qt : QtRuntime) (protocol : String) (apiPayloadData : ApiPayloadData)
    (ba : QByteArray) : String :=
  let uncompressed := qt.qUncompress ba
  let configStr := qt.text (if uncompressed.isEmpty then ba else uncompressed)
  if protocol = "cloak" then
    replace (replace configStr "<key>" "<key>\n") "$OPENVPN_PRIV_KEY"
      apiPayloadData.privKey
  else if protocol = "awg" then
    replace configStr "$WIREGUARD_CLIENT_PRIVATE_KEY" apiPayloadData.wireGuardClientPrivKey
  else configStr

def awgParameters : List String := ["Jc", "Jmin", "Jmax", "S1", "S2", "H1", "H2", "H3", "H4"]

def withAwgParameters (config : QJsonObject) (containers : List QJsonValue) : QJsonObject :=
  let container := (containers.getD 0 .undefined).toObject
  let containerConfig := (container.value "awg").toObject
  let protocolConfig :=
    qt.objectFromJson (toUtf8 (containerConfig.value "last_config").toString)
  let containerConfig := awgParameters.foldl (fun containerConfig key =>
    containerConfig.insert key (protocolConfig.value key)) containerConfig
  let container := container.insert "awg" (.object containerConfig)
  config.insert "containers" (.array (containers.set 0 (.object container)))

def amneziaGateway : ℤ := 2

def withApiConfig (serverConfig apiConfig : QJsonObject) : QJsonObject :=
  let copy (serverConfig : QJsonObject) (key : String) : QJsonObject :=
    serverConfig.insert key (apiConfig.value key)
  let serverConfig := ["dns1", "dns2", "containers", "hostName"].foldl copy serverConfig
  let serverConfig :=
    if (apiConfig.value "config_version").toInt = amneziaGateway then
      ["config_version", "description", "name"].foldl copy serverConfig
    else serverConfig
  serverConfig.insert "defaultContainer" (.string (apiConfig.value "defaultContainer").toString)

/-- The configuration afterwards, and the error that is emitted. -/
def fillServerConfig (protocol : String) (apiPayloadData : ApiPayloadData)
    (apiResponseBody : QByteArray) (serverConfig : QJsonObject) : QJsonObject × Option ErrorCode :=
  let ba := linkedConfig qt apiResponseBody
  if ba.isEmpty then (serverConfig, some .apiConfigEmptyError)
  else
    let configStr := configStr qt protocol apiPayloadData ba
    if protocol = "awg" then
      let config := qt.objectFromJson (toUtf8 configStr)
      let containers := (config.value "containers").toArray
      if containers.isEmpty then (serverConfig, none)
      else
        let configStr := qt.indented (withAwgParameters qt config containers)
        (withApiConfig serverConfig (qt.objectFromJson (toUtf8 configStr)), none)
    else (withApiConfig serverConfig (qt.objectFromJson (toUtf8 configStr)), none)

/-- What a request depends on besides the stored servers. -/
structure Gateway where
  publicKey : Bool
  reply : QNetworkReply
  proxies : List QNetworkReply
  decryptAesBlockCipher : QByteArray → Option QByteArray
  apiPayloadData : ApiPayloadData

/-- The proxies are asked until one of them does not time out. -/
def askProxies (reply : QNetworkReply) (sslErrors : Bool) :
    List QNetworkReply → QNetworkReply × Bool
  | [] => (reply, sslErrors)
  | next :: proxies =>
      if next.timedOut then askProxies next (sslErrors || next.sslErrors) proxies
      else (next, sslErrors || next.sslErrors)

variable (g : Gateway)

def Gateway.received : QNetworkReply × Bool :=
  if g.reply.timedOut then askProxies g.reply g.reply.sslErrors g.proxies
  else (g.reply, g.reply.sslErrors)

def Gateway.error : Option ErrorCode :=
  if g.publicKey then checkErrors g.received.2 g.received.1 else some .apiMissingAgwPublicKey

def getConfigForService (protocol : String) (serverConfig : QJsonObject) :
    Option ErrorCode × QJsonObject :=
  match g.error with
  | some e => (some e, serverConfig)
  | none =>
      match g.decryptAesBlockCipher g.received.1.body with
      | some responseBody =>
          (none, (fillServerConfig qt protocol g.apiPayloadData responseBody serverConfig).1)
      | none => (none, serverConfig)

end ApiController

namespace InstallController

open ApiController

def withApiKeys (apiConfig newServerConfig : QJsonObject) : QJsonObject :=
  let newApiConfig := (newServerConfig.value "api_config").toObject
  let newApiConfig :=
    ["service_info", "user_country_code", "service_type", "service_protocol"].foldl
      (fun config key => config.insert key (apiConfig.value key)) newApiConfig
  newServerConfig.insert "api_config" (.object newApiConfig)

variable (qt : QtRuntime) (g : Gateway) (m : ServersModel) (serverIndex : ℤ)

/-- The servers afterwards, and the error that is reported. -/
def updateServiceFromApi : ServersModel × Option ErrorCode :=
  let serverConfig := m.getServerConfig serverIndex
  let apiConfig := (serverConfig.value "api_config").toObject
  match getConfigForService qt g (apiConfig.value "service_protocol").toString [] with
  | (some e, _) => (m, some e)
  | (none, newServerConfig) => (m.editServer (withApiKeys apiConfig newServerConfig) serverIndex, none)

def serviceProtocol : String :=
  (((m.getServerConfig serverIndex).value "api_config").toObject.value "service_protocol").toString

variable (protocol : String)

def decodedConfig : QJsonObject :=
  match g.decryptAesBlockCipher g.received.1.body with
  | some responseBody =>
      let ba := linkedConfig qt responseBody
      if ba.isEmpty then []
      else qt.objectFromJson (toUtf8 (configStr qt protocol g.apiPayloadData ba))
  | none => []

def Decodes : Prop :=
  ((decodedConfig qt g protocol).value "containers").toArray ≠ []

theorem error_updateServiceFromApi : (updateServiceFromApi qt g m serverIndex).2 = g.error := by
  unfold updateServiceFromApi getConfigForService
  cases g.error with
  | some e => rfl
  | none => cases g.decryptAesBlockCipher g.received.1.body <;> rfl

theorem servers_updateServiceFromApi {g : Gateway} (h : g.error ≠ none) (qt : QtRuntime)
    (m : ServersModel) (serverIndex : ℤ) : (updateServiceFromApi qt g m serverIndex).1 = m := by
  unfold updateServiceFromApi getConfigForService
  cases herror : g.error with
  | some e => rfl
  | none => exact absurd herror h

/-- A reply replaces the server or reports an error, exactly if it is decoded or the network fails. -/
theorem updateServiceFromApi_iff (qt : QtRuntime) (g : Gateway) (m : ServersModel)
    (serverIndex : ℤ) :
    let updated := updateServiceFromApi qt g m serverIndex
    let decodes := Decodes qt g (serviceProtocol m serverIndex)
    (decodes ∧ updated.2 = none) ∨ (updated.1 = m ∧ updated.2 ≠ none) ↔
      g.error ≠ none ∨ decodes := by
  intro updated decodes
  have herror : updated.2 = g.error := error_updateServiceFromApi qt g m serverIndex
  rw [herror]
  constructor
  · rintro (⟨hdecodes, -⟩ | ⟨-, hreported⟩)
    · exact .inr hdecodes
    · exact .inl hreported
  · intro h
    by_cases hreported : g.error = none
    · exact .inl ⟨h.resolve_left (not_not_intro hreported), hreported⟩
    · exact .inr ⟨servers_updateServiceFromApi hreported qt m serverIndex, hreported⟩

def undecryptable : Gateway where
  publicKey := true
  reply := ⟨false, .noError, [1, 2, 3, 4]⟩
  proxies := []
  decryptAesBlockCipher _ := none
  apiPayloadData := ⟨"", ""⟩

/-- The stored server loses its container, and no error is reported. -/
theorem undecryptable_reply_replaces_server :
    let qt := QtRuntime.plain QtRuntime.noUrl []
    let m : ServersModel := ⟨[[("containers", .array [.object []])]], 0, 0⟩
    let updated := updateServiceFromApi qt undecryptable m 0
    ¬ Decodes qt undecryptable (serviceProtocol m 0) ∧ updated.2 = none ∧
      updated.1.servers = [[("api_config", .object [])]] := by
  exact ⟨fun h => h rfl, rfl, rfl⟩

end InstallController

end AmneziaVpn
