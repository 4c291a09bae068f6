import AmneziaVpn.ShareLinks

/-!
# Share links of Xray servers: Shadowsocks

A link `ss://` holds one server, in Base64 as a whole or with the credentials alone in Base64.
-/

namespace AmneziaVpn

open QString

structure ShadowSocksServerObject where
  address : String
  method : String
  password : String
  port : ℤ

namespace Outbounds

def generateShadowSocksServerOUT (address : String) (port : ℤ) (method password : String) :
    QJsonObject :=
  let root : QJsonObject := []
  let root := root.insert "address" (.string address)
  let root := root.insert "port" (.double port)
  let root := root.insert "method" (.string method)
  root.insert "password" (.string password)

def generateShadowSocksOUT (servers : List ShadowSocksServerObject) : QJsonObject :=
  let root : QJsonObject := []
  root.insert "servers" (.array (servers.map fun server =>
    .object (generateShadowSocksServerOUT server.address server.port server.method server.password)))

def shadowSocksRoot (server : ShadowSocksServerObject) : QJsonObject :=
  rootWith "inbounds"
    (generateOutboundEntry OUTBOUND_TAG_PROXY "shadowsocks" (generateShadowSocksOUT [server]) [])

end Outbounds

namespace Ss

def noColon : String := "Can't find the colon separator between method and password"

def noAt : String := "Can't find the at separator between password and hostname"

def noPortColon : String := "Can't find the colon separator between hostname and port"

def reportUnless (found : Bool) (message : String) (report : LinkReport) : LinkReport :=
  if found then report else { report with errMessage := message }

/-- The old scheme. It goes on after an error, with the whole text in place of each part. -/
def oldScheme (decoded : String) (report : LinkReport) : ShadowSocksServerObject × LinkReport :=
  let report := reportUnless (decoded.toList.contains ':') noColon report
  let (method, decoded) := aroundFirst ':' decoded
  let report := reportUnless (decoded.toList.contains '@') noAt report
  let (password, decoded) := aroundLast '@' decoded
  let report := reportUnless (decoded.toList.contains ':') noPortColon report
  let (address, port) := aroundLast ':' decoded
  (⟨address, method, password, QString.toInt port⟩, report)

def sip002Scheme (qt : QtRuntime) (uri : String) : Option ShadowSocksServerObject :=
  let x := qt.urlFromUserInput uri
  let userInfo := Utils.safeBase64Decode qt x.userName
  if userInfo.toList.contains ':' then
    let (method, password) := aroundFirst ':' userInfo
    some ⟨x.host, method, password, x.port⟩
  else none

def withoutName (ssUri : String) : String × String :=
  let uri := mid ssUri 5
  if uri.toList.contains '#' then aroundLast '#' uri else (uri, "")

def deserialize (qt : QtRuntime) (ssUri : String) (report : LinkReport) :
    QJsonObject × LinkReport :=
  let report := reportUnless (5 ≤ ssUri.length) "SS URI is too short" report
  let (uri, d_name) := withoutName ssUri
  let finish := fun (server, report) =>
    let d_name := qt.fromPercentEncoding d_name
    (Outbounds.shadowSocksRoot server,
      { report with
        aliasName := if report.aliasName = "" then d_name else report.aliasName ++ "_" ++ d_name })
  if uri.toList.contains '@' then
    match sip002Scheme qt uri with
    | some server => finish (server, report)
    | none => ([], { report with errMessage := noColon })
  else finish (oldScheme (qt.text (Utils.fromBase64 uri)) report)

end Ss

namespace Ssd

/-- What is read before the list of servers. -/
structure Subscription where
  groupName : String
  port : ℤ
  encryption : String
  password : String
  servers : List QJsonValue

variable (obj : QJsonObject) (fieldName : String)

def mustExist : Except String QJsonValue :=
  let value := obj.value fieldName
  if value.isUndefined || value.isNull then
    .error ("Invalid ssd link: json: field " ++ fieldName ++ " must exist")
  else .ok value

/-- The message has a place for the name of the field that is never filled in. -/
def mustPort : Except String ℤ := do
  let value := (← mustExist obj fieldName).toIntOr (-1)
  if value < 0 ∨ value > 65535 then
    .error "Invalid ssd link: json: field %1 must be valid port number"
  else .ok value

def mustString : Except String String := do
  let value ← mustExist obj fieldName
  if value.isString then .ok value.toString
  else .error ("Invalid ssd link: json: field " ++ fieldName ++ " must be of type 'string'")

def mustArray : Except String (List QJsonValue) := do
  let value ← mustExist obj fieldName
  if value.isArray then .ok value.toArray
  else .error ("Invalid ssd link: json: field " ++ fieldName ++ " must be an array")

variable (qt : QtRuntime)

def subscription (obj : QJsonObject) : Except String Subscription := do
  let groupName ← mustString obj "airport"
  let port ← mustPort obj "port"
  let encryption ← mustString obj "encryption"
  if qt.toLower encryption = "rc4-md5" then
    .error "Invalid ssd link: rc4-md5 encryption is not supported by v2ray-core"
  else
    let password ← mustString obj "password"
    let servers ← mustArray obj "servers"
    .ok ⟨groupName, port, encryption, password, servers⟩

def serverPort (port : ℤ) (serverObject : QJsonObject) : ℤ :=
  let currPort := (serverObject.value "port").toIntOr (-1)
  if 0 ≤ currPort ∧ currPort ≤ 65535 then currPort else port

def shouldString (serverObject : QJsonObject) (fieldName : String) : Except String String :=
  let value := serverObject.value fieldName
  if value.isUndefined then
    .error ("Skipping invalid ssd server: missing required field " ++ fieldName)
  else if value.isString then .ok value.toString
  else
    .error ("Skipping invalid ssd server: field " ++ fieldName ++ " should be of type 'string'")

def untitled (server : ShadowSocksServerObject) : String :=
  arg (server.address ++ ":%2") (toString server.port)

def finalName (groupName nodeName : String) (ratio : ℚ) : String :=
  arg (groupName ++ " - " ++ nodeName ++ " (rate %3)") (qt.number ratio)

/-- One server of the list with its name, or why it is skipped. -/
def readServer (s : Subscription) (server : QJsonValue) :
    Except String (String × ShadowSocksServerObject) := do
  if !server.isObject then .error "Skipping invalid ssd server: server must be an object"
  else
    let serverObject := server.toObject
    let address ← shouldString serverObject "server"
    let ssObject : ShadowSocksServerObject :=
      ⟨address, s.encryption, s.password, serverPort s.port serverObject⟩
    let remarks := serverObject.value "remarks"
    let nodeName := if remarks.isString then remarks.toString else untitled ssObject
    let currRatio := (serverObject.value "ratio").toDoubleOr (-1)
    let ratio := if currRatio ≠ -1 then currRatio else 1
    .ok (finalName qt s.groupName nodeName ratio, ssObject)

def readServers (qt : QtRuntime) (s : Subscription) :
    List QJsonValue → List String → List (String × ShadowSocksServerObject) × List String
  | [], logList => ([], logList)
  | server :: rest, logList =>
      match readServer qt s server with
      | .error message => readServers qt s rest (logList ++ [message])
      | .ok node =>
          let (nodes, logList) := readServers qt s rest logList
          (node :: nodes, logList)

def linkSubscription (uri : String) : Except String Subscription :=
  if !startsWith uri "ssd://" then .error "Invalid ssd link: should begin with ssd://"
  else
    let decodedJSON := Utils.safeBase64Decode qt (mid uri 6)
    if decodedJSON = "" then .error "Invalid ssd link: base64 parse failed"
    else if Utils.verifyJsonString qt decodedJSON ≠ "" then
      .error "Invalid ssd link: json parse failed"
    else subscription qt (Utils.jsonFromString qt decodedJSON)

/-- The names and configurations of the servers, and the log. -/
def deserialize (uri : String) (logList : List String) :
    List (String × QJsonObject) × List String :=
  match linkSubscription qt uri with
  | .error message => ([], logList ++ [message])
  | .ok s =>
      let (nodes, logList) := readServers qt s s.servers logList
      (nodes.map fun (name, server) => (name, Outbounds.shadowSocksRoot server), logList)

end Ssd

end AmneziaVpn
