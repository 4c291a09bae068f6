import AmneziaVpn.ShareLinks

/-!
# Share links of Xray servers: VMess

There are two forms of VMess links, a URL and a JSON object in Base64. Both readers fill structures
that write a field into the JSON object only if it differs from its value in a structure made with
the default constructor. The port of a server has no initial value there, so `unsetPort` stands for
whatever that port happens to be.
-/

namespace AmneziaVpn

open QString

def QJsonObject.field (o : QJsonObject) (name : String) (isDefault : Bool) (v : QJsonValue) :
    QJsonObject :=
  if isDefault then o else o.insert name v

structure UserObject where
  id : String := ""
  alterId : ℤ := 0
  security : String := "auto"

def UserObject.toJson (user : UserObject) : QJsonObject :=
  let json : QJsonObject := []
  let json := json.field "id" (user.id == "") (.string user.id)
  let json := json.field "alterId" (user.alterId == 0) (.double user.alterId)
  json.field "security" (user.security == "auto") (.string user.security)

structure VMessServerObject where
  address : String
  port : ℤ
  users : List UserObject

def VMessServerObject.toJson (unsetPort : ℤ) (server : VMessServerObject) : QJsonObject :=
  let json : QJsonObject := []
  let json := json.field "address" (server.address == "") (.string server.address)
  let json := json.field "port" (server.port == unsetPort) (.double server.port)
  json.field "users" server.users.isEmpty
    (.array (server.users.map fun user => .object user.toJson))

structure HttpObject where
  host : List String := []
  path : String := "/"

structure WebSocketObject where
  path : String := "/"
  /-- The header `Host`, if it is set. -/
  host : Option String := none

structure QuicObject where
  security : String := "none"
  key : String := ""
  headerType : String := "none"

structure TLSObject where
  serverName : String := ""
  allowInsecure : Bool := false

structure StreamSettingsObject where
  network : String := "tcp"
  security : String := "none"
  tlsSettings : TLSObject := {}
  tcpHeaderType : String := "none"
  kcpSeed : String := ""
  kcpHeaderType : String := "none"
  wsSettings : WebSocketObject := {}
  httpSettings : HttpObject := {}
  quicSettings : QuicObject := {}
  grpcServiceName : String := ""

namespace StreamSettingsObject

variable (o : QJsonObject)

/-- A header object, whose `type` is written unless it is `none`. -/
def headerField (type : String) : QJsonObject :=
  o.field "header" (type == "none") (.object [("type", .string type)])

/-- The `type` of the TCP header is written in any case, but the header is not. -/
def tcpJson (type : String) : QJsonObject := headerField [] type

def kcpJson (seed headerType : String) : QJsonObject :=
  (headerField [] headerType).field "seed" (seed == "") (.string seed)

def tlsJson (tls : TLSObject) : QJsonObject :=
  let json : QJsonObject := []
  let json := json.field "serverName" (tls.serverName == "") (.string tls.serverName)
  json.field "allowInsecure" (!tls.allowInsecure) (.bool tls.allowInsecure)

def wsJson (ws : WebSocketObject) : QJsonObject :=
  let json : QJsonObject := []
  let json := json.field "path" (ws.path == "/") (.string ws.path)
  match ws.host with
  | some host => json.insert "headers" (.object [("Host", .string host)])
  | none => json

def httpJson (http : HttpObject) : QJsonObject :=
  let json : QJsonObject := []
  let json := json.field "host" http.host.isEmpty (.ofStringList http.host)
  json.field "path" (http.path == "/") (.string http.path)

def quicJson (quic : QuicObject) : QJsonObject :=
  let json : QJsonObject := []
  let json := json.field "security" (quic.security == "none") (.string quic.security)
  let json := json.field "key" (quic.key == "") (.string quic.key)
  headerField json quic.headerType

def grpcJson (serviceName : String) : QJsonObject :=
  let json : QJsonObject := []
  json.field "serviceName" (serviceName == "") (.string serviceName)

/-- The settings of a transport are written if one of them is. -/
def part (name : String) (json : QJsonObject) : QJsonObject :=
  o.field name json.isEmpty (.object json)

def toJson (stream : StreamSettingsObject) : QJsonObject :=
  let json : QJsonObject := []
  let json := json.field "network" (stream.network == "tcp") (.string stream.network)
  let json := json.field "security" (stream.security == "none") (.string stream.security)
  let json := part json "tcpSettings" (tcpJson stream.tcpHeaderType)
  let json := part json "tlsSettings" (tlsJson stream.tlsSettings)
  let json := part json "kcpSettings" (kcpJson stream.kcpSeed stream.kcpHeaderType)
  let json := part json "wsSettings" (wsJson stream.wsSettings)
  let json := part json "httpSettings" (httpJson stream.httpSettings)
  let json := part json "quicSettings" (quicJson stream.quicSettings)
  part json "grpcSettings" (grpcJson stream.grpcServiceName)

end StreamSettingsObject

namespace Outbounds

/-- The outbound entry of both forms. -/
def vmessOutbound (unsetPort : ℤ) (server : VMessServerObject) (stream : StreamSettingsObject) :
    QJsonObject :=
  let vConf : QJsonObject := []
  let vConf := vConf.insert "vnext" (.array [.object (server.toJson unsetPort)])
  generateOutboundEntry OUTBOUND_TAG_PROXY "vmess" vConf stream.toJson

end Outbounds

namespace VmessNew

def NetworkType : List String := ["tcp", "http", "ws", "kcp", "quic", "grpc"]

def FalseTypes : List String := ["false", "False", "No", "Off", "0"]

def joined (aliasName name : String) : String :=
  if aliasName = "" then name else aliasName ++ "_" ++ name

/-- The last part other than `tls`, and whether `tls` is a part. -/
def protocols (userName : String) : String × Bool :=
  (split userName "+").foldl
    (fun (net, tls) protocol => if protocol = "tls" then (net, true) else (protocol, tls)) ("", false)

def server (url : QUrl) : VMessServerObject :=
  let (uuid, aid) := aroundLast '-' url.password
  ⟨url.host, url.port, [{ id := uuid, alterId := QString.toInt aid, security := "auto" }]⟩

def getQueryValue (query : QUrlQuery) (key defaultValue : String) : String :=
  if query.hasQueryItem key then query.queryItemDecoded key else defaultValue

variable (get : String → String → String)

def transport (net : String) (stream : StreamSettingsObject) : Option StreamSettingsObject :=
  if net = "tcp" then some { stream with tcpHeaderType := get "type" "none" }
  else if net = "http" then
    some { stream with httpSettings := ⟨[get "host" ""], get "path" "/"⟩ }
  else if net = "ws" then
    some { stream with wsSettings := ⟨get "path" "/", some (get "host" "")⟩ }
  else if net = "kcp" then
    some { stream with kcpSeed := get "seed" "", kcpHeaderType := get "type" "none" }
  else if net = "quic" then
    some { stream with quicSettings := ⟨get "security" "none", get "key" "", get "type" "none"⟩ }
  else if net = "grpc" then some { stream with grpcServiceName := get "serviceName" "" }
  else none

def tlsFrom (tls : Bool) (stream : StreamSettingsObject) : StreamSettingsObject :=
  if tls then
    { stream with
      tlsSettings := ⟨get "tlsServerName" "", !FalseTypes.contains (get "allowInsecure" "false")⟩ }
  else stream

/-- The function that reads the query is static and refers to the query of the first call. -/
def deserialize (qt : QtRuntime) (unsetPort : ℤ) (captured : Option QUrlQuery) (vmessStr : String)
    (report : LinkReport) : QJsonObject × LinkReport :=
  let url := qt.url vmessStr
  if !url.isValid then ([], { report with errMessage := "vmess:// url is invalid" })
  else
    let name := trimmed url.fragmentDecoded
    let report := { report with aliasName := joined report.aliasName name }
    let (net, tls) := protocols url.userName
    if !NetworkType.contains net then
      ([], { report with errMessage := "Invalid streamSettings protocol: " ++ net })
    else
      let get := getQueryValue (captured.getD url.query)
      let stream : StreamSettingsObject := { network := net, security := if tls then "tls" else "" }
      match transport get net stream with
      | none => ([], { report with errMessage := "Unknown transport method: " ++ net })
      | some stream =>
          let outbound := Outbounds.vmessOutbound unsetPort (server url) (tlsFrom get tls stream)
          (Outbounds.rootWith "inbound" outbound, report)

end VmessNew

namespace Vmess

variable (qt : QtRuntime) (vmessConf : QJsonObject)

/-- `__vmess_checker__func` -/
def checker (key : String) (values : List String) (report : LinkReport) : String × LinkReport :=
  let value := qt.variantText (vmessConf.value key)
  if vmessConf.contains key ∧ trimmed value ≠ "" ∧
      (values.length ≤ 1 ∨ values.contains value) then (value, report)
  else
    match values with
    | first :: _ => (first, report)
    | [] => ("", { report with errMessage := key ++ " does not exist." })

/-- The upgrade of version 1, in which `host` holds the path and the host. -/
def upgraded : QJsonObject :=
  let network := (vmessConf.value "net").toString
  if !vmessConf.contains "v" && (network == "ws" || network == "h2") then
    let host := replace (vmessConf.value "host").toString " " ""
    match split host ";" with
    | [path] => (vmessConf.insert "path" (.string path)).insert "host" (.string "")
    | [path, host] => (vmessConf.insert "path" (.string path)).insert "host" (.string host)
    | _ => (vmessConf.insert "path" (.string "/")).insert "host" (.string "")
  else vmessConf

structure Transport where
  net : String
  type : String
  host : String
  path : String
  tls : String

def streaming (t : Transport) : StreamSettingsObject :=
  let streaming : StreamSettingsObject :=
    if t.net = "tcp" then { tcpHeaderType := t.type }
    else if t.net = "http" ∨ t.net = "h2" then
      let hosts := (split t.host ",").filter (· ≠ "")
      { httpSettings := ⟨hosts.map trimmed, t.path⟩ }
    else if t.net = "ws" then
      { wsSettings := ⟨t.path, if t.host = "" then none else some t.host⟩ }
    else if t.net = "kcp" then { kcpHeaderType := t.type }
    else if t.net = "quic" then { quicSettings := ⟨t.host, t.path, t.type⟩ }
    else if t.net = "grpc" then { grpcServiceName := t.path }
    else {}
  let streaming := { streaming with security := t.tls }
  let streaming := if t.tls = "tls" then { streaming with tlsSettings := ⟨t.host, false⟩ } else streaming
  { streaming with network := if t.net = "h2" then "http" else t.net }

variable (unsetPort : ℤ)

/-- The reading of a JSON object that is not empty. -/
def fromConf (vmessConf : QJsonObject) (report : LinkReport) : QJsonObject × LinkReport :=
  let vmessConf := upgraded vmessConf
  let value := fun key => qt.variantText (vmessConf.value key)
  let (ps, report) := checker qt vmessConf "ps" [value "add" ++ ":" ++ value "port"] report
  let (add, report) := checker qt vmessConf "add" [] report
  let (id, report) := checker qt vmessConf "id" [] report
  let (scy, report) := checker qt vmessConf "scy"
    ["aes-128-gcm", "chacha20-poly1305", "auto", "none", "zero"] report
  let (type, report) := checker qt vmessConf "type"
    ["none", "http", "srtp", "utp", "wechat-video"] report
  let (net, report) := checker qt vmessConf "net"
    ["tcp", "http", "h2", "ws", "kcp", "quic", "grpc"] report
  let (tls, report) := checker qt vmessConf "tls" ["none", "tls"] report
  let path :=
    if vmessConf.contains "path" then value "path" else if net = "quic" then "" else "/"
  let host :=
    if vmessConf.contains "host" then value "host" else if net = "quic" then "none" else ""
  let type :=
    if ["srtp", "utp", "wechat-video"].contains type ∧ net ≠ "quic" ∧ net ≠ "kcp" then "none"
    else type
  let user : UserObject :=
    { id := id, alterId := (vmessConf.value "aid").variantInt, security := scy }
  let serv : VMessServerObject := ⟨add, (vmessConf.value "port").variantInt, [user]⟩
  let outbound := Outbounds.vmessOutbound unsetPort serv (streaming ⟨net, type, host, path, tls⟩)
  (Outbounds.rootWith "inbounds" outbound,
    { report with
      aliasName := if trimmed report.aliasName = "" then ps
        else report.aliasName ++ "_" ++ ps })

def deserialize (vmessStr : String) (report : LinkReport) : QJsonObject × LinkReport :=
  let vmess := trimmed vmessStr
  let report := { report with errMessage := "" }
  if !startsWith (qt.toLower vmess) "vmess://" then
    ([], { report with errMessage := "VMess string should start with 'vmess://'" })
  else
    let b64Str := mid vmess 8
    if b64Str = "" then
      ([], { report with errMessage := "VMess string should be a valid base64 string" })
    else
      let vmessString := Utils.safeBase64Decode qt b64Str
      let jsonErr := Utils.verifyJsonString qt vmessString
      if jsonErr ≠ "" then ([], { report with errMessage := jsonErr })
      else
        let vmessConf := Utils.jsonFromString qt vmessString
        if vmessConf.isEmpty then ([], { report with errMessage := "JSON should not be empty" })
        else fromConf qt unsetPort vmessConf report

end Vmess

end AmneziaVpn
