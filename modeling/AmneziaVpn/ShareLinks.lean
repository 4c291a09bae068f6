import AmneziaVpn.QtJson
import AmneziaVpn.QtRuntime

/-!
# Share links of Xray servers: VLESS and Trojan

A share link is read into a configuration for Xray with one outbound entry, which names the server,
and one inbound entry, the local socks proxy.
-/

namespace AmneziaVpn

open QJsonIO (setValue)

/-- What a `Deserialize` reports besides its result. -/
structure LinkReport where
  aliasName : String := ""
  errMessage : String := ""

namespace Inbounds

def generateInboundEntry : QJsonObject :=
  let root := setValue [] (.string "127.0.0.1") ["listen"]
  let root := setValue root (.double 10808) ["port"]
  let root := setValue root (.string "socks") ["protocol"]
  setValue root (.bool true) ["settings", "udp"]

end Inbounds

namespace Outbounds

def OUTBOUND_TAG_PROXY : String := "PROXY"

/-- With the default values of `mux` and `sendThrough`, which no caller sets. -/
def generateOutboundEntry (tag protocol : String) (settings streamSettings : QJsonObject) :
    QJsonObject :=
  let root : QJsonObject := []
  let root := root.insert "sendThrough" (.string "0.0.0.0")
  let root := root.insert "protocol" (.string protocol)
  let root := root.insert "settings" (.object settings)
  let root := root.insert "tag" (.string tag)
  let root := root.insert "streamSettings" (.object streamSettings)
  root.insert "mux" (.object [])

def rootWith (inboundKey : String) (outbound : QJsonObject) : QJsonObject :=
  let root : QJsonObject := []
  let root := root.insert "outbounds" (.array [.object outbound])
  root.insert inboundKey (.array [.object Inbounds.generateInboundEntry])

end Outbounds

section Settings

variable (qt : QtRuntime) (query : QUrlQuery)

variable (key defaultValue : String)

def valueOr : String :=
  if query.hasQueryItem key then query.queryItemValue key else defaultValue

def decodedValueOr : String :=
  if query.hasQueryItem key then qt.fromPercentEncoding (query.queryItemValue key)
  else defaultValue

variable (path : QJsonIO.Path) (stream : QJsonObject)

def setIfGiven : QJsonObject :=
  if query.hasQueryItem key then setValue stream (.string (query.queryItemValue key)) path
  else stream

def setDecodedIfGiven : QJsonObject :=
  if query.hasQueryItem key then
    setValue stream (.string (qt.fromPercentEncoding (query.queryItemValue key))) path
  else stream

def setUnless (value : String) (path : QJsonIO.Path) (stream : QJsonObject) : QJsonObject :=
  if value ≠ defaultValue then setValue stream (.string value) path else stream

def kcpSettings (stream : QJsonObject) : QJsonObject :=
  let stream := setIfGiven query "seed" ["kcpSettings", "seed"] stream
  setUnless "none" (valueOr query "headerType" "none") ["kcpSettings", "header", "type"] stream

def httpSettings (stream : QJsonObject) : QJsonObject :=
  let stream := setUnless "/" (decodedValueOr qt query "path" "/") ["httpSettings", "path"] stream
  if query.hasQueryItem "host" then
    let hosts := QJsonValue.ofStringList (QString.split (query.queryItemValue "host") ",")
    setValue stream hosts ["httpSettings", "host"]
  else stream

def wsSettings (stream : QJsonObject) : QJsonObject :=
  let stream := setUnless "/" (decodedValueOr qt query "path" "/") ["wsSettings", "path"] stream
  setIfGiven query "host" ["wsSettings", "headers", "Host"] stream

def quicSettings (stream : QJsonObject) : QJsonObject :=
  if query.hasQueryItem "quicSecurity" then
    let quicSecurity := query.queryItemValue "quicSecurity"
    let stream := setValue stream (.string quicSecurity) ["quicSettings", "security"]
    let stream :=
      if quicSecurity ≠ "none" then
        setValue stream (.string (query.queryItemValue "key")) ["quicSettings", "key"]
      else stream
    setUnless "none" (valueOr query "headerType" "none") ["quicSettings", "header", "type"] stream
  else stream

def grpcSettings (stream : QJsonObject) : QJsonObject :=
  let stream := setDecodedIfGiven qt query "serviceName" ["grpcSettings", "serviceName"] stream
  if query.hasQueryItem "mode" then
    let multiMode := qt.fromPercentEncoding (query.queryItemValue "mode") == "multi"
    setValue stream (.bool multiMode) ["grpcSettings", "multiMode"]
  else stream

def networkSettings : QJsonObject :=
  let type := valueOr query "type" "tcp"
  let stream := setUnless "tcp" type ["network"] []
  if type = "kcp" then kcpSettings query stream
  else if type = "http" then httpSettings qt query stream
  else if type = "ws" then wsSettings qt query stream
  else if type = "quic" then quicSettings query stream
  else if type = "grpc" then grpcSettings qt query stream
  else stream

def security : String := valueOr query "security" "none"

def tlsKey : String :=
  if security query = "xtls" then "xtlsSettings"
  else if security query = "tls" then "tlsSettings"
  else "realitySettings"

def realitySettings (stream : QJsonObject) : QJsonObject :=
  let stream := setDecodedIfGiven qt query "fp" ["realitySettings", "fingerprint"] stream
  let stream := setDecodedIfGiven qt query "pbk" ["realitySettings", "publicKey"] stream
  let stream := setDecodedIfGiven qt query "spiderX" ["realitySettings", "spiderX"] stream
  setDecodedIfGiven qt query "sid" ["realitySettings", "shortId"] stream

/-- The tls-wise settings. Xray does not support the protocol `h2`. -/
def securitySettings : QJsonObject :=
  let stream := setUnless "none" (security query) ["security"] stream
  let stream := setIfGiven query "sni" [tlsKey query, "serverName"] stream
  let stream :=
    if query.hasQueryItem "alpn" then
      let alpnRaw := qt.fromPercentEncoding (query.queryItemValue "alpn")
      let alpnElems := (QString.split alpnRaw ",").filter (· ≠ "h2")
      if alpnElems ≠ [] then
        setValue stream (QJsonValue.ofStringList alpnElems) [tlsKey query, "alpn"]
      else stream
    else stream
  if security query = "reality" then realitySettings qt query stream else stream

def streamSettings : QJsonObject := securitySettings qt query (networkSettings qt query)

end Settings

namespace Vless

def unbracketed (host : String) : String :=
  if QString.startsWith host "[" && QString.endsWith host "]" then
    String.ofList (host.toList.tail.dropLast)
  else host

def outbound (url : QUrl) : QJsonObject :=
  let query := url.query
  let outbound := setValue [] (.string "vless") ["protocol"]
  let outbound :=
    setValue outbound (.string (unbracketed url.host)) ["settings", "vnext", 0, "address"]
  let outbound := setValue outbound (.double url.port) ["settings", "vnext", 0, "port"]
  let outbound :=
    setValue outbound (.string url.userInfo) ["settings", "vnext", 0, "users", 0, "id"]
  let outbound :=
    setValue outbound (.string (valueOr query "encryption" "none"))
      ["settings", "vnext", 0, "users", 0, "encryption"]
  if security query = "xtls" ∨ security query = "reality" then
    setValue outbound (.string (query.queryItemValue "flow"))
      ["settings", "vnext", 0, "users", 0, "flow"]
  else outbound

def deserialize (qt : QtRuntime) (str : String) (report : LinkReport) :
    QJsonObject × LinkReport :=
  if !QString.startsWith str "vless://" then
    ([], { report with errMessage := "VLESS link should start with vless://" })
  else
    let url := qt.url str
    if !url.isValid then
      ([], { report with errMessage := "link parse failed: " ++ url.errorString })
    else if url.host = "" then ([], { report with errMessage := "empty host" })
    else if url.port = -1 then ([], { report with errMessage := "missing port" })
    else
      let report := if url.fragment ≠ "" then { report with aliasName := url.fragment } else report
      if url.userInfo = "" then ([], { report with errMessage := "missing uuid" })
      else
        let outbound := (outbound url).insert "streamSettings" (.object (streamSettings qt url.query))
        (Outbounds.rootWith "inbounds" outbound, report)

end Vless

/-- The part of a Trojan server that its outbound entry shows. The port is a `quint16`. -/
structure TrojanObject where
  port : UInt16
  address : String
  password : String

namespace Outbounds

def generateTrojanServerOUT (address : String) (port : ℤ) (password : String) : QJsonObject :=
  let root : QJsonObject := []
  let root := root.insert "address" (.string address)
  let root := root.insert "port" (.double port)
  root.insert "password" (.string password)

def generateTrojanOUT (servers : List TrojanObject) : QJsonObject :=
  let root : QJsonObject := []
  root.insert "servers" (.array (servers.map fun server =>
    .object (generateTrojanServerOUT server.address server.port.toNat server.password)))

end Outbounds

namespace Trojan

def server (qt : QtRuntime) (url : QUrl) : TrojanObject where
  address := url.host
  password := qt.fromPercentEncoding url.userInfo
  port := UInt16.ofInt url.port

def deserialize (qt : QtRuntime) (trojanUri : String) (report : LinkReport) :
    QJsonObject × LinkReport :=
  if !QString.startsWith trojanUri "trojan://" then
    ([], { report with errMessage := "Invalid Trojan URI" })
  else
    let trojanUrl := qt.url (QString.trimmed trojanUri)
    let report := { report with aliasName := trojanUrl.fragmentDecoded }
    let outbound := Outbounds.generateOutboundEntry Outbounds.OUTBOUND_TAG_PROXY "trojan"
      (Outbounds.generateTrojanOUT [server qt trojanUrl]) []
    let outbound := outbound.insert "streamSettings" (.object (streamSettings qt trojanUrl.query))
    (Outbounds.rootWith "inbounds" outbound, report)

end Trojan

end AmneziaVpn
