import AmneziaVpn.BacktrackingRegex
import AmneziaVpn.ShadowsocksLinks
import AmneziaVpn.VmessLinks

/-!
# The import of configurations

`extractConfigFromData` takes a text for a share link by its scheme, and otherwise recognises the
format by the substrings that occur in it, first in the text itself and, if there is none, in what
the text decodes to.
-/

namespace AmneziaVpn

open BacktrackingRegex (Regex firstMatch)

inductive ConfigTypes
  | Amnezia
  | OpenVpn
  | WireGuard
  | Awg
  | Xray
  | ShadowSocks
  | Backup
  | Invalid
deriving DecidableEq

inductive ImportSignal
  | importFinished
  | importErrorOccurred (errorMessage : String) (goToPageHome : Bool)
  /-- `importErrorOccurred(ErrorCode::ImportInvalidConfigError, ..)` -/
  | importInvalidConfigError (goToPageHome : Bool)
  /-- `importErrorOccurred(ErrorCode::ApiConfigAlreadyAdded, ..)` -/
  | apiConfigAlreadyAdded (goToPageHome : Bool)
  | restoreAppConfig (data : QByteArray)

structure ImportController where
  m_config : QJsonObject
  m_configType : ConfigTypes
  m_maliciousWarningText : String
  signals : List ImportSignal

/-- What an import reads besides its text: the library, the number of servers and the next free name
of one in the settings, and what the readers of VMess links find in memory. -/
structure ImportContext where
  qt : QtRuntime
  serversCount : ℕ
  nextAvailableServerName : String
  unsetPort : ℤ
  captured : Option QUrlQuery

def backupPattern : String := "Servers/serversList"

def amneziaConfigPattern : String := "containers"

def formatPatterns : List String :=
  [backupPattern, amneziaConfigPattern, "api_key", "hostName", "userName", "password", "client",
    "proto tcp", "proto udp", "dev tun", "dev tap", "[Interface]", "[Peer]", "inbounds", "outbounds"]

variable (config : String)

def checkConfigFormat : ConfigTypes :=
  let has := QString.contains config
  if has backupPattern then .Backup
  else if has amneziaConfigPattern || has "api_key" ||
      (has "hostName" && has "userName" && has "password") then .Amnezia
  else if has "client" && (has "proto tcp" || has "proto udp") &&
      (has "dev tun" || has "dev tap") then .OpenVpn
  else if has "[Interface]" && has "[Peer]" then .WireGuard
  else if has "inbounds" && has "outbounds" then .Xray
  else .Invalid

/-- The characters of a text, followed by a pattern. -/
def literal (s : String) (r : Regex) : Regex := s.toList.foldr (fun c r => .seq (.cls (· == c)) r) r

def anyChar : Regex := .cls (· ≠ '\n')

def digit : Regex := .cls Char.isDigit

/-- `\d{1,3}` -/
def upToThreeDigits : Regex := .seq digit (.opt (.seq digit (.opt digit)))

/-- `(\b\d{1,3}\.\d{1,3}\.\d{1,3}\.\d{1,3}\b)` -/
def dottedQuad (i : ℕ) : Regex :=
  .group i <| .seq .wordBoundary <| .seq upToThreeDigits <| literal "." <| .seq upToThreeDigits <|
    literal "." <| .seq upToThreeDigits <| literal "." <| .seq upToThreeDigits .wordBoundary

variable (r : Regex)

def captured (i : ℕ) (s : String) : Option String :=
  (firstMatch r [] s.toList).bind fun (_, q) => (q.captures i).map String.ofList

def firstTwo (s : String) : List String :=
  match firstMatch r [] s.toList with
  | none => []
  | some (_, q) =>
      let second := (firstMatch r q.before q.after).bind fun (_, q) => q.captures 1
      ((q.captures 1).toList ++ second.toList).map String.ofList

def matched (s : String) : String :=
  match firstMatch r [] s.toList with
  | none => ""
  | some (start, q) => String.ofList (q.before.take (q.before.length - start.length)).reverse

/-- `remote (.*) [0-9]*` -/
def openVpnHostName : Regex :=
  literal "remote " (.seq (.group 1 (.rep 0 anyChar)) (literal " " (.rep 0 digit)))

/-- `dhcp-option DNS (..)` -/
def openVpnDns : Regex := literal "dhcp-option DNS " (dottedQuad 1)

/-- `Endpoint = (.*):([0-9]*)` -/
def wireGuardEndpoint : Regex :=
  literal "Endpoint = "
    (.seq (.group 1 (.rep 0 anyChar)) (literal ":" (.group 2 (.rep 0 digit))))

/-- `DNS = (..).*(..)` -/
def wireGuardDns : Regex :=
  literal "DNS = " (.seq (dottedQuad 1) (.seq (.rep 0 anyChar) (dottedQuad 2)))

/-- `"address":\s*"([^"]+)` -/
def xrayHostName : Regex :=
  literal "\"address\":" <| .seq (.rep 0 (.cls fun c => c == ' ' || (9 ≤ c.toNat && c.toNat ≤ 13))) <|
    literal "\"" <| .group 1 (.rep 1 (.cls (· ≠ '"')))

def word : Regex := .rep 1 (.cls BacktrackingRegex.Position.isWord)

/-- `(\w+-\w+|\w+)` -/
def tag : Regex := .alt (.seq word (literal "-" word)) word

section Extraction

/-- A server configuration with one container, as far as all extractions have it. -/
def serverConfig (container : QJsonObject) (defaultContainer description hostName : String) :
    QJsonObject :=
  let config : QJsonObject := []
  let config := config.insert "containers" (.array [.object container])
  let config := config.insert "defaultContainer" (.string defaultContainer)
  let config := config.insert "description" (.string description)
  config.insert "hostName" (.string hostName)

variable (context : ImportContext)

variable (data : String)

def extractOpenVpnConfig : QJsonObject :=
  let openVpnConfig : QJsonObject := [("config", .string data)]
  let lastConfig : QJsonObject := []
  let lastConfig := lastConfig.insert "last_config" (.string (context.qt.indented openVpnConfig))
  let lastConfig := lastConfig.insert "isThirdPartyConfig" (.bool true)
  let containers : QJsonObject := []
  let containers := containers.insert "container" (.string "amnezia-openvpn")
  let containers := containers.insert "openvpn" (.object lastConfig)
  let hostName := (captured openVpnHostName 1 data).getD ""
  let config :=
    serverConfig containers "amnezia-openvpn" context.nextAvailableServerName hostName
  match firstTwo openVpnDns data with
  | [] => config
  | [dns1] => config.insert "dns1" (.string dns1)
  | dns1 :: dns2 :: _ => (config.insert "dns1" (.string dns1)).insert "dns2" (.string dns2)

/-- The assignments of a WireGuard text. A later one replaces an earlier one. -/
def wireGuardMap (key : String) : String :=
  let entries := (QString.split data "\n").filterMap fun line =>
    let trimmedLine := QString.trimmed line
    if QString.startsWith trimmedLine "[" && QString.endsWith trimmedLine "]" then none
    else
      match QString.split trimmedLine " = " with
      | [name, value] => some (QString.trimmed name, QString.trimmed value)
      | _ => none
  (entries.reverse.lookup key).getD ""

def junkKeys : List String := ["Jc", "Jmin", "Jmax", "S1", "S2", "H1", "H2", "H3", "H4"]

variable (configType : ConfigTypes)

/-- The configuration and its type, or `none` after an error. -/
def extractWireGuardConfig : Option (QJsonObject × ConfigTypes) :=
  let value := wireGuardMap data
  match captured wireGuardEndpoint 1 data, captured wireGuardEndpoint 2 data with
  | some hostName, some port =>
      if value "PrivateKey" = "" ∨ value "Address" = "" ∨ value "PublicKey" = "" then none
      else
        let lastConfig : QJsonObject := []
        let lastConfig := lastConfig.insert "config" (.string data)
        let lastConfig := lastConfig.insert "hostName" (.string hostName)
        let lastConfig := lastConfig.insert "port" (.double (QString.toInt port))
        let lastConfig := lastConfig.insert "client_priv_key" (.string (value "PrivateKey"))
        let lastConfig := lastConfig.insert "client_ip" (.string (value "Address"))
        let lastConfig :=
          if value "PresharedKey" ≠ "" then
            lastConfig.insert "psk_key" (.string (value "PresharedKey"))
          else if value "PreSharedKey" ≠ "" then
            lastConfig.insert "psk_key" (.string (value "PreSharedKey"))
          else lastConfig
        let lastConfig := lastConfig.insert "server_pub_key" (.string (value "PublicKey"))
        let lastConfig :=
          if value "MTU" ≠ "" then lastConfig.insert "mtu" (.string (value "MTU")) else lastConfig
        let lastConfig :=
          lastConfig.insert "allowed_ips" (.ofStringList (QString.split (value "AllowedIPs") ","))
        let isAwg := junkKeys.all fun key => value key ≠ ""
        let lastConfig :=
          if isAwg then
            junkKeys.foldl (fun (o : QJsonObject) key => o.insert key (.string (value key))) lastConfig
          else lastConfig
        let protocolName := if isAwg then "awg" else "wireguard"
        let wireguardConfig : QJsonObject := []
        let wireguardConfig :=
          wireguardConfig.insert "last_config" (.string (context.qt.indented lastConfig))
        let wireguardConfig := wireguardConfig.insert "isThirdPartyConfig" (.bool true)
        let wireguardConfig := wireguardConfig.insert "port" (.string port)
        let wireguardConfig := wireguardConfig.insert "transport_proto" (.string "udp")
        let containers : QJsonObject := []
        let containers := containers.insert "container" (.string ("amnezia-" ++ protocolName))
        let containers := containers.insert protocolName (.object wireguardConfig)
        let config := serverConfig containers ("amnezia-" ++ protocolName)
          context.nextAvailableServerName hostName
        let config :=
          match captured wireGuardDns 1 data, captured wireGuardDns 2 data with
          | some dns1, some dns2 =>
              (config.insert "dns1" (.string dns1)).insert "dns2" (.string dns2)
          | _, _ => config
        some (config, if isAwg then .Awg else configType)
  | _, _ => none

def xrayText : String :=
  match context.qt.fromJson (context.qt.toLocal8Bit data) with
  | .ok document => JsonWriter.toJson context.qt.number false document
  | .error _ => ""

def extractXrayConfig (data description : String) : QJsonObject :=
  let lastConfig : QJsonObject := []
  let lastConfig := lastConfig.insert "last_config" (.string (xrayText context data))
  let lastConfig := lastConfig.insert "isThirdPartyConfig" (.bool true)
  let isShadowSocks := configType == .ShadowSocks
  let name := if isShadowSocks then "amnezia-ssxray" else "amnezia-xray"
  let containers : QJsonObject := []
  let containers := containers.insert (if isShadowSocks then "ssxray" else "xray") (.object lastConfig)
  let containers := containers.insert "container" (.string name)
  let hostName := (captured xrayHostName 1 data).getD ""
  let description := if description = "" then context.nextAvailableServerName else description
  serverConfig containers name description hostName

end Extraction

def dangerousTags : List String :=
  ["up", "tls-verify", "ipchange", "client-connect", "route-up", "route-pre-down",
    "client-disconnect", "down", "learn-address", "auth-user-pass-verify"]

def searchedContainers : List String :=
  ["amnezia-openvpn", "amnezia-openvpn-cloak", "amnezia-shadowsocks"]

def maliciousStrings (qt : QtRuntime) (containerConfig : QJsonObject) : List String :=
  let protocolConfig :=
    ((containerConfig.value "openvpn").toObject.value "last_config").toString
  let protocolConfigJson :=
    ((qt.objectFromJson (QString.toUtf8 protocolConfig)).value "config").toString
  (QString.split (QString.replace protocolConfigJson "\r" "") "\n").filter fun line =>
    dangerousTags.contains (matched tag line)

def checkForMaliciousStrings (qt : QtRuntime) (serverConfig : QJsonObject) (warning : String) :
    String :=
  (serverConfig.value "containers").toArray.foldl (fun warning container =>
    let containerConfig := container.toObject
    let found := maliciousStrings qt containerConfig
    if searchedContainers.contains (containerConfig.value "container").toString ∧ 3 ≤ found.length
    then
      found.foldl (fun text line => text ++ "<br><i>" ++ line ++ "</i>")
        "In the imported configuration, potentially dangerous lines were found:"
    else warning) warning

inductive LinkKind
  | vless
  | vmessNew
  | vmess
  | trojan
  | ss
  | ssd
deriving DecidableEq

def linkKind : Option LinkKind :=
  if QString.startsWith config "vless://" then some .vless
  else if QString.startsWith config "vmess://" && QString.contains config "@" then some .vmessNew
  else if QString.startsWith config "vmess://" then some .vmess
  else if QString.startsWith config "trojan://" then some .trojan
  else if QString.startsWith config "ss://" && !QString.contains config "plugin=" then some .ss
  else if QString.startsWith config "ssd://" then some .ssd
  else none

def LinkKind.configType : LinkKind → ConfigTypes
  | vless | vmessNew | vmess | trojan => .Xray
  | ss | ssd => .ShadowSocks

variable (context : ImportContext)

/-- The call of `Deserialize` for the kinds that report through the alias and the error message. -/
def deserialize (config : String) : LinkKind → QJsonObject × LinkReport
  | .vless => Vless.deserialize context.qt config {}
  | .vmessNew => VmessNew.deserialize context.qt context.unsetPort context.captured config {}
  | .vmess => Vmess.deserialize context.qt context.unsetPort config {}
  | .trojan => Trojan.deserialize context.qt config {}
  | .ss => Ss.deserialize context.qt config {}
  | .ssd => ([], {})

/-- What is handed to `extractXrayConfig`. -/
def handedOver (config : String) : LinkKind → Option (String × String)
  | .ssd => (Ssd.deserialize context.qt config []).1.head?.map fun server => (server.1, "")
  | kind =>
      let (root, report) := deserialize context config kind
      some (Utils.jsonToString context.qt root, report.aliasName)

def idleController : ImportController := ⟨[], .Invalid, "", []⟩

namespace ImportController

variable (context : ImportContext)

variable (c : ImportController)

def emit (signal : ImportSignal) : ImportController :=
  { c with signals := c.signals ++ [signal] }

variable (config : QJsonObject)

def offer : Bool × ImportController :=
  (!config.isEmpty, { c with m_config := config })

def offerChecked : Bool × ImportController :=
  if config.isEmpty then (false, { c with m_config := config })
  else
    (true, { c with
      m_config := config
      m_maliciousWarningText :=
        checkForMaliciousStrings context.qt config c.m_maliciousWarningText })

def extractByType (config : String) : Bool × ImportController :=
  match c.m_configType with
  | .OpenVpn => c.offerChecked context (extractOpenVpnConfig context config)
  | .Awg | .WireGuard =>
      match extractWireGuardConfig context config c.m_configType with
      | some (serverConfig, configType) => { c with m_configType := configType }.offer serverConfig
      | none => (c.emit (.importInvalidConfigError false)).offer []
  | .Xray => c.offer (extractXrayConfig context c.m_configType config "")
  | .Amnezia => c.offerChecked context (context.qt.objectFromJson (QString.toUtf8 config))
  | .Backup =>
      if context.serversCount = 0 then
        (false, c.emit (.restoreAppConfig (QString.toUtf8 config)))
      else (false, c.emit (.importErrorOccurred "Invalid configuration file" false))
  | .Invalid => (false, c.emit (.importErrorOccurred "Invalid configuration file" false))
  | .ShadowSocks => (false, c)

/-- What a text decodes to: Base64 without the scheme, uncompressed if that is possible. -/
def decoded (qt : QtRuntime) (data : String) : String :=
  let ba := Utils.fromBase64Url (QString.replace data "vpn://" "")
  let ba_uncompressed := qt.qUncompress ba
  qt.text (if ba_uncompressed.isEmpty then ba else ba_uncompressed)

def extractConfigFromData (data : String) : Bool × ImportController :=
  match linkKind data with
  | some kind =>
      let c := { c with m_configType := kind.configType }
      match handedOver context data kind with
      | some (xrayData, description) =>
          c.offer (extractXrayConfig context kind.configType xrayData description)
      | none => (!c.m_config.isEmpty, c)
  | none =>
      let configType := checkConfigFormat data
      if configType = .Invalid then
        let config := decoded context.qt data
        { c with m_configType := checkConfigFormat config }.extractByType context config
      else { c with m_configType := configType }.extractByType context data

end ImportController

end AmneziaVpn
