import AmneziaVpn.ProtocolConfig

/-!
# The WireGuard configuration of the Android client

`parseConfig` reads the configuration text, fills a builder from its attributes, adds the
split-tunnelling lists of the global configuration unless the allowed addresses rule that out, and
builds.
-/

namespace AmneziaVpn

open ProtocolConfig (Builder)

structure InetEndpoint where
  address : InetAddress
  port : ℤ

def InetEndpoint.parse (data : String) : Outcome InetEndpoint :=
  match data.toList.reverse.span (· ≠ ':') with
  | (_, []) => .error .indexOutOfBoundsException
  | (port, _ :: address) => do
      let address ← parseInetAddress (.ofList address.reverse)
      let port ← toInt (.ofList port.reverse)
      return ⟨address, port⟩

/-- The attributes of a configuration text by name, compared without regard to case. -/
abbrev ConfigData := List (String × String)

namespace ConfigData

def equalsIgnoreCase (a b : String) : Bool :=
  a.toList.map Char.toLower = b.toList.map Char.toLower

variable (data : ConfigData)

def get (key : String) : Option String :=
  (data.find? fun entry => equalsIgnoreCase entry.1 key).map (·.2)

def put (key value : String) : ConfigData :=
  if data.any fun entry => equalsIgnoreCase entry.1 key then
    data.map fun entry => if equalsIgnoreCase entry.1 key then (entry.1, value) else entry
  else data ++ [(key, value)]

end ConfigData

/-- `line.split("=", limit = 2)`, as its first and its last part. -/
def splitAttribute (line : List Char) : List Char × List Char :=
  match line.span (· ≠ '=') with
  | (_, []) => (line, line)
  | (name, _ :: value) => (name, value)

def parseConfigData (data : String) : ConfigData :=
  let lines := data.toList.splitOnP fun c => c == '\n' || c == '\r'
  let attributes := lines.filter fun line => line ≠ [] && line.head? ≠ some '['
  attributes.foldl (fun parsedData line =>
    let (name, value) := splitAttribute line
    parsedData.put (.ofList (trim name)) (.ofList (trim value))) []

def commaSeparated (value : String) : List String :=
  (value.toList.splitOn ',').map fun part => .ofList (trim part)

/-- `wireguard_config_data`; an absent `mtu` reads as the empty text. -/
structure WireguardJson where
  config : Option String
  mtu : String := ""

/-- Absent types of split tunnelling read as `0`. -/
structure ConfigJson where
  wireguardConfigData : Option WireguardJson
  splitTunnelType : ℤ := 0
  splitTunnelSites : Option (List String) := none
  appSplitTunnelType : ℤ := 0
  splitTunnelApps : Option (List String) := none

/-- `JSONObject.getString` and its relatives throw when the name is absent. -/
def required {α : Type} (name : String) : Option α → Outcome α
  | some value => .ok value
  | none => .error (.jsonException ("No value for " ++ name))

inductive SplitTunnelType
  | disable
  | «include»
  | exclude

def SplitTunnelType.ofInt? : ℤ → Option SplitTunnelType
  | 0 => some .disable
  | 1 => some .include
  | 2 => some .exclude
  | _ => none

def handlerFor {α : Type} (parameter : String) (inclusive exclusive : α) (splitTunnelType : ℤ) :
    Outcome α :=
  match SplitTunnelType.ofInt? splitTunnelType with
  | some .include => .ok inclusive
  | some .exclude => .ok exclusive
  | _ => .error (.badConfigException
      ("Unexpected value of the '" ++ parameter ++ "' parameter: " ++ toString splitTunnelType))

variable (config : ConfigJson)

def configSplitTunneling (b : Builder) : Outcome Builder :=
  if !b.allowSplitTunneling then .ok b
  else if config.splitTunnelType = 0 then .ok b
  else do
    let splitTunnelSites ← required "splitTunnelSites" config.splitTunnelSites
    let addressHandler ← handlerFor "splitTunnelType" Builder.includeAddress Builder.excludeAddress
      config.splitTunnelType
    splitTunnelSites.foldlM (fun b site => do
      let address ← InetNetwork.parse site
      return addressHandler b address) b

def configAppSplitTunneling (b : Builder) : Outcome Builder :=
  if config.appSplitTunnelType = 0 then .ok b
  else do
    let splitTunnelApps ← required "splitTunnelApps" config.splitTunnelApps
    let appHandler ← handlerFor "appSplitTunnelType" Builder.includeApplication
      Builder.excludeApplication config.appSplitTunnelType
    return splitTunnelApps.foldl appHandler b

structure WireguardConfig where
  protocolConfig : ProtocolConfig
  endpoint : InetEndpoint
  persistentKeepalive : ℤ
  publicKeyHex : String
  preSharedKeyHex : Option String
  privateKeyHex : String

namespace WireguardConfig

def defaultMtu : ℤ := 1280

structure Builder where
  base : ProtocolConfig.Builder := { blockingMode := true, mtu := defaultMtu }
  endpoint : Option InetEndpoint := none
  persistentKeepalive : ℤ := 0
  publicKeyHex : Option String := none
  preSharedKeyHex : Option String := none
  privateKeyHex : Option String := none

/-- Reading a `lateinit` property. -/
def lateinit {α : Type} (property : String) : Option α → Outcome α
  | some value => .ok value
  | none => .error (.uninitializedPropertyAccessException property)

def Builder.build (order : HashOrder InetNetwork) (sdk : ℕ) (b : Builder) :
    Outcome WireguardConfig := do
  let base ← b.base.configBuild order sdk
  let endpoint ← lateinit "endpoint" b.endpoint
  let publicKeyHex ← lateinit "publicKeyHex" b.publicKeyHex
  let privateKeyHex ← lateinit "privateKeyHex" b.privateKeyHex
  return ⟨.ofBuilder base, endpoint, b.persistentKeepalive, publicKeyHex, b.preSharedKeyHex,
    privateKeyHex⟩

end WireguardConfig

namespace Wireguard

section ParseConfig

variable (order : HashOrder InetNetwork) (base64ToHex : String → Outcome String)

/-- `configData[key]?.let { f(it) }` -/
def ifPresent {α : Type} (value : Option String) (f : String → Outcome α) : Outcome (Option α) :=
  match value with
  | none => .ok none
  | some text => some <$> f text

variable (configData : ConfigData)

/-- `configData[key]?.split(",")?.map { f(it.trim()) }` -/
def listOf {α : Type} (key : String) (f : String → Outcome α) : Outcome (List α) :=
  match configData.get key with
  | none => .ok []
  | some value => (commaSeparated value).mapM f

/-- A route other than the default ones switches global split tunnelling off. -/
def configRoutes (b : ProtocolConfig.Builder) :
    Outcome ProtocolConfig.Builder := do
  let defRoutes := [← InetNetwork.ofText "0.0.0.0" 0, ← InetNetwork.ofText "::" 0]
  let allowed ← listOf configData "AllowedIPs" InetNetwork.parse
  let routes := linkedHashSetAddAll [] allowed
  let b := if routes.any (· ∉ defRoutes) then b.disableSplitTunneling else b
  return b.addRoutes (order.iterate routes)

def configMtu (mtu : String) (b : ProtocolConfig.Builder) : Outcome ProtocolConfig.Builder :=
  if mtu ≠ "" then b.setMtu <$> toInt mtu
  else
    match configData.get "MTU" with
    | some mtu => b.setMtu <$> toInt mtu
    | none => .ok b

def configWireguard (configDataJson : WireguardJson) (b : WireguardConfig.Builder) :
    Outcome WireguardConfig.Builder := do
  let addresses ← listOf configData "Address" InetNetwork.parse
  let base := addresses.foldl ProtocolConfig.Builder.addAddress b.base
  let dnsServers ← listOf configData "DNS" parseInetAddress
  let base := dnsServers.foldl ProtocolConfig.Builder.addDnsServer base
  let base ← configRoutes order configData base
  let base ← configMtu configData configDataJson.mtu base
  let endpoint ← ifPresent (configData.get "Endpoint") InetEndpoint.parse
  let persistentKeepalive ← ifPresent (configData.get "PersistentKeepalive") toInt
  let privateKeyHex ← ifPresent (configData.get "PrivateKey") base64ToHex
  let publicKeyHex ← ifPresent (configData.get "PublicKey") base64ToHex
  let preSharedKeyHex ← ifPresent (configData.get "PresharedKey") base64ToHex
  return {
    base
    endpoint := endpoint.or b.endpoint
    persistentKeepalive := persistentKeepalive.getD b.persistentKeepalive
    privateKeyHex := privateKeyHex.or b.privateKeyHex
    publicKeyHex := publicKeyHex.or b.publicKeyHex
    preSharedKeyHex := preSharedKeyHex.or b.preSharedKeyHex }

def parseConfig (sdk : ℕ) (config : ConfigJson) : Outcome WireguardConfig := do
  let configDataJson ← required "wireguard_config_data" config.wireguardConfigData
  let configData := parseConfigData (← required "config" configDataJson.config)
  let b ← configWireguard order base64ToHex configData configDataJson {}
  let base ← configSplitTunneling config b.base
  let base ← configAppSplitTunneling config base
  { b with base }.build order sdk

end ParseConfig

end Wireguard

end AmneziaVpn
