import AmneziaVpn.ApplicationSettings
import AmneziaVpn.Daemon
import AmneziaVpn.QtStringLists

/-!
# From the configuration to the daemon

The connection may turn the allowed addresses of the configuration into a list of sites.
-/

namespace AmneziaVpn

open List QJsonObject QJsonValue

def isSpaceC (c : Char) : Bool := c.toNat == 0x20 || (9 ≤ c.toNat && c.toNat ≤ 13)

def leadingNumber (cs : List Char) : ℤ := Nat.ofDigitChars 10 (cs.takeWhile Char.isDigit) 0

def signedNumber : List Char → ℤ
  | '-' :: cs => -leadingNumber cs
  | '+' :: cs => leadingNumber cs
  | cs => leadingNumber cs

/-- The number is read as a `long` and cut to an `int`. -/
def atoi (s : String) : ℤ :=
  (max (-2 ^ 63) (min (signedNumber (s.toList.dropWhile isSpaceC)) (2 ^ 63 - 1))).bmod (2 ^ 32)

theorem atoi_range (s : String) : -2 ^ 31 ≤ atoi s ∧ atoi s < 2 ^ 31 := Settings.bmod_range _

def QJsonValue.sameTexts : List QJsonValue → List String → Bool
  | [], [] => true
  | .string s :: items, text :: texts => s == text && sameTexts items texts
  | _, _ => false

theorem QJsonValue.sameTexts_iff {items : List QJsonValue} {texts : List String} :
    sameTexts items texts = true ↔ items = texts.map .string := by
  induction items generalizing texts with
  | nil => cases texts <;> simp [sameTexts]
  | cons item items ih =>
    cases texts with
    | nil => cases item <;> simp [sameTexts]
    | cons text texts => cases item <;> simp [sameTexts, ih]

/-- The texts of `0.0.0.0/0, ::/0`. The second one starts with a space. -/
def defaultAllowedIP : List String := QString.split "0.0.0.0/0, ::/0" ","

namespace VpnConnection

open Settings

def createVpnConfiguration (dns : String × String) (serverConfig awgConfigData : QJsonObject) :
    QJsonObject :=
  insert [] "awg_config_data" (.object awgConfigData)
    |>.insert "protocol" (.string "awg")
    |>.insert "dns1" (.string dns.1)
    |>.insert "dns2" (.string dns.2)
    |>.insert "hostName" (.string (serverConfig.value "hostName").toString)
    |>.insert "description" (.string (serverConfig.value "description").toString)
    |>.insert "config_version" (.double (serverConfig.value "config_version").toInt)

structure SplitTunneling where
  isSitesSplitTunnelingEnabled : Bool
  routeMode : RouteMode
  getVpnIps : RouteMode → List String
  isAppsSplitTunnelingEnabled : Bool
  getAppsRouteMode : AppsRouteMode
  getVpnApps : AppsRouteMode → List InstalledAppInfo

def routeModeNumber : RouteMode → ℤ
  | .vpnAllSites => 0
  | .vpnOnlyForwardSites => 1
  | .vpnAllExceptSites => 2

def appsRouteModeNumber : AppsRouteMode → ℤ
  | .vpnAllApps => 0
  | .vpnOnlyForwardApps => 1
  | .vpnAllExceptApps => 2

variable (m_settings : SplitTunneling) (config : QJsonObject)

def appendSitesConfig : QJsonObject :=
  let dns := [(config.value "dns1").toString, (config.value "dns2").toString]
  if (config.value "config_version").toInt ≠ 0 then
    let protocolName := (config.value "protocol").toString
    if protocolName = "awg" then
      let configData := (config.value (protocolName ++ "_config_data")).toObject
      let allowedIps := QString.split (configData.value "allowed_ips").toString ","
      if allowedIps ≠ defaultAllowedIP then
        config.insert "splitTunnelType" (.double (routeModeNumber .vpnOnlyForwardSites))
          |>.insert "splitTunnelSites" (.ofStringList (allowedIps ++ dns))
      else config
    else config
  else
    let routeMode :=
      if m_settings.isSitesSplitTunnelingEnabled then m_settings.routeMode else .vpnAllSites
    let sites :=
      if m_settings.isSitesSplitTunnelingEnabled then
        m_settings.getVpnIps routeMode ++ if routeMode = .vpnOnlyForwardSites then dns else []
      else []
    config.insert "splitTunnelType" (.double (routeModeNumber routeMode))
      |>.insert "splitTunnelSites" (.ofStringList sites)

def appendSplitTunnelingConfig : QJsonObject :=
  let appsRouteMode :=
    if m_settings.isAppsSplitTunnelingEnabled then m_settings.getAppsRouteMode else .vpnAllApps
  let apps :=
    if m_settings.isAppsSplitTunnelingEnabled then
      (m_settings.getVpnApps appsRouteMode).map fun app =>
        if app.appPath = "" then app.packageName else app.appPath
    else []
  (appendSitesConfig m_settings config)
    |>.insert "appSplitTunnelType" (.double (appsRouteModeNumber appsRouteMode))
    |>.insert "splitTunnelApps" (.ofStringList apps)

end VpnConnection

namespace LocalSocketController

structure AddressRange where
  address : String
  range : ℤ
  isIpv6 : Bool
  isInt : -2 ^ 31 ≤ range ∧ range < 2 ^ 31

def AddressRange.toJson (r : AddressRange) : QJsonObject :=
  insert [] "address" (.string r.address)
    |>.insert "range" (.double r.range)
    |>.insert "isIpv6" (.bool r.isIpv6)

/-- A host without a length gets the one of IPv4. -/
def rangeOf (ipRange : String) : AddressRange :=
  match QString.split ipRange "/" with
  | address :: length :: _ => ⟨address, atoi length, false, atoi_range length⟩
  | _ => ⟨ipRange, 32, false, by decide⟩

def allAddresses : List AddressRange :=
  [⟨"0.0.0.0", 0, false, by decide⟩, ⟨"::", 0, true, by decide⟩]

def allowedIPAddresses (rawConfig wgConfig : QJsonObject) : List AddressRange :=
  let splitTunnelType := (rawConfig.value "splitTunnelType").toInt
  let splitTunnelSites := (rawConfig.value "splitTunnelSites").toArray
  let plainAllowedIP := (wgConfig.value "allowed_ips").toArray
  if sameTexts plainAllowedIP defaultAllowedIP = false ∧ plainAllowedIP.isEmpty = false then
    plainAllowedIP.map fun v => rangeOf v.toString
  else
    (if splitTunnelType = 0 ∨ splitTunnelType = 2 then allAddresses else []) ++
    if splitTunnelType = 1 then splitTunnelSites.map fun v => rangeOf v.toString else []

/-- An array has no undefined values. -/
def element (v : QJsonValue) : QJsonValue := if v.isUndefined then .null else v

def junkKeys : List String := ["Jc", "Jmin", "Jmax", "S1", "S2", "H1", "H2", "H3", "H4"]

def activate (rawConfig : QJsonObject) : QJsonObject :=
  let protocolName := (rawConfig.value "protocol").toString
  let splitTunnelType := (rawConfig.value "splitTunnelType").toInt
  let splitTunnelSites := (rawConfig.value "splitTunnelSites").toArray
  let wgConfig := (rawConfig.value (protocolName ++ "_config_data")).toObject
  let json := insert [] "type" (.string "activate")
    |>.insert "privateKey" (wgConfig.value "client_priv_key")
    |>.insert "deviceIpv4Address" (wgConfig.value "client_ip")
    |>.insert "deviceIpv6Address" (.string "fd58:baa6:dead::1")
    |>.insert "serverPublicKey" (wgConfig.value "server_pub_key")
    |>.insert "serverPskKey" (wgConfig.value "psk_key")
    |>.insert "serverIpv4AddrIn" (wgConfig.value "hostName")
    |>.insert "deviceMTU" (wgConfig.value "mtu")
    |>.insert "serverPort" (.double (wgConfig.value "port").toInt)
    |>.insert "serverIpv4Gateway" (wgConfig.value "hostName")
    |>.insert "dnsServer" (rawConfig.value "dns1")
    |>.insert "allowedIPAddressRanges"
      (.array ((allowedIPAddresses rawConfig wgConfig).map fun r => .object r.toJson))
    |>.insert "excludedAddresses" (.array (element (wgConfig.value "hostName") ::
      if splitTunnelType = 2 then splitTunnelSites.map fun v => .string v.toString else []))
    |>.insert "vpnDisabledApps" (.array (rawConfig.value "splitTunnelApps").toArray)
    |>.insert "killSwitchOption" (rawConfig.value "killSwitchOption")
  if protocolName = "awg" ∨ junkKeys.all fun key => !(wgConfig.value key).isUndefined then
    junkKeys.foldl (fun json key => json.insert key (wgConfig.value key)) json
  else json

end LocalSocketController

open LocalSocketController

namespace Daemon

variable (qt : QtParser)

/-- The daemon does not look at `isIpv6` any further. -/
def parseRange : QJsonValue → Option IPAddress
  | .object ipObj =>
      match value ipObj "address", value ipObj "range",
        value ipObj "isIpv6" with
      | .string address, .double range, .bool _ =>
          some ⟨qt.parse address, (double range).toInt⟩
      | _, _, _ => none
  | _ => none

def parseAllowedIPAddressRanges (obj : QJsonObject) : Option (List IPAddress) :=
  match obj.value "allowedIPAddressRanges" with
  | .array items => (items.mapM (parseRange qt)).map fun ranges =>
      ranges.mergeSort fun a b => decide (a.m_prefixLength ≥ b.m_prefixLength)
  | _ => none

end Daemon

namespace LocalSocketController

variable (qt : QtParser) (r : AddressRange)

def AddressRange.toIPAddress : IPAddress :=
  ⟨qt.parse r.address, r.range⟩

theorem parseRange_toJson : Daemon.parseRange qt (.object r.toJson) = some (r.toIPAddress qt) := by
  have htoInt : (double r.range).toInt = r.range := by
    simp only [QJsonValue.toInt, Rat.den_intCast, Rat.num_intCast]
    exact if_pos ⟨trivial, r.isInt⟩
  have haddress : r.toJson.value "address" = .string r.address := by simp [AddressRange.toJson]
  have hrange : r.toJson.value "range" = .double r.range := by simp [AddressRange.toJson]
  have hisIpv6 : r.toJson.value "isIpv6" = .bool r.isIpv6 := by simp [AddressRange.toJson]
  rw [Daemon.parseRange, haddress, hrange, hisIpv6]
  dsimp only
  rw [htoInt]
  rfl

variable (rawConfig : QJsonObject)

theorem value_activate :
    (activate rawConfig).value "allowedIPAddressRanges" =
      .array ((allowedIPAddresses rawConfig (rawConfig.value
        ((rawConfig.value "protocol").toString ++ "_config_data")).toObject).map
          fun r => .object r.toJson) := by
  unfold activate
  dsimp only
  split
  · simp [junkKeys]
  · simp

theorem mapM_eq_some_map {α β : Type} {f : α → Option β} {g : α → β} {l : List α}
    (h : ∀ x ∈ l, f x = some (g x)) : l.mapM f = some (l.map g) := by
  induction l with
  | nil => rfl
  | cons x l ih =>
    rw [mapM_cons, h x mem_cons_self, ih fun y hy => h y (mem_cons_of_mem _ hy)]
    rfl

theorem mem_parseAllowedIPAddressRanges :
    ∃ ranges, Daemon.parseAllowedIPAddressRanges qt (activate rawConfig) = some ranges ∧
      ∀ ip, ip ∈ ranges ↔ ∃ r ∈ allowedIPAddresses rawConfig (rawConfig.value
        ((rawConfig.value "protocol").toString ++ "_config_data")).toObject,
          r.toIPAddress qt = ip := by
  have hread : ∀ l : List AddressRange,
      l.mapM (Daemon.parseRange qt ∘ fun r => .object r.toJson) =
        some (l.map (AddressRange.toIPAddress qt)) :=
    fun l => mapM_eq_some_map fun r _ => parseRange_toJson qt r
  rw [Daemon.parseAllowedIPAddressRanges, value_activate]
  dsimp only
  rw [mapM_map, hread]
  refine ⟨_, rfl, ?_⟩
  intro ip
  rw [mem_mergeSort, mem_map]

end LocalSocketController

namespace VpnConnection

variable {m_settings : SplitTunneling} {dns : String × String}
  {serverConfig awgConfigData : QJsonObject}

theorem value_appendSplitTunnelingConfig {config : QJsonObject} {key : String}
    (happs : key ≠ "splitTunnelApps") (htype : key ≠ "appSplitTunnelType") :
    (appendSplitTunnelingConfig m_settings config).value key =
      (appendSitesConfig m_settings config).value key := by
  unfold appendSplitTunnelingConfig
  dsimp only
  rw [value_insert_of_ne happs, value_insert_of_ne htype]

theorem toInt_double_toInt (v : QJsonValue) : (double v.toInt).toInt = v.toInt := by
  have hrange : -2 ^ 31 ≤ v.toInt ∧ v.toInt < 2 ^ 31 := by
    unfold QJsonValue.toInt
    split
    · split_ifs with h
      · exact h.2
      · decide
    · decide
  generalize v.toInt = n at hrange
  simp only [QJsonValue.toInt, Rat.den_intCast, Rat.num_intCast]
  exact if_pos ⟨trivial, hrange⟩

theorem appendSitesConfig_api (h : (serverConfig.value "config_version").toInt ≠ 0) :
    let allowedIps := QString.split (awgConfigData.value "allowed_ips").toString ","
    let config := createVpnConfiguration dns serverConfig awgConfigData
    appendSitesConfig m_settings config = if allowedIps ≠ defaultAllowedIP then
      (config.insert "splitTunnelType" (.double 1)).insert "splitTunnelSites"
        (.ofStringList (allowedIps ++ [dns.1, dns.2]))
      else config := by
  intro allowedIps config
  have hvalues : (config.value "config_version").toInt ≠ 0 ∧
      (config.value "protocol").toString = "awg" ∧
      (config.value ("awg" ++ "_config_data")).toObject = awgConfigData ∧
      (config.value "dns1").toString = dns.1 ∧ (config.value "dns2").toString = dns.2 := by
    simp [config, createVpnConfiguration, toInt_double_toInt, h, QJsonValue.toString,
      toObject]
  obtain ⟨hversion, hprotocol, hdata, hdns1, hdns2⟩ := hvalues
  unfold appendSitesConfig
  dsimp only
  rw [if_pos hversion, if_pos hprotocol, hprotocol, hdata, hdns1, hdns2]
  rfl

def apiRanges (allowedIps : QJsonValue) (dns : String × String) :
    List LocalSocketController.AddressRange :=
  let plain := allowedIps.toArray
  let texts := QString.split allowedIps.toString ","
  if sameTexts plain defaultAllowedIP = false ∧ plain.isEmpty = false then
    plain.map fun v => rangeOf v.toString
  else if texts = defaultAllowedIP then allAddresses
  else (texts ++ [dns.1, dns.2]).map rangeOf

/-- What the client sends for a configuration that was issued by the API. -/
theorem allowedIPAddresses_api (h : (serverConfig.value "config_version").toInt ≠ 0) :
    let rawConfig := appendSplitTunnelingConfig m_settings
      (createVpnConfiguration dns serverConfig awgConfigData)
    (rawConfig.value ((rawConfig.value "protocol").toString ++ "_config_data")).toObject =
      awgConfigData ∧
    allowedIPAddresses rawConfig awgConfigData =
      apiRanges (awgConfigData.value "allowed_ips") dns := by
  intro rawConfig
  let plain := (awgConfigData.value "allowed_ips").toArray
  let texts := QString.split (awgConfigData.value "allowed_ips").toString ","
  have hvalue : ∀ {key : String}, key ≠ "splitTunnelApps" → key ≠ "appSplitTunnelType" →
      rawConfig.value key = (appendSitesConfig m_settings
        (createVpnConfiguration dns serverConfig awgConfigData)).value key :=
    fun happs htype => value_appendSplitTunnelingConfig happs htype
  rw [appendSitesConfig_api h] at hvalue
  have hsame : ∀ {key : String}, key ≠ "splitTunnelApps" → key ≠ "appSplitTunnelType" →
      key ≠ "splitTunnelType" → key ≠ "splitTunnelSites" → rawConfig.value key =
        (createVpnConfiguration dns serverConfig awgConfigData).value key := by
    intro key happs happtype htype hsites
    rw [hvalue happs happtype]
    split_ifs
    · rw [value_insert_of_ne hsites, value_insert_of_ne htype]
    · rfl
  have hprotocol : (rawConfig.value "protocol").toString = "awg" := by
    rw [hsame (by decide) (by decide) (by decide) (by decide)]
    simp [createVpnConfiguration, QJsonValue.toString]
  constructor
  · rw [hprotocol]
    change (rawConfig.value "awg_config_data").toObject = awgConfigData
    rw [hsame (by decide) (by decide) (by decide) (by decide)]
    simp [createVpnConfiguration, toObject]
  · unfold allowedIPAddresses apiRanges
    dsimp only
    by_cases hplain : sameTexts plain defaultAllowedIP = false ∧ plain.isEmpty = false
    · rw [if_pos hplain, if_pos hplain]
    · rw [if_neg hplain, if_neg hplain]
      by_cases htexts : texts = defaultAllowedIP
      · have htype : (rawConfig.value "splitTunnelType").toInt = 0 := by
          rw [hvalue (by decide) (by decide), if_neg (not_not.mpr htexts)]
          simp [createVpnConfiguration, QJsonValue.toInt]
        rw [htype, if_pos (Or.inl rfl), if_neg (by decide), if_pos htexts, append_nil]
      · have htype : (rawConfig.value "splitTunnelType").toInt = 1 := by
          rw [hvalue (by decide) (by decide), if_pos htexts,
            value_insert_of_ne (by decide), value_insert_self]
          rfl
        have hsites : (rawConfig.value "splitTunnelSites").toArray =
            (texts ++ [dns.1, dns.2]).map .string := by
          rw [hvalue (by decide) (by decide), if_pos htexts, value_insert_self]
          rfl
        rw [htype, hsites, if_neg (by decide), if_pos rfl, if_neg htexts, nil_append,
          map_map]
        rfl

end VpnConnection

end AmneziaVpn
