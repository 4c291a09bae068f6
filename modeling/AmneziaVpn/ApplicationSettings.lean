import AmneziaVpn.SecureQSettings

/-!
# The settings of the application

Every setting is a value under a key, with a default for a key that is not there, and is read by one
of the conversions.
-/

namespace AmneziaVpn.Settings

open SecureQSettings

inductive RouteMode
  | vpnAllSites | vpnOnlyForwardSites | vpnAllExceptSites
  deriving DecidableEq

def routeModeString : RouteMode → String
  | .vpnAllSites => "AllSites"
  | .vpnOnlyForwardSites => "ForwardSites"
  | .vpnAllExceptSites => "ExceptSites"

inductive AppsRouteMode
  | vpnAllApps | vpnOnlyForwardApps | vpnAllExceptApps
  deriving DecidableEq

def appsRouteModeString : AppsRouteMode → String
  | .vpnAllApps => "AllApps"
  | .vpnOnlyForwardApps => "ForwardApps"
  | .vpnAllExceptApps => "ExceptApps"

structure InstalledAppInfo where
  appName : String
  packageName : String
  appPath : String

inductive Reading
  | bool (b : Bool)
  | int (n : ℤ)
  | text (s : String)
  | map (members : QJsonObject)
  | apps (infos : List InstalledAppInfo)
  | servers (servers : List QJsonObject)
  | locale (name : String)
  | dateTime (text : String)

structure Setting where
  key : String
  defaultValue : QVariant
  read : QVariant → Reading

def Setting.get (setting : Setting) (s : SecureQSettings) : Reading :=
  setting.read (s.value setting.key setting.defaultValue)

section Readers

variable (qt : SettingsRuntime)

def flag (key : String) (defaultValue : Bool) : Setting :=
  ⟨key, .bool defaultValue, fun v => .bool (v.toBool qt)⟩

def number (key : String) : Setting := ⟨key, .int 0, fun v => .int (v.toInt qt)⟩

def text (key defaultValue : String) : Setting :=
  ⟨key, .string defaultValue, fun v => .text (v.toString qt)⟩

def serversList : Setting :=
  ⟨"Servers/serversList", .invalid, fun v => .servers (qt.fromJson (v.toByteArray qt))⟩

def defaultServer : Setting := number qt "Servers/defaultServerIndex"
def isAutoConnect : Setting := flag qt "Conf/autoConnect" false
def isStartMinimized : Setting := flag qt "Conf/startMinimized" false
def isSaveLogs : Setting := flag qt "Conf/saveLogs" false
def getLogEnableDate : Setting :=
  ⟨"Conf/logEnableDate", .invalid, fun v => .dateTime (v.toDateTime qt)⟩
def routeMode : Setting := number qt "Conf/routeMode"
def isSitesSplitTunnelingEnabled : Setting := flag qt "Conf/sitesSplitTunnelingEnabled" false
def vpnSites (mode : RouteMode) : Setting :=
  ⟨"Conf/" ++ routeModeString mode, .invalid, fun v => .map v.toMap⟩
def useAmneziaDns : Setting := flag qt "Conf/useAmneziaDns" true
def primaryDns : Setting := text qt "Conf/primaryDns" "1.1.1.1"
def secondaryDns : Setting := text qt "Conf/secondaryDns" "1.0.0.1"
def getAppLanguage : Setting :=
  ⟨"Conf/appLanguage", .locale qt.systemLocale, fun v => .locale (v.toLocale qt)⟩
def isScreenshotsEnabled : Setting := flag qt "Conf/screenshotsEnabled" true
def getAppsRouteMode : Setting := number qt "Conf/appsRouteMode"
def getVpnApps (mode : AppsRouteMode) : Setting :=
  ⟨"Conf/" ++ appsRouteModeString mode, .invalid, fun v => .apps (v.toJsonArray.map fun app =>
    ⟨(app.toObject.value "appName").toString, (app.toObject.value "packageName").toString,
      (app.toObject.value "appPath").toString⟩)⟩
def isAppsSplitTunnelingEnabled : Setting := flag qt "Conf/appsSplitTunnelingEnabled" false
def isKillSwitchEnabled : Setting := flag qt "Conf/killSwitchEnabled" true

def all : List Setting :=
  [serversList qt, defaultServer qt, isAutoConnect qt, isStartMinimized qt, isSaveLogs qt,
    getLogEnableDate qt, routeMode qt, isSitesSplitTunnelingEnabled qt, vpnSites .vpnAllSites,
    vpnSites .vpnOnlyForwardSites, vpnSites .vpnAllExceptSites, useAmneziaDns qt, primaryDns qt,
    secondaryDns qt, getAppLanguage qt, isScreenshotsEnabled qt, getAppsRouteMode qt,
    getVpnApps .vpnAllApps, getVpnApps .vpnOnlyForwardApps, getVpnApps .vpnAllExceptApps,
    isAppsSplitTunnelingEnabled qt, isKillSwitchEnabled qt]

def keys : List String :=
  ["Servers/serversList", "Servers/defaultServerIndex", "Conf/autoConnect", "Conf/startMinimized",
    "Conf/saveLogs", "Conf/logEnableDate", "Conf/routeMode", "Conf/sitesSplitTunnelingEnabled",
    "Conf/AllSites", "Conf/ForwardSites", "Conf/ExceptSites", "Conf/useAmneziaDns",
    "Conf/primaryDns", "Conf/secondaryDns", "Conf/appLanguage", "Conf/screenshotsEnabled",
    "Conf/appsRouteMode", "Conf/AllApps", "Conf/ForwardApps", "Conf/ExceptApps",
    "Conf/appsSplitTunnelingEnabled", "Conf/killSwitchEnabled"]

theorem needToBackup_of_mem_all {setting : Setting} (h : setting ∈ all qt) :
    needToBackup setting.key = true := by
  have hkeys : (all qt).map (·.key) = keys := rfl
  have hbackup : ∀ key ∈ keys, needToBackup key = true := by decide +kernel
  exact hbackup setting.key (hkeys ▸ List.mem_map_of_mem h)

end Readers

section Servers

variable (qt : SettingsRuntime) (keyAvailable : Bool)

def serversArray (s : SecureQSettings) : List QJsonObject :=
  qt.fromJson ((s.value "Servers/serversList" .invalid).toByteArray qt)

def setServersArray (s : SecureQSettings) (servers : List QJsonObject) : SecureQSettings :=
  s.setValue keyAvailable "Servers/serversList" (.byteArray (qt.toJson servers))

def serversCount (s : SecureQSettings) : ℕ := (serversArray qt s).length

def addServer (s : SecureQSettings) (server : QJsonObject) : SecureQSettings :=
  setServersArray qt keyAvailable s (serversArray qt s ++ [server])

/-- Removing at a negative index removes nothing. -/
def removeServer (s : SecureQSettings) (index : ℤ) : SecureQSettings :=
  if index ≥ serversCount qt s then s
  else setServersArray qt keyAvailable s
    (if 0 ≤ index then (serversArray qt s).eraseIdx index.toNat else serversArray qt s)

def editServer (s : SecureQSettings) (index : ℕ) (server : QJsonObject) : SecureQSettings :=
  if index ≥ serversCount qt s then s
  else setServersArray qt keyAvailable s ((serversArray qt s).set index server)

def defaultServerIndex (s : SecureQSettings) : ℤ :=
  (s.value "Servers/defaultServerIndex" (.int 0)).toInt qt

def setDefaultServer (s : SecureQSettings) (index : ℤ) : SecureQSettings :=
  s.setValue keyAvailable "Servers/defaultServerIndex" (.int index)

variable {qt keyAvailable} {s : SecureQSettings}

theorem writable_defaultServerIndex :
    SecureQSettings.Writable keyAvailable "Servers/defaultServerIndex" := by
  rintro ⟨h, -⟩
  exact absurd h (by decide)

theorem serversArray_setDefaultServer (index : ℤ) :
    serversArray qt (setDefaultServer keyAvailable s index) = serversArray qt s := by
  have hne : "Servers/serversList" ≠ "Servers/defaultServerIndex" := by decide
  rw [serversArray, value, setDefaultServer, lookup_setValue_of_ne hne]
  rfl

variable (servers : List QJsonObject)

theorem defaultServerIndex_setServersArray :
    defaultServerIndex qt (setServersArray qt keyAvailable s servers) = defaultServerIndex qt s := by
  have hne : "Servers/defaultServerIndex" ≠ "Servers/serversList" := by decide
  rw [defaultServerIndex, value, setServersArray,
    lookup_setValue_of_ne hne]
  rfl

theorem serversArray_setServersArray :
    serversArray qt (setServersArray qt true s servers) = servers.map qt.readBack := by
  have hwritable : SecureQSettings.Writable true "Servers/serversList" := by
    rintro ⟨-, h⟩
    cases h
  rw [serversArray, value, setServersArray,
    lookup_setValue_self hwritable, ← qt.fromJson_toJson]
  rfl

theorem setServersArray_of_unavailable : setServersArray qt false s servers = s :=
  setValue_of_not_writable (not_not.mpr ⟨by decide, rfl⟩)

theorem defaultServerIndex_setDefaultServer {index : ℤ} (h : -2 ^ 31 ≤ index ∧ index < 2 ^ 31) :
    defaultServerIndex qt (setDefaultServer keyAvailable s index) = index := by
  rw [defaultServerIndex, value, setDefaultServer,
    lookup_setValue_self writable_defaultServerIndex]
  change index.bmod (2 ^ 32) = index
  exact Int.bmod_eq_of_le (by omega) (by omega)

theorem bmod_range (n : ℤ) : -2 ^ 31 ≤ n.bmod (2 ^ 32) ∧ n.bmod (2 ^ 32) < 2 ^ 31 := by
  have hle := @Int.le_bmod n (2 ^ 32) (by decide)
  have hlt := @Int.bmod_lt n (2 ^ 32) (by decide)
  omega

theorem toInt_range (v : QVariant) : -2 ^ 31 ≤ v.toInt qt ∧ v.toInt qt < 2 ^ 31 := by
  have htext : ∀ text : String, -2 ^ 31 ≤ QString.toInt text ∧ QString.toInt text < 2 ^ 31 := by
    intro text
    rw [QString.toInt]
    cases h : QString.toInt? text with
    | none => simp
    | some n =>
      unfold QString.toInt? at h
      obtain ⟨-, hn⟩ := Option.filter_eq_some_iff.mp h
      simpa using hn
  cases v with
  | bool b => cases b <;> simp [QVariant.toInt]
  | int n => exact bmod_range n
  | double d => exact bmod_range _
  | string text => exact htext text
  | byteArray bytes => exact htext _
  | _ => simp [QVariant.toInt]

end Servers

end AmneziaVpn.Settings
