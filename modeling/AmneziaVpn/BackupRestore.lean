import AmneziaVpn.ServersStore

/-!
# Restoring a backup

Restoring sets the keys that the backup has, so a key that was absent when the backup was made keeps
its value.
-/

namespace AmneziaVpn

inductive AvailableLanguageEnum
  | english | russian | chinaCn | ukrainian | persian | arabic | burmese | urdu | hindi
  deriving DecidableEq

/-- What becomes of the translation for a locale. -/
inductive Translation
  | installed | loaded | missing
  deriving DecidableEq

structure Translations where
  /-- `QLocale::language`, for the languages that there are. -/
  language? : String → Option AvailableLanguageEnum
  /-- `QLocale(QLocale::Language)` -/
  locale : AvailableLanguageEnum → String
  load : String → Translation

namespace Settings

variable (qt : SettingsRuntime) (tr : Translations)

def appLanguage (s : SecureQSettings) : String :=
  (s.value "Conf/appLanguage" (.locale qt.systemLocale)).toLocale qt

def setAppLanguage (s : SecureQSettings) (locale : String) : SecureQSettings :=
  s.setValue true "Conf/appLanguage" (.locale locale)

def getCurrentLanguageIndex (s : SecureQSettings) : AvailableLanguageEnum :=
  (tr.language? (appLanguage qt s)).getD .english

def updateTranslator (s : SecureQSettings) (locale : String) : SecureQSettings :=
  match tr.load locale with
  | .installed => setAppLanguage s locale
  | .loaded => s
  | .missing => setAppLanguage s (tr.locale .english)

def changeLanguage (s : SecureQSettings) (language : AvailableLanguageEnum) : SecureQSettings :=
  updateTranslator tr s (tr.locale language)

def appliedLanguage (language : String) : String :=
  let locale := tr.locale ((tr.language? language).getD .english)
  match tr.load locale with
  | .installed => locale
  | .loaded => language
  | .missing => tr.locale .english

variable {qt tr} {s : SecureQSettings}

theorem lookup_changeLanguage_of_ne {language : AvailableLanguageEnum} {key : String}
    (h : key ≠ "Conf/appLanguage") : (changeLanguage tr s language).lookup key = s.lookup key := by
  unfold changeLanguage updateTranslator
  split
  · exact SecureQSettings.lookup_setValue_of_ne h
  · rfl
  · exact SecureQSettings.lookup_setValue_of_ne h

theorem appLanguage_setAppLanguage (locale : String) :
    appLanguage qt (setAppLanguage s locale) = locale := by
  have hwritable : SecureQSettings.Writable true "Conf/appLanguage" := by
    rintro ⟨-, h⟩
    cases h
  rw [appLanguage, SecureQSettings.value, setAppLanguage,
    SecureQSettings.lookup_setValue_self hwritable]
  rfl

theorem appLanguage_changeLanguage :
    appLanguage qt (changeLanguage tr s (getCurrentLanguageIndex qt tr s)) =
      appliedLanguage tr (appLanguage qt s) := by
  unfold changeLanguage updateTranslator appliedLanguage getCurrentLanguageIndex
  dsimp only
  split
  · exact appLanguage_setAppLanguage _
  · rfl
  · exact appLanguage_setAppLanguage _

end Settings

namespace ServersStore

open Settings SecureQSettings

variable (qt : SettingsRuntime) (tr : Translations) (keyAvailable : Bool)

def restoreAppConfigFromData (s : ServersStore) (cfg : QJsonObject) : ServersStore :=
  match s.settings.restoreAppConfig keyAvailable cfg with
  | (false, _) => s
  | (true, settings) => { resetModel qt settings with
      settings := changeLanguage tr settings (getCurrentLanguageIndex qt tr settings) }

/-- What a setting needs to be read as it was in the settings `b` once their backup is restored in the
settings `s`. -/
def Carried (b s : SecureQSettings) (setting : Setting) : Prop :=
  match b.lookup setting.key with
  | none => setting.get s = setting.read setting.defaultValue
  | some v =>
      if Writable keyAvailable setting.key then setting.read (v.throughBackup qt) = setting.read v
      else setting.get s = setting.read v

def LanguageCarried (b s : SecureQSettings) : Prop :=
  if b.backupData qt = [] then appLanguage qt s = appLanguage qt b
  else appliedLanguage tr (if (b.lookup "Conf/appLanguage").isSome then qt.systemLocale
    else appLanguage qt s) = appLanguage qt b

def DefaultExists (servers : List QJsonObject) (index : ℤ) : Prop :=
  servers ≠ [] → 0 ≤ index ∧ index < servers.length

structure Restorable (b s : SecureQSettings) : Prop where
  settings : ∀ setting ∈ all qt, setting.key ≠ "Conf/appLanguage" → Carried qt keyAvailable b s setting
  language : LanguageCarried qt tr b s
  default : DefaultExists (serversArray qt b) (defaultServerIndex qt b)

variable {qt tr keyAvailable} {b : SecureQSettings} {s : ServersStore}

theorem toLocale_throughBackup (v : QVariant) : (v.throughBackup qt).toLocale qt = qt.systemLocale := by
  rw [QVariant.throughBackup]
  cases qt.fileReadBack (v.toJsonValue qt) with
  | double d =>
    rw [QVariant.ofJsonValue]
    split_ifs <;> rfl
  | _ => rfl

/-- A setting that is backed up, in the settings with the backup restored. -/
theorem get_restore_iff {setting : Setting} (hneed : needToBackup setting.key = true)
    (b s : SecureQSettings) :
    setting.get (s.restoreAppConfig keyAvailable (b.backupData qt)).2 = setting.get b ↔
      Carried qt keyAvailable b s setting := by
  have hlookup := @lookup_restore qt keyAvailable b s setting.key
  rw [Carried, Setting.get, Setting.get, value, value, hlookup]
  by_cases hwritable : Writable keyAvailable setting.key
  · rw [if_pos ⟨hneed, hwritable⟩]
    cases hb : b.lookup setting.key with
    | none => rfl
    | some v => exact (iff_of_eq (if_pos hwritable)).symm
  · rw [if_neg fun h => hwritable h.2]
    cases hb : b.lookup setting.key with
    | none => rfl
    | some v => exact (iff_of_eq (if_neg hwritable)).symm

theorem restoreAppConfigFromData_of_ne {cfg : QJsonObject} (h : cfg ≠ []) :
    let settings := (s.settings.restoreAppConfig keyAvailable cfg).2
    s.restoreAppConfigFromData qt tr keyAvailable cfg = { resetModel qt settings with
      settings := changeLanguage tr settings (getCurrentLanguageIndex qt tr settings) } := by
  have hok : (s.settings.restoreAppConfig keyAvailable cfg).1 = true := by
    rw [restoreAppConfig, if_neg (by simpa using h)]
  rw [restoreAppConfigFromData]
  split
  · rename_i hfalse
    rw [hfalse] at hok
    cases hok
  · rename_i htrue
    rw [htrue]

theorem lookup_restoreAppConfigFromData {key : String} (h : key ≠ "Conf/appLanguage")
    (cfg : QJsonObject) :
    (s.restoreAppConfigFromData qt tr keyAvailable cfg).settings.lookup key =
      (s.settings.restoreAppConfig keyAvailable cfg).2.lookup key := by
  by_cases hcfg : cfg = []
  · rw [hcfg]
    rfl
  · rw [restoreAppConfigFromData_of_ne hcfg]
    exact lookup_changeLanguage_of_ne h

theorem Synced.restoreAppConfigFromData (h : s.Synced qt) (cfg : QJsonObject) :
    (s.restoreAppConfigFromData qt tr keyAvailable cfg).Synced qt := by
  by_cases hcfg : cfg = []
  · rw [hcfg]
    exact h
  · rw [restoreAppConfigFromData_of_ne hcfg]
    constructor
    · change serversArray qt _ = serversArray qt _
      rw [serversArray, serversArray, value, value, lookup_changeLanguage_of_ne (by decide)]
    · change defaultServerIndex qt _ = defaultServerIndex qt _
      rw [defaultServerIndex, defaultServerIndex, value, value,
        lookup_changeLanguage_of_ne (by decide)]

theorem appLanguage_restoreAppConfig (b s : SecureQSettings) :
    appLanguage qt (s.restoreAppConfig keyAvailable (b.backupData qt)).2 =
      if (b.lookup "Conf/appLanguage").isSome then qt.systemLocale else appLanguage qt s := by
  have hwritable : Writable keyAvailable "Conf/appLanguage" := by
    rintro ⟨h, -⟩
    exact absurd h (by decide)
  have hlookup := @lookup_restore qt keyAvailable b s "Conf/appLanguage"
  rw [if_pos ⟨by decide, hwritable⟩] at hlookup
  rw [appLanguage, value, hlookup]
  cases b.lookup "Conf/appLanguage" with
  | none => rfl
  | some v => exact toLocale_throughBackup v

theorem languageCarried_iff (b : SecureQSettings) (s : ServersStore) :
    appLanguage qt (s.restoreAppConfigFromData qt tr keyAvailable (b.backupData qt)).settings =
      appLanguage qt b ↔ LanguageCarried qt tr b s.settings := by
  unfold LanguageCarried
  by_cases hcfg : b.backupData qt = []
  · rw [if_pos hcfg, hcfg]
    rfl
  · rw [if_neg hcfg, restoreAppConfigFromData_of_ne hcfg, appLanguage_changeLanguage,
      appLanguage_restoreAppConfig]

theorem getAppLanguage_mem_all : getAppLanguage qt ∈ all qt := by
  simp [all]

theorem serversList_mem_all : serversList qt ∈ all qt := by
  simp [all]

theorem eq_of_key_eq {setting other : Setting} (hmem : setting ∈ all qt) (hother : other ∈ all qt)
    (hkey : setting.key = other.key) : setting = other := by
  have hnodup : ((all qt).map (·.key)).Nodup := show keys.Nodup by decide
  exact List.inj_on_of_nodup_map hnodup hmem hother hkey

/-- Where all settings are the same, so are the servers and the default server. -/
theorem servers_of_all {s s' : SecureQSettings}
    (h : ∀ setting ∈ all qt, setting.get s' = setting.get s) :
    serversArray qt s' = serversArray qt s ∧ defaultServerIndex qt s' = defaultServerIndex qt s := by
  constructor
  · have hservers := h (serversList qt) serversList_mem_all
    exact Reading.servers.inj hservers
  · have hdefault := h (defaultServer qt) (by simp [all])
    exact Reading.int.inj hdefault

/-- A restored backup gives the settings of its time if the values and keys of both times allow it. -/
theorem restored_iff (hs : s.Synced qt) :
    let restored := s.restoreAppConfigFromData qt tr keyAvailable (b.backupData qt)
    restored.Synced qt ∧
    (((∀ setting ∈ all qt, setting.get restored.settings = setting.get b) ∧
        DefaultExists restored.model.servers restored.model.defaultServerIndex) ↔
      Restorable qt tr keyAvailable b s.settings) := by
  intro restored
  have hsynced : restored.Synced qt := hs.restoreAppConfigFromData _
  have hsettings : ∀ setting ∈ all qt, setting.key ≠ "Conf/appLanguage" →
      (setting.get restored.settings = setting.get b ↔
        Carried qt keyAvailable b s.settings setting) := by
    intro setting hmem hkey
    rw [← get_restore_iff (needToBackup_of_mem_all qt hmem), Setting.get, value,
      lookup_restoreAppConfigFromData hkey]
    rfl
  have hlanguage := @languageCarried_iff qt tr keyAvailable b s
  refine ⟨hsynced, ?_⟩
  constructor
  · rintro ⟨hall, hdefault⟩
    obtain ⟨hservers, hindex⟩ := servers_of_all hall
    refine ⟨fun setting hmem hkey => (hsettings setting hmem hkey).mp (hall setting hmem), ?_, ?_⟩
    · exact hlanguage.mp (Reading.locale.inj (hall _ getAppLanguage_mem_all))
    · rwa [hsynced.servers, hsynced.default, hservers, hindex] at hdefault
  · rintro ⟨hcarried, hcarriedLanguage, hdefault⟩
    have hall : ∀ setting ∈ all qt, setting.get restored.settings = setting.get b := by
      intro setting hmem
      by_cases hkey : setting.key = "Conf/appLanguage"
      · rw [eq_of_key_eq hmem getAppLanguage_mem_all hkey]
        exact congrArg Reading.locale (hlanguage.mpr hcarriedLanguage)
      · exact (hsettings setting hmem hkey).mpr (hcarried setting hmem hkey)
    obtain ⟨hservers, hindex⟩ := servers_of_all hall
    refine ⟨hall, ?_⟩
    rwa [hsynced.servers, hsynced.default, hservers, hindex]

def englishOnly : Translations where
  language? locale := if locale = "en_US" then some .english else none
  locale _ := "en_US"
  load _ := .installed

def oneServer : SecureQSettings :=
  setServersArray .emptyObjects true ∅ [[]]

def threeServers : ServersStore :=
  resetModel .emptyObjects (setDefaultServer true (setServersArray .emptyObjects true ∅ [[], [], []]) 2)

theorem restorable_oneServer :
    Restorable .emptyObjects englishOnly true oneServer oneServer := by
  refine ⟨?_, rfl, fun _ => ⟨by decide, by decide⟩⟩
  intro setting hmem _
  unfold Carried
  split
  · rename_i hnone
    rw [Setting.get, value, hnone]
    rfl
  · rename_i v hsome
    have hkey : setting.key = "Servers/serversList" := by
      by_contra hne
      have hother : oneServer.lookup setting.key = (∅ : SecureQSettings).lookup setting.key :=
        lookup_setValue_of_ne hne
      rw [hother, AList.lookup_empty] at hsome
      cases hsome
    obtain rfl := eq_of_key_eq hmem serversList_mem_all hkey
    obtain rfl := Option.some.inj hsome
    rfl

theorem restored_oneServer_again :
    let s := resetModel .emptyObjects oneServer
    s.Synced .emptyObjects ∧
    ∀ setting ∈ all .emptyObjects, setting.get (s.restoreAppConfigFromData .emptyObjects englishOnly
      true (oneServer.backupData .emptyObjects)).settings = setting.get oneServer :=
  ⟨synced_resetModel _, ((restored_iff (synced_resetModel _)).2.mpr restorable_oneServer).1⟩

/-- The restored default index designates no server. -/
theorem restored_oneServer :
    let restored := threeServers.restoreAppConfigFromData .emptyObjects englishOnly true
      (oneServer.backupData .emptyObjects)
    restored.model.servers = [[]] ∧ defaultServerIndex .emptyObjects oneServer = 0 ∧
    restored.model.defaultServerIndex = 2 ∧ ¬ DefaultExists restored.model.servers
      restored.model.defaultServerIndex := by
  intro restored
  have hservers : restored.model.servers = [[]] := rfl
  have hdefault : restored.model.defaultServerIndex = 2 := rfl
  refine ⟨hservers, rfl, hdefault, ?_⟩
  intro h
  rw [hservers, hdefault] at h
  exact absurd (h (by decide)).2 (by decide)

end ServersStore

end AmneziaVpn
