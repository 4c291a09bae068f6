import AmneziaVpn.ConnectionController

/-!
# What a connection depends on

Two states of the application with the same default server open the same connection, and store a new
client configuration in the default server, exactly if the user interface shows the same
configuration of the container, the processed servers have the same name servers, and the processed
server is the default server whenever a configuration is created, up to changes that are none.
-/

namespace AmneziaVpn

open ContainerProps ServersModel List

namespace ServersModel

variable {m : ServersModel} {server : QJsonObject} {index : ℤ}

theorem lt_of_getServerConfig_ne_nil (h : m.getServerConfig index ≠ []) :
    0 ≤ index ∧ index.toNat < m.servers.length := by
  unfold getServerConfig at h
  split_ifs at h with hindex
  · refine ⟨hindex, ?_⟩
    by_contra hlength
    rw [getD_eq_getElem?_getD, getElem?_eq_none (Nat.le_of_not_lt hlength)] at h
    exact h rfl
  · exact absurd rfl h

theorem servers_editServer (h : 0 ≤ index) :
    (m.editServer server index).servers = m.servers.set index.toNat server := by
  unfold editServer
  rw [if_pos h]

theorem editServer_self (h : m.getServerConfig index ≠ []) :
    m.editServer (m.getServerConfig index) index = m := by
  obtain ⟨hindex, hlength⟩ := lt_of_getServerConfig_ne_nil h
  unfold editServer getServerConfig
  rw [if_pos hindex, if_pos hindex, getD_eq_getElem?_getD, getElem?_eq_getElem hlength,
    Option.getD_some, set_getElem_self]

theorem getServerConfig_editServer_self (h : m.getServerConfig index ≠ []) :
    (m.editServer server index).getServerConfig index = server := by
  obtain ⟨hindex, hlength⟩ := lt_of_getServerConfig_ne_nil h
  unfold getServerConfig
  rw [if_pos hindex, servers_editServer hindex, getD_eq_getElem?_getD,
    getElem?_set_self hlength, Option.getD_some]

theorem getServerConfig_editServer_of_ne {other : ℤ} (h : other ≠ index) :
    (m.editServer server other).getServerConfig index = m.getServerConfig index := by
  unfold editServer getServerConfig
  split_ifs with hother hindex
  · have hne : other.toNat ≠ index.toNat := by omega
    rw [getD_eq_getElem?_getD, getElem?_set_ne hne, ← getD_eq_getElem?_getD]
  · rfl
  · rfl

theorem editServer_eq_editServer_iff {f : QJsonObject → QJsonObject} {other : ℤ}
    (h : m.getServerConfig index ≠ []) :
    m.editServer (f (m.getServerConfig other)) other =
        m.editServer (f (m.getServerConfig index)) index ↔
      other = index ∨ (m.editServer (f (m.getServerConfig other)) other = m ∧
        f (m.getServerConfig index) = m.getServerConfig index) := by
  constructor
  · intro heq
    by_cases hother : other = index
    · exact .inl hother
    · have hentry : f (m.getServerConfig index) = m.getServerConfig index := by
        have hget := congrArg (getServerConfig · index) heq
        rw [getServerConfig_editServer_of_ne hother, getServerConfig_editServer_self h] at hget
        exact hget.symm
      refine .inr ⟨?_, hentry⟩
      rw [heq, hentry, editServer_self h]
  · rintro (rfl | ⟨hsame, hentry⟩)
    · rfl
    · rw [hsame, hentry, editServer_self h]

end ServersModel

namespace Application

variable (settings : ConnectionSettings) (s : Application)

def defaultServer : QJsonObject := s.model.getServerConfig s.model.defaultServerIndex

def defaultContainer : DockerContainer :=
  containerFromString (s.defaultServer.value "defaultContainer").toString

def shownConfig : QJsonObject := s.getContainerConfig s.defaultContainer

def credentials : ServerCredentials := serverCredentials s.defaultServer

def Proceeds : Prop :=
  serverHasInstalledContainers s.defaultServer = true ∧
    settings.isSupportedByCurrentPlatform s.defaultContainer = true ∧ s.defaultContainer ≠ .None

instance : Decidable (s.Proceeds settings) :=
  inferInstanceAs (Decidable (_ ∧ _ ∧ _))

end Application

namespace ConnectionController

variable (settings : ConnectionSettings) (container : DockerContainer)
  (credentials : ServerCredentials) (containerConfig : QJsonObject)

def created : Option QJsonObject :=
  if isProtocolConfigExists containerConfig container then none
  else (createProtocolConfigForContainer settings credentials container containerConfig).toOption

def updateError : Option ErrorCode :=
  if isProtocolConfigExists containerConfig container then none
  else
    match createProtocolConfigForContainer settings credentials container containerConfig with
    | .error e => some e
    | .ok config => settings.appendClient container credentials config

def stored (m : ServersModel) (container : DockerContainer) : Option QJsonObject → ServersModel
  | some config => m.updateContainerConfig container config
  | none => m

theorem updateProtocolConfig_eq (m : ServersModel) :
    updateProtocolConfig settings container credentials containerConfig m =
      (updateError settings container credentials containerConfig,
        (created settings container credentials containerConfig).getD containerConfig,
        stored m container (created settings container credentials containerConfig)) := by
  unfold updateProtocolConfig created updateError
  split_ifs
  · rfl
  · cases createProtocolConfigForContainer settings credentials container containerConfig with
    | error e => rfl
    | ok config => rfl

end ConnectionController

namespace Application

open ConnectionController

variable (settings : ConnectionSettings) (s : Application)

def newConfig : Option QJsonObject :=
  if s.Proceeds settings then created settings s.defaultContainer s.credentials s.shownConfig
  else none

def processedServer : QJsonObject :=
  (stored s.model s.defaultContainer (s.newConfig settings)).getServerConfig
    s.model.processedServerIndex

def StoresProperly : Prop :=
  ∀ config, s.newConfig settings = some config →
    s.model.processedServerIndex = s.model.defaultServerIndex ∨
      (s.model.updateContainerConfig s.defaultContainer config = s.model ∧
        withContainerConfig s.defaultContainer config s.defaultServer = s.defaultServer)

/-- A new configuration is stored in the default server, and nothing else changes. -/
def StoresInDefault : Prop :=
  (continueConnection settings s).2 =
    match s.newConfig settings with
    | some config =>
        s.model.editServer (withContainerConfig s.defaultContainer config s.defaultServer)
          s.model.defaultServerIndex
    | none => s.model

variable {settings s}

theorem processedServerIndex_stored (m : ServersModel) (container : DockerContainer)
    (config : Option QJsonObject) :
    (stored m container config).processedServerIndex = m.processedServerIndex := by
  cases config with
  | none => rfl
  | some config =>
    unfold stored updateContainerConfig editServer
    split_ifs
    · rfl
    · rfl

theorem continueConnection_eq :
    continueConnection settings s =
      if serverHasInstalledContainers s.defaultServer = false then (none, s.model)
      else if settings.isSupportedByCurrentPlatform s.defaultContainer = false then (none, s.model)
      else if s.defaultContainer = .None then (none, s.model)
      else
        match updateProtocolConfig settings s.defaultContainer s.credentials s.shownConfig
          s.model with
        | (some _, _, m) => (some ⟨s.defaultContainer, s.shownConfig, s.credentials, none⟩, m)
        | (none, config, m) =>
            (some ⟨s.defaultContainer, s.shownConfig, s.credentials,
              some (config, getDnsPair settings m s.model.defaultServerIndex)⟩, m) := rfl

theorem continueConnection_of_not_proceeds (h : ¬ s.Proceeds settings) :
    continueConnection settings s = (none, s.model) := by
  rw [continueConnection_eq]
  split_ifs with hinstalled hsupported hnone
  · rfl
  · rfl
  · rfl
  · exact absurd ⟨Bool.eq_true_of_not_eq_false hinstalled,
      Bool.eq_true_of_not_eq_false hsupported, hnone⟩ h

theorem continueConnection_of_proceeds (h : s.Proceeds settings) :
    continueConnection settings s =
      (some
        { container := s.defaultContainer
          containerConfig := s.shownConfig
          credentials := s.credentials
          connected :=
            if updateError settings s.defaultContainer s.credentials s.shownConfig = none then
              some ((s.newConfig settings).getD s.shownConfig,
                dnsPair settings (s.processedServer settings))
            else none },
        stored s.model s.defaultContainer (s.newConfig settings)) := by
  have hnew : s.newConfig settings =
      created settings s.defaultContainer s.credentials s.shownConfig := if_pos h
  obtain ⟨hinstalled, hsupported, hnone⟩ := h
  rw [continueConnection_eq, if_neg (by rw [hinstalled]; decide),
    if_neg (by rw [hsupported]; decide), if_neg hnone, updateProtocolConfig_eq, ← hnew]
  cases updateError settings s.defaultContainer s.credentials s.shownConfig with
  | some e => rfl
  | none =>
    unfold getDnsPair processedServer
    dsimp only
    rw [processedServerIndex_stored, if_pos rfl]

theorem defaultServer_ne_nil (h : s.Proceeds settings) : s.defaultServer ≠ [] := by
  intro hnil
  have hinstalled := h.1
  rw [hnil] at hinstalled
  cases hinstalled

theorem storesInDefault_iff : s.StoresInDefault settings ↔ s.StoresProperly settings := by
  unfold StoresInDefault StoresProperly
  by_cases h : s.Proceeds settings
  · rw [continueConnection_of_proceeds h]
    cases s.newConfig settings with
    | none => simp [stored]
    | some config =>
      simp only [Option.some.injEq, forall_eq']
      exact editServer_eq_editServer_iff (f := withContainerConfig s.defaultContainer config)
        (defaultServer_ne_nil h)
  · have hnew : s.newConfig settings = none := if_neg h
    rw [continueConnection_of_not_proceeds h, hnew]
    simp

/-- Both states open the same connection and store only in the default server. -/
structure Isolated (settings : ConnectionSettings) (s t : Application) : Prop where
  used : (continueConnection settings s).1 = (continueConnection settings t).1
  first : s.StoresInDefault settings
  second : t.StoresInDefault settings

section Pair

variable {t : Application} (hdefault : s.defaultServer = t.defaultServer)
include hdefault

theorem defaultContainer_congr : s.defaultContainer = t.defaultContainer := by
  unfold Application.defaultContainer
  rw [hdefault]

theorem credentials_congr : s.credentials = t.credentials := by
  unfold Application.credentials
  rw [hdefault]

theorem proceeds_congr : s.Proceeds settings ↔ t.Proceeds settings := by
  unfold Application.Proceeds
  rw [defaultContainer_congr hdefault, hdefault]

theorem newConfig_congr (hshown : s.shownConfig = t.shownConfig) (h : s.Proceeds settings) :
    s.newConfig settings = t.newConfig settings := by
  unfold newConfig
  rw [if_pos h, if_pos ((proceeds_congr hdefault).mp h), defaultContainer_congr hdefault,
    credentials_congr hdefault, hshown]

theorem used_eq_iff (h : s.Proceeds settings) :
    (continueConnection settings s).1 = (continueConnection settings t).1 ↔
      s.shownConfig = t.shownConfig ∧
        (updateError settings s.defaultContainer s.credentials s.shownConfig = none →
          dnsPair settings (s.processedServer settings) =
            dnsPair settings (t.processedServer settings)) := by
  have ht : t.Proceeds settings := (proceeds_congr hdefault).mp h
  rw [continueConnection_of_proceeds h, continueConnection_of_proceeds ht,
    ← defaultContainer_congr hdefault, ← credentials_congr hdefault]
  constructor
  · intro heq
    obtain ⟨-, hshown, -, hconnected⟩ := Used.mk.inj (Option.some.inj heq)
    refine ⟨hshown, fun herror => ?_⟩
    rw [← hshown, if_pos herror, if_pos herror] at hconnected
    exact (Prod.mk.inj (Option.some.inj hconnected)).2
  · rintro ⟨hshown, hdns⟩
    rw [← hshown, newConfig_congr hdefault hshown h]
    by_cases herror : updateError settings s.defaultContainer s.credentials s.shownConfig = none
    · rw [if_pos herror, if_pos herror, hdns herror]
    · rw [if_neg herror, if_neg herror]

end Pair

/-- Two states with one default server open the same connection exactly if they use the same values. -/
theorem isolated_iff (settings : ConnectionSettings) (s t : Application)
    (hdefault : s.defaultServer = t.defaultServer) :
    Isolated settings s t ↔
      ¬ s.Proceeds settings ∨
        (s.shownConfig = t.shownConfig ∧
          (updateError settings s.defaultContainer s.credentials s.shownConfig = none →
            dnsPair settings (s.processedServer settings) =
              dnsPair settings (t.processedServer settings)) ∧
          s.StoresProperly settings ∧ t.StoresProperly settings) := by
  by_cases h : s.Proceeds settings
  · constructor
    · rintro ⟨hused, hfirst, hsecond⟩
      obtain ⟨hshown, hdns⟩ := (used_eq_iff hdefault h).mp hused
      exact .inr ⟨hshown, hdns, storesInDefault_iff.mp hfirst, storesInDefault_iff.mp hsecond⟩
    · intro hcond
      obtain ⟨hshown, hdns, hfirst, hsecond⟩ := hcond.resolve_left (not_not_intro h)
      exact ⟨(used_eq_iff hdefault h).mpr ⟨hshown, hdns⟩, storesInDefault_iff.mpr hfirst,
        storesInDefault_iff.mpr hsecond⟩
  · have ht : ¬ t.Proceeds settings := fun ht => h ((proceeds_congr hdefault).mpr ht)
    have hnone : ∀ r : Application, ¬ r.Proceeds settings → r.StoresProperly settings := by
      intro r hr config hconfig
      rw [newConfig, if_neg hr] at hconfig
      cases hconfig
    refine iff_of_true ⟨?_, ?_, ?_⟩ (.inl h)
    · rw [continueConnection_of_not_proceeds h, continueConnection_of_not_proceeds ht]
    · exact storesInDefault_iff.mpr (hnone s h)
    · exact storesInDefault_iff.mpr (hnone t ht)

def plainSettings : ConnectionSettings where
  primaryDns := "1.1.1.1"
  secondaryDns := "1.0.0.1"
  isAmneziaDnsEnabled := false
  parseAddress _ := .ipv4 0
  isSupportedByCurrentPlatform _ := true
  createConfig _ _ _ _ := .ok "created"
  appendClient _ _ _ := none

def wireguardServer (hostName dns1 lastConfig : String) : QJsonObject :=
  [("containers", .array [.object [("container", .string "amnezia-wireguard"),
      ("wireguard", .object [("last_config", .string lastConfig)])]]),
    ("defaultContainer", .string "amnezia-wireguard"), ("dns1", .string dns1),
    ("hostName", .string hostName)]

def twoServers (first second : QJsonObject) (shown : ℕ) : Application where
  model := ⟨[first, second], 0, shown⟩
  containers := (([first, second].getD shown []).value "containers").toArray

theorem isolated_same_dns :
    Isolated plainSettings
      (twoServers (wireguardServer "a" "8.8.8.8" "x") (wireguardServer "b" "8.8.8.8" "x") 0)
      (twoServers (wireguardServer "a" "8.8.8.8" "x") (wireguardServer "c" "8.8.8.8" "x") 1) := by
  have hstores : ∀ r : Application, r.newConfig plainSettings = none →
      r.StoresProperly plainSettings := by
    intro r hr config hconfig
    rw [hr] at hconfig
    cases hconfig
  refine (isolated_iff plainSettings _ _ ?_).mpr (.inr ⟨?_, fun _ => ?_, hstores _ ?_, hstores _ ?_⟩)
  all_goals rfl

theorem connection_depends_on_processed_server :
    let first := wireguardServer "a" "8.8.8.8" ""
    let second := wireguardServer "b" "9.9.9.9" ""
    let s := twoServers first second 0
    let t := twoServers first second 1
    s.defaultServer = t.defaultServer ∧
      (((continueConnection plainSettings s).1.bind Used.connected).map Prod.snd =
        some ("8.8.8.8", "1.0.0.1")) ∧
      (((continueConnection plainSettings t).1.bind Used.connected).map Prod.snd =
        some ("9.9.9.9", "1.0.0.1")) ∧
      (continueConnection plainSettings t).2.servers =
        [first, wireguardServer "b" "9.9.9.9" "created"] := by
  exact ⟨rfl, by decide +kernel, by decide +kernel, rfl⟩

end Application

end AmneziaVpn
