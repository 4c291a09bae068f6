import AmneziaVpn.ApplicationSettings
import AmneziaVpn.ServersModel

/-!
# The servers and their stored copy

The model of the servers keeps its own copy of the stored array and of the index of the default
server.
-/

namespace AmneziaVpn

open List

namespace ServersModel

def defaultServer? (m : ServersModel) : Option QJsonObject :=
  if 0 ≤ m.defaultServerIndex then m.servers[m.defaultServerIndex.toNat]? else none

variable {m : ServersModel}

theorem servers_removeServer (hlo : 0 ≤ m.processedServerIndex) :
    m.removeServer.servers = m.servers.eraseIdx m.processedServerIndex.toNat := if_pos hlo

theorem default_removeServer_self (h : m.defaultServerIndex = m.processedServerIndex) :
    m.removeServer.defaultServerIndex = if m.removeServer.servers.isEmpty then -1 else 0 := by
  simp [removeServer, if_pos h]

theorem defaultServer?_removeServer (hlo : 0 ≤ m.processedServerIndex)
    (hhi : m.processedServerIndex < m.servers.length)
    (hne : m.defaultServerIndex ≠ m.processedServerIndex) :
    m.removeServer.defaultServer? = m.defaultServer? := by
  have hservers := servers_removeServer hlo
  have hlength : m.removeServer.servers.length = m.servers.length - 1 := by
    rw [hservers, length_eraseIdx_of_lt (by omega)]
  by_cases hempty : m.removeServer.servers.isEmpty = true
  · have hdefault : m.removeServer.defaultServerIndex = -1 := by
      simp only [removeServer] at hempty ⊢
      rw [if_pos hempty]
    have hone : m.servers.length = 1 := by
      have := List.isEmpty_iff.mp hempty
      rw [this, length_nil] at hlength
      omega
    rw [defaultServer?, hdefault, if_neg (by omega), defaultServer?]
    split_ifs
    · exact (getElem?_eq_none (by omega)).symm
    · rfl
  · have hdefault : m.removeServer.defaultServerIndex =
        if m.defaultServerIndex > m.processedServerIndex then m.defaultServerIndex - 1
        else m.defaultServerIndex := by
      simp only [removeServer] at hempty ⊢
      rw [if_neg hempty, if_neg hne]
    rw [defaultServer?, defaultServer?, hdefault, hservers]
    split_ifs with hgt hlo' hlo'' hlo'
    · rw [getElem?_eraseIdx_of_ge (by omega)]
      congr 1
      omega
    · omega
    · omega
    · rfl
    · rw [getElem?_eraseIdx_of_lt (by omega)]
    · rfl

end ServersModel

structure ServersStore where
  settings : SecureQSettings
  model : ServersModel

namespace ServersStore

open Settings

variable (qt : SettingsRuntime)

def resetModel (settings : SecureQSettings) : ServersStore where
  settings := settings
  model := ⟨serversArray qt settings, defaultServerIndex qt settings, defaultServerIndex qt settings⟩

def setDefaultServerIndex (s : ServersStore) (index : ℤ) : ServersStore :=
  let settings := setDefaultServer true s.settings index
  { settings, model := { s.model with defaultServerIndex := defaultServerIndex qt settings } }

def setProcessedServerIndex (s : ServersStore) (index : ℤ) : ServersStore :=
  { s with model := s.model.setProcessedServerIndex index }

def addServer (keyAvailable : Bool) (s : ServersStore) (server : QJsonObject) : ServersStore :=
  let settings := Settings.addServer qt keyAvailable s.settings server
  { settings, model := { s.model with servers := serversArray qt settings } }

/-- Replacing in an array at an index out of range is not allowed. -/
def editServer (keyAvailable : Bool) (s : ServersStore) (server : QJsonObject) (serverIndex : ℕ) :
    Option ServersStore :=
  let settings := Settings.editServer qt keyAvailable s.settings serverIndex server
  match (serversArray qt settings)[serverIndex]? with
  | none => none
  | some stored =>
      if serverIndex < s.model.servers.length then
        some { settings, model := { s.model with servers := s.model.servers.set serverIndex stored } }
      else none

/-- The default index once the server at another index is gone. -/
def shiftDefaultServerIndex (s : ServersStore) (removed : ℤ) : ServersStore :=
  if defaultServerIndex qt s.settings = removed then s.setDefaultServerIndex qt 0
  else if defaultServerIndex qt s.settings > removed then
    s.setDefaultServerIndex qt (defaultServerIndex qt s.settings - 1)
  else s

/-- There is no default server among no servers. -/
def clearDefaultServerIndex (s : ServersStore) : ServersStore :=
  if serversCount qt s.settings = 0 then s.setDefaultServerIndex qt (-1) else s

def removeServer (keyAvailable : Bool) (s : ServersStore) : ServersStore :=
  let processed := s.model.processedServerIndex
  let settings := Settings.removeServer qt keyAvailable s.settings processed
  let s := { settings, model := { s.model with servers := serversArray qt settings } : ServersStore }
  let s := (s.shiftDefaultServerIndex qt processed).clearDefaultServerIndex qt
  s.setProcessedServerIndex s.model.defaultServerIndex

/-- The operations; each one may find that the array cannot be encrypted. -/
inductive Operation
  | addServer (keyAvailable : Bool) (server : QJsonObject)
  | editServer (keyAvailable : Bool) (server : QJsonObject) (serverIndex : ℕ)
  | removeServer (keyAvailable : Bool)
  | setDefaultServerIndex (index : ℤ)
  | setProcessedServerIndex (index : ℤ)

def step (s : ServersStore) : Operation → Option ServersStore
  | .addServer keyAvailable server => some (s.addServer qt keyAvailable server)
  | .editServer keyAvailable server serverIndex => s.editServer qt keyAvailable server serverIndex
  | .removeServer keyAvailable => some (s.removeServer qt keyAvailable)
  | .setDefaultServerIndex index => some (s.setDefaultServerIndex qt index)
  | .setProcessedServerIndex index => some (s.setProcessedServerIndex index)

/-- A run from the stored settings. It stops at an edit out of range. -/
def run (settings : SecureQSettings) (operations : List Operation) : Option ServersStore :=
  operations.foldlM (step qt) (resetModel qt settings)

structure Synced (s : ServersStore) : Prop where
  servers : s.model.servers = serversArray qt s.settings
  default : s.model.defaultServerIndex = defaultServerIndex qt s.settings

variable {qt} {s : ServersStore} {keyAvailable : Bool}

theorem synced_resetModel (settings : SecureQSettings) : (resetModel qt settings).Synced qt :=
  ⟨rfl, rfl⟩

namespace Synced

theorem setDefaultServerIndex (h : s.Synced qt) (index : ℤ) :
    (s.setDefaultServerIndex qt index).Synced qt := by
  refine ⟨?_, rfl⟩
  exact h.servers.trans (@serversArray_setDefaultServer qt true s.settings index).symm

theorem setProcessedServerIndex (h : s.Synced qt) (index : ℤ) :
    (s.setProcessedServerIndex index).Synced qt := ⟨h.servers, h.default⟩

theorem addServer (h : s.Synced qt) (server : QJsonObject) :
    (s.addServer qt keyAvailable server).Synced qt := by
  refine ⟨rfl, ?_⟩
  exact h.default.trans (defaultServerIndex_setServersArray _).symm

end Synced

theorem map_readBack (settings : SecureQSettings) :
    (serversArray qt settings).map qt.readBack = serversArray qt settings :=
  (map_congr_left (qt.readBack_of_mem _)).trans (map_id' _)

variable {settings : SecureQSettings} {server : QJsonObject} {s' : ServersStore} {index : ℤ}

theorem serversArray_editServer {index : ℕ} (hindex : index < serversCount qt settings) :
    serversArray qt (Settings.editServer qt keyAvailable settings index server) =
      if keyAvailable then (serversArray qt settings).set index (qt.readBack server)
      else serversArray qt settings := by
  rw [Settings.editServer, if_neg (not_le.mpr hindex)]
  cases keyAvailable with
  | true => rw [serversArray_setServersArray, map_set, map_readBack, if_pos rfl]
  | false => rw [setServersArray_of_unavailable, if_neg Bool.false_ne_true]

theorem defaultServerIndex_editServer {index : ℕ} :
    defaultServerIndex qt (Settings.editServer qt keyAvailable settings index server) =
      defaultServerIndex qt settings := by
  unfold Settings.editServer
  split_ifs
  · rfl
  · exact defaultServerIndex_setServersArray _

theorem defaultServerIndex_removeServer :
    defaultServerIndex qt (Settings.removeServer qt keyAvailable settings index) =
      defaultServerIndex qt settings := by
  unfold Settings.removeServer
  split_ifs
  · rfl
  · exact defaultServerIndex_setServersArray _
  · exact defaultServerIndex_setServersArray _

theorem serversArray_removeServer (hlo : 0 ≤ index) (hhi : index < serversCount qt settings) :
    serversArray qt (Settings.removeServer qt true settings index) =
      (serversArray qt settings).eraseIdx index.toNat := by
  rw [Settings.removeServer, if_neg (not_le.mpr hhi), if_pos hlo, serversArray_setServersArray,
    ← eraseIdx_map, map_readBack]

theorem Synced.editServer (h : s.Synced qt) {serverIndex : ℕ}
    (hs' : s.editServer qt keyAvailable server serverIndex = some s') : s'.Synced qt := by
  simp only [ServersStore.editServer] at hs'
  split at hs'
  · cases hs'
  · rename_i stored hstored
    split_ifs at hs' with hlt
    obtain rfl := Option.some.inj hs'
    refine ⟨?_, h.default.trans defaultServerIndex_editServer.symm⟩
    rw [h.servers] at hlt ⊢
    rw [serversArray_editServer hlt] at hstored ⊢
    cases keyAvailable with
    | true =>
      rw [if_pos rfl] at hstored ⊢
      rw [getElem?_set_self hlt] at hstored
      rw [Option.some.inj hstored]
    | false =>
      rw [if_neg Bool.false_ne_true] at hstored ⊢
      obtain ⟨hlt', hstored⟩ := List.getElem?_eq_some_iff.mp hstored
      rw [← hstored, set_getElem_self]

theorem Synced.shiftDefaultServerIndex (h : s.Synced qt) (removed : ℤ) :
    (s.shiftDefaultServerIndex qt removed).Synced qt := by
  unfold ServersStore.shiftDefaultServerIndex
  split_ifs
  · exact h.setDefaultServerIndex _
  · exact h.setDefaultServerIndex _
  · exact h

theorem Synced.clearDefaultServerIndex (h : s.Synced qt) :
    (s.clearDefaultServerIndex qt).Synced qt := by
  unfold ServersStore.clearDefaultServerIndex
  split_ifs
  · exact h.setDefaultServerIndex _
  · exact h

theorem Synced.withoutServer (h : s.Synced qt) :
    let settings := Settings.removeServer qt keyAvailable s.settings s.model.processedServerIndex
    Synced qt ⟨settings, { s.model with servers := serversArray qt settings }⟩ :=
  ⟨rfl, h.default.trans defaultServerIndex_removeServer.symm⟩

theorem Synced.removeServer (h : s.Synced qt) : (s.removeServer qt keyAvailable).Synced qt :=
  (h.withoutServer.shiftDefaultServerIndex _).clearDefaultServerIndex.setProcessedServerIndex _

theorem Synced.step (h : s.Synced qt) {operation : Operation} (hs' : s.step qt operation = some s') :
    s'.Synced qt := by
  cases operation with
  | editServer keyAvailable server serverIndex => exact h.editServer hs'
  | addServer keyAvailable server =>
    obtain rfl := Option.some.inj hs'
    exact h.addServer server
  | removeServer keyAvailable =>
    obtain rfl := Option.some.inj hs'
    exact h.removeServer
  | setDefaultServerIndex index =>
    obtain rfl := Option.some.inj hs'
    exact h.setDefaultServerIndex index
  | setProcessedServerIndex index =>
    obtain rfl := Option.some.inj hs'
    exact h.setProcessedServerIndex index

variable {operations : List Operation}

theorem Synced.foldlM (h : s.Synced qt) (hs' : operations.foldlM (ServersStore.step qt) s = some s') :
    s'.Synced qt := by
  induction operations generalizing s with
  | nil =>
    obtain rfl := Option.some.inj hs'
    exact h
  | cons operation operations ih =>
    rw [foldlM_cons] at hs'
    obtain ⟨s₁, hs₁, hs'⟩ := Option.bind_eq_some_iff.mp hs'
    exact ih (h.step hs₁) hs'

theorem synced_run (hs : run qt settings operations = some s) : s.Synced qt :=
  (synced_resetModel settings).foldlM hs

theorem model_setDefaultServerIndex (h : -2 ^ 31 ≤ index ∧ index < 2 ^ 31) :
    (s.setDefaultServerIndex qt index).model = { s.model with defaultServerIndex := index } := by
  rw [setDefaultServerIndex, defaultServerIndex_setDefaultServer h]

theorem model_shiftDefaultServerIndex (h : s.Synced qt) {removed : ℤ} (hremoved : 0 ≤ removed) :
    (s.shiftDefaultServerIndex qt removed).model = { s.model with defaultServerIndex :=
      if s.model.defaultServerIndex = removed then 0
      else if s.model.defaultServerIndex > removed then s.model.defaultServerIndex - 1
      else s.model.defaultServerIndex } := by
  have hrange : -2 ^ 31 ≤ s.model.defaultServerIndex ∧ s.model.defaultServerIndex < 2 ^ 31 :=
    h.default ▸ toInt_range _
  rw [shiftDefaultServerIndex, ← h.default]
  split_ifs
  · exact model_setDefaultServerIndex (by decide)
  · exact model_setDefaultServerIndex (by omega)
  · rfl

theorem model_clearDefaultServerIndex (h : s.Synced qt) :
    (s.clearDefaultServerIndex qt).model = { s.model with defaultServerIndex :=
      if s.model.servers.isEmpty then -1 else s.model.defaultServerIndex } := by
  have hcount : s.model.servers.isEmpty = true ↔ serversCount qt s.settings = 0 := by
    rw [serversCount, h.servers, List.isEmpty_iff, length_eq_zero_iff]
  rw [clearDefaultServerIndex]
  by_cases hempty : serversCount qt s.settings = 0
  · rw [if_pos hempty, model_setDefaultServerIndex (by decide), if_pos (hcount.mpr hempty)]
  · rw [if_neg hempty, if_neg fun h => hempty (hcount.mp h)]

/-- With the settings in step, removing a server is what it is for the model alone. -/
theorem model_removeServer (h : s.Synced qt) (hlo : 0 ≤ s.model.processedServerIndex)
    (hhi : s.model.processedServerIndex < s.model.servers.length) :
    (s.removeServer qt true).model = s.model.removeServer := by
  have hwithout := @Synced.withoutServer qt s true h
  have hservers := serversArray_removeServer hlo (h.servers ▸ hhi)
  rw [← h.servers] at hservers
  have hclear := model_clearDefaultServerIndex
    (hwithout.shiftDefaultServerIndex s.model.processedServerIndex)
  rw [model_shiftDefaultServerIndex hwithout hlo, hservers] at hclear
  simp [removeServer, setProcessedServerIndex, ServersModel.setProcessedServerIndex, hservers, ServersModel.removeServer, ServersModel.withoutServer, if_pos hlo, hclear]

end ServersStore

end AmneziaVpn
