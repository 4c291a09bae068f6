import AmneziaVpn.RevokedConfig

/-!
# Revocations and refreshes one after the other

A client that the interface accepts should be listed, so that its revocation can be repeated.
-/

namespace AmneziaVpn.ClientManagementModel

open ServerController

/-- The old format is an object with the ids as its keys. -/
inductive TableFile
  | array (clients : List QJsonValue)
  | object (clients : QJsonObject)
  | other

/-- `QJsonDocument::fromJson(..).array()` -/
def TableFile.toArray : TableFile → List QJsonValue
  | array clients => clients
  | _ => []

/-- `QJsonDocument::fromJson(..).object()` -/
def TableFile.toObject : TableFile → QJsonObject
  | object clients => clients
  | _ => []

def TableFile.isEmptyArray : TableFile → Bool
  | array [] => true
  | _ => false

def client (clientId : String) (userData : QJsonObject) : QJsonValue :=
  .object ((QJsonObject.insert [] "clientId" (.string clientId)).insert "userData" (.object userData))

def hasId (entry : QJsonValue) (clientId : String) : Bool :=
  entry.isObject && entry.toObject.contains "clientId" &&
    (entry.toObject.value "clientId").toString == clientId

variable (clientsTable : List QJsonValue)

def isClientExists (clientId : String) : Bool :=
  clientsTable.any (hasId · clientId)

def migration (clientsTable : QJsonObject) : List QJsonValue :=
  clientsTable.map fun (clientId, old) =>
    client clientId (QJsonObject.insert [] "clientName" (old.toObject.value "clientName"))

variable (config : String)

def wireguardKeys : List String :=
  (QString.splitSkipEmpty config "\n").filterMap fun line =>
    let configPair := (QString.split line " = ").filter (· ≠ "")
    if configPair.head? = some "PublicKey" then configPair.getLast? else none

/-- A client that is only found in the configuration file is numbered. -/
def addKey : List QJsonValue × ℕ → String → List QJsonValue × ℕ
  | (clientsTable, count), key =>
      if isClientExists clientsTable key then (clientsTable, count)
      else
        let userData := QJsonObject.insert [] "clientName" (.string ("Client " ++ toString count))
        (clientsTable ++ [client key userData], count + 1)

/-- `getWireGuardClients` with the text of the file. -/
def getWireGuardClients : List QJsonValue :=
  ((wireguardKeys config).foldl addKey (clientsTable, 0)).1

structure WgShowData where
  clientId : String
  latestHandshake : String
  dataReceived : String
  dataSent : String

/-- An entry with the counters of the interface, as far as there are any. -/
def withCounters (data : WgShowData) (entry : QJsonValue) : QJsonValue :=
  let set (key value : String) (userData : QJsonObject) : QJsonObject :=
    if value = "" then userData else userData.insert key (.string value)
  let userData := (entry.toObject.value "userData").toObject
  let userData := set "latestHandshake" data.latestHandshake userData
  let userData := set "dataReceived" data.dataReceived userData
  let userData := set "dataSent" data.dataSent userData
  .object (entry.toObject.insert "userData" (.object userData))

def showData (clientsTable : List QJsonValue) (data : WgShowData) : List QJsonValue :=
  match clientsTable with
  | [] => []
  | entry :: rest =>
      if hasId entry data.clientId then withCounters data entry :: rest
      else entry :: showData rest data

/-- The server, with the keys of the peers that the running interface accepts. -/
structure Server where
  wgConf : String
  clientsTable : TableFile
  running : List String

def Server.withTable (s : Server) (upload : Upload) (clientsTable : List QJsonValue) : Server :=
  if upload.written then { s with clientsTable := .array clientsTable } else s

structure Refresh where
  tableError : Option ErrorCode
  sameText : Bool
  configError : Option ErrorCode
  upload : Upload
  data : List WgShowData

/-- A table that has the text already is not uploaded. -/
def updateModel (r : Refresh) (s : Server) : Option ErrorCode × List QJsonValue × Server :=
  match r.tableError with
  | some e => (some e, [], s)
  | none =>
      match s.clientsTable.toArray with
      | entry :: rest => (none, r.data.foldl showData (entry :: rest), s)
      | [] =>
          let migrated := migration s.clientsTable.toObject
          match r.configError with
          | some e => (some e, migrated, s)
          | none =>
              let clientsTable := getWireGuardClients migrated s.wgConf
              if s.clientsTable.isEmptyArray && clientsTable.isEmpty && r.sameText then
                (none, r.data.foldl showData clientsTable, s)
              else
                (r.upload.error, r.data.foldl showData clientsTable,
                  s.withTable r.upload clientsTable)

def peerKeys : List String :=
  (blocks config.toList).flatMap fun block =>
    ((block.splitOn '\n').filterMap fun line =>
      (setting? line).map Prod.snd).filter fun key => isPeerOf key block

/-- `wg syncconf` -/
structure Sync where
  executed : Bool
  error : Option ErrorCode

/-- What the operations of a revocation on the server return. -/
structure Revoke where
  configError : Option ErrorCode
  configUpload : Upload
  tableUpload : Upload
  sync : Sync

/-- The result, the copy of the table and the server afterwards. -/
def revokeWireGuard (r : Revoke) (row : ℕ) (clientsTable : List QJsonValue) (s : Server) :
    Option ErrorCode × List QJsonValue × Server :=
  match r.configError with
  | some e => (some e, clientsTable, s)
  | none =>
      let newConfig := newWireGuardConfig (clientIdAt clientsTable row) s.wgConf
      let s := { s with wgConf := r.configUpload.stored newConfig s.wgConf }
      match r.configUpload.error with
      | some e => (some e, clientsTable, s)
      | none =>
          let clientsTable := clientsTable.eraseIdx row
          let s := s.withTable r.tableUpload clientsTable
          match r.tableUpload.error with
          | some e => (some e, clientsTable, s)
          | none =>
              let s := if r.sync.executed then { s with running := peerKeys s.wgConf } else s
              (r.sync.error, clientsTable, s)

open Pieces List
open ServerController

section Listing

variable {clientsTable : List QJsonValue} {key : String} {entry : QJsonValue}

theorem contains_insert_of_ne {o : QJsonObject} {key other : String} {v : QJsonValue}
    (h : other ≠ key) : (o.insert key v).contains other = o.contains other := by
  unfold QJsonObject.insert QJsonObject.contains
  split_ifs
  · rw [QJsonObject.lookup_remove_of_ne h]
  · rw [QJsonObject.lookup_place_of_ne h]

theorem hasId_client (clientId : String) (userData : QJsonObject) :
    hasId (client clientId userData) clientId = true := by
  have hne : "clientId" ≠ "userData" := by decide
  unfold hasId client
  simp [QJsonValue.isObject, QJsonValue.toObject, hne, contains_insert_of_ne hne]
  exact ⟨rfl, rfl⟩

variable (data : WgShowData)

theorem hasId_withCounters (h : entry.isObject = true) :
    hasId (withCounters data entry) key = hasId entry key := by
  have hne : "clientId" ≠ "userData" := by decide
  cases entry with
  | object members =>
    unfold hasId withCounters
    simp [QJsonValue.isObject, QJsonValue.toObject, hne, contains_insert_of_ne hne]
  | _ => cases h

theorem isObject_of_hasId (h : hasId entry key = true) : entry.isObject = true :=
  (Bool.and_eq_true_iff.mp (Bool.and_eq_true_iff.mp h).1).1

theorem id_of_hasId (h : hasId entry key = true) :
    (entry.toObject.value "clientId").toString = key :=
  beq_iff_eq.mp (Bool.and_eq_true_iff.mp h).2

theorem isClientExists_cons {rest : List QJsonValue} :
    isClientExists (entry :: rest) key = (hasId entry key || isClientExists rest key) := rfl

theorem isClientExists_showData :
    isClientExists (showData clientsTable data) key = isClientExists clientsTable key := by
  induction clientsTable with
  | nil => rfl
  | cons entry rest ih =>
    rw [showData]
    split_ifs with hid
    · rw [isClientExists_cons, isClientExists_cons,
        hasId_withCounters data (isObject_of_hasId hid)]
    · rw [isClientExists_cons, isClientExists_cons, ih]

theorem isClientExists_foldl_showData (data : List WgShowData) :
    isClientExists (data.foldl showData clientsTable) key = isClientExists clientsTable key := by
  induction data generalizing clientsTable with
  | nil => rfl
  | cons d data ih => rw [foldl_cons, ih, isClientExists_showData]

theorem isClientExists_addKey {state : List QJsonValue × ℕ} (new : String)
    (h : isClientExists state.1 key = true) : isClientExists (addKey state new).1 key = true := by
  unfold addKey
  dsimp only
  split_ifs
  · exact h
  · unfold isClientExists at h ⊢
    rw [any_append, h, Bool.true_or]

theorem isClientExists_getWireGuardClients (config : String)
    (h : isClientExists clientsTable key = true) :
    isClientExists (getWireGuardClients clientsTable config) key = true := by
  have hfold : ∀ (keys : List String) (state : List QJsonValue × ℕ),
      isClientExists state.1 key = true → isClientExists (keys.foldl addKey state).1 key = true := by
    intro keys
    induction keys with
    | nil => exact fun state hstate => hstate
    | cons new keys ih => exact fun state hstate => ih _ (isClientExists_addKey new hstate)
  exact hfold _ (clientsTable, 0) h

theorem isClientExists_migration {members : QJsonObject} {old : QJsonValue}
    (h : (key, old) ∈ members) : isClientExists (migration members) key = true := by
  unfold isClientExists migration
  rw [any_map, any_eq_true]
  exact ⟨(key, old), h, hasId_client key _⟩

theorem isClientExists_eraseIdx {row : ℕ} (h : isClientExists clientsTable key = true)
    (hne : key ≠ clientIdAt clientsTable row) :
    isClientExists (clientsTable.eraseIdx row) key = true := by
  obtain ⟨entry, hentry, hid⟩ := any_eq_true.mp h
  refine any_eq_true.mpr ⟨entry, ?_, hid⟩
  rw [mem_eraseIdx_iff_getElem?]
  obtain ⟨i, hi⟩ := mem_iff_getElem?.mp hentry
  refine ⟨i, ?_, hi⟩
  rintro rfl
  apply hne
  unfold clientIdAt
  rw [getD_eq_getElem?_getD, hi, Option.getD_some, id_of_hasId hid]

end Listing

variable {key : String}

theorem mem_peerKeys_iff {config : String} :
    key ∈ peerKeys config ↔ ∃ block ∈ blocks config.toList, isPeerOf key block = true := by
  unfold peerKeys
  rw [mem_flatMap]
  constructor
  · rintro ⟨block, hblock, hkey⟩
    exact ⟨block, hblock, (mem_filter.mp hkey).2⟩
  · rintro ⟨block, hblock, hpeer⟩
    refine ⟨block, hblock, mem_filter.mpr ⟨?_, hpeer⟩⟩
    obtain ⟨line, hline, hsetting⟩ := any_eq_true.mp (Bool.and_eq_true_iff.mp hpeer).2
    rw [mem_filterMap]
    exact ⟨line, hline, by rw [beq_iff_eq.mp hsetting, Option.map_some]⟩

theorem mem_peerKeys_withoutPeer {clientId config : String}
    (h : key ∈ peerKeys (withoutPeer clientId config)) :
    key ∈ peerKeys config ∧ key ≠ clientId := by
  obtain ⟨block, hblock, hpeer⟩ := mem_peerKeys_iff.mp h
  unfold withoutPeer at hblock
  rw [String.toList_ofList, blocks_filter_flatten, mem_filter] at hblock
  refine ⟨mem_peerKeys_iff.mpr ⟨block, hblock.1, hpeer⟩, ?_⟩
  rintro rfl
  rw [hpeer] at hblock
  exact absurd hblock.2 (by decide)

def TableFile.Lists : TableFile → String → Prop
  | .array clients, key => isClientExists clients key = true
  | .object clients, key => ∃ old, (key, old) ∈ clients
  | .other, _ => False

instance (t : TableFile) (key : String) : Decidable (t.Lists key) :=
  match t with
  | .array clients => inferInstanceAs (Decidable (isClientExists clients key = true))
  | .object clients => decidable_of_iff (key ∈ clients.map Prod.fst) (by simp [TableFile.Lists])
  | .other => .isFalse id

structure Managed where
  server : Server
  clientsTable : List QJsonValue

inductive TableOperation
  | refresh (r : Refresh)
  | revoke (row : ℕ) (r : Revoke)

def TableOperation.run (m : Managed) : TableOperation → Managed
  | .refresh r => ⟨(updateModel r m.server).2.2, (updateModel r m.server).2.1⟩
  | .revoke row r =>
      ⟨(revokeWireGuard r row m.clientsTable m.server).2.2,
        (revokeWireGuard r row m.clientsTable m.server).2.1⟩

def AllListed (m : Managed) : Prop :=
  ∀ key ∈ m.server.running, m.server.clientsTable.Lists key

structure Kept (m : Managed) : Prop where
  running : AllListed m
  config : ∀ key ∈ peerKeys m.server.wgConf, m.server.clientsTable.Lists key
  copy : m.clientsTable = [] ∨
    ∀ key ∈ peerKeys m.server.wgConf, isClientExists m.clientsTable key = true

def TableOperation.Completes (m : Managed) : TableOperation → Prop
  | .refresh _ => True
  | .revoke row r =>
      row < m.clientsTable.length ∧
        Removable (clientIdAt m.clientsTable row) m.server.wgConf ∧
        (r.configUpload.error = none → r.configUpload.written = true) ∧
        (r.tableUpload.written = true → r.tableUpload.error = none ∧ r.sync.executed = true)

theorem TableFile.lists_of_toArray_nil {t : TableFile} (ht : t.toArray = []) (h : t.Lists key) :
    isClientExists (migration t.toObject) key = true := by
  cases t with
  | array clients =>
    rw [show clients = [] from ht] at h
    exact absurd h (by simp [TableFile.Lists, isClientExists])
  | object clients =>
    obtain ⟨old, hold⟩ := h
    exact isClientExists_migration hold
  | other => exact h.elim

theorem TableFile.lists_of_toArray_cons {t : TableFile} {entry : QJsonValue}
    {rest : List QJsonValue} (ht : t.toArray = entry :: rest) (h : t.Lists key) :
    isClientExists (entry :: rest) key = true := by
  cases t with
  | array clients =>
    rw [← show clients = entry :: rest from ht]
    exact h
  | object clients => cases ht
  | other => cases ht

variable {m : Managed}

theorem Kept.refresh (h : Kept m) (r : Refresh) : Kept (TableOperation.run m (.refresh r)) := by
  unfold TableOperation.run updateModel
  dsimp only
  split
  case h_1 => exact ⟨h.running, h.config, .inl rfl⟩
  case h_2 =>
    split
    case h_1 entry rest ht =>
      refine ⟨h.running, h.config, .inr fun key hkey => ?_⟩
      rw [isClientExists_foldl_showData]
      exact TableFile.lists_of_toArray_cons ht (h.config key hkey)
    case h_2 ht =>
      have hmigrated : ∀ key, m.server.clientsTable.Lists key →
          isClientExists (migration m.server.clientsTable.toObject) key = true := fun key =>
        TableFile.lists_of_toArray_nil ht
      split
      case h_1 => exact ⟨h.running, h.config, .inr fun key hkey => hmigrated key (h.config key hkey)⟩
      case h_2 =>
        have hall : ∀ key, m.server.clientsTable.Lists key →
            isClientExists (getWireGuardClients (migration m.server.clientsTable.toObject)
              m.server.wgConf) key = true := fun key hkey =>
          isClientExists_getWireGuardClients _ (hmigrated key hkey)
        have hcopy : ∀ key ∈ peerKeys m.server.wgConf,
            isClientExists (r.data.foldl showData (getWireGuardClients
              (migration m.server.clientsTable.toObject) m.server.wgConf)) key = true := by
          intro key hkey
          rw [isClientExists_foldl_showData]
          exact hall key (h.config key hkey)
        split_ifs
        · exact ⟨h.running, h.config, .inr hcopy⟩
        · unfold Server.withTable
          split_ifs
          · exact ⟨fun key hkey => hall key (h.running key hkey),
              fun key hkey => hall key (h.config key hkey), .inr hcopy⟩
          · exact ⟨h.running, h.config, .inr hcopy⟩

section Branches

variable {m : Managed} {row : ℕ} {r : Revoke}

theorem run_revoke_of_configError {e : ErrorCode} (h : r.configError = some e) :
    TableOperation.run m (.revoke row r) = m := by
  unfold TableOperation.run revokeWireGuard
  dsimp only
  rw [h]

theorem run_revoke_of_uploadError {e : ErrorCode} (h : r.configError = none)
    (hupload : r.configUpload.error = some e) :
    TableOperation.run m (.revoke row r) =
      ⟨{ m.server with
          wgConf := r.configUpload.stored
            (newWireGuardConfig (clientIdAt m.clientsTable row) m.server.wgConf) m.server.wgConf },
        m.clientsTable⟩ := by
  unfold TableOperation.run revokeWireGuard
  dsimp only
  rw [h, hupload]

/-- Once the file is uploaded, the table is, and the interface is synchronised if that succeeds. -/
theorem run_revoke_of_uploaded (h : r.configError = none) (hupload : r.configUpload.error = none) :
    TableOperation.run m (.revoke row r) =
      let wgConf := r.configUpload.stored
        (newWireGuardConfig (clientIdAt m.clientsTable row) m.server.wgConf) m.server.wgConf
      let s := { m.server with wgConf }.withTable r.tableUpload (m.clientsTable.eraseIdx row)
      ⟨if r.tableUpload.error = none ∧ r.sync.executed = true then
          { s with running := peerKeys s.wgConf } else s,
        m.clientsTable.eraseIdx row⟩ := by
  unfold TableOperation.run revokeWireGuard
  dsimp only
  rw [h, hupload]
  cases htable : r.tableUpload.error with
  | some e => rfl
  | none =>
    simp only [true_and]

end Branches

theorem Kept.revoke {row : ℕ} {r : Revoke} (h : Kept m)
    (hr : (TableOperation.revoke row r).Completes m) :
    Kept (TableOperation.run m (.revoke row r)) := by
  obtain ⟨hrow, hremovable, hconfig, htable⟩ := hr
  have hcopy : ∀ key ∈ peerKeys m.server.wgConf, isClientExists m.clientsTable key = true :=
    h.copy.resolve_left (ne_nil_of_length_pos (Nat.zero_lt_of_lt hrow))
  have hnew : newWireGuardConfig (clientIdAt m.clientsTable row) m.server.wgConf =
      withoutPeer (clientIdAt m.clientsTable row) m.server.wgConf :=
    (newWireGuardConfig_eq_iff _ _).mpr hremovable
  have hless : ∀ key ∈ peerKeys (withoutPeer (clientIdAt m.clientsTable row) m.server.wgConf),
      key ∈ peerKeys m.server.wgConf := fun key hkey => (mem_peerKeys_withoutPeer hkey).1
  have hfile : ∀ key ∈ peerKeys (withoutPeer (clientIdAt m.clientsTable row) m.server.wgConf),
      m.server.clientsTable.Lists key := fun key hkey => h.config key (hless key hkey)
  have hleft : ∀ key ∈ peerKeys (withoutPeer (clientIdAt m.clientsTable row) m.server.wgConf),
      isClientExists (m.clientsTable.eraseIdx row) key = true := by
    intro key hkey
    obtain ⟨hold, hne⟩ := mem_peerKeys_withoutPeer hkey
    exact isClientExists_eraseIdx (hcopy key hold) hne
  cases hread : r.configError with
  | some e =>
    rw [run_revoke_of_configError hread]
    exact h
  | none =>
    cases hupload : r.configUpload.error with
    | some e =>
      rw [run_revoke_of_uploadError hread hupload, hnew]
      unfold Upload.stored
      split_ifs
      · exact ⟨h.running, hfile, .inr fun key hkey => hcopy key (hless key hkey)⟩
      · exact h
    | none =>
      have hstored : r.configUpload.stored
          (newWireGuardConfig (clientIdAt m.clientsTable row) m.server.wgConf) m.server.wgConf =
            withoutPeer (clientIdAt m.clientsTable row) m.server.wgConf := by
        rw [hnew, Upload.stored, if_pos (hconfig hupload)]
      rw [run_revoke_of_uploaded hread hupload, hstored]
      generalize withoutPeer (clientIdAt m.clientsTable row) m.server.wgConf = file at hfile hleft ⊢
      unfold Server.withTable
      dsimp only
      cases hwritten : r.tableUpload.written with
      | true =>
        obtain ⟨herror, hsync⟩ := htable hwritten
        rw [if_pos rfl, if_pos ⟨herror, hsync⟩]
        exact ⟨hleft, hleft, .inr hleft⟩
      | false =>
        rw [if_neg Bool.false_ne_true]
        split_ifs
        · exact ⟨hfile, hfile, .inr hleft⟩
        · exact ⟨h.running, hfile, .inr hleft⟩

theorem Kept.run {op : TableOperation} (h : Kept m) (hop : op.Completes m) : Kept (op.run m) := by
  cases op with
  | refresh r => exact h.refresh r
  | revoke row r => exact h.revoke hop

def AllComplete (m : Managed) : List TableOperation → Prop
  | [] => True
  | op :: ops => op.Completes m ∧ AllComplete (op.run m) ops

theorem Kept.foldl {ops : List TableOperation} (h : Kept m) (hops : AllComplete m ops) :
    Kept (ops.foldl TableOperation.run m) := by
  induction ops generalizing m with
  | nil => exact h
  | cons op ops ih => exact ih (h.run hops.1) hops.2

/-- Accepted clients stay listed if all operations complete. -/
theorem accepted_clients_listed (m : Managed) (ops : List TableOperation) (hrunning : AllListed m)
    (hconfig : ∀ key ∈ peerKeys m.server.wgConf, m.server.clientsTable.Lists key)
    (hcopy : m.clientsTable = [] ∨
      ∀ key ∈ peerKeys m.server.wgConf, isClientExists m.clientsTable key = true)
    (hops : AllComplete m ops) : AllListed (ops.foldl TableOperation.run m) := by
  have hkept : Kept m := ⟨hrunning, hconfig, hcopy⟩
  exact (hkept.foldl hops).running

def oneClient : Managed where
  server := ⟨"[Interface]\n[Peer]\nPublicKey = a2V5\n", .array [client "a2V5" []], ["a2V5"]⟩
  clientsTable := [client "a2V5" []]

theorem allListed_oneClient : AllListed oneClient := by
  intro key hkey
  rw [mem_singleton.mp hkey]
  decide +kernel

def revokeWith (sync : Sync) : TableOperation := .revoke 0 ⟨none, ⟨true, none⟩, ⟨true, none⟩, sync⟩

theorem accepted_clients_listed_oneClient :
    AllListed ([revokeWith ⟨true, none⟩].foldl TableOperation.run oneClient) := by
  have hkeys : peerKeys oneClient.server.wgConf = ["a2V5"] := by decide +kernel
  have hlisted : ∀ key ∈ peerKeys oneClient.server.wgConf,
      isClientExists oneClient.clientsTable key = true := by
    rw [hkeys]
    decide +kernel
  have hremovable : Removable (clientIdAt oneClient.clientsTable 0) oneClient.server.wgConf :=
    (newWireGuardConfig_eq_iff _ _).mp (by decide +kernel)
  apply accepted_clients_listed _ _ allListed_oneClient hlisted (.inr hlisted)
  exact ⟨⟨by decide, hremovable, fun _ => rfl, fun _ => ⟨rfl, rfl⟩⟩, trivial⟩

/-- The table is uploaded and the synchronisation fails: the client is accepted and not listed. -/
theorem accepted_client_unlisted :
    AllListed oneClient ∧
      (revokeWireGuard ⟨none, ⟨true, none⟩, ⟨true, none⟩, ⟨false, some .sshTimeoutError⟩⟩ 0
        oneClient.clientsTable oneClient.server).1 = some .sshTimeoutError ∧
      "a2V5" ∈ (TableOperation.run oneClient
        (revokeWith ⟨false, some .sshTimeoutError⟩)).server.running ∧
      ¬ (TableOperation.run oneClient
        (revokeWith ⟨false, some .sshTimeoutError⟩)).server.clientsTable.Lists "a2V5" := by
  exact ⟨allListed_oneClient, rfl, by decide +kernel, by decide +kernel⟩

end AmneziaVpn.ClientManagementModel
