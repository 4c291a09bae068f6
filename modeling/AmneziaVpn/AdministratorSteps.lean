import AmneziaVpn.LiveClients

/-!
# One administrator at work

Every step of an operation keeps the clients that are in use, as long as no other administrator
changes the server between two steps.
-/

namespace AmneziaVpn

open ServerController WireguardConfigurator

def ServerController.Upload.Truthful (upload : Upload) : Prop :=
  upload.error = none → upload.written = true

namespace ClientManagementModel

def Covers (clientsTable : List QJsonValue) (live : List (String × String)) : Prop :=
  ∀ client ∈ live, isClientExists clientsTable client.1 = true

structure World.Ok (w : World) : Prop where
  present : Present w.server.wgConf w.live
  listed : ∀ client ∈ w.live, w.server.clientsTable.Lists client.1

variable (w : World)

def Next.Ok : Next → Prop
  | finish => True
  | append a d =>
      a.upload.Truthful ∧ Present w.server.wgConf ((d.clientPubKey, d.clientIP) :: w.live)
  | revoke clientId _ => ∀ client ∈ w.live, client.1 ≠ clientId

def Task.Ok (clientsTable : List QJsonValue) : Task → Prop
  | idle => True
  | readAddresses a => a.creation.WellFormed ∧ a.creation.upload.Truthful ∧ a.upload.Truthful
  | uploadSection a d =>
      a.creation.upload.Truthful ∧ a.upload.Truthful ∧
        Present (withClient d w.server.wgConf) ((d.clientPubKey, d.clientIP) :: w.live)
  | syncAppended a d => (Next.append a d).Ok w
  | readTable _ next => next.Ok w
  | readKeys _ _ next => Covers clientsTable w.live ∧ next.Ok w
  | uploadKeys _ next => Covers clientsTable w.live ∧ next.Ok w
  | wgShow _ _ next => Covers clientsTable w.live ∧ next.Ok w
  | uploadTable upload new =>
      Covers clientsTable (new.toList ++ w.live) ∧
        Present w.server.wgConf (new.toList ++ w.live) ∧ (new = none ∨ upload.Truthful)
  | readConfig row _ =>
      Covers clientsTable w.live ∧ ∀ client ∈ w.live, client.1 ≠ clientIdAt clientsTable row
  | uploadConfig row newConfig _ =>
      Covers clientsTable w.live ∧ (∀ client ∈ w.live, client.1 ≠ clientIdAt clientsTable row) ∧
        Present newConfig w.live
  | uploadRemaining _ => Covers clientsTable w.live
  | syncRevoked _ => True

def Task.RemovesOwn (clientsTable : List QJsonValue) : Task → Prop
  | readConfig row _ => OnlyInOwnSection (clientIdAt clientsTable row) w.server.wgConf
  | _ => True

instance (w : World) (clientsTable : List QJsonValue) (task : Task) :
    Decidable (task.RemovesOwn w clientsTable) := by
  cases task
  all_goals
    unfold Task.RemovesOwn
    infer_instance

def Consistent (x : World × Administrator) : Prop :=
  x.1.Ok ∧ x.2.task.Ok x.1 x.2.clientsTable

section Steps

variable {w : World} {clientsTable : List QJsonValue}

theorem Consistent.idle (hw : w.Ok) : Consistent (w, ⟨clientsTable, .idle⟩) := ⟨hw, trivial⟩

theorem World.Ok.withConf {wgConf : String} (hw : w.Ok) (h : Present wgConf w.live) :
    World.Ok { w with server := { w.server with wgConf := wgConf } } :=
  ⟨h, hw.listed⟩

theorem wgConf_withTable (s : Server) (upload : Upload) :
    (s.withTable upload clientsTable).wgConf = s.wgConf := by
  unfold Server.withTable
  split_ifs
  · rfl
  · rfl

theorem World.Ok.withTable (hw : w.Ok) (upload : Upload) (h : Covers clientsTable w.live) :
    World.Ok { w with server := w.server.withTable upload clientsTable } := by
  refine ⟨?_, ?_⟩
  · change Present (w.server.withTable upload clientsTable).wgConf w.live
    rw [wgConf_withTable]
    exact hw.present
  · change ∀ client ∈ w.live, (w.server.withTable upload clientsTable).clientsTable.Lists client.1
    unfold Server.withTable
    split_ifs
    · exact h
    · exact hw.listed

variable {next : Next} {r : Revoke} {a : Append} {row : ℕ}

theorem Next.Ok.withTable (h : next.Ok w) (upload : Upload) :
    next.Ok { w with server := w.server.withTable upload clientsTable } := by
  cases next with
  | finish => trivial
  | append a d =>
    refine ⟨h.1, ?_⟩
    change Present (w.server.withTable upload clientsTable).wgConf _
    rw [wgConf_withTable]
    exact h.2
  | revoke clientId r => exact h

theorem Consistent.readAddresses (hw : w.Ok) (h : (Task.readAddresses a).Ok w clientsTable) :
    Consistent (alone (w, ⟨clientsTable, .readAddresses a⟩)) := by
  obtain ⟨hcreation, hsection, htable⟩ := h
  unfold alone Task.advance
  dsimp only
  split
  case h_1 => exact .idle hw
  case h_2 d hd => exact ⟨hw, hsection, htable, hw.present.withClient hcreation hd⟩

variable {d : ConnectionData}

theorem Consistent.uploadSection (hw : w.Ok) (h : (Task.uploadSection a d).Ok w clientsTable) :
    Consistent (alone (w, ⟨clientsTable, .uploadSection a d⟩)) := by
  obtain ⟨hsection, htable, hpresent⟩ := h
  have hok := hw.withConf (hpresent.tail.stored a.creation.upload hw.present)
  unfold alone Task.advance
  dsimp only
  split
  case h_1 => exact .idle hok
  case h_2 herror =>
    refine ⟨hok, htable, ?_⟩
    unfold Upload.stored
    rw [if_pos (hsection herror)]
    exact hpresent

theorem Consistent.syncAppended (hw : w.Ok) (h : (Task.syncAppended a d).Ok w clientsTable) :
    Consistent (alone (w, ⟨clientsTable, .syncAppended a d⟩)) := by
  unfold alone Task.advance
  dsimp only
  split
  · exact .idle hw
  · exact ⟨⟨hw.present, hw.listed⟩, h⟩

theorem Consistent.readTable {r : Refresh} (hw : w.Ok) (h : next.Ok w) :
    Consistent (alone (w, ⟨clientsTable, .readTable r next⟩)) := by
  unfold alone Task.advance
  dsimp only
  split
  · exact .idle hw
  · split
    case h_1 entry rest ht =>
      refine ⟨hw, fun client hclient => ?_, h⟩
      exact TableFile.lists_of_toArray_cons ht (hw.listed client hclient)
    case h_2 ht =>
      refine ⟨hw, fun client hclient => ?_, h⟩
      exact TableFile.lists_of_toArray_nil ht (hw.listed client hclient)

theorem Consistent.readKeys {r : Refresh} {table : TableFile} (hw : w.Ok)
    (hcovers : Covers clientsTable w.live) (h : next.Ok w) :
    Consistent (alone (w, ⟨clientsTable, .readKeys r table next⟩)) := by
  have hkeys : Covers (getWireGuardClients clientsTable w.server.wgConf) w.live := fun client hc =>
    isClientExists_getWireGuardClients _ (hcovers client hc)
  unfold alone Task.advance
  dsimp only
  split
  · exact .idle hw
  · split_ifs
    · exact ⟨hw, hkeys, h⟩
    · exact ⟨hw, hkeys, h⟩

theorem clientIdAt_of_findIdx? {clientId : String} (h : clientsTable.findIdx? (fun entry =>
      (entry.toObject.value "clientId").toString == clientId) = some row) :
    clientIdAt clientsTable row = clientId := by
  obtain ⟨hlt, hid, -⟩ := List.findIdx?_eq_some_iff_getElem.mp h
  unfold clientIdAt
  rw [List.getD_eq_getElem?_getD, List.getElem?_eq_getElem hlt, Option.getD_some]
  exact beq_iff_eq.mp hid

theorem Next.Ok.task (hw : w.Ok) (hcovers : Covers clientsTable w.live) (h : next.Ok w) :
    Consistent (w, next.task clientsTable) := by
  cases next with
  | finish => exact .idle hw
  | append a d =>
    refine ⟨hw, List.forall_mem_cons.mpr ⟨?_, fun client hclient => ?_⟩, h.2, .inr h.1⟩
    · exact isClientExists_appended_self _ _ _
    · exact isClientExists_appended _ _ _ (hcovers client hclient)
  | revoke clientId r =>
    unfold Next.task
    dsimp only
    split
    case h_1 row hrow =>
      refine ⟨hw, hcovers, ?_⟩
      rw [clientIdAt_of_findIdx? hrow]
      exact h
    case h_2 => exact .idle hw

theorem Consistent.wgShow {r : Refresh} {error : Option ErrorCode} (hw : w.Ok)
    (hcovers : Covers clientsTable w.live) (h : next.Ok w) :
    Consistent (alone (w, ⟨clientsTable, .wgShow r error next⟩)) := by
  have hshown : Covers (r.data.foldl showData clientsTable) w.live := by
    intro client hclient
    rw [isClientExists_foldl_showData]
    exact hcovers client hclient
  unfold alone Task.advance
  dsimp only
  split
  · exact .idle hw
  · exact h.task hw hshown

theorem Consistent.uploadTable {upload : Upload} {new : Option (String × String)} (hw : w.Ok)
    (h : (Task.uploadTable upload new).Ok w clientsTable) :
    Consistent (alone (w, ⟨clientsTable, .uploadTable upload new⟩)) := by
  obtain ⟨hcovers, hpresent, htruthful⟩ := h
  have hold : Covers clientsTable w.live := fun client hclient =>
    hcovers client (List.mem_append_right _ hclient)
  have hok := hw.withTable upload hold
  unfold alone Task.advance
  dsimp only
  split_ifs with herror
  · refine .idle ⟨?_, ?_⟩
    · change Present (w.server.withTable upload clientsTable).wgConf _
      rw [wgConf_withTable]
      exact hpresent
    · rcases htruthful with rfl | hwritten
      · exact hok.listed
      · change ∀ client ∈ new.toList ++ w.live,
          (w.server.withTable upload clientsTable).clientsTable.Lists client.1
        unfold Server.withTable
        rw [if_pos (hwritten herror)]
        exact hcovers
  · exact .idle hok

theorem Consistent.readConfig (hw : w.Ok) (h : (Task.readConfig row r).Ok w clientsTable)
    (hown : OnlyInOwnSection (clientIdAt clientsTable row) w.server.wgConf) :
    Consistent (alone (w, ⟨clientsTable, .readConfig row r⟩)) := by
  unfold alone Task.advance
  dsimp only
  split
  · exact .idle hw
  · exact ⟨hw, h.1, h.2, hw.present.newWireGuardConfig hown h.2⟩

theorem Consistent.uploadConfig {newConfig : String} (hw : w.Ok)
    (h : (Task.uploadConfig row newConfig r).Ok w clientsTable) :
    Consistent (alone (w, ⟨clientsTable, .uploadConfig row newConfig r⟩)) := by
  obtain ⟨hcovers, hothers, hpresent⟩ := h
  have hok := hw.withConf (hpresent.stored r.configUpload hw.present)
  unfold alone Task.advance
  dsimp only
  split
  · exact .idle hok
  · refine ⟨hok, fun client hclient => ?_⟩
    exact isClientExists_eraseIdx (hcovers client hclient) (hothers client hclient)

theorem Consistent.uploadRemaining (hw : w.Ok) (h : Covers clientsTable w.live) :
    Consistent (alone (w, ⟨clientsTable, .uploadRemaining r⟩)) := by
  have hok := hw.withTable r.tableUpload h
  unfold alone Task.advance
  dsimp only
  split
  · exact .idle hok
  · exact ⟨hok, trivial⟩

theorem Consistent.syncRevoked (hw : w.Ok) :
    Consistent (alone (w, ⟨clientsTable, .syncRevoked r⟩)) := by
  unfold alone Task.advance
  dsimp only
  split_ifs
  · exact .idle ⟨hw.present, hw.listed⟩
  · exact .idle hw

theorem Consistent.alone {x : World × Administrator} (h : Consistent x)
    (hown : x.2.task.RemovesOwn x.1 x.2.clientsTable) : Consistent (alone x) := by
  obtain ⟨w, clientsTable, task⟩ := x
  obtain ⟨hw, htask⟩ := h
  cases task with
  | idle => exact .idle hw
  | readAddresses a => exact .readAddresses hw htask
  | uploadSection a d => exact .uploadSection hw htask
  | syncAppended a d => exact .syncAppended hw htask
  | readTable r next => exact .readTable hw htask
  | readKeys r table next => exact .readKeys hw htask.1 htask.2
  | uploadKeys r next =>
    exact ⟨hw.withTable r.upload htask.1, htask.1, htask.2.withTable r.upload⟩
  | wgShow r error next => exact .wgShow hw htask.1 htask.2
  | uploadTable upload new => exact .uploadTable hw htask
  | readConfig row r => exact .readConfig hw htask hown
  | uploadConfig row newConfig r => exact .uploadConfig hw htask
  | uploadRemaining r => exact .uploadRemaining hw htask
  | syncRevoked r => exact .syncRevoked hw

end Steps

end ClientManagementModel

end AmneziaVpn
