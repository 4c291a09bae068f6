import AmneziaVpn.Administrators

/-!
# The clients that are in use

A client that was appended should stay in two places: as an entry of the table, which a rename and
an append keep, and as a section of `wg0.conf` with its own address, which an append keeps, and a
revocation of another client if it finds the id in no other section.
-/

namespace AmneziaVpn.ClientManagementModel

open ServerController WireguardConfigurator Pieces List

section Tables

variable {clientsTable : List QJsonValue} {key : String} {entry : QJsonValue}

theorem hasId_insert_userData {v : QJsonValue} (h : hasId entry key = true) :
    hasId (.object (entry.toObject.insert "userData" v)) key = true := by
  have hne : "clientId" ≠ "userData" := by decide
  have hobject : (entry.toObject.contains "clientId" &&
      (entry.toObject.value "clientId").toString == key) = true := by
    unfold hasId at h
    rwa [isObject_of_hasId h, Bool.true_and] at h
  unfold hasId
  simpa [QJsonValue.isObject, QJsonValue.toObject, hne, contains_insert_of_ne hne] using hobject

theorem isClientExists_renamed (row : ℕ) (clientName : String) (timeStamp : Option String)
    (h : isClientExists clientsTable key = true) :
    isClientExists (renamed clientsTable row clientName timeStamp) key = true := by
  obtain ⟨entry, hentry, hid⟩ := any_eq_true.mp h
  obtain ⟨i, hi⟩ := mem_iff_getElem?.mp hentry
  have hlength : i < clientsTable.length := (List.getElem?_eq_some_iff.mp hi).1
  by_cases hrow : row = i
  · subst hrow
    have hget : clientsTable.getD row .undefined = entry := by
      rw [getD_eq_getElem?_getD, hi, Option.getD_some]
    unfold renamed isClientExists
    rw [hget, any_eq_true]
    exact ⟨_, mem_set hlength _, hasId_insert_userData hid⟩
  · refine any_eq_true.mpr ⟨entry, ?_, hid⟩
    refine mem_iff_getElem?.mpr ⟨i, ?_⟩
    unfold renamed
    rw [getElem?_set_ne hrow, hi]

theorem hasId_of_hasValue (h : hasValue entry key = true) : hasId entry key = true := by
  unfold hasValue at h
  cases hvalue : entry.toObject.value "clientId" with
  | string id =>
    rw [hvalue] at h
    have hcontains : entry.toObject.contains "clientId" = true := by
      unfold QJsonObject.value at hvalue
      unfold QJsonObject.contains
      cases hlookup : entry.toObject.lookup "clientId" with
      | some v => rfl
      | none =>
        rw [hlookup] at hvalue
        cases hvalue
    have hobject : entry.isObject = true := by
      cases entry with
      | object members => rfl
      | _ => cases hcontains
    unfold hasId
    rw [hobject, hcontains, hvalue]
    exact h
  | _ =>
    rw [hvalue] at h
    cases h

theorem isClientExists_appended_self (clientId clientName date : String) :
    isClientExists (appended clientsTable clientId clientName date) clientId = true := by
  unfold appended
  split
  case h_1 row hrow =>
    apply isClientExists_renamed
    obtain ⟨hlt, hvalue⟩ := findIdx?_eq_some_iff_getElem.mp hrow
    exact any_eq_true.mpr ⟨_, getElem_mem hlt, hasId_of_hasValue hvalue.1⟩
  case h_2 =>
    unfold isClientExists
    rw [any_append, any_cons, hasId_client, Bool.true_or, Bool.or_true]

theorem isClientExists_appended (clientId clientName date : String)
    (h : isClientExists clientsTable key = true) :
    isClientExists (appended clientsTable clientId clientName date) key = true := by
  unfold appended
  split
  · exact isClientExists_renamed _ _ _ h
  · unfold isClientExists at h ⊢
    rw [any_append, h, Bool.true_or]

end Tables

section Sections

variable {wgConf : String} {live : List (String × String)}

def IsOf (p : PeerText) (client : String × String) : Prop :=
  p.key = client.1.toList ∧ client.2.toList = p.start ++ p.digits

def Present (wgConf : String) (live : List (String × String)) : Prop :=
  ∃ ps, HasClients wgConf ps ∧ ∀ client ∈ live, ∃ p ∈ ps, IsOf p client

theorem Present.tail {client : String × String} (h : Present wgConf (client :: live)) :
    Present wgConf live := by
  obtain ⟨ps, hps, hlive⟩ := h
  exact ⟨ps, hps, fun other hother => hlive other (mem_cons_of_mem client hother)⟩

theorem Present.stored {text : String} (htext : Present text live) (upload : Upload)
    (h : Present wgConf live) : Present (upload.stored text wgConf) live := by
  unfold Upload.stored
  split_ifs
  · exact htext
  · exact h

theorem connectionData_eq_ok {c : Creation} {stdOut : String} {d : ConnectionData}
    (h : connectionData c stdOut = .ok d) :
    assigned c.containerConfig (ips stdOut).getLast? = .ok d.clientIP ∧
      d.clientPubKey = c.clientPubKey ∧
      ∃ psk, c.pskKeyFile = .ok psk ∧ d.pskKey = QString.replace psk "\n" "" := by
  unfold connectionData at h
  split_ifs at h
  cases hscript : c.scriptError with
  | some e =>
    rw [hscript] at h
    cases h
  | none =>
    cases hip : assigned c.containerConfig (ips stdOut).getLast? with
    | error e =>
      rw [hscript, hip] at h
      cases h
    | ok ip =>
      cases hkey : c.serverPubKeyFile with
      | error e =>
        rw [hscript, hip, hkey] at h
        cases h
      | ok serverPubKey =>
        cases hpsk : c.pskKeyFile with
        | error e =>
          rw [hscript, hip, hkey, hpsk] at h
          cases h
        | ok psk =>
          rw [hscript, hip, hkey, hpsk] at h
          obtain rfl := Except.ok.inj h
          exact ⟨rfl, rfl, psk, rfl, rfl⟩

theorem Present.withClient {c : Creation} {d : ConnectionData} (hc : c.WellFormed)
    (h : Present wgConf live)
    (hd : connectionData c (collected (inOnePiece (grep "AllowedIPs" wgConf))) = .ok d) :
    Present (withClient d wgConf) ((d.clientPubKey, d.clientIP) :: live) := by
  obtain ⟨ps, hps, hlive⟩ := h
  obtain ⟨hip, hkey, psk, hpsk, hdpsk⟩ := connectionData_eq_ok hd
  obtain ⟨p, hpkey, hpip, hclients⟩ := hps.configPart hc hpsk hip
  unfold WireguardConfigurator.withClient
  rw [hkey, hdpsk]
  refine ⟨ps ++ [p], hclients, forall_mem_cons.mpr ⟨?_, fun client hclient => ?_⟩⟩
  · exact ⟨p, mem_concat_self, hpkey, hpip⟩
  · obtain ⟨q, hq, hof⟩ := hlive client hclient
    exact ⟨q, mem_append_left _ hq, hof⟩

/-- The parts of the file in which the id occurs are sections of the client. -/
def OnlyInOwnSection (clientId wgConf : String) : Prop :=
  ∀ part ∈ QString.splitSkipEmpty wgConf "[", QString.contains part clientId = true →
    (QString.split part "\n")[1]? = some ("PublicKey = " ++ clientId)

instance (clientId wgConf : String) : Decidable (OnlyInOwnSection clientId wgConf) := by
  unfold OnlyInOwnSection
  infer_instance

variable {clientId : String}

theorem key_of_part {p : PeerText}
    (h : (QString.split (String.ofList p.part) "\n")[1]? = some ("PublicKey = " ++ clientId)) :
    p.key = clientId.toList := by
  have hlines : ∀ peer key rest : List Char, '\n' ∉ peer → '\n' ∉ key →
      ((peer ++ '\n' :: (key ++ '\n' :: rest)).splitOn '\n')[1]? = some key := by
    intro peer key rest hpeer hkey
    rw [splitOn_append_cons_self, splitOn_append_cons_self,
      splitOn_eq_singleton hpeer, splitOn_eq_singleton hkey]
    rfl
  have hkey : '\n' ∉ "PublicKey = ".toList ++ p.key :=
    not_mem_append (by decide) p.key_plain.2
  have hpart : (p.part.splitOn '\n')[1]? = some ("PublicKey = ".toList ++ p.key) :=
    hlines _ _ _ (by decide) hkey
  rw [QString.split_eq (c := '\n') rfl, String.toList_ofList, getElem?_map, hpart,
    Option.map_some, Option.some.injEq] at h
  have htext := congrArg String.toList h
  rw [String.toList_ofList (l := "PublicKey = ".toList ++ p.key), String.toList_append] at htext
  exact append_cancel_left htext

theorem OnlyInOwnSection.key {ps : List PeerText} {p : PeerText}
    (h : OnlyInOwnSection clientId wgConf) (hps : HasClients wgConf ps) (hp : p ∈ ps)
    (hid : clientId.toList <:+: p.part) : p.key = clientId.toList := by
  obtain ⟨⟨header, -, hfile⟩, -⟩ := hps
  apply key_of_part
  apply h
  · rw [QString.splitSkipEmpty_eq (c := '[') rfl, hfile, pieces_sections]
    exact mem_map_of_mem (mem_append_right _ (mem_map_of_mem hp))
  · rw [QString.contains_iff, String.toList_ofList]
    exact hid

theorem Present.newWireGuardConfig (h : Present wgConf live)
    (hown : OnlyInOwnSection clientId wgConf) (hlive : ∀ client ∈ live, client.1 ≠ clientId) :
    Present (newWireGuardConfig clientId wgConf) live := by
  obtain ⟨ps, hps, hsections⟩ := h
  obtain ⟨qs, hqs, hleft⟩ := hps.newWireGuardConfig clientId
  refine ⟨qs, hqs, fun client hclient => ?_⟩
  obtain ⟨p, hp, hof⟩ := hsections client hclient
  refine ⟨p, hleft p hp fun hid => ?_, hof⟩
  have hkey : p.key = clientId.toList := hown.key hps hp hid
  exact hlive client hclient (String.toList_injective (hof.1.symm.trans hkey))

end Sections

end AmneziaVpn.ClientManagementModel
