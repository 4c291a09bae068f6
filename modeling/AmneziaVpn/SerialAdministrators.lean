import AmneziaVpn.AdministratorSteps

/-!
# Administrators that take turns

When no operation is started before the others have ended, and a copy is only changed and uploaded
if it has all the clients of the table, no client is lost and all addresses are different, whatever
fails in between.
-/

namespace AmneziaVpn.ClientManagementModel

open ServerController WireguardConfigurator PeerText List

/-- Clients in use are listed, and no two peers share an address. -/
structure Safe (w : World) : Prop where
  listed : ∀ client ∈ w.live, w.server.clientsTable.Lists client.1
  sections : ∀ client ∈ w.live,
    ∃ pskKey, QString.contains w.server.wgConf (configPart client.1 pskKey client.2) = true
  addresses : (allowedIPs w.server.wgConf).Nodup
  distinct : ∀ client ∈ w.live, ∀ other ∈ w.live, client.2 = other.2 → client = other

section Addresses

variable {wgConf : String} {live : List (String × String)} {ps : List PeerText}

theorem clientOctets_of_hasClients (h : HasClients wgConf ps) :
    clientOctets wgConf = ps.map fun p => (p.octet : ℤ) := by
  obtain ⟨⟨header, hheader, hfile⟩, -⟩ := h
  exact clientOctets_of_sections hheader hfile

theorem nodup_allowedIPs (h : HasClients wgConf ps) : (allowedIPs wgConf).Nodup := by
  have hoctets : (clientOctets wgConf).Nodup := by
    rw [clientOctets_of_hasClients h]
    have hincreasing := pairwise_map.mp h.2
    exact pairwise_map.mpr (hincreasing.imp fun hlt heq => absurd heq (by omega))
  exact List.Nodup.of_map _ hoctets

theorem contains_configPart {p : PeerText} {client : String × String} (h : HasClients wgConf ps)
    (hp : p ∈ ps) (hof : IsOf p client) :
    QString.contains wgConf (configPart client.1 (String.ofList p.psk) client.2) = true := by
  obtain ⟨⟨header, -, hfile⟩, -⟩ := h
  rw [QString.contains_iff, toList_configPart p hof.1.symm String.toList_ofList hof.2, hfile]
  obtain ⟨before, after, rfl⟩ := append_of_mem hp
  refine ⟨header ++ PeerText.sections before, PeerText.sections after, ?_⟩
  simp [PeerText.sections]

theorem octet_eq_of_ip {p q : PeerText} {ip : String} (hp : ip.toList = p.start ++ p.digits)
    (hq : ip.toList = q.start ++ q.digits) : p.octet = q.octet := by
  have hline : p.ipLine = q.ipLine := by
    unfold PeerText.ipLine
    rw [← append_assoc p.start, ← append_assoc q.start, ← hp, ← hq]
  have hoctet : (p.octet : ℤ) = q.octet := by
    rw [← lastOctet_ipLine p, ← lastOctet_ipLine q, hline]
  exact Int.ofNat_inj.mp hoctet

theorem Present.eq_of_ip {client other : String × String} (h : Present wgConf live)
    (hclient : client ∈ live) (hother : other ∈ live) (hip : client.2 = other.2) :
    client = other := by
  obtain ⟨ps, hps, hlive⟩ := h
  obtain ⟨p, hp, hpof⟩ := hlive client hclient
  obtain ⟨q, hq, hqof⟩ := hlive other hother
  have hoctet : p.octet = q.octet := octet_eq_of_ip hpof.2 (hip ▸ hqof.2)
  have hnodup : (ps.map PeerText.octet).Nodup := hps.2.imp ne_of_lt
  obtain rfl : p = q := inj_on_of_nodup_map hnodup hp hq hoctet
  exact Prod.ext (String.toList_injective (hpof.1.symm.trans hqof.1)) hip

theorem World.Ok.safe {w : World} (h : w.Ok) : Safe w := by
  refine ⟨h.listed, fun client hclient => ?_, ?_, fun client hclient other hother hip => ?_⟩
  · obtain ⟨ps, hps, hlive⟩ := h.present
    obtain ⟨p, hp, hof⟩ := hlive client hclient
    exact ⟨_, contains_configPart hps hp hof⟩
  · obtain ⟨ps, hps, -⟩ := h.present
    exact nodup_allowedIPs hps
  · exact h.present.eq_of_ip hclient hother hip

end Addresses

def UpToDate (s : Server) (clientsTable : List QJsonValue) : Prop :=
  ∀ key, s.clientsTable.Lists key → isClientExists clientsTable key = true

def Request.Allowed (w : World) (clientsTable : List QJsonValue) : Request → Prop
  | append a => a.creation.WellFormed ∧ a.creation.upload.Truthful ∧ a.upload.Truthful
  | rename _ _ _ => UpToDate w.server clientsTable
  | revoke _ _ => UpToDate w.server clientsTable
  | revokeOwn _ _ _ => True
  | refresh _ => True

theorem World.Ok.without {w : World} (h : w.Ok) (clientId : String) : (w.without clientId).Ok := by
  have hsubset : ∀ client ∈ (w.without clientId).live, client ∈ w.live := fun client hclient =>
    mem_of_mem_filter hclient
  obtain ⟨ps, hps, hlive⟩ := h.present
  exact ⟨⟨ps, hps, fun client hclient => hlive client (hsubset client hclient)⟩,
    fun client hclient => h.listed client (hsubset client hclient)⟩

theorem ne_of_mem_without {w : World} {clientId : String} {client : String × String}
    (h : client ∈ (w.without clientId).live) : client.1 ≠ clientId :=
  of_decide_eq_true (mem_filter.mp h).2

theorem World.Ok.start {w : World} {clientsTable : List QJsonValue} {request : Request}
    (hw : w.Ok) (h : request.Allowed w clientsTable) :
    Consistent (request.start w clientsTable) := by
  cases request with
  | append a => exact ⟨hw, h⟩
  | rename row clientName upload =>
    refine ⟨hw, fun client hclient => ?_, hw.present, .inl rfl⟩
    exact isClientExists_renamed row clientName none (h client.1 (hw.listed client hclient))
  | revoke row r =>
    have hwithout := hw.without (clientIdAt clientsTable row)
    refine ⟨hwithout, fun client hclient => ?_, fun client hclient => ne_of_mem_without hclient⟩
    exact h client.1 (hwithout.listed client hclient)
  | revokeOwn clientId reads r =>
    exact ⟨hw.without clientId, fun client hclient => ne_of_mem_without hclient⟩
  | refresh r => exact ⟨hw, trivial⟩

section Runs

variable {ι : Type} [DecidableEq ι] {s : System ι}

structure System.Ok (s : System ι) : Prop where
  world : s.world.Ok
  task : ∀ i, (s.admins i).task.Ok s.world (s.admins i).clientsTable
  one : ∀ i j, (s.admins i).task ≠ .idle → (s.admins j).task ≠ .idle → i = j

def Action.Allowed (s : System ι) : Action ι → Prop
  | start i request =>
      (∀ j, (s.admins j).task = .idle) ∧ request.Allowed s.world (s.admins i).clientsTable
  | advance i => (s.admins i).task.RemovesOwn s.world (s.admins i).clientsTable

instance (s : System ι) (i : ι) : Decidable ((Action.advance i).Allowed s) :=
  inferInstanceAs (Decidable ((s.admins i).task.RemovesOwn s.world (s.admins i).clientsTable))

theorem System.Ok.put {i : ι} {x : World × Administrator}
    (hidle : ∀ j, j ≠ i → (s.admins j).task = .idle) (hx : Consistent x) : (s.put i x).Ok := by
  have hother : ∀ j, j ≠ i → ((s.put i x).admins j).task = .idle := by
    intro j hj
    unfold System.put
    dsimp only
    rw [Function.update_of_ne hj]
    exact hidle j hj
  have hself : (s.put i x).admins i = x.2 := Function.update_self ..
  refine ⟨hx.1, fun j => ?_, fun j k hj hk => ?_⟩
  · by_cases hj : j = i
    · rw [hj, hself]
      exact hx.2
    · rw [hother j hj]
      trivial
  · have hji : j = i := not_imp_comm.mp (hother j) hj
    have hki : k = i := not_imp_comm.mp (hother k) hk
    rw [hji, hki]

theorem System.Ok.run {action : Action ι} (h : s.Ok) (haction : action.Allowed s) :
    (action.run s).Ok := by
  cases action with
  | start i request =>
    unfold Action.run
    dsimp only
    split
    · exact System.Ok.put (fun j _ => haction.1 j) (h.world.start haction.2)
    · exact h
  | advance i =>
    by_cases hidle : (s.admins i).task = .idle
    · have hsame : alone (s.world, s.admins i) = (s.world, s.admins i) := by
        unfold alone
        rw [hidle, Task.advance, ← hidle]
      unfold Action.run System.put
      dsimp only
      rw [hsame, Function.update_eq_self]
      exact h
    · apply System.Ok.put
      · intro j hj
        by_contra hbusy
        exact hj (h.one j i hbusy hidle)
      · exact Consistent.alone ⟨h.world, h.task i⟩ haction

def Serial (s : System ι) : List (Action ι) → Prop
  | [] => True
  | action :: actions => action.Allowed s ∧ Serial (action.run s) actions

theorem System.Ok.foldl {actions : List (Action ι)} (h : s.Ok) (hserial : Serial s actions) :
    (actions.foldl Action.run s).Ok := by
  induction actions generalizing s with
  | nil => exact h
  | cons action actions ih => exact ih (h.run hserial.1) hserial.2

/-- No client is lost and no address given twice if administrators take turns. -/
theorem safe_of_serial (s : System ι) (actions : List (Action ι)) (hlive : s.world.live = [])
    (hidle : ∀ i, (s.admins i).task = .idle) (hconf : ∃ ps, HasClients s.world.server.wgConf ps)
    (hserial : Serial s actions) : Safe (actions.foldl Action.run s).world := by
  have hworld : s.world.Ok := by
    obtain ⟨ps, hps⟩ := hconf
    have hnone : ∀ client, client ∉ s.world.live := by
      intro client
      rw [hlive]
      exact not_mem_nil
    exact ⟨⟨ps, hps, fun client hclient => absurd hclient (hnone client)⟩,
      fun client hclient => absurd hclient (hnone client)⟩
  have hok : s.Ok := by
    refine ⟨hworld, fun i => ?_, fun i j hi _ => absurd (hidle i) hi⟩
    rw [hidle i]
    trivial
  exact (hok.foldl hserial).world.safe

end Runs

def plainAppend (clientPubKey : String) : Append where
  creation := plainCreation clientPubKey
  refresh := ⟨none, false, none, ⟨true, none⟩, []⟩
  clientName := "Admin"
  date := ""
  upload := ⟨true, none⟩

def twoAdministrators : System Bool where
  world := ⟨⟨interfaceConfig [], .array [client "b3RoZXI" []], []⟩, []⟩
  admins := fun _ => ⟨[], .idle⟩

theorem safe_of_serial_append :
    let actions : List (Action Bool) :=
      [.start true (.append (plainAppend "Zmlyc3Q")), .advance true, .advance true, .advance true,
        .advance true, .advance true, .advance true]
    let w := (actions.foldl Action.run twoAdministrators).world
    w.live = [("Zmlyc3Q", "10.8.1.2")] ∧ Safe w := by
  refine ⟨by decide +kernel, safe_of_serial twoAdministrators _ rfl (fun _ => rfl) ?_ ?_⟩
  · refine ⟨[], HasClients.of_withoutPeers ?_⟩
    exact withoutPeers_interfaceConfig fun setting hsetting => absurd hsetting not_mem_nil
  · have hkey : Plain "Zmlyc3Q" := ⟨by decide, by decide⟩
    refine ⟨⟨fun _ => rfl, wellFormed_plainCreation hkey, fun _ => rfl, fun _ => rfl⟩, ?_⟩
    exact ⟨by decide +kernel, by decide +kernel, by decide +kernel, by decide +kernel,
      by decide +kernel, by decide +kernel, trivial⟩

def overlappingAppends : List (Action Bool) :=
  [.start true (.append (plainAppend "Zmlyc3Q")), .start false (.append (plainAppend "c2Vjb25k")),
    .advance true, .advance false, .advance true, .advance false, .advance true, .advance false,
    .advance true, .advance false, .advance true, .advance false, .advance true, .advance false]

/-- Both clients have the same address, and the first one is not in the table. -/
theorem overlapping_appends_unsafe :
    let w := (overlappingAppends.foldl Action.run twoAdministrators).world
    w.live = [("c2Vjb25k", "10.8.1.2"), ("Zmlyc3Q", "10.8.1.2")] ∧
      ¬ w.server.clientsTable.Lists "Zmlyc3Q" := by
  exact ⟨by decide +kernel, by decide +kernel⟩

end AmneziaVpn.ClientManagementModel
