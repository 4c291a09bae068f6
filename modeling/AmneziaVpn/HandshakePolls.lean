import AmneziaVpn.DaemonSignals
import AmneziaVpn.ExclusionRuns
import AmneziaVpn.LocalSocketController
import AmneziaVpn.RunInvariants

/-!
# The polls for handshakes

A single-shot timer makes the daemon ask the interface for the handshakes of its peers, and the poll
starts the timer again while a handshake is pending.
-/

namespace AmneziaVpn

open List ConnectionState

namespace PeerStatus

def reports (peers : List PeerStatus) (pubkey : String) : Bool :=
  peers.any fun status => status.m_pubkey = pubkey && status.m_handshake ≠ 0

theorem reports_cons (status : PeerStatus) (peers : List PeerStatus) (pubkey : String) :
    reports (status :: peers) pubkey =
      (decide (status.m_pubkey = pubkey) && decide (status.m_handshake ≠ 0) ||
        reports peers pubkey) := rfl

theorem reports_of_not_mem {peers : List PeerStatus} {pubkey : String}
    (h : pubkey ∉ peers.map m_pubkey) : reports peers pubkey = false := by
  rw [reports, any_eq_false]
  intro status hstatus hreport
  rw [Bool.and_eq_true, decide_eq_true_eq] at hreport
  exact h (hreport.1 ▸ mem_map_of_mem hstatus)

theorem reports_eq_false_iff {peers : List PeerStatus} {pubkey : String} :
    reports peers pubkey = false ↔
      ∀ status ∈ peers, status.m_pubkey = pubkey → status.m_handshake = 0 := by
  simp [reports]

/-- A reply names each public key at most once. -/
structure Reply where
  peers : List PeerStatus
  nodup : (peers.map m_pubkey).Nodup

end PeerStatus

namespace ConnectionState

variable {connection : ConnectionState} {peers : List PeerStatus}

theorem signals_foldl_takeHandshake (hnodup : (peers.map PeerStatus.m_pubkey).Nodup)
    (state : ConnectionState × List Signal) :
    (peers.foldl takeHandshake state).2 = state.2 ++
      if PeerStatus.reports peers state.1.m_config.m_serverPublicKey then
        [.connected state.1.m_config.m_serverPublicKey]
      else [] := by
  induction peers generalizing state with
  | nil => simp [PeerStatus.reports]
  | cons status peers ih =>
    rw [map_cons, nodup_cons] at hnodup
    rw [foldl_cons, ih hnodup.2, PeerStatus.reports_cons]
    unfold takeHandshake
    by_cases hkey : state.1.m_config.m_serverPublicKey = status.m_pubkey
    · have hothers := PeerStatus.reports_of_not_mem hnodup.1
      by_cases hhandshake : status.m_handshake = 0
      · simp [hkey, hhandshake]
      · simp [hkey, hhandshake, hothers]
    · simp [hkey, Ne.symm hkey]

/-- A connection without a date announces the handshake of its peer once. -/
theorem signals_checkHandshake (hdate : connection.m_date = none) (reply : PeerStatus.Reply) :
    (connection.checkHandshake reply.peers).2 =
      if PeerStatus.reports reply.peers connection.m_config.m_serverPublicKey then
        [.connected connection.m_config.m_serverPublicKey]
      else [] := by
  rw [checkHandshake, if_neg (by simp [hdate]), signals_foldl_takeHandshake reply.nodup]
  rfl

theorem checkHandshake_of_not_reports (hdate : connection.m_date = none)
    (h : PeerStatus.reports peers connection.m_config.m_serverPublicKey = false) :
    (connection.checkHandshake peers).1 = connection := by
  obtain ⟨hconfig, hnone⟩ := connection.m_date_checkHandshake peers
  have hsame := (hnone.mpr ⟨hdate, PeerStatus.reports_eq_false_iff.mp h⟩).trans hdate.symm
  generalize (connection.checkHandshake peers).1 = after at hconfig hsame
  cases after
  cases connection
  cases hconfig
  cases hsame
  rfl

theorem checkHandshake_of_reports
    (h : PeerStatus.reports peers connection.m_config.m_serverPublicKey = true) :
    (connection.checkHandshake peers).1.m_date.isSome := by
  by_contra hnone
  rw [Option.not_isSome_iff_eq_none, (connection.m_date_checkHandshake peers).2] at hnone
  exact absurd (PeerStatus.reports_eq_false_iff.mpr hnone.2) (by simp [h])

theorem checkHandshake_of_date (hdate : connection.m_date.isSome) (peers : List PeerStatus) :
    connection.checkHandshake peers = (connection, []) :=
  if_pos hdate

end ConnectionState

namespace Daemon

open FallibleOps FallibleOps.Op

variable {σ : Type} (qt : QtParser) (P : DaemonPlatform σ)

def isConnected : Signal → Bool
  | .connected _ => true
  | _ => false

variable (d : Daemon σ)

def connectedSignals : List Signal := d.signals.filter isConnected

def SameAnnouncements (d' : Daemon σ) : Prop :=
  d'.m_handshakeTimer = d.m_handshakeTimer ∧ d'.connectedSignals = d.connectedSignals

instance : IsPreorder (Daemon σ) SameAnnouncements where
  refl _ := ⟨rfl, rfl⟩
  trans _ _ _ h h' := ⟨h'.1.trans h.1, h'.2.trans h.2⟩

theorem SameReports.sameAnnouncements {d d' : Daemon σ} (h : SameReports d d') :
    SameAnnouncements d d' := by
  refine ⟨h.1, ?_⟩
  rw [connectedSignals, h.2]
  rfl

theorem sameAnnouncements_emit {signal : Signal} (h : isConnected signal = false) (d : Daemon σ) :
    SameAnnouncements d (d.emit signal) := by
  refine ⟨rfl, ?_⟩
  simp [connectedSignals, emit, h]

variable (emitSignals : Bool)

theorem sameAnnouncements_deactivate : Keeps SameAnnouncements (deactivate P emitSignals) := by
  have hplatform (a : Op σ) : Keeps SameAnnouncements (onPlatform a) := fun _ => ⟨rfl, rfl⟩
  apply (platformKeeps_of_onPlatform hplatform).deactivate (hplatform _) fun _ _ => ⟨rfl, rfl⟩
  · intro d
    dsimp only
    split_ifs
    · exact sameAnnouncements_emit rfl d
    · exact refl d
  · exact fun _ => ⟨rfl, rfl⟩

theorem sameAnnouncements_failureGuard (a : Op (Daemon σ)) (d : Daemon σ) :
    SameAnnouncements (a d).2 (failureGuard a d).2 := by
  unfold failureGuard
  split_ifs
  · exact refl _
  · exact sameAnnouncements_emit rfl _

variable (config : InterfaceConfig)

/-- An activation announces nothing, and starts the timer if it succeeds. -/
theorem announcements_activate (d : Daemon σ) :
    (activate qt P config d).2.m_handshakeTimer =
        ((activate qt P config d).1 || d.m_handshakeTimer) ∧
      (activate qt P config d).2.connectedSignals = d.connectedSignals := by
  have hstarts {a : Op (Daemon σ)} (h : Starts a) (d : Daemon σ) :
      (a d).2.m_handshakeTimer = ((a d).1 || d.m_handshakeTimer) ∧
        (a d).2.connectedSignals = d.connectedSignals :=
    ⟨(h d).1, congrArg (List.filter isConnected) (h d).2⟩
  have hguard (a : Op (Daemon σ)) (d : Daemon σ) := sameAnnouncements_failureGuard a d
  unfold activate
  rw [(hguard _ d).1, (hguard _ d).2, failureGuard_fst]
  cases hcurrent : d.m_connections config.m_hopType with
  | none => exact hstarts (starts_bringUp qt P config) d
  | some current =>
    dsimp only
    split_ifs with hswitch
    · exact hstarts (starts_switchTo qt P current.m_config config) d
    · have hquiet := (sameReports_deactivate P d).sameAnnouncements
      cases hdown : (deactivate P false d).1 with
      | false =>
        rw [andThen_of_false hdown]
        exact hquiet
      | true =>
        rw [andThen_of_true hdown, (hguard _ _).1, (hguard _ _).2, failureGuard_fst,
          ← hquiet.1, ← hquiet.2]
        exact hstarts (starts_bringUp qt P config) _

theorem connections_deactivate (d : Daemon σ) :
    (deactivate P emitSignals d).2.m_connections =
      if (deactivate P emitSignals d).1 then fun _ => none else d.m_connections := by
  cases hdown : (deactivate P emitSignals d).1 with
  | true =>
    rw [(platform_deactivate hdown).2.2.2]
    rfl
  | false =>
    have hkept : (tearDown P emitSignals d).2.m_connections = d.m_connections := by
      cases htear : (tearDown P emitSignals d).1 with
      | false => exact (sameBooks_tearDown P emitSignals d htear).2
      | true => exact (books_tearDown P emitSignals d htear).2
    have hboth : ((tearDown P emitSignals).andThen (onPlatform P.deleteInterface) d).1 = false := by
      rw [deactivate_eq, andThen_fst] at hdown
      simpa using hdown
    rw [deactivate_eq, andThen_of_false hboth]
    cases htear : (tearDown P emitSignals d).1 with
    | false =>
      rw [andThen_of_false htear]
      exact hkept
    | true =>
      rw [andThen_of_true htear]
      exact hkept

theorem connections_activate (d : Daemon σ) :
    (activate qt P config d).2.m_connections =
      match d.m_connections config.m_hopType with
      | none =>
          if (bringUp qt P config d).1 then (d.register config).m_connections else d.m_connections
      | some current =>
          if supportServerSwitching current.m_config config then
            if (switchServer qt P.toWireguardUtils current.m_config config d).1 then
              (d.register config).m_connections
            else d.m_connections
          else if (deactivate P false d).1 then
            if (bringUp qt P config (deactivate P false d).2).1 then
              ((deactivate P false d).2.register config).m_connections
            else fun _ => none
          else d.m_connections := by
  unfold activate
  rw [(sameBooks_failureGuard _ d).2]
  cases hcurrent : d.m_connections config.m_hopType with
  | none => exact connections_bringUp qt P config d
  | some current =>
    dsimp only
    split_ifs with hswitch hswitched hdown hup
    · rw [(books_switchTo qt P current.m_config config d).2, connections_switchServer,
        if_pos hswitched]
    · rw [(books_switchTo qt P current.m_config config d).2, connections_switchServer,
        if_neg hswitched]
    · rw [andThen_of_true hdown, (sameBooks_failureGuard _ _).2, connections_bringUp, if_pos hup]
    · rw [andThen_of_true hdown, (sameBooks_failureGuard _ _).2, connections_bringUp, if_neg hup,
        connections_deactivate, if_pos hdown]
    · rw [andThen_of_false (by simpa using hdown), connections_deactivate, if_neg hdown]

/-- A call of the client, or the timer has gone off and the interface gives a reply. -/
inductive PollEvent
  | call (c : Call)
  | poll (reply : PeerStatus.Reply)

variable (platform : σ)

variable (event : PollEvent)

/-- An event on a platform whose state has become `platform`. The timer goes off once. -/
def pollStep (d : Daemon σ) : Daemon σ :=
  match event with
  | .call c => call qt P platform c d
  | .poll reply => { d with platform, m_handshakeTimer := false }.checkHandshake fun _ => reply.peers

def pollNext (event : σ × PollEvent) : Daemon σ := pollStep qt P event.1 event.2 d

def pollRun (events : List (σ × PollEvent)) (platform : σ) : Daemon σ :=
  events.foldl (pollNext qt P) (initial platform)

def ends (hop : HopType) (platform : σ) (event : PollEvent) (d : Daemon σ) : Bool :=
  match event with
  | .poll _ => false
  | .call .deactivate => (deactivate P true { d with platform }).1
  | .call (.activate config) =>
      match d.m_connections config.m_hopType with
      | none => config.m_hopType = hop && (bringUp qt P config { d with platform }).1
      | some current =>
          if supportServerSwitching current.m_config config then
            config.m_hopType = hop &&
              (switchServer qt P.toWireguardUtils current.m_config config { d with platform }).1
          else (deactivate P false { d with platform }).1

def announced (hop : HopType) (event : PollEvent) (d : Daemon σ) : List Signal :=
  match event with
  | .call _ => []
  | .poll reply => (d.m_connections hop).elim [] fun connection =>
      (connection.checkHandshake reply.peers).2

theorem register_of_ne {config : InterfaceConfig} {hop : HopType} (h : config.m_hopType ≠ hop)
    (d : Daemon σ) : (d.register config).m_connections hop = d.m_connections hop :=
  Function.update_of_ne h.symm _ _

theorem connections_call {hop : HopType} {platform : σ} {c : Call} {d : Daemon σ}
    (h : ends qt P hop platform (.call c) d = false) :
    (pollStep qt P platform (.call c) d).m_connections hop = d.m_connections hop := by
  rw [pollStep]
  cases c with
  | deactivate =>
    have hdown : (deactivate P true { d with platform }).1 = false := h
    rw [call, connections_deactivate, hdown]
    rfl
  | activate config =>
    unfold ends at h
    rw [call, connections_activate]
    dsimp only at h ⊢
    cases hcurrent : d.m_connections config.m_hopType with
    | none =>
      simp only [hcurrent] at h
      rw [Bool.and_eq_false_iff, decide_eq_false_iff_not] at h
      dsimp only
      split_ifs with hup
      · rw [hup, or_iff_left (by simp)] at h
        exact register_of_ne h _
      · rfl
    | some current =>
      simp only [hcurrent] at h
      dsimp only
      split_ifs at h ⊢ with hswitch hswitched hdown hup
      · rw [Bool.and_eq_false_iff, decide_eq_false_iff_not, hswitched,
          or_iff_left (by simp)] at h
        exact register_of_ne h _
      · rfl
      · exact absurd hdown (by simp [h])
      · exact absurd hdown (by simp [h])
      · rfl

variable (reply : PeerStatus.Reply)

theorem connections_poll (d : Daemon σ) (hop : HopType) :
    (pollStep qt P platform (.poll reply) d).m_connections hop =
      (d.m_connections hop).map fun connection => (connection.checkHandshake reply.peers).1 := by
  rw [pollStep, checkHandshake_eq]

theorem connectedSignals_pollStep (d : Daemon σ) :
    (pollStep qt P platform event d).connectedSignals = d.connectedSignals ++
      [HopType.SingleHop, .MultiHopEntry, .MultiHopExit].flatMap fun hop =>
        announced hop event d := by
  cases event with
  | call c =>
    have hnone : ([HopType.SingleHop, .MultiHopEntry, .MultiHopExit].flatMap fun hop =>
        announced hop (.call c) d) = [] := rfl
    rw [hnone, append_nil]
    cases c with
    | activate config => exact (announcements_activate qt P config { d with platform }).2
    | deactivate => exact (sameAnnouncements_deactivate P true { d with platform }).2
  | poll reply =>
    have hdue : d.connections.flatMap (fun connection => (connection.checkHandshake reply.peers).2) =
        [HopType.SingleHop, .MultiHopEntry, .MultiHopExit].flatMap fun hop =>
          announced hop (.poll reply) d := by
      rw [connections, filterMap_eq_flatMap_toList, flatMap_assoc]
      refine flatMap_congr fun hop _ => ?_
      unfold announced
      cases d.m_connections hop <;> simp
    have hconnected : ∀ signal ∈ d.connections.flatMap fun connection =>
        (connection.checkHandshake reply.peers).2, isConnected signal = true := by
      intro signal hsignal
      obtain ⟨connection, -, hsignal⟩ := mem_flatMap.mp hsignal
      cases hdate : connection.m_date with
      | none =>
        rw [signals_checkHandshake hdate] at hsignal
        split_ifs at hsignal
        · rw [mem_singleton.mp hsignal]
          rfl
        · simp at hsignal
      | some date =>
        rw [checkHandshake_of_date (by simp [hdate])] at hsignal
        simp at hsignal
    rw [pollStep, checkHandshake_eq, connectedSignals, filter_append, ← hdue]
    exact congrArg _ (filter_eq_self.mpr hconnected)

theorem timer_poll (d : Daemon σ) :
    (pollStep qt P platform (.poll reply) d).m_handshakeTimer =
      (pollStep qt P platform (.poll reply) d).connections.any (·.m_date.isNone) := by
  rw [pollStep, connections_checkHandshake, any_map, checkHandshake_eq]
  rfl

section Announcements

variable (hop : HopType)

def announcedBy : List (σ × PollEvent) → Daemon σ → List Signal
  | [], _ => []
  | (platform, event) :: events, d =>
      if ends qt P hop platform event d then []
      else announced hop event d ++ announcedBy events (pollStep qt P platform event d)

def PollEvent.reports (pubkey : String) : PollEvent → Bool
  | .call _ => false
  | .poll reply => PeerStatus.reports reply.peers pubkey

def reportedTo (pubkey : String) : List (σ × PollEvent) → Daemon σ → Bool
  | [], _ => false
  | (platform, event) :: events, d =>
      !ends qt P hop platform event d &&
        (event.reports pubkey || reportedTo pubkey events (pollStep qt P platform event d))

variable {hop}

variable (events : List (σ × PollEvent))

theorem announcedBy_of_date {d : Daemon σ} {connection : ConnectionState}
    (hconnection : d.m_connections hop = some connection) (hdate : connection.m_date.isSome) :
    announcedBy qt P hop events d = [] := by
  induction events generalizing d with
  | nil => rfl
  | cons event events ih =>
    obtain ⟨platform, event⟩ := event
    rw [announcedBy]
    split_ifs with hends
    · rfl
    · cases event with
      | call c =>
        have hkept := connections_call qt P (by simpa using hends)
        exact ih (hkept.trans hconnection)
      | poll reply =>
        have hsame := checkHandshake_of_date hdate reply.peers
        have hkept := connections_poll qt P platform reply d hop
        rw [hconnection, Option.map_some, hsame] at hkept
        rw [ih hkept, announced, hconnection, Option.elim_some, hsame]
        rfl

theorem announcedBy_of_no_date {d : Daemon σ} {config : InterfaceConfig}
    (hconnection : d.m_connections hop = some ⟨config, none⟩) :
    announcedBy qt P hop events d =
      if reportedTo qt P hop config.m_serverPublicKey events d then
        [.connected config.m_serverPublicKey]
      else [] := by
  induction events generalizing d with
  | nil => rfl
  | cons event events ih =>
    obtain ⟨platform, event⟩ := event
    rw [announcedBy, reportedTo]
    cases hends : ends qt P hop platform event d with
    | true => rfl
    | false =>
      rw [if_neg Bool.false_ne_true]
      cases event with
      | call c =>
        have hkept := connections_call qt P hends
        rw [ih (hkept.trans hconnection)]
        rfl
      | poll reply =>
        have hsignals := signals_checkHandshake
          (show (⟨config, none⟩ : ConnectionState).m_date = none from rfl) reply
        have hkept := connections_poll qt P platform reply d hop
        rw [hconnection, Option.map_some] at hkept
        rw [announced, hconnection, Option.elim_some, hsignals]
        cases hreport : PeerStatus.reports reply.peers config.m_serverPublicKey with
        | true =>
          rw [announcedBy_of_date qt P events hkept
            (checkHandshake_of_reports hreport)]
          simp [PollEvent.reports, hreport]
        | false =>
          rw [checkHandshake_of_not_reports rfl hreport] at hkept
          rw [ih hkept]
          simp [PollEvent.reports, hreport]

end Announcements

section Scheduling

def Pending (d : Daemon σ) : Prop :=
  ∃ hop connection, d.m_connections hop = some connection ∧ connection.m_date = none

theorem pending_iff (d : Daemon σ) :
    Pending d ↔ d.connections.any (·.m_date.isNone) = true := by
  have hall (hop : HopType) : hop ∈ [HopType.SingleHop, .MultiHopEntry, .MultiHopExit] := by
    cases hop <;> decide
  simp only [Pending, connections, any_eq_true, mem_filterMap, Option.isNone_iff_eq_none]
  constructor
  · rintro ⟨hop, connection, hconnection, hdate⟩
    exact ⟨connection, ⟨hop, hall hop, hconnection⟩, hdate⟩
  · rintro ⟨connection, ⟨hop, -, hconnection⟩, hdate⟩
    exact ⟨hop, connection, hconnection, hdate⟩

variable {d : Daemon σ}

theorem not_pending_of_none (h : d.m_connections = fun _ => none) : ¬ Pending d := by
  rintro ⟨hop, connection, hconnection, -⟩
  rw [h] at hconnection
  exact absurd hconnection.symm (Option.some_ne_none connection)

def Scheduled (d : Daemon σ) : Prop := Pending d → d.m_handshakeTimer = true

theorem Scheduled.congr {d d' : Daemon σ} (h : Scheduled d)
    (hconnections : d'.m_connections = d.m_connections)
    (htimer : d'.m_handshakeTimer = d.m_handshakeTimer) : Scheduled d' := by
  rintro ⟨hop, connection, hconnection, hdate⟩
  rw [hconnections] at hconnection
  rw [htimer]
  exact h ⟨hop, connection, hconnection, hdate⟩

/-- While the timer does not run, a switch registers the connection and then fails. -/
def HalfSwitch (config : InterfaceConfig) (d : Daemon σ) : Prop :=
  ∃ current, d.m_connections config.m_hopType = some current ∧
    supportServerSwitching current.m_config config = true ∧
    (switchServer qt P.toWireguardUtils current.m_config config d).1 = true ∧
    (activate qt P config d).1 = false ∧ d.m_handshakeTimer = false

def Halts (platform : σ) (event : PollEvent) (d : Daemon σ) : Prop :=
  ∃ config, event = .call (.activate config) ∧ HalfSwitch qt P config { d with platform }

variable {config : InterfaceConfig}

theorem not_scheduled_of_halfSwitch (h : HalfSwitch qt P config d) :
    ¬ Scheduled (activate qt P config d).2 := by
  obtain ⟨current, hcurrent, hswitch, hswitched, hfalse, htimer⟩ := h
  have hconnections := connections_activate qt P config d
  simp only [hcurrent, hswitch, hswitched, if_true] at hconnections
  have hpending : Pending (activate qt P config d).2 := by
    refine ⟨config.m_hopType, ⟨config, none⟩, ?_, rfl⟩
    rw [hconnections]
    exact Function.update_self _ _ _
  intro hscheduled
  have hrunning := hscheduled hpending
  rw [(announcements_activate qt P config d).1, hfalse, htimer] at hrunning
  exact absurd hrunning (by simp)

theorem scheduled_activate (h : Scheduled d) (hhalf : ¬ HalfSwitch qt P config d) :
    Scheduled (activate qt P config d).2 := by
  obtain ⟨htimer, -⟩ := announcements_activate qt P config d
  cases hresult : (activate qt P config d).1 with
  | true =>
    rw [hresult, Bool.true_or] at htimer
    exact fun _ => htimer
  | false =>
    rw [hresult, Bool.false_or] at htimer
    have hconnections := connections_activate qt P config d
    cases hcurrent : d.m_connections config.m_hopType with
    | none =>
      have hdown : ¬ (bringUp qt P config d).1 = true := by
        rw [activate_of_none hcurrent, failureGuard_fst] at hresult
        simp [hresult]
      simp only [hcurrent, if_neg hdown] at hconnections
      exact h.congr hconnections htimer
    | some current =>
      simp only [hcurrent] at hconnections
      split_ifs at hconnections with hswitch hswitched hdown hup
      · intro _
        rw [htimer]
        by_contra hstopped
        exact hhalf ⟨current, hcurrent, hswitch, hswitched, hresult, by simpa using hstopped⟩
      · exact h.congr hconnections htimer
      · have htrue : (activate qt P config d).1 = true := by
          simp only [activate, hcurrent]
          rw [failureGuard_fst, if_neg hswitch, andThen_of_true hdown, failureGuard_fst, hup]
        exact absurd htrue (by simp [hresult])
      · exact fun hpending => absurd hpending (not_pending_of_none hconnections)
      · exact h.congr hconnections htimer

theorem scheduled_pollStep_iff {platform : σ} {event : PollEvent} (h : Scheduled d) :
    Scheduled (pollStep qt P platform event d) ↔ ¬ Halts qt P platform event d := by
  have hplatform : Scheduled { d with platform } := h
  constructor
  · rintro hscheduled ⟨config, rfl, hhalf⟩
    exact not_scheduled_of_halfSwitch qt P hhalf hscheduled
  · intro hhalts
    cases event with
    | poll reply =>
      intro hpending
      rw [timer_poll]
      exact (pending_iff _).mp hpending
    | call c =>
      cases c with
      | activate config =>
        exact scheduled_activate qt P hplatform fun hhalf => hhalts ⟨config, rfl, hhalf⟩
      | deactivate =>
        have htimer := (sameAnnouncements_deactivate P true { d with platform }).1
        have hconnections := connections_deactivate P true { d with platform }
        split_ifs at hconnections with hdown
        · exact fun hpending => absurd hpending (not_pending_of_none hconnections)
        · exact hplatform.congr hconnections htimer

end Scheduling

section Runs

open RunInvariants

variable (platform : σ) (events : List (σ × PollEvent))

/-- Announcements are first handshakes, and the timer runs while one is pending. -/
structure PollsProperly : Prop where
  due : ∀ before event after, events = before ++ event :: after →
    (pollRun qt P (before ++ [event]) platform).connectedSignals =
      (pollRun qt P before platform).connectedSignals ++
        [HopType.SingleHop, .MultiHopEntry, .MultiHopExit].flatMap fun hop =>
          announced hop event.2 (pollRun qt P before platform)
  once : ∀ before after hop config, events = before ++ after →
    (pollRun qt P before platform).m_connections hop = some ⟨config, none⟩ →
    announcedBy qt P hop after (pollRun qt P before platform) =
      if reportedTo qt P hop config.m_serverPublicKey after (pollRun qt P before platform) then
        [.connected config.m_serverPublicKey]
      else []
  scheduled : Throughout (pollNext qt P) Scheduled events (initial platform)

/-- The polls are proper unless a switch fails after its registration. -/
theorem pollsProperly_iff :
    PollsProperly qt P platform events ↔
      NoneOf (pollNext qt P) (fun d event => Halts qt P event.1 event.2 d) events
        (initial platform) := by
  have hstart : Scheduled (initial platform) :=
    fun hpending => absurd hpending (not_pending_of_none rfl)
  have hstep (d : Daemon σ) (event : σ × PollEvent) (hd : Scheduled d) :
      Scheduled (pollNext qt P d event) ↔ ¬ Halts qt P event.1 event.2 d :=
    scheduled_pollStep_iff qt P hd
  rw [← throughout_iff_noneOf hstep hstart]
  refine ⟨PollsProperly.scheduled, fun h => ⟨fun before event after _ => ?_, ?_, h⟩⟩
  · rw [pollRun, foldl_append]
    exact connectedSignals_pollStep qt P event.1 event.2 _
  · intro before after hop config _ hconnection
    exact announcedBy_of_no_date qt P after hconnection

open LinuxPlatform

def brokenSwitch : List (LinuxPlatform × PollEvent) :=
  [(smooth, .call (.activate sampleConfig)),
    (connectedOnce.platform, .poll ⟨[⟨"b", 1, 0, 0⟩], by simp⟩),
    (connectedOnce.platform, .call (.activate { sampleConfig with m_serverPublicKey := "c" }))]

/-- The connection to the other server waits for its handshake and no poll is scheduled. -/
theorem not_pollsProperly_brokenSwitch :
    ¬ PollsProperly sampleQt.toQtParser (linux sampleQt) smooth brokenSwitch := by
  intro h
  have hscheduled := h.scheduled brokenSwitch [] (append_nil _).symm
  rw [Scheduled, pending_iff] at hscheduled
  revert hscheduled
  decide +kernel

end Runs

/-- The connection was requested, and has a date if a poll has reported its peer since then. -/
def Traced (events : List (σ × PollEvent)) (hop : HopType) (c : ConnectionState) : Prop :=
  ∃ before platform after, events = before ++ (platform, .call (.activate c.m_config)) :: after ∧
    c.m_config.m_hopType = hop ∧ c.m_date.isSome =
      after.any fun event => event.2.reports c.m_config.m_serverPublicKey

theorem connections_call_cases (c : Call) (d : Daemon σ) (hop : HopType) :
    (call qt P platform c d).m_connections hop ∈ [none, d.m_connections hop] ∨
      ∃ config, c = .activate config ∧ config.m_hopType = hop ∧
        (call qt P platform c d).m_connections hop = some ⟨config, none⟩ := by
  have hdown (emitSignals : Bool) :=
    congrFun (connections_deactivate P emitSignals { d with platform }) hop
  simp only [ite_apply] at hdown
  cases c with
  | deactivate => grind [call]
  | activate config =>
    have hregister (d : Daemon σ) : (d.register config).m_connections hop =
        if config.m_hopType = hop then some ⟨config, none⟩ else d.m_connections hop := by
      simp [register, Function.update_apply, eq_comm]
    rw [call, connections_activate]
    split <;> split_ifs <;> grind

theorem Traced.pollStep {events : List (σ × PollEvent)} {hop : HopType} {d : Daemon σ}
    (h : (d.m_connections hop).elim True (Traced events hop)) :
    ((d.pollStep qt P platform event).m_connections hop).elim True
      (Traced (events ++ [(platform, event)]) hop) := by
  have happend {c c' : ConnectionState} (h : Traced events hop c) (hconfig : c'.m_config = c.m_config)
      (hdate : c'.m_date.isSome = (c.m_date.isSome || event.reports c.m_config.m_serverPublicKey)) :
      Traced (events ++ [(platform, event)]) hop c' := by
    obtain ⟨before, start, after, rfl, hhop, hafter⟩ := h
    rw [← hconfig] at hhop hafter hdate ⊢
    exact ⟨before, start, after ++ [(platform, event)], by simp, hhop, by simp [hdate, hafter]⟩
  cases event with
  | call c =>
    rcases connections_call_cases qt P platform c d hop with hkept | ⟨config, rfl, hhop, hnew⟩
    · cases hd : d.m_connections hop <;> grind [Daemon.pollStep, PollEvent.reports]
    · rw [Daemon.pollStep, hnew]
      exact ⟨events, platform, [], rfl, hhop, rfl⟩
  | poll reply =>
    rw [connections_poll]
    cases hd : d.m_connections hop with
    | none => trivial
    | some connection =>
      rw [hd] at h
      obtain ⟨hconfig, hnone⟩ := connection.m_date_checkHandshake reply.peers
      rw [← PeerStatus.reports_eq_false_iff] at hnone
      refine happend h hconfig (Bool.eq_iff_iff.mpr ?_)
      simp [Option.isSome_iff_ne_none, hnone, PollEvent.reports, imp_iff_not_or]

/-- Whatever fails in a run, a connection that the daemon knows was requested in it. -/
theorem traced_pollRun (qt : QtParser) (P : DaemonPlatform σ) (events : List (σ × PollEvent))
    (platform : σ) (hop : HopType) :
    ((pollRun qt P events platform).m_connections hop).elim True (Traced events hop) := by
  induction events using reverseRecOn with
  | nil => trivial
  | append_singleton events event ih =>
    rw [pollRun, foldl_append]
    exact Traced.pollStep qt P event.1 event.2 ih

end Daemon

end AmneziaVpn
