import AmneziaVpn.Daemon
import AmneziaVpn.QtJson

/-!
# The client of the daemon

The client connects to the socket of the daemon, tries again a number of times if that fails, and
asks for the status once it is connected.
-/

namespace AmneziaVpn

open List QJsonObject Daemon

/-- `QDateTime::toString` and `QDateTime::fromString`. What has no date has an empty text. -/
structure DateFormat where
  toText : ℤ → String
  fromText : String → Option ℤ
  isSome_fromText_toText : ∀ date, (fromText (toText date)).isSome = true
  fromText_empty : fromText "" = none

structure PeerStatus where
  m_pubkey : String
  m_handshake : ℤ := 0
  m_rxBytes : ℤ := 0
  m_txBytes : ℤ := 0

namespace ConnectionState

def takeHandshake (state : ConnectionState × List Signal) (status : PeerStatus) :
    ConnectionState × List Signal :=
  if state.1.m_config.m_serverPublicKey ≠ status.m_pubkey then state
  else if status.m_handshake ≠ 0 then
    ({ state.1 with m_date := some status.m_handshake },
      state.2 ++ [.connected status.m_pubkey])
  else state

variable (peers : List PeerStatus)

variable (connection : ConnectionState)

def checkHandshake : ConnectionState × List Signal :=
  if connection.m_date.isSome then (connection, [])
  else peers.foldl takeHandshake (connection, [])

theorem m_date_foldl_takeHandshake (state : ConnectionState × List Signal) :
    (peers.foldl takeHandshake state).1.m_config = state.1.m_config ∧
    ((peers.foldl takeHandshake state).1.m_date = none ↔ state.1.m_date = none ∧
      ∀ status ∈ peers, status.m_pubkey = state.1.m_config.m_serverPublicKey →
        status.m_handshake = 0) := by
  induction peers generalizing state with
  | nil => simp
  | cons status peers ih =>
    obtain ⟨hconfig, hdate⟩ := ih (takeHandshake state status)
    have hstep : (takeHandshake state status).1.m_config = state.1.m_config ∧
        ((takeHandshake state status).1.m_date = none ↔ state.1.m_date = none ∧
          (status.m_pubkey = state.1.m_config.m_serverPublicKey → status.m_handshake = 0)) := by
      unfold takeHandshake
      split_ifs with hkey hhandshake
      · exact ⟨rfl, by simp [Ne.symm hkey]⟩
      · exact ⟨rfl, by simp [not_not.mp hkey, hhandshake]⟩
      · exact ⟨rfl, by simp [not_not.mp hhandshake]⟩
    rw [foldl_cons, hconfig, hdate, hstep.1, hstep.2, forall_mem_cons, and_assoc]
    exact ⟨rfl, Iff.rfl⟩

/-- There is still no date if there was none and no peer with the key has had a handshake. -/
theorem m_date_checkHandshake :
    (connection.checkHandshake peers).1.m_config = connection.m_config ∧
    ((connection.checkHandshake peers).1.m_date = none ↔ connection.m_date = none ∧
      ∀ status ∈ peers, status.m_pubkey = connection.m_config.m_serverPublicKey →
        status.m_handshake = 0) := by
  unfold checkHandshake
  split_ifs with hdate
  · obtain ⟨date, hdate⟩ := Option.isSome_iff_exists.mp hdate
    simp [hdate]
  · exact m_date_foldl_takeHandshake peers (connection, [])

end ConnectionState

namespace Daemon

variable {σ : Type} (interfaceExists : σ → Bool) (getPeerStatus : σ → List PeerStatus)
  (dates : DateFormat)

variable (d : Daemon σ)

def reported : Option (ConnectionState × PeerStatus) :=
  if interfaceExists d.platform then
    match d.connections with
    | [] => none
    | connection :: _ =>
        match (getPeerStatus d.platform).find? (·.m_pubkey = connection.m_config.m_serverPublicKey) with
        | none => none
        | some status => some (connection, status)
  else none

def getStatus : QJsonObject :=
  match d.reported interfaceExists getPeerStatus with
  | none => insert [] "connected" (.bool false)
  | some (connection, status) =>
      insert [] "connected" (.bool true)
        |>.insert "serverIpv4Gateway" (.string connection.m_config.m_serverIpv4Gateway)
        |>.insert "deviceIpv4Address" (.string connection.m_config.m_deviceIpv4Address)
        |>.insert "date" (.string ((connection.m_date.map dates.toText).getD ""))
        |>.insert "txBytes" (.double status.m_txBytes)
        |>.insert "rxBytes" (.double status.m_rxBytes)

/-- The poll goes on while a handshake is pending. -/
def checkHandshake : Daemon σ :=
  let peers := getPeerStatus d.platform
  let d := [HopType.SingleHop, .MultiHopEntry, .MultiHopExit].foldl (fun d hop =>
    match d.m_connections hop with
    | none => d
    | some connection =>
        let (connection, signals) := connection.checkHandshake peers
        { d with
          m_connections := Function.update d.m_connections hop (some connection)
          signals := d.signals ++ signals }) d
  if d.connections.any (·.m_date.isNone) then { d with m_handshakeTimer := true } else d

variable (peers : List PeerStatus)

def checkHop (d : Daemon σ) (hop : HopType) : Daemon σ :=
  match d.m_connections hop with
  | none => d
  | some connection =>
      let (connection, signals) := connection.checkHandshake peers
      { d with
        m_connections := Function.update d.m_connections hop (some connection)
        signals := d.signals ++ signals }

theorem checkHop_eq (d : Daemon σ) (hop : HopType) :
    checkHop peers d hop = { d with
      m_connections := Function.update d.m_connections hop
        ((d.m_connections hop).map fun connection => (connection.checkHandshake peers).1)
      signals := d.signals ++ ([hop].filterMap d.m_connections).flatMap fun connection =>
        (connection.checkHandshake peers).2 } := by
  unfold checkHop
  cases hhop : d.m_connections hop with
  | none =>
    have hsame : Function.update d.m_connections hop none = d.m_connections := by
      rw [← hhop, Function.update_eq_self]
    simp [hhop, hsame]
  | some connection => simp [hhop]

theorem foldl_checkHop {hops : List HopType} (hnodup : hops.Nodup) (d : Daemon σ) :
    hops.foldl (checkHop peers) d = { d with
      m_connections := fun hop =>
        if hop ∈ hops then
          (d.m_connections hop).map fun connection => (connection.checkHandshake peers).1
        else d.m_connections hop
      signals := d.signals ++ (hops.filterMap d.m_connections).flatMap fun connection =>
        (connection.checkHandshake peers).2 } := by
  induction hops generalizing d with
  | nil => simp
  | cons hop hops ih =>
    rw [nodup_cons] at hnodup
    have hrest : hops.filterMap (checkHop peers d hop).m_connections =
        hops.filterMap d.m_connections := by
      refine filterMap_congr fun other hother => ?_
      rw [checkHop_eq]
      apply Function.update_of_ne
      rintro rfl
      exact hnodup.1 hother
    have hsplit : (hop :: hops).filterMap d.m_connections =
        [hop].filterMap d.m_connections ++ hops.filterMap d.m_connections := by
      rw [← filterMap_append]
      rfl
    rw [foldl_cons, ih hnodup.2, hrest, checkHop_eq, hsplit, flatMap_append,
      append_assoc]
    congr 1
    funext other
    by_cases hother : other = hop
    · subst hother
      simp [hnodup.1]
    · simp [hother]

theorem checkHandshake_eq :
    d.checkHandshake getPeerStatus = { d with
      m_connections := fun hop => (d.m_connections hop).map fun connection =>
        (connection.checkHandshake (getPeerStatus d.platform)).1
      signals := d.signals ++ d.connections.flatMap fun connection =>
        (connection.checkHandshake (getPeerStatus d.platform)).2
      m_handshakeTimer := d.m_handshakeTimer || d.connections.any fun connection =>
        (connection.checkHandshake (getPeerStatus d.platform)).1.m_date.isNone } := by
  have hall (hop : HopType) : hop ∈ [HopType.SingleHop, .MultiHopEntry, .MultiHopExit] := by
    cases hop <;> decide
  have hloop := foldl_checkHop (getPeerStatus d.platform)
    (show [HopType.SingleHop, .MultiHopEntry, .MultiHopExit].Nodup by decide) d
  simp only [hall, if_true] at hloop
  have heq : d.checkHandshake getPeerStatus =
      let d := [HopType.SingleHop, .MultiHopEntry, .MultiHopExit].foldl
        (checkHop (getPeerStatus d.platform)) d
      if d.connections.any (·.m_date.isNone) then { d with m_handshakeTimer := true } else d := rfl
  have hany : (List.filterMap (fun hop => (d.m_connections hop).map fun connection =>
      (connection.checkHandshake (getPeerStatus d.platform)).1)
        [HopType.SingleHop, .MultiHopEntry, .MultiHopExit]).any (·.m_date.isNone) =
      d.connections.any fun connection =>
        (connection.checkHandshake (getPeerStatus d.platform)).1.m_date.isNone := by
    rw [connections, ← map_filterMap, any_map]
    rfl
  rw [heq, hloop]
  simp only [connections] at hany ⊢
  rw [hany]
  cases ([HopType.SingleHop, .MultiHopEntry, .MultiHopExit].filterMap d.m_connections).any
      fun connection => (connection.checkHandshake (getPeerStatus d.platform)).1.m_date.isNone with
  | true => simp
  | false => simp

theorem connections_checkHandshake :
    (d.checkHandshake getPeerStatus).connections = d.connections.map fun connection =>
      (connection.checkHandshake (getPeerStatus d.platform)).1 := by
  rw [checkHandshake_eq, connections, connections, map_filterMap]

def statusReply : QJsonObject :=
  (d.getStatus interfaceExists getPeerStatus dates).insert "type" (.string "status")

/-- The messages for the signals; a failed activation is not passed on. -/
def signalMessage : Signal → Option QJsonObject
  | .connected pubkey =>
      some (insert [("type", .string "connected")] "pubkey" (.string pubkey))
  | .activationFailure => none
  | .disconnected => some [("type", .string "disconnected")]

end Daemon

inductive DaemonState
  | eUnknown | eInitializing | eReady | eDisconnected
  deriving DecidableEq

inductive LocalSocketState
  | unconnected | connecting | connected
  deriving DecidableEq

inductive ControllerSignal
  | initialized (status connected : Bool) (connectionDate : Option ℤ)
  | connected (pubkey : String)
  | disconnected
  | statusUpdated (serverIpv4Gateway deviceIpv4Address : String) (txBytes rxBytes : ℚ)
  deriving DecidableEq

structure LocalSocketController where
  m_daemonState : DaemonState := .eUnknown
  m_socket : LocalSocketState := .unconnected
  m_initializingTimer : Bool := false
  m_initializingRetry : ℕ := 0
  signals : List ControllerSignal := []

namespace LocalSocketController

def MAX_CONNECTION_RETRY : ℕ := 10

variable (signal : ControllerSignal)

def emit (c : LocalSocketController) : LocalSocketController :=
  { c with signals := c.signals ++ [signal] }

def disconnectInternal (c : LocalSocketController) : LocalSocketController :=
  { c with m_daemonState := .eReady, m_initializingRetry := 0, m_initializingTimer := false }
    |>.emit .disconnected

/-- The socket is not connected after an error. -/
def errorOccurred (c : LocalSocketController) : LocalSocketController :=
  let c := { c with m_socket := .unconnected }
  if c.m_daemonState = .eInitializing then
    if c.m_initializingRetry < MAX_CONNECTION_RETRY then
      { c with m_initializingRetry := c.m_initializingRetry + 1, m_initializingTimer := true }
    else (c.emit (.initialized false false none)).disconnectInternal
  else c.disconnectInternal

def initializeInternal (c : LocalSocketController) : LocalSocketController :=
  { c with m_daemonState := .eInitializing, m_socket := .connecting, m_initializingTimer := false }

def initializeClient (c : LocalSocketController) : LocalSocketController :=
  { c with m_initializingRetry := 0 }.initializeInternal

variable {σ : Type} (interfaceExists : σ → Bool) (getPeerStatus : σ → List PeerStatus)
  (dates : DateFormat)

variable (obj : QJsonObject)

def parseFirstStatus (c : LocalSocketController) : LocalSocketController :=
  let c := { c with m_daemonState := .eReady }
  match obj.value "connected" with
  | .bool false => c.emit (.initialized true false none)
  | .bool true =>
      match obj.value "date" with
      | .string date =>
          match dates.fromText date with
          | none => c
          | some datetime => c.emit (.initialized true true (some datetime))
      | _ => c
  | _ => c

def parseStatus (c : LocalSocketController) : LocalSocketController :=
  match obj.value "serverIpv4Gateway", obj.value "deviceIpv4Address", obj.value "txBytes",
    obj.value "rxBytes" with
  | .string gateway, .string address, .double txBytes, .double rxBytes =>
      c.emit (.statusUpdated gateway address txBytes rxBytes)
  | _, _, _, _ => c

/-- Logs are handed to whoever asked for them. -/
def parseCommand (c : LocalSocketController) : LocalSocketController :=
  match obj.value "type" with
  | .string type =>
      if c.m_daemonState = .eInitializing ∧ type = "status" then c.parseFirstStatus dates obj
      else if c.m_daemonState ≠ .eReady then c
      else if type = "status" then c.parseStatus obj
      else if type = "disconnected" then c.disconnectInternal
      else if type = "connected" then
        match obj.value "pubkey" with
        | .string pubkey => c.emit (.connected pubkey)
        | _ => c
      else c
  | _ => c

/-- What happens to a client. A status is that of the daemon at the time of the reply. -/
inductive Event (σ : Type)
  | error
  | timeout
  | daemonConnected
  | status (d : Daemon σ)
  | signal (signal : Signal)
  | backendFailure
  | logs (text : String)

/-- A message can come only through a socket that is connected. -/
def receive (c : LocalSocketController) : LocalSocketController :=
  if c.m_socket = .connected then c.parseCommand dates obj else c

def step (c : LocalSocketController) : Event σ → LocalSocketController
  | .error => c.errorOccurred
  | .timeout => if c.m_initializingTimer then c.initializeInternal else c
  | .daemonConnected => if c.m_socket = .connecting then { c with m_socket := .connected } else c
  | .status d => c.receive dates (d.statusReply interfaceExists getPeerStatus dates)
  | .signal signal =>
      match signalMessage signal with
      | none => c
      | some obj => c.receive dates obj
  | .backendFailure => c.receive dates [("type", .string "backendFailure")]
  | .logs text => c.receive dates (insert [("type", .string "logs")] "logs" (.string text))

def run (events : List (Event σ)) : LocalSocketController :=
  events.foldl (step interfaceExists getPeerStatus dates) (initializeClient {})

def isInitialized : ControllerSignal → Bool
  | .initialized .. => true
  | _ => false

def initializedSignals (c : LocalSocketController) : List ControllerSignal :=
  c.signals.filter isInitialized

/-- The signal says whether the tunnel is up, or that there is no daemon. -/
def Tells : Event σ → ControllerSignal → Prop
  | .status d, signal => ∃ date, signal =
      .initialized true (d.reported interfaceExists getPeerStatus).isSome date
  | _, signal => signal = .initialized false false none

variable (event : Event σ)

/-- The status of a tunnel that is up without a handshake yet. -/
def AwaitsHandshake : Prop :=
  ∃ d connection status, event = .status d ∧
    d.reported interfaceExists getPeerStatus = some (connection, status) ∧ connection.m_date = none

variable (d : Daemon σ)

def answer : Option ControllerSignal :=
  match d.reported interfaceExists getPeerStatus with
  | none => some (.initialized true false none)
  | some (connection, _) =>
      (connection.m_date.bind fun date => dates.fromText (dates.toText date)).map fun date =>
        .initialized true true (some date)

def outcome : Event σ → Option ControllerSignal
  | .status d => answer interfaceExists getPeerStatus dates d
  | _ => some (.initialized false false none)

structure Initializing (c : LocalSocketController) : Prop where
  state : c.m_daemonState = .eInitializing
  quiet : c.initializedSignals = []
  timer : c.m_initializingTimer = true → c.m_socket = .unconnected

structure Settled (c : LocalSocketController) : Prop where
  state : c.m_daemonState = .eReady
  timer : c.m_initializingTimer = false

variable {interfaceExists getPeerStatus dates} {c : LocalSocketController}

@[simp] theorem initializedSignals_emit :
    (c.emit signal).initializedSignals =
      c.initializedSignals ++ if isInitialized signal then [signal] else [] := by
  rw [initializedSignals, emit, filter_append, filter_singleton]
  cases isInitialized signal <;> rfl

theorem initializedSignals_disconnectInternal :
    c.disconnectInternal.initializedSignals = c.initializedSignals := by
  rw [disconnectInternal, initializedSignals_emit]
  exact append_nil _

theorem value_type_statusReply :
    (d.statusReply interfaceExists getPeerStatus dates).value "type" = .string "status" :=
  value_insert_self

theorem value_connected_statusReply :
    (d.statusReply interfaceExists getPeerStatus dates).value "connected" =
      .bool (d.reported interfaceExists getPeerStatus).isSome := by
  unfold statusReply getStatus
  cases d.reported interfaceExists getPeerStatus with
  | none => rfl
  | some report => simp

theorem value_date_statusReply {d : Daemon σ} {connection : ConnectionState} {status : PeerStatus}
    (h : d.reported interfaceExists getPeerStatus = some (connection, status)) :
    (d.statusReply interfaceExists getPeerStatus dates).value "date" =
      .string ((connection.m_date.map dates.toText).getD "") := by
  unfold statusReply getStatus
  rw [h]
  simp

theorem parseFirstStatus_statusReply :
    c.parseFirstStatus dates (d.statusReply interfaceExists getPeerStatus dates) =
      { c with m_daemonState := .eReady,
               signals := c.signals ++ (answer interfaceExists getPeerStatus dates d).toList } := by
  unfold parseFirstStatus answer
  rw [value_connected_statusReply]
  cases hreported : d.reported interfaceExists getPeerStatus with
  | none => rfl
  | some report =>
    obtain ⟨connection, status⟩ := report
    rw [value_date_statusReply hreported]
    cases hdate : connection.m_date with
    | none => simp [hdate, dates.fromText_empty]
    | some date => cases htext : dates.fromText (dates.toText date) <;> simp [hdate, htext, emit]

theorem Initializing.receive (h : Initializing c) {obj : QJsonObject} {type : String}
    (htype : obj.value "type" = .string type) (hne : type ≠ "status") :
    Initializing (c.receive dates obj) := by
  have hready : c.m_daemonState ≠ .eReady := by simp [h.state]
  have hparse : c.parseCommand dates obj = c := by
    rw [parseCommand, htype]
    dsimp only
    rw [if_neg fun h => hne h.2, if_pos hready]
  rw [LocalSocketController.receive, hparse, ite_self]
  exact h

theorem value_type_insert {type key : String} {v : QJsonValue} (h : "type" ≠ key) :
    (insert [("type", .string type)] key v).value "type" = .string type :=
  value_insert_of_ne h

theorem filter_answer :
    (answer interfaceExists getPeerStatus dates d).toList.filter isInitialized =
      (answer interfaceExists getPeerStatus dates d).toList := by
  unfold answer
  split
  · rfl
  · rename_i connection _ _
    cases connection.m_date.bind fun date => dates.fromText (dates.toText date) <;> rfl

variable (interfaceExists getPeerStatus dates)

theorem Initializing.step (h : Initializing c) (event : Event σ) :
    Initializing (step interfaceExists getPeerStatus dates c event) ∨
    Settled (step interfaceExists getPeerStatus dates c event) ∧
      (step interfaceExists getPeerStatus dates c event).initializedSignals =
        (outcome interfaceExists getPeerStatus dates event).toList := by
  have hquiet : c.signals.filter isInitialized = [] := h.quiet
  cases event with
  | error =>
    by_cases hretry : c.m_initializingRetry < MAX_CONNECTION_RETRY
    · left
      rw [LocalSocketController.step, errorOccurred, if_pos h.state, if_pos hretry]
      exact ⟨h.state, h.quiet, fun _ => rfl⟩
    · right
      rw [LocalSocketController.step, errorOccurred, if_pos h.state, if_neg hretry]
      refine ⟨⟨rfl, rfl⟩, ?_⟩
      change (c.signals ++ [_] ++ [_]).filter isInitialized = _
      rw [filter_append, filter_append, hquiet]
      rfl
  | timeout =>
    left
    rw [LocalSocketController.step]
    split_ifs with htimer
    · exact ⟨rfl, h.quiet, fun h => absurd h Bool.false_ne_true⟩
    · exact h
  | daemonConnected =>
    left
    rw [LocalSocketController.step]
    split_ifs with hsocket
    · refine ⟨h.state, h.quiet, fun htimer => ?_⟩
      rw [h.timer htimer] at hsocket
      cases hsocket
    · exact h
  | status d =>
    rw [LocalSocketController.step, LocalSocketController.receive]
    split_ifs with hsocket
    · right
      have htimer : c.m_initializingTimer = false := by
        by_contra htrue
        rw [h.timer (by simpa using htrue)] at hsocket
        cases hsocket
      rw [parseCommand, value_type_statusReply]
      dsimp only
      rw [if_pos ⟨h.state, rfl⟩, parseFirstStatus_statusReply]
      refine ⟨⟨rfl, htimer⟩, ?_⟩
      change (c.signals ++ _).filter isInitialized = _
      rw [filter_append, hquiet, filter_answer]
      rfl
    · exact Or.inl h
  | signal signal =>
    left
    cases signal with
    | connected pubkey => exact h.receive (value_type_insert (by decide)) (by decide)
    | activationFailure => exact h
    | disconnected => exact h.receive rfl (by decide)
  | backendFailure => exact Or.inl (h.receive rfl (by decide))
  | logs text => exact Or.inl (h.receive (value_type_insert (by decide)) (by decide))

theorem Settled.parseCommand (h : Settled c) (obj : QJsonObject) :
    Settled (c.parseCommand dates obj) ∧
      (c.parseCommand dates obj).initializedSignals = c.initializedSignals := by
  have hsame : Settled c ∧ c.initializedSignals = c.initializedSignals := ⟨h, rfl⟩
  have hemit : ∀ signal, isInitialized signal = false →
      Settled (c.emit signal) ∧ (c.emit signal).initializedSignals = c.initializedSignals := by
    intro signal hsignal
    refine ⟨⟨h.state, h.timer⟩, ?_⟩
    rw [initializedSignals_emit, hsignal]
    exact append_nil _
  unfold LocalSocketController.parseCommand
  split
  · split_ifs with hfirst hready hstatus hdisconnected hconnected
    · rw [h.state] at hfirst
      cases hfirst.1
    · exact hsame
    · unfold parseStatus
      split
      · exact hemit _ rfl
      · exact hsame
    · exact ⟨⟨rfl, rfl⟩, initializedSignals_disconnectInternal⟩
    · split
      · exact hemit _ rfl
      · exact hsame
    · exact hsame
  · exact hsame

theorem Settled.step (h : Settled c) (event : Event σ) :
    Settled (step interfaceExists getPeerStatus dates c event) ∧
      (step interfaceExists getPeerStatus dates c event).initializedSignals =
        c.initializedSignals := by
  have hreceive : ∀ obj, Settled (c.receive dates obj) ∧
      (c.receive dates obj).initializedSignals = c.initializedSignals := by
    intro obj
    unfold LocalSocketController.receive
    split_ifs
    · exact h.parseCommand dates obj
    · exact ⟨h, rfl⟩
  cases event with
  | error =>
    rw [LocalSocketController.step, errorOccurred, if_neg (by simp [h.state])]
    exact ⟨⟨rfl, rfl⟩, initializedSignals_disconnectInternal⟩
  | timeout =>
    rw [LocalSocketController.step, if_neg (by simp [h.timer])]
    exact ⟨h, rfl⟩
  | daemonConnected =>
    rw [LocalSocketController.step]
    split_ifs
    · exact ⟨⟨h.state, h.timer⟩, rfl⟩
    · exact ⟨h, rfl⟩
  | status d => exact hreceive _
  | signal signal =>
    rw [LocalSocketController.step]
    split
    · exact ⟨h, rfl⟩
    · exact hreceive _
  | backendFailure => exact hreceive _
  | logs text => exact hreceive _

theorem settled_foldl (h : Settled c) (events : List (Event σ)) :
    (events.foldl (step interfaceExists getPeerStatus dates) c).initializedSignals =
      c.initializedSignals := by
  induction events generalizing c with
  | nil => rfl
  | cons event events ih =>
    obtain ⟨hsettled, hsignals⟩ := h.step interfaceExists getPeerStatus dates event
    rw [foldl_cons, ih hsettled, hsignals]

theorem initializing_or_settled_foldl (h : Initializing c ∨ Settled c) (events : List (Event σ)) :
    Initializing (events.foldl (step interfaceExists getPeerStatus dates) c) ∨
      Settled (events.foldl (step interfaceExists getPeerStatus dates) c) := by
  induction events generalizing c with
  | nil => exact h
  | cons event events ih =>
    apply ih
    rcases h with h | h
    · exact (h.step interfaceExists getPeerStatus dates event).imp_right And.left
    · exact Or.inr (h.step interfaceExists getPeerStatus dates event).1

theorem initializing_initializeClient : Initializing (initializeClient {}) :=
  ⟨rfl, rfl, fun h => absurd h Bool.false_ne_true⟩

variable {interfaceExists getPeerStatus dates}

theorem initializing_run {events : List (Event σ)}
    (h : (run interfaceExists getPeerStatus dates events).m_daemonState = .eInitializing) :
    Initializing (run interfaceExists getPeerStatus dates events) := by
  have hrun := initializing_or_settled_foldl interfaceExists getPeerStatus dates
    (Or.inl initializing_initializeClient) events
  apply hrun.resolve_right
  intro hsettled
  exact absurd (h.symm.trans hsettled.state) (by decide)

theorem outcome_iff :
    (∃ signal, outcome interfaceExists getPeerStatus dates event = some signal ∧
      Tells interfaceExists getPeerStatus event signal) ↔
    ¬ AwaitsHandshake interfaceExists getPeerStatus event := by
  cases event with
  | status d =>
    cases hreported : d.reported interfaceExists getPeerStatus with
    | none =>
      refine iff_of_true ⟨.initialized true false none, ?_, none, ?_⟩ ?_
      · rw [outcome, answer, hreported]
      · rw [hreported]
        rfl
      · rintro ⟨_, _, _, ⟨⟩, hsome, -⟩
        rw [hreported] at hsome
        cases hsome
    | some report =>
      obtain ⟨connection, status⟩ := report
      rw [outcome, answer, hreported]
      cases hdate : connection.m_date with
      | none =>
        refine iff_of_false ?_ (not_not.mpr ⟨d, connection, status, rfl, hreported, hdate⟩)
        rintro ⟨signal, hsignal, -⟩
        dsimp only at hsignal
        rw [hdate] at hsignal
        cases hsignal
      | some date =>
        obtain ⟨read, hread⟩ := Option.isSome_iff_exists.mp (dates.isSome_fromText_toText date)
        refine iff_of_true ⟨.initialized true true (some read), ?_, some read, ?_⟩ ?_
        · simp [hdate, hread]
        · rw [hreported]
          rfl
        · rintro ⟨_, _, _, ⟨⟩, hsome, hnone⟩
          rw [hreported] at hsome
          obtain ⟨rfl, -⟩ := Prod.mk.inj (Option.some.inj hsome)
          rw [hdate] at hnone
          cases hnone
  | _ =>
    refine iff_of_true ⟨_, rfl, rfl⟩ ?_
    rintro ⟨_, _, _, hstatus, -⟩
    cases hstatus

/-- The signal is emitted once, unless the handshake was still awaited. -/
theorem initialized_once_iff {before : List (Event σ)} {event : Event σ} (after : List (Event σ))
    (hbefore : (run interfaceExists getPeerStatus dates before).m_daemonState = .eInitializing)
    (hevent : (run interfaceExists getPeerStatus dates (before ++ [event])).m_daemonState ≠
      .eInitializing) :
    (∃ signal, (run interfaceExists getPeerStatus dates
        (before ++ event :: after)).initializedSignals = [signal] ∧
      Tells interfaceExists getPeerStatus event signal) ↔
    ¬ AwaitsHandshake interfaceExists getPeerStatus event := by
  have hstep := (initializing_run hbefore).step interfaceExists getPeerStatus dates event
  have hrun : run interfaceExists getPeerStatus dates (before ++ [event]) =
      step interfaceExists getPeerStatus dates
        (run interfaceExists getPeerStatus dates before) event := by
    rw [run, foldl_append]
    rfl
  rw [← hrun] at hstep
  obtain ⟨hsettled, hsignals⟩ := hstep.resolve_left fun h => hevent h.state
  have hafter : (run interfaceExists getPeerStatus dates
      (before ++ event :: after)).initializedSignals =
        (outcome interfaceExists getPeerStatus dates event).toList := by
    rw [← hsignals, ← settled_foldl interfaceExists getPeerStatus dates hsettled after]
    simp only [run, foldl_append, foldl_cons, foldl_nil]
  rw [hafter]
  simp only [Option.toList_eq_singleton_iff]
  exact outcome_iff event

def epochOnly : DateFormat where
  toText _ := "Thu Jan 1 00:00:00 1970"
  fromText text := if text = "Thu Jan 1 00:00:00 1970" then some 0 else none
  isSome_fromText_toText _ := rfl
  fromText_empty := by decide

theorem initialized_idle :
    let run := run (fun _ => true) (fun peers : List PeerStatus => peers) epochOnly
    (run [.daemonConnected]).m_daemonState = .eInitializing ∧
    (run [.daemonConnected, .status (initial [])]).m_daemonState ≠ .eInitializing ∧
    ∃ signal, (run [.daemonConnected, .status (initial [])]).initializedSignals = [signal] ∧
      Tells (fun _ => true) (fun peers => peers) (.status (initial [])) signal := by
  have hbefore : (run (fun _ => true) (fun peers : List PeerStatus => peers) epochOnly
      [.daemonConnected]).m_daemonState = .eInitializing := rfl
  have hevent : (run (fun _ => true) (fun peers : List PeerStatus => peers) epochOnly
      ([.daemonConnected] ++ [.status (initial [])])).m_daemonState ≠ .eInitializing := by
    decide
  refine ⟨hbefore, hevent, (initialized_once_iff [] hbefore hevent).mpr ?_⟩
  rintro ⟨_, _, _, ⟨⟩, hreported, -⟩
  cases hreported

def pending : Daemon (List PeerStatus) :=
  ((initial [{ m_pubkey := "key" }]).register
    { m_hopType := .SingleHop, m_privateKey := "", m_deviceIpv4Address := "10.8.1.2",
      m_deviceIpv6Address := "", m_serverIpv4Gateway := "10.8.1.1", m_serverIpv6Gateway := "",
      m_serverPublicKey := "key", m_serverIpv4AddrIn := some "192.0.2.1", m_serverPskKey := none,
      m_serverIpv6AddrIn := none, m_dnsServer := "1.1.1.1", m_allowedIPAddressRanges := [],
      m_excludedAddresses := [], m_killSwitchEnabled := true }).checkHandshake fun peers => peers

theorem initialized_pending :
    let run := run (fun _ => true) (fun peers : List PeerStatus => peers) epochOnly
    (run [.daemonConnected, .status pending]).m_daemonState = .eReady ∧
    ∀ after, (run ([.daemonConnected, .status pending] ++ after)).initializedSignals = [] := by
  have hsettled : Settled (run (fun _ => true) (fun peers : List PeerStatus => peers) epochOnly
      [.daemonConnected, .status pending]) := ⟨by decide, by decide⟩
  refine ⟨hsettled.state, ?_⟩
  intro after
  rw [run, foldl_append]
  exact (settled_foldl _ _ _ hsettled after).trans (by decide)

end LocalSocketController

end AmneziaVpn
