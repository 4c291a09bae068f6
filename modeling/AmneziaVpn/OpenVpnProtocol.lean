import AmneziaVpn.QtText

/-!
# The OpenVPN protocol of the desktop client

`stop` is meant to end both when a connection is being made or is up. It first sets the state to
`disconnecting` and then looks at the state, so it never finds one of these states.
-/

namespace AmneziaVpn

open QString

inductive Vpn.ConnectionState
  | unknown | disconnected | preparing | connecting | connected | disconnecting | reconnecting | error
  deriving DecidableEq

/-- The codes that `OpenVpnProtocol::start` sets. -/
inductive OpenVpnErrorCode
  | noError | openVpnExecutableMissing | openVpnConfigMissing | openVpnManagementServerError
  | amneziaServiceConnectionFailed
  deriving DecidableEq

/-- It is signalled when `SIGTERM` is written to its management connection. -/
structure PrivilegedProcess where
  started : Bool := false
  signalled : Bool := false
  closed : Bool := false
  deriving DecidableEq

/-- Whether the server listens, and whether the socket of the management connection is open. -/
structure ManagementServer where
  listening : Bool := false
  socketOpen : Bool := false
  deriving DecidableEq

namespace ManagementServer

variable (m : ManagementServer)

def isOpen : Bool := m.socketOpen

def stop : ManagementServer := { m with listening := false }

/-- `listens` is whether the port can be had. -/
def start (listens : Bool) : Bool × ManagementServer :=
  (listens, { m with listening := listens })

def onNewConnection : ManagementServer :=
  if m.listening then ⟨false, true⟩ else m

def onSocketDisconnected : ManagementServer := { m with socketOpen := false }

/-- The number of bytes written, where `write` is what the socket returns. -/
def writeCommand (write : String → ℤ) (message : String) : ℤ :=
  if !m.isOpen then 0 else write (message ++ "\n")

end ManagementServer

structure OpenVpnProtocol where
  connectionState : Vpn.ConnectionState := .unknown
  lastError : OpenVpnErrorCode := .noError
  openVpnProcess : Option PrivilegedProcess := none
  managementServer : ManagementServer := {}
  deriving DecidableEq

/-- What `start` finds. -/
structure StartConditions where
  execExists : Bool
  configExists : Bool
  listens : Bool
  processCreated : Bool
  replicaInitialized : Bool

namespace OpenVpnProtocol

def setConnectionState (s : OpenVpnProtocol) (state : Vpn.ConnectionState) : OpenVpnProtocol :=
  if s.connectionState = state then s
  else if s.connectionState = .disconnected ∧ state = .disconnecting then s
  else { s with connectionState := state }

def setLastError (s : OpenVpnProtocol) (lastError : OpenVpnErrorCode) : OpenVpnProtocol :=
  let s := { s with lastError }
  if lastError ≠ .noError then s.setConnectionState .error else s

def updateProcess (s : OpenVpnProtocol) (f : PrivilegedProcess → PrivilegedProcess) :
    OpenVpnProtocol :=
  { s with openVpnProcess := s.openVpnProcess.map f }

def killOpenVpnProcess (s : OpenVpnProtocol) : OpenVpnProtocol :=
  s.updateProcess ({ · with closed := true })

/-- The result is true when the number of bytes is not zero, as it is when writing fails. -/
def sendTermSignal (s : OpenVpnProtocol) (write : String → ℤ) : Bool × OpenVpnProtocol :=
  let bytesWritten := s.managementServer.writeCommand write "signal SIGTERM"
  (bytesWritten ≠ 0,
    if bytesWritten > 0 then s.updateProcess ({ · with signalled := true }) else s)

def stop (s : OpenVpnProtocol) (write : String → ℤ) : OpenVpnProtocol :=
  let s := s.setConnectionState .disconnecting
  let s :=
    if s.connectionState = .preparing ∨ s.connectionState = .connecting ∨
        s.connectionState = .connected ∨ s.connectionState = .reconnecting then
      let (sent, s) := s.sendTermSignal write
      let s := if !sent then s.killOpenVpnProcess else s
      { s with managementServer := s.managementServer.stop }
    else s
  s.setConnectionState .disconnected

def start (s : OpenVpnProtocol) (write : String → ℤ) (c : StartConditions) : OpenVpnProtocol :=
  let s := s.stop write
  if !c.execExists then s.setLastError .openVpnExecutableMissing
  else if !c.configExists then s.setLastError .openVpnConfigMissing
  else
    let (started, managementServer) := s.managementServer.start c.listens
    let s := { s with managementServer }
    if !started then s.setLastError .openVpnManagementServerError
    else
      let s := s.setConnectionState .connecting
      let s := { s with openVpnProcess := if c.processCreated then some {} else none }
      if !c.processCreated then s.setLastError .amneziaServiceConnectionFailed
      else if !c.replicaInitialized then s.setLastError .amneziaServiceConnectionFailed
      else s.updateProcess ({ · with started := true })

/-- What a line of the management connection does to the state. -/
def onLine (s : OpenVpnProtocol) (line : String) : OpenVpnProtocol :=
  if contains line ">INFO:OpenVPN Management Interface" then s
  else if startsWith line ">STATE" then
    if contains line "CONNECTED,SUCCESS" then s.setConnectionState .connected
    else if contains line "EXITING,SIGTER" then s.setConnectionState .disconnecting
    else if contains line "RECONNECTING" then s.setConnectionState .reconnecting
    else s
  else s

/-- Lines with a new state are not looked at for an error. -/
def stopsReading (line : String) : Bool :=
  line = "" || contains line "FATAL" && !(startsWith line ">STATE" &&
    !contains line ">INFO:OpenVPN Management Interface" &&
    (contains line "CONNECTED,SUCCESS" || contains line "EXITING,SIGTER" ||
      contains line "RECONNECTING"))

/-- The lines are simplified texts. -/
def onReadyReadDataFromManagementServer (s : OpenVpnProtocol) : List String → OpenVpnProtocol
  | [] => s
  | line :: lines =>
      let s := s.onLine line
      if stopsReading line then s else s.onReadyReadDataFromManagementServer lines

end OpenVpnProtocol

inductive OpenVpnEvent
  | start (write : String → ℤ) (conditions : StartConditions)
  | stop (write : String → ℤ)
  | newConnection
  | socketDisconnected
  | readyRead (lines : List String)
  | processFinished

namespace OpenVpnProtocol

variable (s : OpenVpnProtocol)

def step : OpenVpnEvent → OpenVpnProtocol
  | .start write conditions => s.start write conditions
  | .stop write => s.stop write
  | .newConnection => { s with managementServer := s.managementServer.onNewConnection }
  | .socketDisconnected => { s with managementServer := s.managementServer.onSocketDisconnected }
  | .readyRead lines =>
      if s.managementServer.isOpen then s.onReadyReadDataFromManagementServer lines else s
  | .processFinished =>
      if (s.openVpnProcess.map (·.started)).getD false then s.setConnectionState .disconnected else s

variable (events : List OpenVpnEvent)

def run : OpenVpnProtocol := events.foldl step {}

def Started : Prop := ∃ p, s.openVpnProcess = some p ∧ p.started = true

def ProcessEnded : Prop :=
  ∃ p, s.openVpnProcess = some p ∧ (p.signalled = true ∨ p.closed = true)

def Ended : Prop :=
  s.ProcessEnded ∧ s.managementServer.listening = false

variable (state : Vpn.ConnectionState)

@[simp] theorem openVpnProcess_setConnectionState :
    (s.setConnectionState state).openVpnProcess = s.openVpnProcess := by
  unfold setConnectionState
  split_ifs <;> rfl

@[simp] theorem managementServer_setConnectionState :
    (s.setConnectionState state).managementServer = s.managementServer := by
  unfold setConnectionState
  split_ifs <;> rfl

@[simp] theorem openVpnProcess_setLastError (e : OpenVpnErrorCode) :
    (s.setLastError e).openVpnProcess = s.openVpnProcess := by
  unfold setLastError
  split_ifs
  · exact openVpnProcess_setConnectionState _ _
  · rfl

theorem connectionState_disconnecting :
    (s.setConnectionState .disconnecting).connectionState = .disconnecting ∨
      (s.setConnectionState .disconnecting).connectionState = .disconnected := by
  unfold setConnectionState
  split_ifs with hsame hdisconnected
  · exact .inl hsame
  · exact .inr hdisconnected.1
  · exact .inl rfl

variable (write : String → ℤ)

theorem stop_eq :
    s.stop write = (s.setConnectionState .disconnecting).setConnectionState .disconnected := by
  rw [stop, if_neg]
  rcases connectionState_disconnecting s with h | h <;> simp [h]

@[simp] theorem openVpnProcess_stop : (s.stop write).openVpnProcess = s.openVpnProcess := by
  simp [stop_eq]

@[simp] theorem managementServer_stop : (s.stop write).managementServer = s.managementServer := by
  simp [stop_eq]

theorem ended_stop : (s.stop write).Ended ↔ s.Ended := by
  rw [Ended, ProcessEnded, openVpnProcess_stop, managementServer_stop]
  rfl

@[simp] theorem openVpnProcess_onLine (line : String) :
    (s.onLine line).openVpnProcess = s.openVpnProcess := by
  unfold onLine
  split_ifs <;> simp

@[simp] theorem openVpnProcess_onReadyRead (lines : List String) :
    (s.onReadyReadDataFromManagementServer lines).openVpnProcess = s.openVpnProcess := by
  induction lines generalizing s with
  | nil => rfl
  | cons line lines ih =>
    rw [onReadyReadDataFromManagementServer]
    split_ifs
    · exact openVpnProcess_onLine s line
    · rw [ih, openVpnProcess_onLine]

/-- The process after `start` is the one before, or none, or a new one. -/
theorem openVpnProcess_start (c : StartConditions) :
    (s.start write c).openVpnProcess = s.openVpnProcess ∨
      (s.start write c).openVpnProcess = none ∨
      ∃ started, (s.start write c).openVpnProcess = some ⟨started, false, false⟩ := by
  obtain ⟨execExists, configExists, listens, processCreated, replicaInitialized⟩ := c
  cases execExists with
  | false => exact .inl (by simp [start])
  | true =>
    cases configExists with
    | false => exact .inl (by simp [start])
    | true =>
      cases listens with
      | false => exact .inl (by simp [start, ManagementServer.start])
      | true =>
        cases processCreated with
        | false => exact .inr (.inl (by simp [start, ManagementServer.start]))
        | true =>
          refine .inr (.inr ⟨replicaInitialized, ?_⟩)
          cases replicaInitialized with
          | false => simp [start, ManagementServer.start]
          | true => simp [start, ManagementServer.start, updateProcess]

theorem not_processEnded_step {s : OpenVpnProtocol} (h : ¬ s.ProcessEnded) (e : OpenVpnEvent) :
    ¬ (s.step e).ProcessEnded := by
  have hkept : ∀ s' : OpenVpnProtocol, s'.openVpnProcess = s.openVpnProcess → ¬ s'.ProcessEnded := by
    intro s' hs'
    rw [ProcessEnded, hs']
    exact h
  cases e with
  | start write conditions =>
    rcases openVpnProcess_start s write conditions with hp | hp | ⟨started, hp⟩
    · exact hkept _ hp
    · simp [ProcessEnded, step, hp]
    · simp [ProcessEnded, step, hp]
  | stop write => exact hkept _ (openVpnProcess_stop s write)
  | newConnection => exact hkept _ rfl
  | socketDisconnected => exact hkept _ rfl
  | readyRead lines =>
    rw [step]
    split_ifs
    · exact hkept _ (openVpnProcess_onReadyRead s lines)
    · exact h
  | processFinished =>
    rw [step]
    split_ifs
    · exact hkept _ (openVpnProcess_setConnectionState s _)
    · exact h

theorem not_processEnded_run : ¬ (run events).ProcessEnded := by
  have hrun : ∀ s : OpenVpnProtocol, ¬ s.ProcessEnded → ¬ (events.foldl step s).ProcessEnded := by
    induction events with
    | nil => exact fun s h => h
    | cons e events ih => exact fun s h => ih _ (not_processEnded_step h e)
  exact hrun {} (by simp [ProcessEnded])

/-- `stop` ends no process that was started. -/
theorem stop_ends_iff (write : String → ℤ) :
    (∀ s : OpenVpnProtocol, (s.stop write).Ended ↔ s.Ended) ∧
      ∀ events, ¬ ((run events).Started ∧ ((run events).stop write).Ended) := by
  refine ⟨fun s => ended_stop s write, ?_⟩
  rintro events ⟨-, hended⟩
  exact not_processEnded_run events ((ended_stop _ write).mp hended).1

def connectedSession : List OpenVpnEvent :=
  [.start (fun _ => 1) ⟨true, true, true, true, true⟩, .newConnection,
    .readyRead [">INFO:OpenVPN Management Interface", ">STATE:1,CONNECTED,SUCCESS"]]

/-- Stopping it leaves the process running, without a signal. -/
theorem stop_connectedSession :
    (run connectedSession).connectionState = .connected ∧ (run connectedSession).Started ∧
      ((run connectedSession).stop fun _ => 15).openVpnProcess = some ⟨true, false, false⟩ ∧
      ¬ ((run connectedSession).stop fun _ => 15).Ended := by
  have hrun : run connectedSession =
      ⟨.connected, .noError, some ⟨true, false, false⟩, ⟨false, true⟩⟩ := by decide +kernel
  rw [hrun]
  refine ⟨rfl, ⟨_, rfl, rfl⟩, rfl, ?_⟩
  rintro ⟨⟨p, hp, hended⟩, -⟩
  cases hp
  simp at hended

end OpenVpnProtocol

end AmneziaVpn
