import AmneziaVpn.ConnectionJobs

/-!
# Points of the jobs

What a coroutine can do before it enters the protocol, which disconnections have still to go through
it, and that a coroutine is at the entrance as long as it has not gone past its join.
-/

namespace AmneziaVpn.AmneziaVpnService

inductive Request
  | connect (r : Service.ConnectRequest)
  | disconnect
  | reconnect
  deriving DecidableEq

/-- How far a coroutine has come after its join. -/
inductive Point
  | entered
  /-- The handle was found to be closed. -/
  | checked
  | turnedOn
  /-- `start` has returned. -/
  | succeeded
  /-- An exception was thrown. -/
  | failed
  /-- The handle was found to be open. -/
  | closing
  | turnedOff
  /-- `stopVpn` has returned, and the state is waited for. -/
  | stopped
  deriving DecidableEq

/-- The service, the tunnel of its protocol, and the request that was made last. It has `passed` if it
has looked at the state and is going to be carried out. -/
structure WireguardService extends Service where
  tunnelHandle : ℤ
  point : ℕ → Point
  lastRequest : Option Request
  passed : Bool

/-- What the system and the library do in a step. -/
structure Outcome where
  configParses : Bool
  established : Bool
  handle : ℤ
  socketsProtected : Bool
  timedOut : Bool

def Service.passes (s : Service) : Request → Bool
  | .connect _ => !decide (s.protocolState = .connected ∨ s.protocolState = .connecting)
  | .disconnect => !decide (s.protocolState = .unknown ∨ s.protocolState = .disconnected ∨
      s.protocolState = .disconnecting)
  | .reconnect => decide (s.protocolState = .connected)

def Service.carryOut (s : Service) : Request → Service
  | .connect r =>
      if r.isValid then { s with protocolState := .connecting }.launch .connection
      else { s with protocolState := .disconnected }
  | .disconnect => { s with protocolState := .disconnecting }.launch .disconnection
  | .reconnect => { s with protocolState := .reconnecting }.launch .reconnection

namespace WireguardService

variable (s : WireguardService)

def request (r : Request) : WireguardService :=
  if s.passed then s else { s with lastRequest := some r, passed := s.passes r }

def act : WireguardService :=
  match s.lastRequest with
  | some r =>
      if s.passed then { s with toService := s.toService.carryOut r, passed := false } else s
  | none => s

variable (i : ℕ)

def start : WireguardService := { s with toService := s.toService.start i }

def resume : WireguardService := { s with toService := s.toService.resume i }

def goTo (p : Point) : WireguardService := { s with point := Function.update s.point i p }

def finish : WireguardService := { s with toService := s.toService.finish i }

variable (o : Outcome)

/-- A step of `Wireguard.startVpn`. An exception ends in `connectionExceptionHandler`. -/
def startVpn : WireguardService :=
  match s.point i with
  | .entered =>
      if o.configParses = false then s.goTo i .failed
      else if s.tunnelHandle ≠ -1 then s.goTo i .succeeded
      else s.goTo i .checked
  | .checked =>
      if o.established = false then s.goTo i .failed
      else { s with tunnelHandle := o.handle }.goTo i .turnedOn
  | .turnedOn =>
      if s.tunnelHandle < 0 ∨ o.socketsProtected = false then
        { s with tunnelHandle := -1 }.goTo i .failed
      else s.goTo i .succeeded
  | .succeeded => { s with protocolState := .connected }.finish i
  | .failed => { s with protocolState := .disconnected }.finish i
  | _ => s

def stopVpn : WireguardService :=
  match s.point i with
  | .entered => if s.tunnelHandle = -1 then s.goTo i .stopped else s.goTo i .closing
  | .closing => { s with tunnelHandle := -1 }.goTo i .turnedOff
  | .turnedOff => { s with protocolState := .disconnected }.goTo i .stopped
  | .stopped => if s.protocolState = .disconnected ∨ o.timedOut then s.finish i else s
  | _ => s

def reconnectVpn : WireguardService := { s with protocolState := .connected }.finish i

def step : WireguardService :=
  match s.jobs[i]? with
  | some ⟨.connection, .running⟩ => s.startVpn i o
  | some ⟨.disconnection, .running⟩ => s.stopVpn i o
  | some ⟨.reconnection, .running⟩ => s.reconnectVpn i
  | _ => s

def AllFinished : Prop := ∀ job ∈ s.jobs, job.status = .finished

instance : Decidable s.AllFinished := inferInstanceAs (Decidable (∀ job ∈ s.jobs, _))

end WireguardService

inductive WireguardEvent
  | request (r : Request)
  | act
  | start (i : ℕ)
  | resume (i : ℕ)
  | step (i : ℕ) (o : Outcome)

def WireguardEvent.run (s : WireguardService) : WireguardEvent → WireguardService
  | request r => s.request r
  | act => s.act
  | start i => s.start i
  | resume i => s.resume i
  | step i o => s.step i o

def WireguardService.initial : WireguardService where
  toService := AmneziaVpnService.initial
  tunnelHandle := -1
  point _ := .entered
  lastRequest := none
  passed := false

open List

namespace Service

variable {s t : Service} {i : ℕ}

theorem Moved.set (h : s.Moved i t) :
    t = s ∨ ∃ kind status status' held, s.jobs[i]? = some ⟨kind, status⟩ ∧ status ≠ .running ∧
      status ≠ .finished ∧ status' ≠ .finished ∧
      t = { s with jobs := s.jobs.set i ⟨kind, status'⟩, held := held } := by
  cases h with
  | stays => exact Or.inl rfl
  | joins hi _ _ =>
    exact Or.inr ⟨_, _, _, _, hi, Status.noConfusion, Status.noConfusion, Status.noConfusion, rfl⟩
  | starts hi _ =>
    exact Or.inr ⟨_, _, _, _, hi, Status.noConfusion, Status.noConfusion, Status.noConfusion, rfl⟩
  | resumes hi _ =>
    exact Or.inr ⟨_, _, _, _, hi, Status.noConfusion, Status.noConfusion, Status.noConfusion, rfl⟩

theorem held_proceed (s : Service) (i : ℕ) {kind : Kind} (h : kind ≠ .disconnection) :
    (s.proceed i kind).held .connectionJob = s.held .connectionJob := by
  cases kind with
  | connection => rfl
  | reconnection => rfl
  | disconnection => exact absurd rfl h

end Service

def Due (jobs : List Job) (point : ℕ → Point) (p : Point) : Prop :=
  ∃ i status, jobs[i]? = some ⟨.disconnection, status⟩ ∧ status ≠ .finished ∧ point i = p

namespace Due

variable {jobs : List Job} {point : ℕ → Point} {p : Point} {i : ℕ} {kind : Kind} {status : Status}

theorem append (h : Due jobs point p) (job : Job) : Due (jobs ++ [job]) point p := by
  obtain ⟨k, status, hk, hstatus, hp⟩ := h
  have hlt := (List.getElem?_eq_some_iff.mp hk).1
  exact ⟨k, status, (getElem?_append_left hlt).trans hk, hstatus, hp⟩

variable {status' : Status}

theorem set (h : Due jobs point p) (hi : jobs[i]? = some ⟨kind, status⟩)
    (hstays : status' = .finished → kind ≠ .disconnection ∨ point i ≠ p) :
    Due (jobs.set i ⟨kind, status'⟩) point p := by
  obtain ⟨k, status'', hk, hstatus, hp⟩ := h
  by_cases hki : k = i
  · subst hki
    obtain ⟨rfl, rfl⟩ := Job.mk.inj (Option.some.inj (hk.symm.trans hi))
    refine ⟨k, status', getElem?_set_self (List.getElem?_eq_some_iff.mp hi).1, ?_, hp⟩
    intro hfinished
    rcases hstays hfinished with hkind | hpoint
    · exact hkind rfl
    · exact hpoint hp
  · exact ⟨k, status'', (getElem?_set_ne (Ne.symm hki)).trans hk, hstatus, hp⟩

theorem update (h : Due jobs point p) (hi : point i ≠ p) (q : Point) :
    Due jobs (Function.update point i q) p := by
  obtain ⟨k, status, hk, hstatus, hp⟩ := h
  have hki : k ≠ i := by
    rintro rfl
    exact hi hp
  exact ⟨k, status, hk, hstatus, (Function.update_of_ne hki q point).trans hp⟩

theorem update_self (hi : jobs[i]? = some ⟨.disconnection, .running⟩) (point : ℕ → Point)
    (q : Point) :
    Due jobs (Function.update point i q) q :=
  ⟨i, .running, hi, Status.noConfusion, Function.update_self i q point⟩

theorem of_update {q : Point} (h : Due jobs (Function.update point i q) p) (hq : q ≠ p) :
    Due jobs point p := by
  obtain ⟨k, status, hk, hstatus, hp⟩ := h
  refine ⟨k, status, hk, hstatus, ?_⟩
  by_cases hki : k = i
  · rw [hki, Function.update_self] at hp
    exact absurd hp hq
  · rwa [Function.update_of_ne hki] at hp

theorem of_set (h : Due (jobs.set i ⟨kind, status'⟩) point p) (hi : jobs[i]? = some ⟨kind, status⟩)
    (hstatus : status ≠ .finished) : Due jobs point p := by
  obtain ⟨k, status'', hk, hunfinished, hp⟩ := h
  rcases Ordered.getElem?_set_cases hk with ⟨rfl, hjob⟩ | ⟨-, hold⟩
  · obtain ⟨rfl, -⟩ := Job.mk.inj hjob
    exact ⟨k, status, hi, hstatus, hp⟩
  · exact ⟨k, status'', hold, hunfinished, hp⟩

theorem not_of_finished (h : ∀ job ∈ jobs, job.status = .finished) : ¬ Due jobs point p := by
  rintro ⟨i, status, hi, hstatus, -⟩
  exact hstatus (h _ (mem_of_getElem? hi))

end Due

/-- Coroutines that have not gone past their join have not entered the protocol. -/
def Fresh (s : WireguardService) : Prop :=
  ∀ i, (∀ job, s.jobs[i]? = some job → job.status ≠ .running ∧ job.status ≠ .finished) →
    s.point i = .entered

namespace Fresh

variable {s : WireguardService}

variable {s' : WireguardService}

theorem of_jobs (h : Fresh s) (hpoint : s'.point = s.point)
    (hjobs : ∀ (i : ℕ) job, s.jobs[i]? = some job → job.status = .running ∨ job.status = .finished → ∃ job', s'.jobs[i]? = some job' ∧ (job'.status = .running ∨ job'.status = .finished))
    : Fresh s' := by
  intro i hi
  rw [hpoint]
  refine h i fun job hjob => ?_
  rw [← not_or]
  intro hpast
  obtain ⟨job', hjob', hpast'⟩ := hjobs i job hjob hpast
  exact not_or.mpr (hi job' hjob') hpast'

theorem launch (h : Fresh s) (kind : Kind) (hpoint : s'.point = s.point)
    (hjobs : s'.jobs = s.jobs ++ [⟨kind, .launched⟩]) : Fresh s' := by
  refine h.of_jobs hpoint fun i job hi hpast => ⟨job, ?_, hpast⟩
  rw [hjobs, getElem?_append_left (List.getElem?_eq_some_iff.mp hi).1, hi]

variable {i : ℕ}

theorem moved {t : Service} (h : Fresh s) (hmoved : s.toService.Moved i t) :
    Fresh { s with toService := t } := by
  rcases hmoved.set with rfl | ⟨kind, status, status', held, hi, hrunning, hfinished, -, rfl⟩
  · exact h
  · refine h.of_jobs rfl fun k job hk hpast => ⟨job, ?_, hpast⟩
    refine (getElem?_set_ne ?_).trans hk
    rintro rfl
    obtain rfl := Option.some.inj (hi.symm.trans hk)
    exact hpast.elim hrunning hfinished

theorem point_of_le (h : Fresh s) (hi : s.jobs.length ≤ i) : s.point i = .entered := by
  refine h i fun job hjob => ?_
  rw [getElem?_eq_none hi] at hjob
  cases hjob

theorem due_launch (h : Fresh s) :
    Due (s.jobs ++ [⟨.disconnection, .launched⟩]) s.point .entered :=
  ⟨_, _, getElem?_concat_length, Status.noConfusion, h.point_of_le le_rfl⟩

theorem withState (h : Fresh s) (state : ProtocolState) :
    Fresh { s with protocolState := state } := h

theorem finish (h : Fresh s) (i : ℕ) : Fresh (s.finish i) := by
  refine h.of_jobs rfl fun k job hk hpast => ?_
  change ∃ job', (s.toService.finish i).jobs[k]? = some job' ∧ _
  unfold Service.finish
  split
  case h_1 kind hi =>
    by_cases hki : k = i
    · subst hki
      exact ⟨_, getElem?_set_self (List.getElem?_eq_some_iff.mp hk).1, Or.inr rfl⟩
    · exact ⟨job, (getElem?_set_ne (Ne.symm hki)).trans hk, hpast⟩
  case h_2 => exact ⟨job, hk, hpast⟩

theorem goTo {kind : Kind} (h : Fresh s) (hi : s.jobs[i]? = some ⟨kind, .running⟩) (p : Point) :
    Fresh (s.goTo i p) := by
  intro k hk
  by_cases hki : k = i
  · subst hki
    exact absurd rfl (hk _ hi).1
  · exact (Function.update_of_ne hki _ _).trans (h k hk)

theorem act (h : Fresh s) : Fresh s.act := by
  unfold WireguardService.act
  split
  case h_1 r _ =>
    split_ifs
    · cases r with
      | connect r =>
        change Fresh { s with toService := ite _ _ _, passed := false }
        split_ifs
        · exact h.launch .connection rfl rfl
        · exact h
      | disconnect => exact h.launch .disconnection rfl rfl
      | reconnect => exact h.launch .reconnection rfl rfl
    · exact h
  case h_2 => exact h

theorem step (h : Fresh s) (i : ℕ) (o : Outcome) : Fresh (s.step i o) := by
  unfold WireguardService.step
  split
  case h_1 hi =>
    unfold WireguardService.startVpn
    split
    · split_ifs <;> exact h.goTo hi _
    · split_ifs <;> exact h.goTo hi _
    · split_ifs <;> exact h.goTo hi _
    · exact (h.withState .connected).finish i
    · exact (h.withState .disconnected).finish i
    · exact h
  case h_2 hi =>
    unfold WireguardService.stopVpn
    split
    · split_ifs <;> exact h.goTo hi _
    · exact h.goTo hi _
    · exact h.goTo hi _
    · split_ifs
      · exact h.finish i
      · exact h
    · exact h
  case h_3 => exact (h.withState .connected).finish i
  case h_4 => exact h

theorem run (h : Fresh s) (e : WireguardEvent) : Fresh (e.run s) := by
  cases e with
  | request r =>
    change Fresh (s.request r)
    unfold WireguardService.request
    split_ifs <;> exact h
  | act => exact h.act
  | start i => exact h.moved (s.toService.moved_start i)
  | resume i => exact h.moved (s.toService.moved_resume i)
  | step i o => exact h.step i o

end Fresh

end AmneziaVpn.AmneziaVpnService
