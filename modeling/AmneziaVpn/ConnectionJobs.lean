import Mathlib.Tactic

/-!
# Jobs that wait for each other

A connection job and a disconnection job wait for each other if each of them finds the other one in
its variable, which takes that the one that was launched first had not started when the second one
was launched.
-/

namespace AmneziaVpn.AmneziaVpnService

open Option

inductive ProtocolState
  | disconnected | connected | connecting | disconnecting | reconnecting | unknown
  deriving DecidableEq

inductive Slot
  | connectionJob | disconnectionJob
  deriving DecidableEq

inductive Kind
  | connection | reconnection | disconnection
  deriving DecidableEq

def Kind.slot : Kind → Slot
  | connection | reconnection => .connectionJob
  | disconnection => .disconnectionJob

/-- The variable with the job that a coroutine waits for. -/
def Kind.joins : Kind → Option Slot
  | connection => some .disconnectionJob
  | disconnection => some .connectionJob
  | reconnection => none

/-- A job waits for another one when it has started and the other one has not finished. -/
inductive Status
  | launched
  | joining (job : ℕ)
  | running
  | finished
  deriving DecidableEq

structure Job where
  kind : Kind
  status : Status
  deriving DecidableEq

/-- The jobs in the order in which they were launched. -/
structure Service where
  protocolState : ProtocolState
  held : Slot → Option ℕ
  jobs : List Job

namespace Service

variable (s : Service)

def launch (kind : Kind) : Service :=
  { s with
    jobs := s.jobs ++ [⟨kind, .launched⟩]
    held := Function.update s.held kind.slot (some s.jobs.length) }

structure ConnectRequest where
  configParses : Bool
  protocolKnown : Bool
  permitted : Bool
  deriving DecidableEq

variable (r : ConnectRequest)

def ConnectRequest.isValid : Bool :=
  r.configParses && r.protocolKnown && r.permitted

def connectToVpn : Service :=
  if s.protocolState = .connected ∨ s.protocolState = .connecting then s
  else if r.isValid then { s with protocolState := .connecting }.launch .connection
  else { s with protocolState := .disconnected }

def disconnect : Service :=
  if s.protocolState = .unknown ∨ s.protocolState = .disconnected ∨
      s.protocolState = .disconnecting then s
  else { s with protocolState := .disconnecting }.launch .disconnection

def reconnect : Service :=
  if s.protocolState = .connected then
    { s with protocolState := .reconnecting }.launch .reconnection
  else s

variable (i : ℕ)

def isFinished : Bool := (s.jobs[i]?.map Job.status) = some .finished

/-- After the join the variable is cleared, and the protocol is run. -/
def proceed (kind : Kind) : Service :=
  { s with
    jobs := s.jobs.set i ⟨kind, .running⟩
    held := match kind.joins with
      | some slot => Function.update s.held slot none
      | none => s.held }

def start : Service :=
  match s.jobs[i]? with
  | some ⟨kind, .launched⟩ =>
      match kind.joins.bind s.held with
      | some j =>
          if s.isFinished j then s.proceed i kind
          else { s with jobs := s.jobs.set i ⟨kind, .joining j⟩ }
      | none => s.proceed i kind
  | _ => s

/-- A coroutine goes on when the job it waits for has finished. -/
def resume : Service :=
  match s.jobs[i]? with
  | some ⟨kind, .joining j⟩ => if s.isFinished j then s.proceed i kind else s
  | _ => s

def finish : Service :=
  match s.jobs[i]? with
  | some ⟨kind, .running⟩ => { s with jobs := s.jobs.set i ⟨kind, .finished⟩ }
  | _ => s

end Service

inductive Event
  | connect (r : Service.ConnectRequest)
  | disconnect
  | reconnect
  | start (i : ℕ)
  | resume (i : ℕ)
  | finish (i : ℕ)
  | protocol (state : ProtocolState)

variable (s : Service)

def Event.run : Event → Service
  | connect r => s.connectToVpn r
  | disconnect => s.disconnect
  | reconnect => s.reconnect
  | start i => s.start i
  | resume i => s.resume i
  | finish i => s.finish i
  | protocol state => { s with protocolState := state }

def initial : Service := ⟨.unknown, fun _ => none, []⟩

open List

namespace Service

inductive Moved (s : Service) (i : ℕ) : Service → Prop
  | stays : Moved s i s
  | joins {kind : Kind} {slot : Slot} {j : ℕ} (hi : s.jobs[i]? = some ⟨kind, .launched⟩)
      (hjoins : kind.joins = some slot) (hheld : s.held slot = some j) :
      Moved s i { s with jobs := s.jobs.set i ⟨kind, .joining j⟩ }
  | starts {kind : Kind} (hi : s.jobs[i]? = some ⟨kind, .launched⟩)
      (hdone : ∀ slot j, kind.joins = some slot → s.held slot = some j → s.isFinished j = true) :
      Moved s i (s.proceed i kind)
  | resumes {kind : Kind} {j : ℕ} (hi : s.jobs[i]? = some ⟨kind, .joining j⟩)
      (hdone : s.isFinished j = true) : Moved s i (s.proceed i kind)

theorem moved_start (s : Service) (i : ℕ) : s.Moved i (s.start i) := by
  unfold start
  split
  case h_1 kind hi =>
    split
    case h_1 j hj =>
      obtain ⟨slot, hjoins, hheld⟩ := bind_eq_some_iff.mp hj
      split_ifs with hdone
      · refine .starts hi fun slot' j' hjoins' hheld' => ?_
        obtain rfl := some.inj (hjoins.symm.trans hjoins')
        obtain rfl := some.inj (hheld.symm.trans hheld')
        exact hdone
      · exact .joins hi hjoins hheld
    case h_2 hnone =>
      refine .starts hi fun slot j hjoins hheld => ?_
      rw [hjoins, bind_some, hheld] at hnone
      cases hnone
  case h_2 => exact .stays

theorem moved_resume (s : Service) (i : ℕ) : s.Moved i (s.resume i) := by
  unfold resume
  split
  case h_1 kind j hi =>
    split_ifs with hdone
    · exact .resumes hi hdone
    · exact .stays
  case h_2 => exact .stays

end Service

def Opposite (a b : Job) : Prop :=
  a.kind.joins = some b.kind.slot ∧ b.kind.joins = some a.kind.slot

/-- The job in the variable has started, if it is one that waits. -/
def Settled (slot : Slot) : Prop :=
  ∀ (j : ℕ) kind, s.held slot = some j → s.jobs[j]? = some ⟨kind, .launched⟩ → kind.joins = none

/-- How the jobs that were launched earlier are related to the later ones. -/
structure Ordered (s : Service) : Prop where
  /-- A variable holds a job of its kind. -/
  held : ∀ slot (j : ℕ), s.held slot = some j → ∃ b : Job, s.jobs[j]? = some b ∧ b.kind.slot = slot
  /-- A job waits for one that was launched. -/
  target : ∀ (i j : ℕ) (a : Job), s.jobs[i]? = some a → a.status = .joining j → j < s.jobs.length
  /-- An earlier job that can still be found in its variable has started. -/
  started : ∀ (i j : ℕ) (a b : Job), j < i → s.jobs[i]? = some a → s.jobs[j]? = some b → Opposite a b →
    s.held b.kind.slot = some j → b.status ≠ .launched
  /-- An earlier job that a later one waits for has started. -/
  joined : ∀ (i j : ℕ) (a b : Job), j < i → s.jobs[i]? = some a → s.jobs[j]? = some b → Opposite a b →
    a.status = .joining j → b.status ≠ .launched
  /-- An earlier job that waits for a later one can no longer be found by it. -/
  waiting : ∀ (i j : ℕ) (a b : Job), j < i → s.jobs[i]? = some a → s.jobs[j]? = some b → Opposite a b →
    b.status = .joining i → s.held b.kind.slot ≠ some j ∧ a.status ≠ .joining j

namespace Ordered

variable {s : Service}

theorem initial : Ordered initial := by
  constructor <;> simp [AmneziaVpnService.initial]

theorem withState (h : Ordered s) (state : ProtocolState) :
    Ordered { s with protocolState := state } :=
  ⟨h.held, h.target, h.started, h.joined, h.waiting⟩

variable {i : ℕ}

theorem lt_of_getElem? {a : Job} (h : s.jobs[i]? = some a) : i < s.jobs.length :=
  (List.getElem?_eq_some_iff.mp h).1

variable {kind : Kind}

/-- A new job finds the earlier ones in their variables only if they have started, and no job waits
for it yet. -/
theorem launch (h : Ordered s) (hsettled : ∀ slot, kind.joins = some slot → Settled s slot) :
    Ordered (s.launch kind) := by
  have hjobs : ∀ (i : ℕ) (a : Job), (s.launch kind).jobs[i]? = some a →
      s.jobs[i]? = some a ∨ (i = s.jobs.length ∧ a = ⟨kind, .launched⟩) := by
    intro i a hi
    unfold Service.launch at hi
    grind
  have hheld : ∀ slot j, (s.launch kind).held slot = some j →
      s.held slot = some j ∨ (slot = kind.slot ∧ j = s.jobs.length) := by
    intro slot j hj
    unfold Service.launch at hj
    grind [Function.update_apply]
  have hlength : (s.launch kind).jobs.length = s.jobs.length + 1 := by
    unfold Service.launch
    rw [length_append, length_singleton]
  refine ⟨?_, ?_, ?_, ?_, ?_⟩
  · intro slot j hj
    rcases hheld slot j hj with hold | ⟨rfl, rfl⟩
    · obtain ⟨b, hb, hslot⟩ := h.held slot j hold
      refine ⟨b, ?_, hslot⟩
      unfold Service.launch
      rw [getElem?_append_left (lt_of_getElem? hb), hb]
    · refine ⟨⟨kind, .launched⟩, ?_, rfl⟩
      unfold Service.launch
      rw [getElem?_concat_length]
  · intro i j a ha hstatus
    rcases hjobs i a ha with hold | ⟨rfl, rfl⟩
    · rw [hlength]
      exact Nat.lt_succ_of_lt (h.target i j a hold hstatus)
    · cases hstatus
  · intro i j a b hlt ha hb hopposite hj hstatus
    have hearlier : j < s.jobs.length := by
      have := lt_of_getElem? ha
      omega
    have hb : s.jobs[j]? = some b := (hjobs j b hb).resolve_right fun hnew => by omega
    have hj : s.held b.kind.slot = some j := (hheld _ _ hj).resolve_right fun hnew => by omega
    rcases hjobs i a ha with hold | ⟨rfl, rfl⟩
    · exact h.started i j a b hlt hold hb hopposite hj hstatus
    · obtain ⟨kind', status⟩ := b
      obtain rfl : status = .launched := hstatus
      have hnone := hsettled kind'.slot hopposite.1 j kind' hj hb
      rw [hopposite.2] at hnone
      cases hnone
  · intro i j a b hlt ha hb hopposite hstatus
    rcases hjobs i a ha with hold | ⟨rfl, rfl⟩
    · have hi := lt_of_getElem? hold
      have hb : s.jobs[j]? = some b := (hjobs j b hb).resolve_right fun hnew => by omega
      exact h.joined i j a b hlt hold hb hopposite hstatus
    · cases hstatus
  · intro i j a b hlt ha hb hopposite hstatus
    have hearlier : j < s.jobs.length := by
      have := lt_of_getElem? ha
      omega
    have hb : s.jobs[j]? = some b := (hjobs j b hb).resolve_right fun hnew => by omega
    have hi : i < s.jobs.length := h.target j i b hb hstatus
    have ha : s.jobs[i]? = some a := (hjobs i a ha).resolve_right fun hnew => by omega
    obtain ⟨hfield, hother⟩ := h.waiting i j a b hlt ha hb hopposite hstatus
    refine ⟨fun hj => hfield ((hheld _ _ hj).resolve_right fun hnew => by omega), hother⟩

variable {i₀ : ℕ}

theorem getElem?_set_cases {jobs : List Job} {k : ℕ} {new a : Job}
    (h : (jobs.set i₀ new)[k]? = some a) : k = i₀ ∧ a = new ∨ k ≠ i₀ ∧ jobs[k]? = some a := by
  by_cases hk : k = i₀
  · subst hk
    have hlt : k < jobs.length := by
      have hlength := (List.getElem?_eq_some_iff.mp h).1
      rwa [length_set] at hlength
    rw [getElem?_set_self hlt] at h
    exact .inl ⟨rfl, (some.inj h).symm⟩
  · rw [getElem?_set_ne (Ne.symm hk)] at h
    exact .inr ⟨hk, h⟩

variable {status status' : Status}

theorem held_set {j : ℕ} {slot : Slot} (h : Ordered s) (hi₀ : s.jobs[i₀]? = some ⟨kind, status⟩)
    (hj : s.held slot = some j) :
    ∃ b : Job, (s.jobs.set i₀ ⟨kind, status'⟩)[j]? = some b ∧ b.kind.slot = slot := by
  obtain ⟨b, hb, hslot⟩ := h.held slot j hj
  by_cases hji : j = i₀
  · subst hji
    obtain rfl := some.inj (hb.symm.trans hi₀)
    exact ⟨_, getElem?_set_self (lt_of_getElem? hi₀), hslot⟩
  · exact ⟨b, (getElem?_set_ne (Ne.symm hji)).trans hb, hslot⟩

/-- A job that has started gets a new status. -/
theorem setStatus {held : Slot → Option ℕ} (h : Ordered s) (hi₀ : s.jobs[i₀]? = some ⟨kind, status⟩)
    (hstarted : status' ≠ .launched)
    (hjoin : ∀ j, status' = .joining j → status = .launched ∧ ∃ slot, kind.joins = some slot ∧ s.held slot = some j)
    (hheld : ∀ slot j, held slot = some j → s.held slot = some j) :
    Ordered { s with jobs := s.jobs.set i₀ ⟨kind, status'⟩, held := held } := by
  have hfound : ∀ (j : ℕ) (b : Job), Opposite ⟨kind, status'⟩ b → status' = .joining j →
      s.held b.kind.slot = some j := by
    intro j b hopposite hstatus
    obtain ⟨-, slot, hjoins, hslot⟩ := hjoin j hstatus
    obtain rfl : slot = b.kind.slot := some.inj (hjoins.symm.trans hopposite.1)
    exact hslot
  refine ⟨fun slot j hj => h.held_set hi₀ (hheld slot j hj), ?_, ?_, ?_, ?_⟩
  · intro i j a ha hstatus
    change j < (s.jobs.set i₀ _).length
    rw [length_set]
    rcases getElem?_set_cases ha with ⟨rfl, rfl⟩ | ⟨-, hnow⟩
    · obtain ⟨-, slot, -, hslot⟩ := hjoin j hstatus
      obtain ⟨b, hb, -⟩ := h.held slot j hslot
      exact lt_of_getElem? hb
    · exact h.target i j a hnow hstatus
  · intro i j a b hji ha hb hopposite hj hstatus
    rcases getElem?_set_cases hb with ⟨rfl, rfl⟩ | ⟨-, hold⟩
    · exact hstarted hstatus
    · rcases getElem?_set_cases ha with ⟨rfl, rfl⟩ | ⟨-, hnow⟩
      · exact h.started i j _ b hji hi₀ hold hopposite (hheld _ _ hj) hstatus
      · exact h.started i j a b hji hnow hold hopposite (hheld _ _ hj) hstatus
  · intro i j a b hji ha hb hopposite hwaits hstatus
    rcases getElem?_set_cases hb with ⟨rfl, rfl⟩ | ⟨-, hold⟩
    · exact hstarted hstatus
    · rcases getElem?_set_cases ha with ⟨rfl, rfl⟩ | ⟨-, hnow⟩
      · exact h.started i j _ b hji hi₀ hold hopposite (hfound j b hopposite hwaits) hstatus
      · exact h.joined i j a b hji hnow hold hopposite hwaits hstatus
  · intro i j a b hji ha hb hopposite hstatus
    rcases getElem?_set_cases hb with ⟨rfl, rfl⟩ | ⟨-, hold⟩
    · rcases getElem?_set_cases ha with ⟨rfl, rfl⟩ | ⟨-, hnow⟩
      · exact absurd hji (lt_irrefl _)
      · obtain ⟨hlaunched, -⟩ := hjoin i hstatus
        exact ⟨fun hj => h.started i j a _ hji hnow hi₀ hopposite (hheld _ _ hj) hlaunched,
          fun hwaits => h.joined i j a _ hji hnow hi₀ hopposite hwaits hlaunched⟩
    · rcases getElem?_set_cases ha with ⟨rfl, rfl⟩ | ⟨-, hnow⟩
      · have hfield := (h.waiting i j _ b hji hi₀ hold hopposite hstatus).1
        exact ⟨fun hj => hfield (hheld _ _ hj),
          fun hwaits => hfield (hfound j b hopposite hwaits)⟩
      · obtain ⟨hfield, hother⟩ := h.waiting i j a b hji hnow hold hopposite hstatus
        exact ⟨fun hj => hfield (hheld _ _ hj), hother⟩

theorem join {j₀ : ℕ} {slot : Slot} (h : Ordered s) (hi₀ : s.jobs[i₀]? = some ⟨kind, .launched⟩)
    (hjoins : kind.joins = some slot) (hheld : s.held slot = some j₀) :
    Ordered { s with jobs := s.jobs.set i₀ ⟨kind, .joining j₀⟩ } := by
  apply h.setStatus hi₀ Status.noConfusion _ fun slot j hj => hj
  intro j hj
  obtain rfl := Status.joining.inj hj
  exact ⟨rfl, slot, hjoins, hheld⟩

theorem proceed (h : Ordered s) (hi : s.jobs[i]? = some ⟨kind, status⟩) :
    Ordered (s.proceed i kind) := by
  apply h.setStatus hi Status.noConfusion fun j hj => Status.noConfusion hj
  intro slot j hj
  cases hjoins : kind.joins with
  | none => rwa [hjoins] at hj
  | some slot' =>
    rw [hjoins] at hj
    change Function.update s.held slot' none slot = some j at hj
    by_cases hslot : slot = slot'
    · rw [hslot, Function.update_self] at hj
      cases hj
    · rwa [Function.update_of_ne hslot] at hj

theorem moved {t : Service} (h : Ordered s) (hmoved : s.Moved i t) : Ordered t := by
  cases hmoved with
  | stays => exact h
  | joins hi hjoins hheld => exact h.join hi hjoins hheld
  | starts hi _ => exact h.proceed hi
  | resumes hi _ => exact h.proceed hi

theorem finish (h : Ordered s) (i : ℕ) : Ordered (s.finish i) := by
  unfold Service.finish
  split
  case h_1 kind hi =>
    exact h.setStatus hi Status.noConfusion (fun j hj => Status.noConfusion hj) fun slot j hj => hj
  case h_2 => exact h

end Ordered

def Event.Settled : Event → Prop
  | connect r =>
      s.protocolState ≠ .connected → s.protocolState ≠ .connecting → r.isValid = true →
        AmneziaVpnService.Settled s .disconnectionJob
  | disconnect =>
      s.protocolState ≠ .unknown → s.protocolState ≠ .disconnected →
        s.protocolState ≠ .disconnecting → AmneziaVpnService.Settled s .connectionJob
  | _ => True

theorem Ordered.run {s : Service} {e : Event} (h : Ordered s) (he : e.Settled s) :
    Ordered (e.run s) := by
  cases e with
  | connect r =>
    change Ordered (s.connectToVpn r)
    unfold Service.connectToVpn
    split_ifs with hstate hvalid
    · exact h
    · rw [not_or] at hstate
      refine (h.withState .connecting).launch fun slot hslot => ?_
      obtain rfl := some.inj hslot
      exact he hstate.1 hstate.2 hvalid
    · exact h.withState .disconnected
  | disconnect =>
    change Ordered s.disconnect
    unfold Service.disconnect
    split_ifs with hstate
    · exact h
    · rw [not_or, not_or] at hstate
      refine (h.withState .disconnecting).launch fun slot hslot => ?_
      obtain rfl := some.inj hslot
      exact he hstate.1 hstate.2.1 hstate.2.2
  | reconnect =>
    change Ordered s.reconnect
    unfold Service.reconnect
    split_ifs
    · refine (h.withState .reconnecting).launch fun slot hslot => ?_
      cases hslot
    · exact h
  | start i => exact h.moved (s.moved_start i)
  | resume i => exact h.moved (s.moved_resume i)
  | finish i => exact h.finish i
  | protocol state => exact h.withState state

def AllSettled (s : Service) : List Event → Prop
  | [] => True
  | e :: events => e.Settled s ∧ AllSettled (e.run s) events

theorem Ordered.foldl {s : Service} {events : List Event} (h : Ordered s)
    (hevents : AllSettled s events) : Ordered (events.foldl Event.run s) := by
  induction events generalizing s with
  | nil => exact h
  | cons e events ih => exact ih (h.run hevents.1) hevents.2

def MutualWait : Prop :=
  ∃ c d : ℕ, s.jobs[c]? = some ⟨.connection, .joining d⟩ ∧
    s.jobs[d]? = some ⟨.disconnection, .joining c⟩

/-- No two jobs wait for each other if each is launched after the one it waits for has started. -/
theorem no_mutual_wait (events : List Event) (hevents : AllSettled initial events) :
    ¬ MutualWait (events.foldl Event.run initial) := by
  have h := Ordered.initial.foldl hevents
  rintro ⟨c, d, hc, hd⟩
  rcases lt_trichotomy c d with hlt | rfl | hlt
  · exact (h.waiting d c _ _ hlt hd hc ⟨rfl, rfl⟩ rfl).2 rfl
  · cases hc.symm.trans hd
  · exact (h.waiting c d _ _ hlt hc hd ⟨rfl, rfl⟩ rfl).2 rfl

/-- The connection has started when the disconnection is requested. -/
theorem no_mutual_wait_after_start :
    ¬ MutualWait ([.connect ⟨true, true, true⟩, .start 0, .disconnect, .start 1].foldl Event.run
      initial) := by
  apply no_mutual_wait
  refine ⟨?_, trivial, ?_, trivial, trivial⟩
  · intro _ _ _ j kind hheld
    cases hheld
  · intro _ _ _ j kind hheld hj
    obtain rfl : 0 = j := some.inj hheld
    cases hj

/-- A disconnection is requested before the connection has started. -/
theorem mutual_wait_of_early_disconnect :
    MutualWait ([.connect ⟨true, true, true⟩, .disconnect, .start 0, .start 1].foldl Event.run
      initial) :=
  ⟨0, 1, rfl, rfl⟩

end AmneziaVpn.AmneziaVpnService
