import AmneziaVpn.FallibleOps
import AmneziaVpn.RunInvariants

/-!
# Handlers that run the event loop

A handler works on a shared state. Where it waits for a reply it runs the event loop, and whatever
arrives meanwhile is handled before it goes on.
-/

namespace EventLoop

open FallibleOps RunInvariants

inductive Prog (σ : Type)
  | ret (ok : Bool)
  | act (a : Op σ) (next : Bool → Prog σ)
  | look (next : σ → Prog σ)
  | wait (next : Prog σ)

namespace Prog

variable {σ α : Type}

def op (a : Op σ) : Prog σ := .act a .ret

def andThen : Prog σ → Prog σ → Prog σ
  | .ret ok, q => if ok then q else .ret false
  | .act a next, q => .act a fun ok => (next ok).andThen q
  | .look next, q => .look fun s => (next s).andThen q
  | .wait next, q => .wait (next.andThen q)

def bind : Prog σ → (Bool → Prog σ) → Prog σ
  | .ret ok, q => q ok
  | .act a next, q => .act a fun ok => (next ok).bind q
  | .look next, q => .look fun s => (next s).bind q
  | .wait next, q => .wait (next.bind q)

def ignore (p : Prog σ) : Prog σ := p.bind fun _ => .ret true

def each (f : α → Prog σ) : List α → Prog σ
  | [] => .ret true
  | x :: xs => (f x).ignore.andThen (each f xs)

theorem andThen_eq_bind (p q : Prog σ) :
    p.andThen q = p.bind fun ok => if ok then q else .ret false := by
  induction p with
  | ret ok => rfl
  | act a next ih => exact congrArg (act a) (funext ih)
  | look next ih => exact congrArg look (funext ih)
  | wait next ih => exact congrArg wait ih

/-- The first condition holds at every point of the program, the second one at its end. -/
def Holds (I J : σ → Prop) : Prog σ → σ → Prop
  | .ret _, s => I s ∧ J s
  | .act a next, s => I s ∧ (next (a s).1).Holds I J (a s).2
  | .look next, s => I s ∧ (next s).Holds I J s
  | .wait next, s => I s ∧ next.Holds I J s

variable {I J K : σ → Prop}

variable {p : Prog σ} {s : σ}

theorem Holds.here (h : p.Holds I J s) : I s := by
  cases p <;> exact h.1

theorem Holds.bind {q : Bool → Prog σ} (hp : p.Holds I K s)
    (hq : ∀ ok s, I s → K s → (q ok).Holds I J s) : (p.bind q).Holds I J s := by
  induction p generalizing s with
  | ret ok => exact hq ok s hp.1 hp.2
  | act a next ih => exact ⟨hp.1, ih _ hp.2⟩
  | look next ih => exact ⟨hp.1, ih _ hp.2⟩
  | wait next ih => exact ⟨hp.1, ih hp.2⟩

theorem Holds.ignore (hp : p.Holds I J s) : p.ignore.Holds I J s :=
  hp.bind fun _ _ hI hJ => ⟨hI, hJ⟩

theorem Holds.andThen {p q : Prog σ} (hp : p.Holds I J s) (hq : ∀ s, I s → J s → q.Holds I J s) :
    (p.andThen q).Holds I J s := by
  rw [andThen_eq_bind]
  refine hp.bind fun ok s hI hJ => ?_
  split_ifs
  · exact hq s hI hJ
  · exact ⟨hI, hJ⟩

theorem holds_each {f : α → Prog σ} (hf : ∀ x s, I s → J s → (f x).Holds I J s) (xs : List α)
    (hI : I s) (hJ : J s) : (each f xs).Holds I J s := by
  induction xs generalizing s with
  | nil => exact ⟨hI, hJ⟩
  | cons x xs ih => exact (hf x s hI hJ).ignore.andThen fun s hI hJ => ih hI hJ

end Prog

variable {ι κ σ : Type}

structure Frame (ι σ : Type) where
  source : ι
  rest : Prog σ

structure Machine (ι κ σ : Type) where
  state : σ
  stack : List (Frame ι σ)
  inbox : ι → List κ

/-- A message arrives, a source is notified, or the topmost handler goes on. -/
inductive Event (ι κ : Type)
  | arrive (source : ι) (message : κ)
  | notify (source : ι)
  | proceed

namespace Machine

def Alone (I J : σ → Prop) (m : Machine ι κ σ) : Prop :=
  m.stack = [] ∧ I m.state ∧ J m.state ∨
    ∃ frame, m.stack = [frame] ∧ frame.rest.Holds I J m.state

variable {I J : σ → Prop}

variable {m : Machine ι κ σ}

theorem Alone.length_le (h : m.Alone I J) : m.stack.length ≤ 1 := by
  rcases h with ⟨h, -⟩ | ⟨frame, h, -⟩
  · simp [h]
  · simp [h]

theorem Alone.here (h : m.Alone I J) : I m.state := by
  rcases h with ⟨-, h, -⟩ | ⟨frame, -, h⟩
  · exact h
  · exact h.here

variable [DecidableEq ι] (handler : κ → Prog σ)

def idle (state : σ) : Machine ι κ σ := ⟨state, [], fun _ => []⟩

def listening (m : Machine ι κ σ) : Bool :=
  match m.stack with
  | [] => true
  | ⟨_, .wait _⟩ :: _ => true
  | _ => false

def take (m : Machine ι κ σ) (source : ι) : Option (κ × Machine ι κ σ) :=
  match m.inbox source with
  | [] => none
  | message :: messages =>
      some (message, { m with inbox := Function.update m.inbox source messages })

/-- The topmost handler makes a step. At its end it takes the next message of its source. -/
def proceed (m : Machine ι κ σ) : Machine ι κ σ :=
  match m.stack with
  | [] => m
  | ⟨source, .ret _⟩ :: frames =>
      match m.take source with
      | none => { m with stack := frames }
      | some (message, m) => { m with stack := ⟨source, handler message⟩ :: frames }
  | ⟨source, .act a next⟩ :: frames =>
      { m with state := (a m.state).2, stack := ⟨source, next (a m.state).1⟩ :: frames }
  | ⟨source, .look next⟩ :: frames => { m with stack := ⟨source, next m.state⟩ :: frames }
  | ⟨source, .wait next⟩ :: frames => { m with stack := ⟨source, next⟩ :: frames }

def notify (m : Machine ι κ σ) (source : ι) : Machine ι κ σ :=
  if m.listening ∧ source ∉ m.stack.map Frame.source then
    match m.take source with
    | none => m
    | some (message, m) => { m with stack := ⟨source, handler message⟩ :: m.stack }
  else m

def step (m : Machine ι κ σ) : Event ι κ → Machine ι κ σ
  | .arrive source message =>
      { m with inbox := Function.update m.inbox source (m.inbox source ++ [message]) }
  | .notify source => m.notify handler source
  | .proceed => m.proceed handler

/-- A source with a message is notified while a handler waits. -/
def Interrupts (m : Machine ι κ σ) (event : Event ι κ) : Prop :=
  ∃ source frame frames next, event = .notify source ∧ m.stack = frame :: frames ∧
    frame.rest = .wait next ∧ source ∉ m.stack.map Frame.source ∧ m.inbox source ≠ []

theorem length_stack_of_interrupts {event : Event ι κ} (h : m.Interrupts event) :
    (m.step handler event).stack.length = m.stack.length + 1 := by
  obtain ⟨source, frame, frames, next, rfl, hstack, hwait, hsource, hinbox⟩ := h
  obtain ⟨message, messages, hmessages⟩ := List.exists_cons_of_ne_nil hinbox
  have hlistening : m.listening = true := by
    rw [listening, hstack]
    cases frame
    cases hwait
    rfl
  rw [step, notify, if_pos ⟨hlistening, hsource⟩, take, hmessages]
  rfl

variable {handler}

theorem alone_proceed (hhandler : ∀ message s, I s → J s → (handler message).Holds I J s)
    (h : m.Alone I J) : (m.proceed handler).Alone I J := by
  rcases h with ⟨hstack, hI, hJ⟩ | ⟨⟨source, rest⟩, hstack, hrest⟩
  · rw [proceed, hstack]
    exact .inl ⟨hstack, hI, hJ⟩
  · rw [proceed, hstack]
    cases rest with
    | ret ok =>
      dsimp only
      unfold take
      cases m.inbox source with
      | nil => exact .inl ⟨rfl, hrest⟩
      | cons message messages =>
        exact .inr ⟨_, rfl, hhandler message m.state hrest.1 hrest.2⟩
    | act a next => exact .inr ⟨_, rfl, hrest.2⟩
    | look next => exact .inr ⟨_, rfl, hrest.2⟩
    | wait next => exact .inr ⟨_, rfl, hrest.2⟩

theorem alone_notify (hhandler : ∀ message s, I s → J s → (handler message).Holds I J s)
    (h : m.Alone I J) {source : ι} (hquiet : ¬ m.Interrupts (.notify source)) :
    (m.notify handler source).Alone I J := by
  unfold notify
  split_ifs with hready
  · unfold take
    cases hinbox : m.inbox source with
    | nil => exact h
    | cons message messages =>
      rcases h with ⟨hstack, hI, hJ⟩ | ⟨⟨current, rest⟩, hstack, hrest⟩
      · exact .inr ⟨_, by rw [hstack], hhandler message m.state hI hJ⟩
      · exfalso
        obtain ⟨hlistening, hsource⟩ := hready
        rw [listening, hstack] at hlistening
        cases rest with
        | wait next =>
          exact hquiet ⟨source, _, _, next, rfl, hstack, rfl, hsource, by simp [hinbox]⟩
        | ret ok => exact absurd hlistening Bool.false_ne_true
        | act a next => exact absurd hlistening Bool.false_ne_true
        | look next => exact absurd hlistening Bool.false_ne_true
  · exact h

theorem alone_step (hhandler : ∀ message s, I s → J s → (handler message).Holds I J s)
    (h : m.Alone I J) {event : Event ι κ} (hquiet : ¬ m.Interrupts event) :
    (m.step handler event).Alone I J := by
  cases event with
  | arrive source message => exact h
  | notify source => exact alone_notify hhandler h hquiet
  | proceed => exact alone_proceed hhandler h

theorem alone_iff (hhandler : ∀ message s, I s → J s → (handler message).Holds I J s)
    {state : σ} (hI : I state) (hJ : J state) (events : List (Event ι κ)) :
    Throughout (step handler) (fun m => m.stack.length ≤ 1 ∧ I m.state) events (idle state) ↔
      NoneOf (step handler) Interrupts events (idle state) := by
  constructor
  · intro h before event after hevents hinterrupts
    have hlength := (h (before ++ [event]) after (by simp [hevents])).1
    have hlonger := length_stack_of_interrupts handler hinterrupts
    obtain ⟨_, _, _, _, _, hstack, -⟩ := hinterrupts
    rw [List.foldl_append, List.foldl_cons, List.foldl_nil, hlonger, hstack] at hlength
    simp at hlength
  · intro h before after hevents
    have halone := throughout_of_noneOf
      (fun m event hm hquiet => alone_step hhandler hm hquiet) (.inl ⟨rfl, hI, hJ⟩) h before after
      hevents
    exact ⟨halone.length_le, halone.here⟩

end Machine

end EventLoop
