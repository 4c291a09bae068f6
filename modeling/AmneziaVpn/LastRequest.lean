import AmneziaVpn.JobPoints

/-!
# The last request of the Android service

If a connection or a reconnection is only requested when all coroutines have finished, there is at
any time either one coroutine that opens the tunnel, and the disconnections wait for it, or there
are only disconnections, one of which closes the tunnel if it is open.
-/

namespace AmneziaVpn.AmneziaVpnService

open List Service Option

/-- How the tunnel handle and the state are related when no coroutine opens the tunnel. -/
inductive Level (s : WireguardService) : Prop
  | unknown (hstate : s.protocolState = .unknown) (hhandle : s.tunnelHandle = -1)
      (hlast : s.lastRequest ≠ some .disconnect)
  | down (hstate : s.protocolState = .disconnected) (hhandle : s.tunnelHandle = -1)
  | stopping (hstate : s.protocolState = .connected ∨ s.protocolState = .disconnecting)
      (hdue : Due s.jobs s.point .closing ∨ Due s.jobs s.point .turnedOff)
  | due (hstate : s.protocolState = .connected ∨ s.protocolState = .disconnecting)
      (hhandle : s.tunnelHandle ≠ -1) (hdue : Due s.jobs s.point .entered)
  | up (hstate : s.protocolState = .connected) (hhandle : s.tunnelHandle ≠ -1)
      (hlast : s.lastRequest = some .disconnect → s.passed = true)

/-- Only disconnections have not finished. -/
structure Resting (s : WireguardService) : Prop where
  jobs : ∀ job ∈ s.jobs, job.kind = .disconnection ∨ job.status = .finished
  level : Level s
  closed : Due s.jobs s.point .turnedOff → s.tunnelHandle = -1
  /-- A connection or reconnection is about to be carried out only if there is nothing else to do. -/
  pending : s.passed = true → s.lastRequest = some .disconnect ∨
    s.AllFinished ∧ ∀ r, s.lastRequest = some r → s.passes r = true

def HandleAt : Kind → Point → ℤ → Prop
  | .reconnection, _, handle => handle ≠ -1
  | .connection, .entered, handle => handle = -1
  | .connection, .checked, handle => handle = -1
  | .connection, .failed, handle => handle = -1
  | .connection, .succeeded, handle => handle ≠ -1
  | _, _, _ => True

/-- A disconnection that has not gone past its join, and that waits for no other job than `j`. -/
def WaitsFor (j : ℕ) (job : Job) : Prop :=
  job.kind = .disconnection ∧ (job.status = .launched ∨ job.status = .joining j)

/-- The job `j` opens the tunnel, and all others that have not finished wait for it. -/
structure Opening (s : WireguardService) (j : ℕ) (kind : Kind) (status : Status) : Prop where
  job : s.jobs[j]? = some ⟨kind, status⟩
  opens : kind ≠ .disconnection
  unfinished : status ≠ .finished
  handle : HandleAt kind (s.point j) s.tunnelHandle
  held : s.held .connectionJob = some j
  others : ∀ (i : ℕ) job, s.jobs[i]? = some job → i ≠ j → job.status = .finished ∨ WaitsFor j job
  state : s.protocolState = .connecting ∨ s.protocolState = .reconnecting ∨
    s.protocolState = .disconnecting ∧ Due s.jobs s.point .entered
  answered : s.lastRequest = some .disconnect → s.passed = false → Due s.jobs s.point .entered
  pending : s.passed = true → s.lastRequest = some .disconnect

variable (s : WireguardService)

def Consistent : Prop :=
  Fresh s ∧ (Resting s ∨ ∃ j kind status, Opening s j kind status)

/-- Connections are requested when all coroutines have finished, disconnections later than that. -/
def WireguardEvent.Quiet : WireguardEvent → Prop
  | request (.connect r) => s.passed = false → s.passes (.connect r) = true → s.AllFinished
  | request .reconnect => s.passed = false → s.passes .reconnect = true → s.AllFinished
  | request .disconnect => s.passed = false → s.protocolState ≠ .unknown
  | act => s.passed = true → s.lastRequest = some .disconnect → s.passes .disconnect = true
  | _ => True

section Resting

variable {s : WireguardService} {i : ℕ} {kind : Kind}

/-- Steps that keep the disconnections at their points keep the level. -/
theorem Level.of_due {s' : WireguardService} (h : Level s)
    (hstate : s'.protocolState = s.protocolState) (hhandle : s'.tunnelHandle = s.tunnelHandle)
    (hlast : s'.lastRequest = s.lastRequest) (hpassed : s'.passed = s.passed)
    (hdue : ∀ p, p ≠ .stopped → Due s.jobs s.point p → Due s'.jobs s'.point p) : Level s' := by
  cases h with
  | unknown h₁ h₂ h₃ => exact .unknown (hstate ▸ h₁) (hhandle ▸ h₂) (hlast ▸ h₃)
  | down h₁ h₂ => exact .down (hstate ▸ h₁) (hhandle ▸ h₂)
  | stopping h₁ h₂ =>
    exact .stopping (hstate ▸ h₁) (h₂.imp (hdue _ Point.noConfusion) (hdue _ Point.noConfusion))
  | due h₁ h₂ h₃ => exact .due (hstate ▸ h₁) (hhandle ▸ h₂) (hdue _ Point.noConfusion h₃)
  | up h₁ h₂ h₃ => exact .up (hstate ▸ h₁) (hhandle ▸ h₂) (hlast ▸ hpassed ▸ h₃)

theorem Level.request (h : Level s) {r : Request}
    (hunknown : r = .disconnect → s.protocolState ≠ .unknown) :
    Level { s with lastRequest := some r, passed := s.passes r } := by
  cases h with
  | unknown h₁ h₂ h₃ =>
    refine .unknown h₁ h₂ fun hlast => ?_
    exact hunknown (some.inj hlast) h₁
  | down h₁ h₂ => exact .down h₁ h₂
  | stopping h₁ h₂ => exact .stopping h₁ h₂
  | due h₁ h₂ h₃ => exact .due h₁ h₂ h₃
  | up h₁ h₂ h₃ =>
    refine .up h₁ h₂ fun hlast => ?_
    obtain rfl : r = .disconnect := some.inj hlast
    simp [passes, h₁]

theorem finish_of_running (hi : s.jobs[i]? = some ⟨kind, .running⟩) :
    s.finish i = { s with jobs := s.jobs.set i ⟨kind, .finished⟩ } := by
  unfold WireguardService.finish finish
  rw [hi]

namespace Resting

variable (h : Resting s)
include h

theorem request {r : Request}
    (hunknown : r = .disconnect → s.protocolState ≠ .unknown)
    (hquiet : r ≠ .disconnect → s.passes r = true → s.AllFinished) :
    Resting { s with lastRequest := some r, passed := s.passes r } := by
  refine ⟨h.jobs, h.level.request hunknown, h.closed, ?_⟩
  intro hpassed
  by_cases hr : r = .disconnect
  · exact Or.inl (congrArg some hr)
  · refine Or.inr ⟨hquiet hr hpassed, fun r' hr' => ?_⟩
    obtain rfl := some.inj hr'
    exact hpassed

variable {status : Status}

theorem lastRequest_eq (hi : s.jobs[i]? = some ⟨kind, status⟩) (hstatus : status ≠ .finished)
    (hpassed : s.passed = true) : s.lastRequest = some .disconnect := by
  rcases h.pending hpassed with hlast | ⟨hall, -⟩
  · exact hlast
  · exact absurd (hall _ (mem_of_getElem? hi)) hstatus

theorem set {status' : Status} {held : Slot → Option ℕ}
    (hi : s.jobs[i]? = some ⟨.disconnection, status⟩) (hstatus : status ≠ .finished)
    (hfinished : status' = .finished → s.point i = .stopped) :
    Resting { s with jobs := s.jobs.set i ⟨.disconnection, status'⟩, held := held } := by
  refine ⟨?_, ?_, ?_, fun hpassed => Or.inl (h.lastRequest_eq hi hstatus hpassed)⟩
  · intro job hjob
    rcases mem_or_eq_of_mem_set hjob with hjob | rfl
    · exact h.jobs job hjob
    · exact Or.inl rfl
  · exact h.level.of_due rfl rfl rfl rfl fun p hp hdue =>
      hdue.set hi fun hstatus => Or.inr (hfinished hstatus ▸ hp.symm)
  · exact fun hdue => h.closed (hdue.of_set hi hstatus)

theorem moved {t : Service} (hmoved : s.toService.Moved i t) :
    Resting { s with toService := t } := by
  rcases hmoved.set with rfl | ⟨kind, status, status', held, hi, -, hfinished, hfinished', rfl⟩
  · exact h
  · obtain rfl : kind = .disconnection :=
      (h.jobs _ (mem_of_getElem? hi)).resolve_right hfinished
    exact h.set hi hfinished fun hstatus => absurd hstatus hfinished'

theorem stopVpn (hi : s.jobs[i]? = some ⟨.disconnection, .running⟩) (o : Outcome) :
    Resting (s.stopVpn i o) := by
  unfold WireguardService.stopVpn
  split
  case h_1 hpoint =>
    split_ifs with hhandle
    · refine ⟨h.jobs, ?_, fun hdue => h.closed (hdue.of_update Point.noConfusion), h.pending⟩
      cases h.level with
      | unknown h₁ h₂ h₃ => exact .unknown h₁ h₂ h₃
      | down h₁ h₂ => exact .down h₁ h₂
      | stopping h₁ h₂ =>
        refine .stopping h₁ (h₂.imp (fun hdue => hdue.update ?_ _) fun hdue => hdue.update ?_ _)
        · exact hpoint ▸ Point.noConfusion
        · exact hpoint ▸ Point.noConfusion
      | due h₁ h₂ h₃ => exact absurd hhandle h₂
      | up h₁ h₂ h₃ => exact absurd hhandle h₂
    · refine ⟨h.jobs, ?_, fun hdue => h.closed (hdue.of_update Point.noConfusion), h.pending⟩
      have hclosing := Due.update_self hi s.point .closing
      cases h.level with
      | unknown h₁ h₂ h₃ => exact absurd h₂ hhandle
      | down h₁ h₂ => exact absurd h₂ hhandle
      | stopping h₁ h₂ => exact .stopping h₁ (Or.inl hclosing)
      | due h₁ h₂ h₃ => exact .stopping h₁ (Or.inl hclosing)
      | up h₁ h₂ h₃ => exact .stopping (Or.inl h₁) (Or.inl hclosing)
  case h_2 hpoint =>
    refine ⟨h.jobs, ?_, fun _ => rfl, h.pending⟩
    have hturnedOff := Due.update_self hi s.point .turnedOff
    cases h.level with
    | unknown h₁ h₂ h₃ => exact .unknown h₁ rfl h₃
    | down h₁ h₂ => exact .down h₁ rfl
    | stopping h₁ h₂ => exact .stopping h₁ (Or.inr hturnedOff)
    | due h₁ h₂ h₃ => exact .stopping h₁ (Or.inr hturnedOff)
    | up h₁ h₂ h₃ => exact .stopping (Or.inl h₁) (Or.inr hturnedOff)
  case h_3 hpoint =>
    have hhandle := h.closed ⟨i, .running, hi, Status.noConfusion, hpoint⟩
    exact ⟨h.jobs, .down rfl hhandle, fun _ => hhandle,
      fun hpassed => Or.inl (h.lastRequest_eq hi Status.noConfusion hpassed)⟩
  case h_4 hpoint =>
    split_ifs
    · rw [finish_of_running hi]
      exact h.set hi Status.noConfusion fun _ => hpoint
    · exact h
  case h_5 => exact h

theorem step (i : ℕ) (o : Outcome) : Resting (s.step i o) := by
  unfold WireguardService.step
  split
  case h_1 hi => exact absurd (h.jobs _ (mem_of_getElem? hi)) (by decide)
  case h_2 hi => exact h.stopVpn hi o
  case h_3 hi => exact absurd (h.jobs _ (mem_of_getElem? hi)) (by decide)
  case h_4 => exact h

end Resting

end Resting

section Opening

variable {s : WireguardService} {i j : ℕ} {kind : Kind} {status : Status}

namespace Opening

section

variable (h : Opening s j kind status)
include h

theorem not_finished : s.isFinished j = false := by
  unfold isFinished
  rw [h.job]
  simpa using h.unfinished

theorem not_allFinished : ¬ s.AllFinished :=
  fun hall => h.unfinished (hall _ (mem_of_getElem? h.job))

variable {status' : Status}

theorem kind_eq {kind' : Kind} (hj : s.jobs[j]? = some ⟨kind', status'⟩) : kind' = kind :=
  (Job.mk.inj (some.inj (hj.symm.trans h.job))).1

theorem ne_of_disconnection (hi : s.jobs[i]? = some ⟨.disconnection, status'⟩) : i ≠ j := by
  rintro rfl
  exact h.opens (h.kind_eq hi).symm

theorem waitsFor {job : Job} (hi : s.jobs[i]? = some job) (hij : i ≠ j)
    (hstatus : job.status ≠ .finished) : WaitsFor j job :=
  (h.others i job hi hij).resolve_left hstatus

theorem not_running {kind' : Kind} (hij : i ≠ j) :
    s.jobs[i]? ≠ some ⟨kind', .running⟩ := by
  intro hi
  rcases (h.waitsFor hi hij Status.noConfusion).2 with hlaunched | hjoining
  · cases hlaunched
  · cases hjoining

theorem due_eq (hfresh : Fresh s) {p : Point} (hdue : Due s.jobs s.point p) : p = .entered := by
  obtain ⟨i, status', hi, hstatus, rfl⟩ := hdue
  refine hfresh i fun job hjob => ?_
  obtain rfl := some.inj (hi.symm.trans hjob)
  refine ⟨?_, hstatus⟩
  rintro rfl
  exact h.not_running (h.ne_of_disconnection hi) hi

theorem request {r : Request}
    (hquiet : r ≠ .disconnect → s.passes r = true → s.AllFinished) :
    Opening { s with lastRequest := some r, passed := s.passes r } j kind status := by
  refine ⟨h.job, h.opens, h.unfinished, h.handle, h.held, h.others, h.state, ?_, ?_⟩
  · intro hlast hpassed
    obtain rfl : r = .disconnect := some.inj hlast
    rcases h.state with hstate | hstate | ⟨-, hdue⟩
    · simp [passes, hstate] at hpassed
    · simp [passes, hstate] at hpassed
    · exact hdue
  · intro hpassed
    by_contra hr
    exact h.not_allFinished (hquiet (fun heq => hr (congrArg some heq)) hpassed)

theorem disconnect (hfresh : Fresh s) :
    Opening { s with toService := s.toService.carryOut .disconnect, passed := false }
      j kind status := by
  have hdue := hfresh.due_launch
  have hlt := (List.getElem?_eq_some_iff.mp h.job).1
  refine ⟨(getElem?_append_left hlt).trans h.job, h.opens, h.unfinished, h.handle, h.held, ?_,
    Or.inr (Or.inr ⟨rfl, hdue⟩), fun _ _ => hdue, fun hpassed => Bool.noConfusion hpassed⟩
  intro i job hi hij
  change (s.jobs ++ [⟨.disconnection, .launched⟩])[i]? = some job at hi
  rw [getElem?_append] at hi
  split_ifs at hi
  · exact h.others i job hi hij
  · obtain rfl := mem_singleton.mp (mem_of_getElem? hi)
    exact Or.inr ⟨rfl, Or.inl rfl⟩

theorem setStatus {held : Slot → Option ℕ} (hstatus : status' ≠ .finished)
    (hheld : held .connectionJob = s.held .connectionJob) :
    Opening { s with jobs := s.jobs.set j ⟨kind, status'⟩, held := held } j kind status' := by
  have hdue : ∀ p, Due s.jobs s.point p → Due (s.jobs.set j ⟨kind, status'⟩) s.point p :=
    fun p hdue => hdue.set h.job fun hfinished => absurd hfinished hstatus
  refine ⟨getElem?_set_self (List.getElem?_eq_some_iff.mp h.job).1, h.opens, hstatus, h.handle,
    hheld.trans h.held, ?_, ?_, fun hlast hpassed => hdue _ (h.answered hlast hpassed), h.pending⟩
  · intro i job hi hij
    exact h.others i job ((getElem?_set_ne (Ne.symm hij)).symm.trans hi) hij
  · exact h.state.imp_right (Or.imp_right (And.imp_right (hdue _)))

theorem join (hi : s.jobs[i]? = some ⟨.disconnection, .launched⟩) :
    Opening { s with jobs := s.jobs.set i ⟨.disconnection, .joining j⟩ } j kind status := by
  have hij := h.ne_of_disconnection hi
  have hdue : ∀ p, Due s.jobs s.point p →
      Due (s.jobs.set i ⟨.disconnection, .joining j⟩) s.point p :=
    fun p hdue => hdue.set hi fun hfinished => Status.noConfusion hfinished
  refine ⟨(getElem?_set_ne hij).trans h.job, h.opens, h.unfinished, h.handle, h.held, ?_, ?_,
    fun hlast hpassed => hdue _ (h.answered hlast hpassed), h.pending⟩
  · intro k job hk hkj
    rcases Ordered.getElem?_set_cases hk with ⟨rfl, rfl⟩ | ⟨-, hold⟩
    · exact Or.inr ⟨rfl, Or.inr rfl⟩
    · exact h.others k job hold hkj
  · exact h.state.imp_right (Or.imp_right (And.imp_right (hdue _)))

theorem moved {t : Service} (hmoved : s.toService.Moved i t) :
    ∃ status', Opening { s with toService := t } j kind status' := by
  by_cases hij : i = j
  · subst hij
    cases hmoved with
    | stays => exact ⟨status, h⟩
    | joins hi _ _ =>
      obtain rfl := h.kind_eq hi
      exact ⟨_, h.setStatus Status.noConfusion rfl⟩
    | starts hi _ =>
      obtain rfl := h.kind_eq hi
      exact ⟨_, h.setStatus Status.noConfusion (s.toService.held_proceed i h.opens)⟩
    | resumes hi _ =>
      obtain rfl := h.kind_eq hi
      exact ⟨_, h.setStatus Status.noConfusion (s.toService.held_proceed i h.opens)⟩
  · have hnot := h.not_finished
    cases hmoved with
    | stays => exact ⟨status, h⟩
    | joins hi hjoins hheld =>
      obtain ⟨rfl, -⟩ := h.waitsFor hi hij Status.noConfusion
      obtain rfl := some.inj hjoins
      obtain rfl := some.inj (h.held.symm.trans hheld)
      exact ⟨status, h.join hi⟩
    | starts hi hdone =>
      obtain ⟨rfl, -⟩ := h.waitsFor hi hij Status.noConfusion
      rw [hdone .connectionJob j rfl h.held] at hnot
      cases hnot
    | resumes hi hdone =>
      rcases (h.waitsFor hi hij Status.noConfusion).2 with hlaunched | hjoining
      · cases hlaunched
      · obtain rfl := Status.joining.inj hjoining
        rw [hdone] at hnot
        cases hnot

theorem goTo {handle : ℤ} {p : Point} (hhandle : HandleAt kind p handle) :
    Opening ({ s with tunnelHandle := handle }.goTo j p) j kind status := by
  have hdue : Due s.jobs s.point .entered → Due s.jobs (Function.update s.point j p) .entered := by
    rintro ⟨i, status', hi, hstatus, hpoint⟩
    have hij := h.ne_of_disconnection hi
    exact ⟨i, status', hi, hstatus, (Function.update_of_ne hij p s.point).trans hpoint⟩
  refine ⟨h.job, h.opens, h.unfinished, ?_, h.held, h.others, ?_,
    fun hlast hpassed => hdue (h.answered hlast hpassed), h.pending⟩
  · change HandleAt kind (Function.update s.point j p j) handle
    rwa [Function.update_self]
  · exact h.state.imp_right (Or.imp_right (And.imp_right hdue))

end

/-- When the coroutine that opens the tunnel finishes, only disconnections are left. -/
theorem finish (h : Opening s j kind .running) (hfresh : Fresh s) {state : ProtocolState}
    (hlevel : state = .connected ∧ s.tunnelHandle ≠ -1 ∨
      state = .disconnected ∧ s.tunnelHandle = -1) :
    Resting ({ s with protocolState := state }.finish j) := by
  have hj : ({ s with protocolState := state } : WireguardService).jobs[j]? = some ⟨kind, .running⟩ :=
    h.job
  rw [finish_of_running hj]
  have hdue : ∀ p, Due s.jobs s.point p → Due (s.jobs.set j ⟨kind, .finished⟩) s.point p :=
    fun p hdue => hdue.set h.job fun _ => Or.inl h.opens
  refine ⟨?_, ?_, ?_, fun hpassed => Or.inl (h.pending hpassed)⟩
  · intro job hjob
    obtain ⟨i, hi⟩ := getElem?_of_mem hjob
    rcases Ordered.getElem?_set_cases hi with ⟨-, rfl⟩ | ⟨hij, hold⟩
    · exact Or.inr rfl
    · rcases h.others i job hold hij with hfinished | ⟨hkind, -⟩
      · exact Or.inr hfinished
      · exact Or.inl hkind
  · rcases hlevel with ⟨rfl, hhandle⟩ | ⟨rfl, hhandle⟩
    · by_cases hlast : s.lastRequest = some .disconnect ∧ s.passed = false
      · exact .due (Or.inl rfl) hhandle (hdue _ (h.answered hlast.1 hlast.2))
      · refine .up rfl hhandle fun hdisconnect => ?_
        by_contra hpassed
        exact hlast ⟨hdisconnect, by simpa using hpassed⟩
    · exact .down rfl hhandle
  · intro hturnedOff
    have hentered := h.due_eq hfresh (hturnedOff.of_set h.job h.unfinished)
    cases hentered

theorem startVpn (h : Opening s j .connection .running) (hfresh : Fresh s) (o : Outcome) :
    Resting (s.startVpn j o) ∨ Opening (s.startVpn j o) j .connection .running := by
  have hhandle := h.handle
  unfold WireguardService.startVpn
  split
  case h_1 hpoint =>
    rw [hpoint] at hhandle
    split_ifs with hparses hopen
    · exact Or.inr (h.goTo hhandle)
    · exact absurd hhandle hopen
    · exact Or.inr (h.goTo hhandle)
  case h_2 hpoint =>
    rw [hpoint] at hhandle
    split_ifs
    · exact Or.inr (h.goTo hhandle)
    · exact Or.inr (h.goTo trivial)
  case h_3 hpoint =>
    split_ifs with hfails
    · exact Or.inr (h.goTo rfl)
    · refine Or.inr (h.goTo ?_)
      change s.tunnelHandle ≠ -1
      omega
  case h_4 hpoint =>
    rw [hpoint] at hhandle
    exact Or.inl (h.finish hfresh (Or.inl ⟨rfl, hhandle⟩))
  case h_5 hpoint =>
    rw [hpoint] at hhandle
    exact Or.inl (h.finish hfresh (Or.inr ⟨rfl, hhandle⟩))
  case h_6 => exact Or.inr h

theorem step (h : Opening s j kind status) (hfresh : Fresh s) (i : ℕ) (o : Outcome) :
    Resting (s.step i o) ∨ Opening (s.step i o) j kind status := by
  unfold WireguardService.step
  by_cases hij : i = j
  · subst hij
    rw [h.job]
    split
    case h_1 hjob =>
      obtain ⟨rfl, rfl⟩ := Job.mk.inj (some.inj hjob)
      exact h.startVpn hfresh o
    case h_2 hjob =>
      obtain ⟨rfl, -⟩ := Job.mk.inj (some.inj hjob)
      exact absurd rfl h.opens
    case h_3 hjob =>
      obtain ⟨rfl, rfl⟩ := Job.mk.inj (some.inj hjob)
      exact Or.inl (h.finish hfresh (Or.inl ⟨rfl, h.handle⟩))
    case h_4 => exact Or.inr h
  · split
    case h_1 hi => exact absurd hi (h.not_running hij)
    case h_2 hi => exact absurd hi (h.not_running hij)
    case h_3 hi => exact absurd hi (h.not_running hij)
    case h_4 => exact Or.inr h

end Opening

end Opening

section Run

variable {s : WireguardService}

theorem Opening.launch (hfresh : Fresh s) (hall : s.AllFinished) (kind : Kind)
    {state : ProtocolState} (hopens : kind ≠ .disconnection)
    (hhandle : HandleAt kind .entered s.tunnelHandle)
    (hstate : state = .connecting ∨ state = .reconnecting)
    (hlast : s.lastRequest ≠ some .disconnect) :
    Opening { s with
        toService := { s.toService with protocolState := state }.launch kind
        passed := false } s.jobs.length kind .launched := by
  have hpoint : s.point s.jobs.length = .entered := hfresh.point_of_le le_rfl
  refine ⟨getElem?_concat_length, hopens, Status.noConfusion, ?_, ?_, ?_,
    hstate.imp_right Or.inl, fun hdisconnect => absurd hdisconnect hlast,
    fun hpassed => Bool.noConfusion hpassed⟩
  · exact hpoint.symm ▸ hhandle
  · cases kind with
    | connection => rfl
    | reconnection => rfl
    | disconnection => exact absurd rfl hopens
  · intro i job hi hij
    change (s.jobs ++ [⟨kind, .launched⟩])[i]? = some job at hi
    rw [getElem?_append_left] at hi
    · exact Or.inl (hall job (mem_of_getElem? hi))
    · have := (List.getElem?_eq_some_iff.mp hi).1
      rw [length_append, length_singleton] at this
      omega

theorem Resting.disconnect (h : Resting s) (hfresh : Fresh s)
    (hpasses : s.passes .disconnect = true) :
    Resting { s with toService := s.toService.carryOut .disconnect, passed := false } := by
  have hdue := hfresh.due_launch
  refine ⟨?_, ?_, ?_, fun hpassed => Bool.noConfusion hpassed⟩
  · intro job hjob
    rcases mem_append.mp hjob with hjob | hjob
    · exact h.jobs job hjob
    · obtain rfl := mem_singleton.mp hjob
      exact Or.inl rfl
  · cases h.level with
    | unknown h₁ h₂ h₃ => simp [passes, h₁] at hpasses
    | down h₁ h₂ => simp [passes, h₁] at hpasses
    | stopping h₁ h₂ =>
      exact .stopping (Or.inr rfl) (h₂.imp (fun hold => hold.append _) fun hold => hold.append _)
    | due h₁ h₂ h₃ => exact .due (Or.inr rfl) h₂ hdue
    | up h₁ h₂ h₃ => exact .due (Or.inr rfl) h₂ hdue
  · rintro ⟨i, status, hi, hstatus, hpoint⟩
    change (s.jobs ++ [⟨.disconnection, .launched⟩])[i]? = _ at hi
    rw [getElem?_append] at hi
    split_ifs at hi with hlt
    · exact h.closed ⟨i, status, hi, hstatus, hpoint⟩
    · exact absurd (hfresh.point_of_le (not_lt.mp hlt)) (hpoint ▸ Point.noConfusion)

/-- With nothing else to do, the state shows whether the tunnel is open. -/
theorem Resting.of_allFinished (h : Resting s) (hall : s.AllFinished) :
    s.protocolState = .unknown ∧ s.tunnelHandle = -1 ∧ s.lastRequest ≠ some .disconnect ∨
    s.protocolState = .disconnected ∧ s.tunnelHandle = -1 ∨
    s.protocolState = .connected ∧ s.tunnelHandle ≠ -1 ∧
      (s.lastRequest = some .disconnect → s.passed = true) := by
  have hnone : ∀ p, ¬ Due s.jobs s.point p := fun p => Due.not_of_finished hall
  cases h.level with
  | unknown h₁ h₂ h₃ => exact Or.inl ⟨h₁, h₂, h₃⟩
  | down h₁ h₂ => exact Or.inr (Or.inl ⟨h₁, h₂⟩)
  | stopping h₁ h₂ => exact absurd h₂ (not_or.mpr ⟨hnone _, hnone _⟩)
  | due h₁ h₂ h₃ => exact absurd h₃ (hnone _)
  | up h₁ h₂ h₃ => exact Or.inr (Or.inr ⟨h₁, h₂, h₃⟩)

theorem Resting.carryOut (h : Resting s) (hfresh : Fresh s) (hall : s.AllFinished) {r : Request}
    (hr : s.lastRequest = some r) (hdisconnect : r ≠ .disconnect) (hpasses : s.passes r = true) :
    let s' := { s with toService := s.toService.carryOut r, passed := false }
    Resting s' ∨ ∃ j kind status, Opening s' j kind status := by
  have hlast : s.lastRequest ≠ some .disconnect :=
    fun hlast => hdisconnect (some.inj (hr.symm.trans hlast))
  have hlevel := h.of_allFinished hall
  cases r with
  | disconnect => exact absurd rfl hdisconnect
  | connect r =>
    have hclosed : s.tunnelHandle = -1 := by
      rcases hlevel with ⟨-, hclosed, -⟩ | ⟨-, hclosed⟩ | ⟨hstate, -⟩
      · exact hclosed
      · exact hclosed
      · simp [passes, hstate] at hpasses
    by_cases hvalid : r.isValid = true
    · refine Or.inr ⟨s.jobs.length, .connection, .launched, ?_⟩
      rw [Service.carryOut, if_pos hvalid]
      exact Opening.launch hfresh hall .connection Kind.noConfusion hclosed (Or.inl rfl) hlast
    · refine Or.inl ?_
      rw [Service.carryOut, if_neg hvalid]
      exact ⟨h.jobs, .down rfl hclosed, fun _ => hclosed, fun hpassed => Bool.noConfusion hpassed⟩
  | reconnect =>
    have hopen : s.tunnelHandle ≠ -1 := by
      rcases hlevel with ⟨hstate, -⟩ | ⟨hstate, -⟩ | ⟨-, hopen, -⟩
      · simp [passes, hstate] at hpasses
      · simp [passes, hstate] at hpasses
      · exact hopen
    exact Or.inr ⟨_, _, _,
      Opening.launch hfresh hall .reconnection Kind.noConfusion hopen (Or.inr rfl) hlast⟩

theorem Consistent.request (h : Consistent s) {r : Request}
    (hquiet : (WireguardEvent.request r).Quiet s) : Consistent (s.request r) := by
  refine ⟨h.1.run (.request r), ?_⟩
  unfold WireguardService.request
  split_ifs with hpassed
  · exact h.2
  · have hpassed : s.passed = false := by simpa using hpassed
    have hall : r ≠ .disconnect → s.passes r = true → s.AllFinished := by
      intro hr hpasses
      cases r with
      | connect r => exact hquiet hpassed hpasses
      | disconnect => exact absurd rfl hr
      | reconnect => exact hquiet hpassed hpasses
    rcases h.2 with hresting | ⟨j, kind, status, hopening⟩
    · refine Or.inl (hresting.request ?_ hall)
      rintro rfl
      exact hquiet hpassed
    · exact Or.inr ⟨j, kind, status, hopening.request hall⟩

theorem Consistent.act (h : Consistent s) (hquiet : WireguardEvent.act.Quiet s) :
    Consistent s.act := by
  refine ⟨h.1.act, ?_⟩
  unfold WireguardService.act
  split
  case h_1 r hr =>
    split_ifs with hpassed
    · by_cases hdisconnect : r = .disconnect
      · subst hdisconnect
        rcases h.2 with hresting | ⟨j, kind, status, hopening⟩
        · exact Or.inl (hresting.disconnect h.1 (hquiet hpassed hr))
        · exact Or.inr ⟨j, kind, status, hopening.disconnect h.1⟩
      · have hlast : s.lastRequest ≠ some .disconnect :=
          fun hlast => hdisconnect (some.inj (hr.symm.trans hlast))
        rcases h.2 with hresting | ⟨j, kind, status, hopening⟩
        · obtain ⟨hall, hpasses⟩ := (hresting.pending hpassed).resolve_left hlast
          exact hresting.carryOut h.1 hall hr hdisconnect (hpasses r hr)
        · exact absurd (hopening.pending hpassed) hlast
    · exact h.2
  case h_2 => exact h.2

theorem Consistent.moved {i : ℕ} {t : Service} (h : Consistent s)
    (hmoved : s.toService.Moved i t) : Consistent { s with toService := t } := by
  refine ⟨h.1.moved hmoved, ?_⟩
  rcases h.2 with hresting | ⟨j, kind, status, hopening⟩
  · exact Or.inl (hresting.moved hmoved)
  · exact Or.inr ⟨j, kind, hopening.moved hmoved⟩

theorem Consistent.step (h : Consistent s) (i : ℕ) (o : Outcome) : Consistent (s.step i o) := by
  refine ⟨h.1.step i o, ?_⟩
  rcases h.2 with hresting | ⟨j, kind, status, hopening⟩
  · exact Or.inl (hresting.step i o)
  · rcases hopening.step h.1 i o with hresting | hopening
    · exact Or.inl hresting
    · exact Or.inr ⟨j, kind, status, hopening⟩

theorem Consistent.run {e : WireguardEvent} (h : Consistent s) (hquiet : e.Quiet s) :
    Consistent (e.run s) := by
  cases e with
  | request r => exact h.request hquiet
  | act => exact h.act hquiet
  | start i => exact h.moved (s.toService.moved_start i)
  | resume i => exact h.moved (s.toService.moved_resume i)
  | step i o => exact h.step i o

theorem Consistent.initial : Consistent .initial := by
  refine ⟨fun _ _ => rfl, Or.inl ⟨?_, ?_, fun _ => rfl, fun hpassed => Bool.noConfusion hpassed⟩⟩
  · exact fun job hjob => absurd hjob not_mem_nil
  · exact .unknown rfl rfl (some_ne_none _).symm

def AllQuiet (s : WireguardService) : List WireguardEvent → Prop
  | [] => True
  | e :: events => e.Quiet s ∧ AllQuiet (e.run s) events

theorem Consistent.foldl {events : List WireguardEvent} (h : Consistent s)
    (hquiet : AllQuiet s events) : Consistent (events.foldl WireguardEvent.run s) := by
  induction events generalizing s with
  | nil => exact h
  | cons e events ih => exact ih (h.run hquiet.1) hquiet.2

/-- The tunnel is closed once a disconnect request is carried out. -/
theorem closed_after_disconnect (events : List WireguardEvent)
    (hquiet : AllQuiet .initial events) :
    let s := events.foldl WireguardEvent.run .initial
    s.lastRequest = some .disconnect → s.passed = false → s.AllFinished →
      s.tunnelHandle = -1 ∧ s.protocolState = .disconnected := by
  intro s hlast hpassed hall
  have h : Consistent s := Consistent.initial.foldl hquiet
  rcases h.2 with hresting | ⟨j, kind, status, hopening⟩
  · rcases hresting.of_allFinished hall with ⟨-, -, hother⟩ | ⟨hstate, hhandle⟩ | ⟨-, -, hpending⟩
    · exact absurd hlast hother
    · exact ⟨hhandle, hstate⟩
    · rw [hpassed] at hpending
      exact absurd (hpending hlast) Bool.false_ne_true
  · exact absurd hall hopening.not_allFinished

instance (s : WireguardService) (e : WireguardEvent) : Decidable (e.Quiet s) := by
  unfold WireguardEvent.Quiet
  split <;> infer_instance

instance decidableAllQuiet (s : WireguardService) :
    (events : List WireguardEvent) → Decidable (AllQuiet s events)
  | [] => isTrue trivial
  | e :: events =>
      haveI := decidableAllQuiet (e.run s) events
      inferInstanceAs (Decidable (_ ∧ _))

def proceeds (i : ℕ) : List WireguardEvent := List.replicate 4 (.step i ⟨true, true, 1, true, false⟩)

def connectAtOnce : List WireguardEvent := [.request (.connect ⟨true, true, true⟩), .act]

def disconnectAtOnce : List WireguardEvent := [.request .disconnect, .act]

/-- A tunnel is opened and closed. -/
theorem closed_after_disconnect_once :
    let s := (connectAtOnce ++ .start 0 :: proceeds 0 ++ disconnectAtOnce ++
      .start 1 :: proceeds 1).foldl WireguardEvent.run .initial
    s.tunnelHandle = -1 ∧ s.protocolState = .disconnected :=
  closed_after_disconnect _ (by decide +kernel) rfl rfl (by decide +kernel)

/-- The second disconnection does not wait for the second connection. -/
theorem open_after_disconnect :
    let s := (connectAtOnce ++ .start 0 :: disconnectAtOnce ++ .start 1 :: connectAtOnce ++
      proceeds 0 ++ disconnectAtOnce ++ .resume 1 :: proceeds 1 ++ .start 3 :: proceeds 3 ++
      .start 2 :: proceeds 2).foldl WireguardEvent.run .initial
    s.lastRequest = some .disconnect ∧ s.passed = false ∧ s.AllFinished ∧
      s.tunnelHandle = 1 ∧ s.protocolState = .connected := by
  decide +kernel

end Run

end AmneziaVpn.AmneziaVpnService
