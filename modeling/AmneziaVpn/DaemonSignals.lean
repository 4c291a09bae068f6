import AmneziaVpn.ExclusionBalance
import AmneziaVpn.LinuxDaemon

/-!
# What the daemon reports

An activation starts the timer if it succeeds and emits a signal if it fails.
-/

namespace AmneziaVpn.Daemon

open FallibleOps FallibleOps.Op

variable {σ : Type} (qt : QtParser) (P : DaemonPlatform σ)

def SameReports (d d' : Daemon σ) : Prop :=
  d'.m_handshakeTimer = d.m_handshakeTimer ∧ d'.signals = d.signals

instance : IsPreorder (Daemon σ) SameReports where
  refl _ := ⟨rfl, rfl⟩
  trans _ _ _ h h' := ⟨h'.1.trans h.1, h'.2.trans h.2⟩

theorem sameReports_onPlatform (a : Op σ) : Keeps SameReports (onPlatform a) := fun _ => ⟨rfl, rfl⟩

theorem platformKeeps_sameReports : PlatformKeeps (fun _ => True) SameReports P :=
  platformKeeps_of_onPlatform sameReports_onPlatform

theorem sameReports_deactivate : Keeps SameReports (deactivate P false) :=
  (platformKeeps_sameReports P).deactivate (sameReports_onPlatform _) (fun _ _ => ⟨rfl, rfl⟩)
    (fun _ => ⟨rfl, rfl⟩) fun _ => ⟨rfl, rfl⟩

def Starts (a : Op (Daemon σ)) : Prop :=
  ∀ d, (a d).2.m_handshakeTimer = ((a d).1 || d.m_handshakeTimer) ∧ (a d).2.signals = d.signals

theorem starts_established {front : Op (Daemon σ)} (h : Keeps SameReports front)
    (config : InterfaceConfig) : Starts (front.andThen (established config)) := by
  intro d
  cases hfront : (front d).1 with
  | false =>
    rw [andThen_of_false hfront]
    exact h d
  | true =>
    rw [andThen_of_true hfront]
    exact ⟨rfl, (h d).2⟩

theorem starts_bringUp (config : InterfaceConfig) : Starts (bringUp qt P config) := by
  rw [bringUp_eq]
  apply starts_established
  exact ((platformKeeps_sameReports P).bringUpSteps qt (sameReports_onPlatform _).when
    fun _ _ => ⟨rfl, rfl⟩).keeps

theorem starts_switchTo (lastConfig config : InterfaceConfig) :
    Starts (switchTo qt P lastConfig config) := by
  have hsteps := ((platformKeeps_sameReports P).switchSteps qt (fun _ _ => ⟨rfl, rfl⟩) lastConfig
    config).keeps
  have hregister : Keeps SameReports fun d : Daemon σ => (true, d.register config) :=
    fun _ => ⟨rfl, rfl⟩
  apply starts_established
  exact hsteps.andThen hregister |>.andThen (sameReports_onPlatform P.restoreResolvers)
    |>.andThen ((platformKeeps_sameReports P).maybeUpdateResolvers qt config).keeps
    |>.andThen (sameReports_onPlatform (P.run .Switch config))

section Failures

def isActivationFailure : Signal → Bool
  | .activationFailure => true
  | _ => false

def failures (d : Daemon σ) : ℕ := d.signals.countP isActivationFailure

theorem failures_congr {d d' : Daemon σ} (h : d'.signals = d.signals) : d'.failures = d.failures := by
  rw [failures, failures, h]

theorem failures_failureGuard (a : Op (Daemon σ)) (d : Daemon σ) :
    (failureGuard a d).2.failures = (a d).2.failures + if (a d).1 then 0 else 1 := by
  unfold failureGuard
  split_ifs with h
  · rfl
  · simp [failures, emit, isActivationFailure]

def FailsAgain (config : InterfaceConfig) (d : Daemon σ) : Prop :=
  ∃ current, d.m_connections config.m_hopType = some current ∧
    supportServerSwitching current.m_config config = false ∧ (deactivate P false d).1 = true ∧
    (bringUp qt P config (deactivate P false d).2).1 = false

variable {config : InterfaceConfig}

theorem failures_activate_of_failsAgain {d : Daemon σ} (h : FailsAgain qt P config d) :
    (activate qt P config d).1 = false ∧
      (activate qt P config d).2.failures = d.failures + 2 := by
  obtain ⟨current, hcurrent, hswitch, hdown, hup⟩ := h
  have hquiet : (bringUp qt P config (deactivate P false d).2).2.failures = d.failures :=
    failures_congr ((starts_bringUp qt P config _).2.trans (sameReports_deactivate P d).2)
  have hcall : (deactivate P false).andThen (failureGuard (bringUp qt P config)) d =
      failureGuard (bringUp qt P config) (deactivate P false d).2 := andThen_of_true hdown _
  simp only [activate, hcurrent, hswitch, Bool.false_eq_true, if_false, failureGuard_fst, hcall,
    failures_failureGuard, hup, hquiet]
  simp

/-- Every other activation signals once if it fails, and not at all if it succeeds. -/
theorem failures_activate_of_not_failsAgain {d : Daemon σ} (h : ¬ FailsAgain qt P config d) :
    (activate qt P config d).2.failures =
      d.failures + if (activate qt P config d).1 then 0 else 1 := by
  unfold activate
  rw [failures_failureGuard, failureGuard_fst]
  congr 1
  apply failures_congr
  cases hcurrent : d.m_connections config.m_hopType with
  | none => exact (starts_bringUp qt P config d).2
  | some current =>
    dsimp only
    split_ifs with hswitch
    · exact (starts_switchTo qt P current.m_config config d).2
    · cases hdown : (deactivate P false d).1 with
      | false =>
        rw [andThen_of_false hdown]
        exact (sameReports_deactivate P d).2
      | true =>
        have hup : (bringUp qt P config (deactivate P false d).2).1 = true := by
          by_contra hup
          exact h ⟨current, hcurrent, by simpa using hswitch, hdown, by simpa using hup⟩
        rw [andThen_of_true hdown, failureGuard_of_true hup]
        exact (starts_bringUp qt P config _).2.trans (sameReports_deactivate P d).2

/-- A failure is signalled once unless the activation deactivates first. -/
theorem failures_activate_iff (config : InterfaceConfig) (d : Daemon σ) :
    (activate qt P config d).2.failures =
        d.failures + (if (activate qt P config d).1 then 0 else 1) ↔
      ¬ FailsAgain qt P config d := by
  refine ⟨fun h hagain => ?_, failures_activate_of_not_failsAgain qt P⟩
  obtain ⟨hfalse, htwice⟩ := failures_activate_of_failsAgain qt P hagain
  rw [hfalse, htwice] at h
  simp at h

open LinuxPlatform

def connectedOnce : Daemon LinuxPlatform :=
  let d := (activate sampleQt.toQtParser (linux sampleQt) sampleConfig (initial smooth)).2
  { d with platform := { d.platform with attempts := fun n => if n = 16 then .failed else .done } }

/-- The call that fails starts the tunnel process with the new key. -/
theorem failures_activate_other_key :
    let config : InterfaceConfig := { sampleConfig with m_privateKey := "c" }
    let result := activate sampleQt.toQtParser (linux sampleQt) config connectedOnce
    result.1 = false ∧ result.2.failures = connectedOnce.failures + 2 := by
  decide +kernel

end Failures

end AmneziaVpn.Daemon
