import AmneziaVpn.ExclusionBalance
import AmneziaVpn.LinuxDaemonProgram

/-!
# Counts of the excluded addresses over runs

Over a run of calls the counts agree with the connections throughout if and only if every call meets
its condition.
-/

namespace AmneziaVpn.Daemon

open FallibleOps FallibleOps.Op

variable {σ : Type} (qt : QtParser) (P : DaemonPlatform σ)

def BalancedActivate (config : InterfaceConfig) (d : Daemon σ) : Prop :=
  match d.m_connections config.m_hopType with
  | none => BalancedUp qt P config d
  | some current =>
      if supportServerSwitching current.m_config config then
        BalancedSwitch qt P current.m_config config d
      else BalancedDown qt P false d ∧
        ((deactivate P false d).1 = true → BalancedUp qt P config (deactivate P false d).2)

theorem counted_activate_iff {config : InterfaceConfig} {d : Daemon σ} (h : Counted qt d) :
    Counted qt (activate qt P config d).2 ↔ BalancedActivate qt P config d := by
  unfold activate BalancedActivate
  rw [(sameBooks_failureGuard _ d).counted_iff]
  cases hcurrent : d.m_connections config.m_hopType with
  | none => exact counted_bringUp_iff qt P h hcurrent
  | some current =>
    dsimp only
    split_ifs with hswitch
    · exact counted_switchTo_iff qt P h hcurrent
    · have hdown := counted_deactivate_iff qt P false h
      cases htrue : (deactivate P false d).1 with
      | false =>
        rw [andThen_of_false htrue, hdown]
        exact (and_iff_left fun hfalse => absurd hfalse Bool.false_ne_true).symm
      | true =>
        have hbalanced : BalancedDown qt P false d := fun _ => Or.inl htrue
        have hnone : (deactivate P false d).2.m_connections config.m_hopType = none := by
          rw [(platform_deactivate htrue).2.2.2]
        rw [andThen_of_true htrue, (sameBooks_failureGuard _ _).counted_iff,
          counted_bringUp_iff qt P (hdown.mpr hbalanced) hnone]
        exact ⟨fun hup => ⟨hbalanced, fun _ => hup⟩, fun hboth => hboth.2 rfl⟩

inductive Call
  | activate (config : InterfaceConfig)
  | deactivate

variable (platform : σ)

def call (c : Call) (d : Daemon σ) : Daemon σ :=
  match c with
  | .activate config => (activate qt P config { d with platform }).2
  | .deactivate => (deactivate P true { d with platform }).2

def Balanced (c : Call) (d : Daemon σ) : Prop :=
  match c with
  | .activate config => BalancedActivate qt P config { d with platform }
  | .deactivate => BalancedDown qt P true { d with platform }

theorem counted_call_iff {d : Daemon σ} (h : Counted qt d) (platform : σ) (c : Call) :
    Counted qt (call qt P platform c d) ↔ Balanced qt P platform c d := by
  have hplatform : Counted qt { d with platform } := h
  cases c with
  | activate config => exact counted_activate_iff qt P hplatform
  | deactivate => exact counted_deactivate_iff qt P true hplatform

def CountedThroughout : List (σ × Call) → Daemon σ → Prop
  | [], d => Counted qt d
  | (platform, c) :: calls, d =>
      Counted qt d ∧ CountedThroughout calls (call qt P platform c d)

def BalancedThroughout : List (σ × Call) → Daemon σ → Prop
  | [], _ => True
  | (platform, c) :: calls, d =>
      Balanced qt P platform c d ∧ BalancedThroughout calls (call qt P platform c d)

theorem countedThroughout_iff_of_counted (calls : List (σ × Call)) {d : Daemon σ}
    (h : Counted qt d) :
    CountedThroughout qt P calls d ↔ BalancedThroughout qt P calls d := by
  induction calls generalizing d with
  | nil => exact iff_of_true h trivial
  | cons event calls ih =>
    obtain ⟨platform, c⟩ := event
    rw [CountedThroughout, BalancedThroughout, and_iff_right h, ← counted_call_iff qt P h]
    constructor
    · intro hrest
      have hcounted : Counted qt (call qt P platform c d) := by
        cases calls with
        | nil => exact hrest
        | cons event calls => exact hrest.1
      exact ⟨hcounted, (ih hcounted).mp hrest⟩
    · rintro ⟨hcounted, hrest⟩
      exact (ih hcounted).mpr hrest

theorem counted_initial : Counted qt (initial platform) := fun _ => rfl

open LinuxPlatform

def netConfig : InterfaceConfig := { sampleConfig with m_excludedAddresses := ["10.0.0.0/8"] }

def excluding : Daemon LinuxPlatform :=
  (activate sampleQt.toQtParser (linux sampleQt) netConfig (initial smooth)).2

end AmneziaVpn.Daemon
