import AmneziaVpn.LinuxDaemon
import AmneziaVpn.WireguardFrames

/-!
# What the interface is programmed with

Only the creation of the interface sets its private key, the parameters of the obfuscation and the
firewall.
-/

namespace AmneziaVpn.LinuxPlatform

open FallibleOps FallibleOps.Op WireguardInterface

def SameProgram (p p' : LinuxPlatform) : Prop :=
  p'.m_tunnel = p.m_tunnel ∧ p'.device.program = p.device.program ∧ p'.firewall = p.firewall

instance : IsPreorder LinuxPlatform SameProgram where
  refl _ := ⟨rfl, rfl, rfl⟩
  trans _ _ _ h h' := ⟨h'.1.trans h.1, h'.2.1.trans h.2.1, h'.2.2.trans h.2.2⟩

theorem keeps_rtmSendRoute (action : List KernelRoute → List KernelRoute) (route : KernelRoute) :
    Keeps SameProgram (rtmSendRoute action route) := by
  intro p
  unfold rtmSendRoute
  split_ifs
  · exact refl p
  · exact refl p
  · split <;> exact ⟨rfl, rfl, rfl⟩

variable {p : LinuxPlatform}

theorem uapiCommand_of_true {f : Device → Device} (h : (uapiCommand f p).1 = true) :
    p.m_tunnel = .Running ∧ (uapiCommand f p).2 = { p.called with device := f p.device } := by
  unfold uapiCommand at h ⊢
  split at h
  · split_ifs at h ⊢ with hrunning
    exact ⟨hrunning, rfl⟩
  · simp at h
  · simp at h

theorem keepsOnSuccess_uapiCommand {f : Device → Device}
    (hf : ∀ device, (f device).program = device.program) :
    KeepsOnSuccess SameProgram (uapiCommand f) := by
  intro p hp
  rw [(uapiCommand_of_true hp).2]
  exact ⟨rfl, hf p.device, rfl⟩

theorem keepsOnSuccess_interfaceRequest {f : LinuxPlatform → LinuxPlatform}
    (hf : ∀ p, SameProgram p (f p)) : KeepsOnSuccess SameProgram (interfaceRequest f) := by
  intro p hp
  unfold interfaceRequest at hp ⊢
  split_ifs at hp ⊢
  exact hf p.called

theorem keepsOnSuccess_addInterfaceIPs (config : InterfaceConfig) :
    KeepsOnSuccess SameProgram (addInterfaceIPs config) := by
  apply KeepsOnSuccess.andThen
  · exact keepsOnSuccess_interfaceRequest fun _ => ⟨rfl, rfl, rfl⟩
  · exact keepsOnSuccess_interfaceRequest fun _ => ⟨rfl, rfl, rfl⟩

theorem keptByMonitor_sameProgram :
    WireguardInterface.KeptByMonitor SameProgram routeMonitor where
  insertRoute _ := keeps_rtmSendRoute _ _
  deleteRoute _ := keeps_rtmSendRoute _ _
  addExclusionRoute _ := keeps_rtmSendRoute _ _
  deleteExclusionRoute _ := keeps_rtmSendRoute _ _

theorem keptByPlatform_sameProgram (qt : QtLibrary) :
    Daemon.KeptByPlatform SameProgram (linux qt) where
  toUtilsKeep := keptByMonitor_sameProgram.utils qt
    (fun _ => keepsOnSuccess_uapiCommand fun _ => rfl)
    (fun _ => keepsOnSuccess_uapiCommand fun _ => rfl)
  updateResolvers _ :=
    Daemon.keepsOnSuccess_onPlatform (keepsOnSuccess_interfaceRequest fun _ => ⟨rfl, rfl, rfl⟩)
  restoreResolvers _ _ := ⟨rfl, rfl, rfl⟩
  addInterfaceIPs config d := keepsOnSuccess_addInterfaceIPs config d.platform
  setMTUAndUp _ :=
    Daemon.keepsOnSuccess_onPlatform (keepsOnSuccess_interfaceRequest fun _ => ⟨rfl, rfl, rfl⟩)
  run _ _ d _ := refl d.platform

/-- The interface and the firewall have what the configuration says. -/
def Programmed (qt : QtLibrary) (config : InterfaceConfig) (p : LinuxPlatform) : Prop :=
  p.device.program = some (program qt config) ∧
    (config.m_killSwitchEnabled = true → p.firewall = .applied (firewallParams qt config))

theorem SameProgram.programmed_iff {p' : LinuxPlatform} (h : SameProgram p p') (qt : QtLibrary)
    (config : InterfaceConfig) : Programmed qt config p' ↔ Programmed qt config p := by
  rw [Programmed, Programmed, h.2.1, h.2.2]

theorem device_enableKillSwitch (qt : QtLibrary) (config : InterfaceConfig) (p : LinuxPlatform) :
    (enableKillSwitch qt config p).2.device = p.device := by
  unfold enableKillSwitch applyFirewallRules
  split_ifs
  · rw [ignore_snd]
    split_ifs <;> rfl
  · rfl

theorem program_addInterface {qt : QtLibrary} {config : InterfaceConfig}
    (h : (addInterface qt config p).1 = true) :
    (addInterface qt config p).2.device.program = some (program qt config) := by
  unfold addInterface at h ⊢
  split_ifs at h ⊢ with hrunning
  rw [andThen_fst, Bool.and_eq_true] at h
  rw [andThen_of_true h.1, device_enableKillSwitch]
  obtain ⟨hconfigured, -⟩ := h
  rw [andThen_fst, Bool.and_eq_true] at hconfigured
  rw [andThen_of_true hconfigured.1, configureInterface, (uapiCommand_of_true hconfigured.2).2]

open Daemon

variable (qt : QtLibrary)

def whenNeeded (config : InterfaceConfig) (d : Daemon LinuxPlatform) : LinuxPlatform :=
  match d.m_connections config.m_hopType with
  | none => d.platform
  | some current =>
      if supportServerSwitching current.m_config config then d.platform
      else (deactivate (linux qt) false d).2.platform

theorem whenNeeded_eq (config : InterfaceConfig) (d : Daemon LinuxPlatform) :
    whenNeeded qt config d = (prepared (linux qt) config d).platform := by
  unfold whenNeeded prepared
  cases d.m_connections config.m_hopType with
  | none => rfl
  | some current =>
    dsimp only
    split_ifs <;> rfl

theorem programmed_bringUp_iff {config : InterfaceConfig} {d : Daemon LinuxPlatform}
    (h : (bringUp qt.toQtParser (linux qt) config d).1 = true) :
    Programmed qt config (bringUp qt.toQtParser (linux qt) config d).2.platform ↔
      if d.platform.m_tunnel = .Running then Programmed qt config d.platform
      else config.m_killSwitchEnabled = true →
        (addInterface qt config d.platform).2.firewall = .applied (firewallParams qt config) := by
  rw [bringUp, andThen_fst, Bool.and_eq_true] at h
  obtain ⟨hensure, hpeer⟩ := h
  rw [bringUp, andThen_of_true hensure]
  have hsame := (keptByPlatform_sameProgram qt).bringUpPeer qt.toQtParser
    ignoresRecords_onPlatform config _ hpeer
  rw [SameProgram.programmed_iff hsame]
  unfold ensureInterface at hensure ⊢
  by_cases hrunning : d.platform.m_tunnel = .Running
  · have hexists : (linux qt).interfaceExists d.platform = true := by simp [linux, hrunning]
    rw [if_pos hexists, if_pos hrunning]
  · have hexists : ¬ (linux qt).interfaceExists d.platform = true := by simp [linux, hrunning]
    rw [if_neg hexists] at hensure ⊢
    rw [if_neg hrunning]
    exact and_iff_right (program_addInterface hensure)

theorem running_of_updatePeer {config : InterfaceConfig}
    (h : ((linux qt).updatePeer config p).1 = true) : p.m_tunnel = .Running := by
  change (updatePeer qt routeMonitor uapiCommand config p).1 = true at h
  unfold updatePeer at h
  cases hendpoint : endpoint config with
  | none => simp [hendpoint] at h
  | some address =>
    simp only [hendpoint, andThen_fst, Bool.and_eq_true] at h
    rw [← (uapiCommand_of_true h.2).1]
    exact (keeps_excludeServer qt config
      keptByMonitor_sameProgram.addExclusionRoute p).1.symm

theorem running_of_switchTo {lastConfig config : InterfaceConfig} {d : Daemon LinuxPlatform}
    (h : (switchTo qt.toQtParser (linux qt) lastConfig config d).1 = true) :
    d.platform.m_tunnel = .Running := by
  simp only [switchTo, andThen_fst, Bool.and_eq_true] at h
  have hupdate := running_of_updatePeer qt (updatePeer_of_switchServer h.1.1.1.1)
  have hsame := (keptByPlatform_sameProgram qt).each_addExclusionRoute
    ignoresRecords_onPlatform.counts (exclusions qt.toQtParser config) d
  exact hsame.1.symm.trans hupdate

def connected : Daemon LinuxPlatform :=
  (activate sampleQt.toQtParser (linux sampleQt) sampleConfig (initial smooth)).2

end AmneziaVpn.LinuxPlatform
