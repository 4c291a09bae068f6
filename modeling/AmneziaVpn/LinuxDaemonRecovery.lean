import AmneziaVpn.LinuxEndpointRoute

/-!
# Recovering from failures

Whatever failed before, deactivating and activating again is meant to bring the connection up.
-/

namespace AmneziaVpn.LinuxPlatform

open FallibleOps FallibleOps.Op Daemon WireguardInterface

structure Alive (p : LinuxPlatform) : Prop where
  allDone : AllDone p
  running : p.m_tunnel = .Running

def StaysAlive (p p' : LinuxPlatform) : Prop := Alive p → Alive p'

instance : IsPreorder LinuxPlatform StaysAlive where
  refl _ := id
  trans _ _ _ h h' := h' ∘ h

theorem staysAlive_rtmSendRoute (action : List KernelRoute → List KernelRoute)
    (route : KernelRoute) : Keeps StaysAlive (rtmSendRoute action route) := by
  intro p h
  unfold rtmSendRoute
  split_ifs
  · exact h
  · exact h
  · rw [h.allDone.next]
    exact ⟨h.allDone.called, h.running⟩

theorem staysAlive_uapiCommand (f : Device → Device) : Keeps StaysAlive (uapiCommand f) := by
  intro p h
  unfold uapiCommand
  rw [h.allDone.next]
  dsimp only
  rw [if_pos h.running]
  exact ⟨h.allDone.called, h.running⟩

theorem staysAlive_interfaceRequest {f : LinuxPlatform → LinuxPlatform}
    (hf : ∀ p, StaysAlive p (f p)) : Keeps StaysAlive (interfaceRequest f) := by
  intro p h
  unfold interfaceRequest
  rw [if_pos ⟨h.running, h.allDone.next⟩]
  exact hf _ ⟨h.allDone.called, h.running⟩

theorem keptByMonitor_staysAlive : WireguardInterface.KeptByMonitor StaysAlive routeMonitor where
  insertRoute _ := staysAlive_rtmSendRoute _ _
  deleteRoute _ := staysAlive_rtmSendRoute _ _
  addExclusionRoute _ := staysAlive_rtmSendRoute _ _
  deleteExclusionRoute _ := staysAlive_rtmSendRoute _ _

theorem staysAlive_deletePeer (qt : QtLibrary) (config : InterfaceConfig) :
    Keeps StaysAlive ((linux qt).deletePeer config) :=
  keeps_deletePeer qt config keptByMonitor_staysAlive.deleteExclusionRoute
    fun _ => staysAlive_uapiCommand _

theorem keptByPlatform_staysAlive (qt : QtLibrary) : KeptByPlatform StaysAlive (linux qt) where
  toUtilsKeep := keptByMonitor_staysAlive.utils qt
    (fun _ => (staysAlive_uapiCommand _).onSuccess) (fun _ => (staysAlive_uapiCommand _).onSuccess)
  updateResolvers _ := Keeps.when
    (keeps_onPlatform (staysAlive_interfaceRequest fun _ h => ⟨h.allDone, h.running⟩))
  restoreResolvers _ _ h := ⟨h.allDone, h.running⟩
  addInterfaceIPs _ := Keeps.when (keeps_onPlatform
    (Keeps.andThen (staysAlive_interfaceRequest fun _ h => ⟨h.allDone, h.running⟩)
      (staysAlive_interfaceRequest fun _ h => ⟨h.allDone, h.running⟩)))
  setMTUAndUp _ := Keeps.when
    (keeps_onPlatform (staysAlive_interfaceRequest fun _ h => ⟨h.allDone, h.running⟩))
  run _ _ d _ := refl_of StaysAlive d.platform

section Deactivation

variable (qt : QtLibrary) (emitSignals : Bool) {d : Daemon LinuxPlatform}

theorem runDown_linux (d : Daemon LinuxPlatform) : runDown (linux qt) d = (true, d) := by
  unfold runDown
  cases d.connections <;> rfl

def resolversRestored (d : Daemon LinuxPlatform) : Daemon LinuxPlatform :=
  let d := if emitSignals then d.emit .disconnected else d
  { d with platform := { d.platform with resolvers := [] } }

@[simp] theorem resolversRestored_platform : (resolversRestored emitSignals d).platform =
    { d.platform with resolvers := [] } := by
  unfold resolversRestored
  cases emitSignals <;> rfl

@[simp] theorem resolversRestored_connections :
    (resolversRestored emitSignals d).m_connections = d.m_connections := by
  unfold resolversRestored
  cases emitSignals <;> rfl

theorem lookForInterface_linux : lookForInterface (linux qt) emitSignals d =
    (decide (d.platform.m_tunnel = .Running), resolversRestored emitSignals d) := by
  have hrestored : (runDown (linux qt)
      |>.andThen (fun d => (true, if emitSignals then d.emit .disconnected else d))
      |>.andThen (onPlatform (linux qt).restoreResolvers)) d =
        (true, resolversRestored emitSignals d) := by
    simp only [andThen, runDown_linux, if_true]
    rfl
  rw [lookForInterface, andThen, hrestored, if_pos rfl]
  simp [linux, resolversRestored_platform]

/-- A deactivation that does not find the tunnel process running leaves the connections. -/
theorem deactivate_notRunning (h : d.platform.m_tunnel ≠ .Running) :
    deactivate (linux qt) emitSignals d = (false, resolversRestored emitSignals d) := by
  have hlook := lookForInterface_linux qt emitSignals (d := d)
  rw [decide_eq_false h] at hlook
  simp [deactivate_eq, tearDown, andThen, hlook]

theorem tearDown_fst_of_running (h : d.platform.m_tunnel = .Running) :
    (tearDown (linux qt) emitSignals d).1 = true := by
  have hlook := lookForInterface_linux qt emitSignals (d := d)
  rw [decide_eq_true h] at hlook
  simp [tearDown, clearExclusions, hlook]

/-- A deactivation that finds the tunnel process running removes it with all connections. -/
theorem deactivate_alive (h : Alive d.platform) :
    Idle (deactivate (linux qt) emitSignals d).2.platform ∧
      (deactivate (linux qt) emitSignals d).2.m_connections = fun _ => none := by
  have htear := tearDown_fst_of_running qt emitSignals h.running
  have halive := (keptByPlatform_staysAlive qt).tearDown (staysAlive_deletePeer qt) emitSignals d
    htear h
  obtain ⟨hdeleted, hidle, -⟩ := deleteInterface_running halive.allDone halive.running
  have htrue : (deactivate (linux qt) emitSignals d).1 = true := by
    rw [deactivate_eq, andThen_fst, andThen_fst, htear, Bool.true_and, Bool.and_true]
    exact hdeleted
  obtain ⟨-, -, hplatform, hconnections⟩ := platform_deactivate htrue
  rw [hplatform]
  exact ⟨hidle, hconnections⟩

end Deactivation

section BringingUp

variable (qt : QtLibrary) {config : InterfaceConfig} {d : Daemon LinuxPlatform}

theorem succeeds_onPlatform {a : Op LinuxPlatform} (h : Succeeds Up a Up) :
    Succeeds (fun d => Up d.platform) (onPlatform a) fun d => Up d.platform :=
  fun d hd => h d.platform hd

theorem succeeds_uapiCommand (f : Device → Device) : Succeeds Up (uapiCommand f) Up := by
  intro p h
  unfold uapiCommand
  rw [h.allDone.next]
  dsimp only
  rw [if_pos h.running]
  exact ⟨rfl, h.allDone.called, h.running, h.monitored⟩

theorem succeeds_interfaceRequest {f : LinuxPlatform → LinuxPlatform}
    (hf : ∀ p, Up p → Up (f p)) : Succeeds Up (interfaceRequest f) Up := by
  intro p h
  unfold interfaceRequest
  rw [if_pos ⟨h.running, h.allDone.next⟩]
  exact ⟨rfl, hf _ ⟨h.allDone.called, h.running, h.monitored⟩⟩

variable {range : IPAddress}

theorem succeeds_newRoute (hrange : ¬ Unroutable range) (via : Via) :
    Succeeds Up (newRoute ⟨range, via⟩) Up := by
  intro p h
  refine ⟨?_, up_rtmSendRoute h _ _⟩
  rw [newRoute, rtmSendRoute_up h hrange]

theorem succeeds_updatePeer (hendpoint : endpoint config ≠ none) :
    Succeeds Up ((linux qt).updatePeer config) Up := by
  change Succeeds Up (updatePeer qt routeMonitor uapiCommand config) Up
  unfold updatePeer
  cases haddress : endpoint config with
  | none => exact absurd haddress hendpoint
  | some address =>
    refine Succeeds.andThen (fun p h => ?_) (succeeds_uapiCommand _)
    unfold excludeServer
    split_ifs
    · exact ⟨each_fst _ _ _, up_each (fun _ _ hp => up_rtmSendRoute hp _ _) _ h⟩
    · exact ⟨rfl, h⟩

theorem succeeds_updateRoutePrefix (hrange : ¬ Unroutable range) :
    Succeeds Up ((linux qt).updateRoutePrefix range) Up := by
  intro p h
  change (updateRoutePrefix qt routeMonitor range p).1 = true ∧
    Up (updateRoutePrefix qt routeMonitor range p).2
  unfold updateRoutePrefix
  rw [if_neg (by simp [routeMonitor, h.monitored])]
  split_ifs with hlength htype
  · exact succeeds_newRoute hrange .tunnel p h
  · exact absurd htype hrange
  · exact Succeeds.allOf (fun half hhalf => succeeds_newRoute (routable_halves qt _ half hhalf) .tunnel)
      p h

theorem routable_of_updateRoutePrefix {p : LinuxPlatform}
    (h : ((linux qt).updateRoutePrefix range p).1 = true) : ¬ Unroutable range := by
  intro hrange
  change (updateRoutePrefix qt routeMonitor range p).1 = true at h
  unfold updateRoutePrefix at h
  split_ifs at h
  · change (newRoute ⟨range, .tunnel⟩ p).1 = true at h
    rw [newRoute, rtmSendRoute_unroutable hrange] at h
    exact Bool.false_ne_true h
  · contradiction

def Servable (config : InterfaceConfig) : Prop :=
  endpoint config ≠ none ∧
    ∀ range ∈ config.m_allowedIPAddressRanges, ¬ Unroutable range

theorem up_each_addExclusionRoute (ranges : List IPAddress) :
    Succeeds (fun d => Up d.platform)
      (Op.each (addExclusionRoute (linux qt).toWireguardUtils) ranges) fun d => Up d.platform := by
  intro d h
  have hstays := (keptByPlatform_staysUp qt).each_addExclusionRoute
    ignoresRecords_onPlatform.counts ranges d
  exact ⟨each_fst _ _ _, StaysUp.up hstays h⟩

theorem succeeds_updateResolvers (resolvers : List QHostAddress) :
    Succeeds Up ((linux qt).updateResolvers resolvers) Up :=
  succeeds_interfaceRequest fun _ h => ⟨h.allDone, h.running, h.monitored⟩

theorem succeeds_addInterfaceIPs (config : InterfaceConfig) :
    Succeeds Up (addInterfaceIPs config) Up := by
  apply Succeeds.andThen
  · exact succeeds_interfaceRequest fun _ h => ⟨h.allDone, h.running, h.monitored⟩
  · exact succeeds_interfaceRequest fun _ h => ⟨h.allDone, h.running, h.monitored⟩

theorem succeeds_setMTUAndUp (config : InterfaceConfig) : Succeeds Up (setMTUAndUp config) Up :=
  succeeds_interfaceRequest fun _ h => ⟨h.allDone, h.running, h.monitored⟩

theorem succeeds_maybeUpdateResolvers (config : InterfaceConfig) :
    Succeeds (fun d => Up d.platform) (maybeUpdateResolvers qt.toQtParser (linux qt) config)
      fun d => Up d.platform := by
  intro d h
  unfold maybeUpdateResolvers
  by_cases hhop : config.m_hopType = .MultiHopExit ∨ config.m_hopType = .SingleHop
  · rw [if_pos hhop]
    exact succeeds_onPlatform (succeeds_updateResolvers qt _) d h
  · rw [if_neg hhop]
    exact ⟨rfl, h⟩

theorem succeeds_bringUpPeer (h : Servable config) :
    Succeeds (fun d => Up d.platform) (bringUpPeer qt.toQtParser (linux qt) config)
      fun d => Up d.platform := by
  have hroutes : Succeeds (fun d => Up d.platform)
      (Op.allOf (fun ip => onPlatform ((linux qt).updateRoutePrefix ip))
        config.m_allowedIPAddressRanges) fun d => Up d.platform :=
    Succeeds.allOf fun range hrange =>
      succeeds_onPlatform (succeeds_updateRoutePrefix qt (h.2 range hrange))
  have hrun : Succeeds (fun d => Up d.platform) (onPlatform ((linux qt).run .Up config))
      fun d => Up d.platform := fun _ hd => ⟨rfl, hd⟩
  have hestablished : Succeeds (fun d => Up d.platform) (established config)
      fun d => Up d.platform := fun _ hd => ⟨rfl, hd⟩
  exact (up_each_addExclusionRoute qt _).andThen
    (succeeds_onPlatform (succeeds_updatePeer qt h.1))
    |>.andThen (succeeds_maybeUpdateResolvers qt config)
    |>.andThen (succeeds_onPlatform (succeeds_addInterfaceIPs config))
    |>.andThen (succeeds_onPlatform (succeeds_setMTUAndUp config))
    |>.andThen hroutes |>.andThen hrun |>.andThen hestablished

theorem servable_of_bringUpPeer
    (h : (bringUpPeer qt.toQtParser (linux qt) config d).1 = true) : Servable config := by
  simp only [bringUpPeer, andThen_fst, Bool.and_eq_true, each_fst, true_and] at h
  obtain ⟨⟨⟨⟨⟨⟨hupdate, -⟩, -⟩, -⟩, hranges⟩, -⟩, -⟩ := h
  constructor
  · intro hnone
    change (updatePeer qt routeMonitor uapiCommand config _).1 = true at hupdate
    simp [updatePeer, hnone] at hupdate
  · intro range hrange
    obtain ⟨d', hd'⟩ := of_allOf hranges range hrange
    exact routable_of_updateRoutePrefix qt hd'

end BringingUp

section Recovery

variable (qt : QtLibrary) {config : InterfaceConfig} {d : Daemon LinuxPlatform}

def ConnectedOnly (config : InterfaceConfig) (d : Daemon LinuxPlatform) : Prop :=
  d.m_connections = Function.update (fun _ => none) config.m_hopType (some ⟨config, none⟩)

theorem bringUp_idle_iff (h : Idle d.platform) :
    (bringUp qt.toQtParser (linux qt) config d).1 = true ↔ Servable config := by
  have hcreated := addInterface_idle qt config h
  have hensure : ensureInterface (linux qt) config d =
      onPlatform ((linux qt).addInterface config) d := by
    unfold ensureInterface
    rw [if_neg (by simp [linux, h.notRunning])]
  rw [bringUp, andThen_fst, Bool.and_eq_true, hensure]
  refine ⟨fun htrue => servable_of_bringUpPeer qt htrue.2, fun hservable => ⟨hcreated.1, ?_⟩⟩
  exact (succeeds_bringUpPeer qt hservable _ hcreated.2.1).1

theorem activate_idle_iff (hidle : Idle d.platform) (hnone : d.m_connections = fun _ => none) :
    ((activate qt.toQtParser (linux qt) config d).1 = true ∧
      ConnectedOnly config (activate qt.toQtParser (linux qt) config d).2) ↔ Servable config := by
  rw [activate_of_none (by rw [hnone]), failureGuard_fst, bringUp_idle_iff qt hidle]
  refine and_iff_left_of_imp fun hservable => ?_
  have htrue := (bringUp_idle_iff qt hidle).mpr hservable
  rw [failureGuard_of_true htrue, ConnectedOnly, connections_bringUp, if_pos htrue,
    register_connections, hnone]

/-- Without the tunnel process only a daemon that has no connection registered is brought up. -/
theorem none_of_activate (hdown : d.platform.m_tunnel ≠ .Running)
    (htrue : (activate qt.toQtParser (linux qt) config d).1 = true) :
    d.platform.m_tunnel = .NotRunning ∧ d.m_connections config.m_hopType = none ∧
      activate qt.toQtParser (linux qt) config d = bringUp qt.toQtParser (linux qt) config d := by
  rcases activate_cases htrue with ⟨current, -, -, hswitch, -⟩ | ⟨hdeactivated, hup, heq⟩
  · exact absurd (running_of_switchTo qt hswitch) hdown
  have hnone : d.m_connections config.m_hopType = none := by
    by_contra hsome
    obtain ⟨current, hcurrent⟩ := Option.ne_none_iff_exists'.mp hsome
    have hfailed := (hdeactivated current hcurrent).2
    rw [deactivate_notRunning qt false hdown] at hfailed
    exact Bool.false_ne_true hfailed
  have hprepared : prepared (linux qt) config d = d := by simp [prepared, hnone]
  rw [hprepared] at hup heq
  refine ⟨?_, hnone, heq⟩
  rw [bringUp, andThen_fst, Bool.and_eq_true, ensureInterface, if_neg (by simp [linux, hdown])] at hup
  by_contra hstarting
  have hcreated : (addInterface qt config d.platform).1 = true := hup.1
  rw [addInterface, if_pos hstarting] at hcreated
  exact Bool.false_ne_true hcreated

/-- The daemon recovers if the tunnel process runs, or no connection is registered. -/
theorem recovers_iff (h : AllDone d.platform) (emitSignals : Bool) :
    ((activate qt.toQtParser (linux qt) config (deactivate (linux qt) emitSignals d).2).1 = true ∧
      ConnectedOnly config
        (activate qt.toQtParser (linux qt) config (deactivate (linux qt) emitSignals d).2).2) ↔
      Servable config ∧ (d.platform.m_tunnel = .Running ∨
        (d.platform.m_tunnel = .NotRunning ∧ d.m_connections = fun _ => none)) := by
  by_cases hrunning : d.platform.m_tunnel = .Running
  · obtain ⟨hidle, hnone⟩ := deactivate_alive qt emitSignals ⟨h, hrunning⟩
    rw [activate_idle_iff qt hidle hnone]
    exact (and_iff_left (Or.inl hrunning)).symm
  rw [deactivate_notRunning qt emitSignals hrunning]
  have hplatform := resolversRestored_platform emitSignals (d := d)
  have hconnections := resolversRestored_connections emitSignals (d := d)
  generalize resolversRestored emitSignals d = d' at hplatform hconnections
  dsimp only
  have htunnel : d'.platform.m_tunnel = d.platform.m_tunnel := by rw [hplatform]
  have hidle : d.platform.m_tunnel = .NotRunning → Idle d'.platform := by
    rw [hplatform]
    exact fun hdown => ⟨h, hdown⟩
  constructor
  · rintro ⟨htrue, honly⟩
    obtain ⟨hdown, hnone, heq⟩ := none_of_activate qt (htunnel ▸ hrunning) htrue
    rw [heq] at htrue honly
    rw [htunnel] at hdown
    refine ⟨(bringUp_idle_iff qt (hidle hdown)).mp htrue, Or.inr ⟨hdown, ?_⟩⟩
    rw [ConnectedOnly, connections_bringUp, if_pos htrue, register_connections] at honly
    rw [← hconnections]
    funext hop
    by_cases hhop : hop = config.m_hopType
    · rw [hhop, hnone]
    · have := congrFun honly hop
      rwa [Function.update_of_ne hhop, Function.update_of_ne hhop] at this
  · rintro ⟨hservable, hrun | ⟨hdown, hnone⟩⟩
    · exact absurd hrun hrunning
    · exact (activate_idle_iff qt (hidle hdown) (hconnections.trans hnone)).mpr hservable

theorem recovers_sample :
    (activate sampleQt.toQtParser (linux sampleQt) sampleConfig
      (deactivate (linux sampleQt) true (initial smooth)).2).1 = true ∧
    ConnectedOnly sampleConfig (activate sampleQt.toQtParser (linux sampleQt) sampleConfig
      (deactivate (linux sampleQt) true (initial smooth)).2).2 :=
  (recovers_iff sampleQt allDone_smooth true).mpr
    ⟨⟨by decide, by decide⟩, Or.inr ⟨rfl, rfl⟩⟩

def bereft : Daemon LinuxPlatform :=
  (activate sampleQt.toQtParser (linux sampleQt) sampleConfig
    (activate sampleQt.toQtParser (linux sampleQt) sampleConfig
      (initial { attempts := fun k => if k = 12 then .exited else .done })).2).2

theorem not_recovers_bereft :
    AllDone bereft.platform ∧ Servable { sampleConfig with m_privateKey := "z" } ∧
    (activate sampleQt.toQtParser (linux sampleQt) { sampleConfig with m_privateKey := "z" }
      (deactivate (linux sampleQt) true bereft).2).1 = false := by
  refine ⟨fun k hk => ?_, ⟨by decide, by decide⟩, by decide +kernel⟩
  have hcalls : bereft.platform.calls = 13 := by decide +kernel
  have hattempts : bereft.platform.attempts = fun k => if k = 12 then .exited else .done := rfl
  rw [hattempts]
  exact if_neg (by omega)

end Recovery

end AmneziaVpn.LinuxPlatform
