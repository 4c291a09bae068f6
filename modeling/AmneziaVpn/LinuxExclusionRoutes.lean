import AmneziaVpn.LinuxDaemonProgram

/-!
# Routes past the tunnel

While every call to the system takes effect, an operation of the platform that the interface
survives does one of three things to a route past the tunnel: it adds the route, deletes it or
leaves it.
-/

namespace AmneziaVpn.LinuxPlatform

open FallibleOps FallibleOps.Op

def AllDone (p : LinuxPlatform) : Prop := ∀ k, p.calls ≤ k → p.attempts k = .done

variable {p : LinuxPlatform}

theorem AllDone.next (h : AllDone p) : p.next = .done := h p.calls le_rfl

theorem AllDone.called (h : AllDone p) : AllDone p.called :=
  fun k hk => h k (Nat.le_of_succ_le hk)

theorem allDone_smooth : AllDone smooth := fun _ _ => rfl

/-- The tunnel process is running and its routes are monitored. -/
structure Up (p : LinuxPlatform) : Prop where
  allDone : AllDone p
  running : p.m_tunnel = .Running
  monitored : p.m_rtmonitor = true

def Excluded (range : IPAddress) (p : LinuxPlatform) : Prop :=
  (⟨range, .gateway⟩ : KernelRoute) ∈ p.routes

/-- The kernel takes no message about such a range. -/
def Unroutable (range : IPAddress) : Prop := range.type = .UnknownNetworkLayerProtocol

instance (range : IPAddress) (p : LinuxPlatform) : Decidable (Excluded range p) :=
  inferInstanceAs (Decidable (_ ∈ p.routes))

instance : DecidablePred Unroutable := fun range => inferInstanceAs (Decidable (range.type = _))

theorem routable_halves (qt : QtLibrary) (type : NetworkLayerProtocol) :
    ∀ half ∈ WireguardInterface.halves qt type, ¬ Unroutable half := by
  cases type <;>
    simp [WireguardInterface.halves, Unroutable, IPAddress.ofString, IPAddress.clamp, IPAddress.type,
      qt.parse_lowerIpv4, qt.parse_upperIpv4, qt.parse_lowerIpv6, qt.parse_upperIpv6,
      QHostAddress.protocol]

def Steady (range : IPAddress) (p p' : LinuxPlatform) : Prop :=
  Up p → Up p' ∧ (Excluded range p' ↔ Excluded range p)

instance (range : IPAddress) : IsPreorder LinuxPlatform (Steady range) where
  refl _ h := ⟨h, Iff.rfl⟩
  trans _ _ _ h h' hup := ⟨(h' (h hup).1).1, (h' (h hup).1).2.trans (h hup).2⟩

variable {range : IPAddress}

theorem steady_of_eq {p' : LinuxPlatform} (hattempts : p'.attempts = p.attempts)
    (hcalls : p.calls ≤ p'.calls) (htunnel : p'.m_tunnel = p.m_tunnel)
    (hmonitor : p'.m_rtmonitor = p.m_rtmonitor) (hroutes : Excluded range p' ↔ Excluded range p) :
    Steady range p p' := by
  intro h
  refine ⟨⟨fun k hk => ?_, htunnel.trans h.running, hmonitor.trans h.monitored⟩, hroutes⟩
  rw [hattempts]
  exact h.allDone k (hcalls.trans hk)

variable {route : KernelRoute}

theorem rtmSendRoute_up (h : Up p) (hroute : ¬ Unroutable route.destination)
    (action : List KernelRoute → List KernelRoute) :
    rtmSendRoute action route p = (true, { p.called with routes := action p.routes }) := by
  unfold Unroutable at hroute
  simp [rtmSendRoute, hroute, h.running, h.allDone.next]

theorem rtmSendRoute_unroutable (hroute : Unroutable route.destination)
    (action : List KernelRoute → List KernelRoute) (p : LinuxPlatform) :
    rtmSendRoute action route p = (false, p) := if_pos hroute

theorem up_rtmSendRoute (h : Up p) (action : List KernelRoute → List KernelRoute)
    (route : KernelRoute) : Up (rtmSendRoute action route p).2 := by
  by_cases hroute : Unroutable route.destination
  · rw [rtmSendRoute_unroutable hroute]
    exact h
  · rw [rtmSendRoute_up h hroute]
    exact ⟨h.allDone.called, h.running, h.monitored⟩

section Routes

variable {range : IPAddress} {p : LinuxPlatform} (h : Up p)

include h

theorem excluded_newRoute (route : KernelRoute) :
    Excluded range (newRoute route p).2 ↔
      Excluded range p ∨ (route = ⟨range, .gateway⟩ ∧ ¬ Unroutable range) := by
  unfold newRoute
  by_cases hroute : Unroutable route.destination
  · rw [rtmSendRoute_unroutable hroute]
    refine (or_iff_left ?_).symm
    rintro ⟨rfl, hrange⟩
    exact hrange hroute
  · rw [rtmSendRoute_up h hroute]
    unfold Excluded
    rw [List.mem_insert_iff, or_comm, eq_comm (a := route)]
    refine or_congr_right (and_iff_left_of_imp ?_).symm
    rintro rfl
    exact hroute

theorem excluded_delRoute (route : KernelRoute) :
    Excluded range (delRoute route p).2 ↔
      Excluded range p ∧ ¬ (route = ⟨range, .gateway⟩ ∧ ¬ Unroutable range) := by
  unfold delRoute
  by_cases hroute : Unroutable route.destination
  · rw [rtmSendRoute_unroutable hroute]
    refine (and_iff_left ?_).symm
    rintro ⟨rfl, hrange⟩
    exact hrange hroute
  · rw [rtmSendRoute_up h hroute]
    unfold Excluded
    rw [List.mem_filter, eq_comm (a := route)]
    refine and_congr_right fun _ => ?_
    rw [decide_eq_true_iff, not_iff_not]
    refine (and_iff_left_of_imp ?_).symm
    rintro rfl
    exact hroute

end Routes

theorem steady_newRoute (h : ¬ (route = ⟨range, .gateway⟩ ∧ ¬ Unroutable range)) :
    Keeps (Steady range) (newRoute route) :=
  fun _ hup => ⟨up_rtmSendRoute hup _ _, (excluded_newRoute hup route).trans (or_iff_left h)⟩

theorem steady_delRoute (h : ¬ (route = ⟨range, .gateway⟩ ∧ ¬ Unroutable range)) :
    Keeps (Steady range) (delRoute route) :=
  fun _ hup => ⟨up_rtmSendRoute hup _ _, (excluded_delRoute hup route).trans (and_iff_left h)⟩

theorem up_each {f : IPAddress → Op LinuxPlatform} (hf : ∀ range p, Up p → Up (f range p).2)
    (ranges : List IPAddress) (h : Up p) : Up (Op.each f ranges p).2 := by
  induction ranges generalizing p with
  | nil => exact h
  | cons range ranges ih => exact ih (hf range p h)

theorem excluded_each_newRoute (hrange : ¬ Unroutable range) (ranges : List IPAddress) (h : Up p) :
    Excluded range (Op.each routeMonitor.addExclusionRoute ranges p).2 ↔
      Excluded range p ∨ range ∈ ranges := by
  induction ranges generalizing p with
  | nil => simp
  | cons first ranges ih =>
    refine (ih (up_rtmSendRoute h _ _)).trans ?_
    change Excluded range (newRoute ⟨first, .gateway⟩ p).2 ∨ _ ↔ _
    rw [excluded_newRoute h, or_assoc, List.mem_cons, eq_comm (a := range)]
    simp [hrange]

theorem excluded_each_delRoute (hrange : ¬ Unroutable range) (ranges : List IPAddress) (h : Up p) :
    Excluded range (Op.each routeMonitor.deleteExclusionRoute ranges p).2 ↔
      Excluded range p ∧ range ∉ ranges := by
  induction ranges generalizing p with
  | nil => simp
  | cons first ranges ih =>
    refine (ih (up_rtmSendRoute h _ _)).trans ?_
    change Excluded range (delRoute ⟨first, .gateway⟩ p).2 ∧ _ ↔ _
    rw [excluded_delRoute h, and_assoc, List.mem_cons, eq_comm (a := range)]
    simp [hrange]

section Neutral

variable {range : IPAddress}

theorem steady_uapiCommand (range : IPAddress) (f : Device → Device) :
    Keeps (Steady range) (uapiCommand f) := by
  intro p h
  have hdone : (uapiCommand f p).2 = { p.called with device := f p.device } := by
    simp [uapiCommand, h.allDone.next, h.running]
  rw [hdone]
  exact steady_of_eq rfl (Nat.le_succ _) rfl rfl Iff.rfl h

theorem steady_interfaceRequest {f : LinuxPlatform → LinuxPlatform}
    (hf : ∀ p, Steady range p (f p)) : Keeps (Steady range) (interfaceRequest f) := by
  intro p
  have hcalled : Steady range p p.called :=
    steady_of_eq rfl (Nat.le_succ _) rfl rfl Iff.rfl
  unfold interfaceRequest
  split_ifs
  · exact trans_of (Steady range) hcalled (hf p.called)
  · exact hcalled

variable (qt : QtLibrary)

variable (other : IPAddress)

theorem steady_insertRoute : Keeps (Steady range) (routeMonitor.insertRoute other) :=
  steady_newRoute (by simp)

theorem steady_deleteRoute : Keeps (Steady range) (routeMonitor.deleteRoute other) :=
  steady_delRoute (by simp)

theorem steady_updateRoutePrefix : Keeps (Steady range) ((linux qt).updateRoutePrefix other) :=
  WireguardInterface.keeps_updateRoutePrefix qt other steady_insertRoute

theorem steady_deleteRoutePrefix : Keeps (Steady range) ((linux qt).deleteRoutePrefix other) :=
  WireguardInterface.keeps_deleteRoutePrefix qt other steady_insertRoute steady_deleteRoute

variable (config : InterfaceConfig)

theorem steady_addInterfaceIPs : Keeps (Steady range) (addInterfaceIPs config) := by
  apply Keeps.andThen
  · exact steady_interfaceRequest fun _ => steady_of_eq rfl le_rfl rfl rfl Iff.rfl
  · exact steady_interfaceRequest fun _ => steady_of_eq rfl le_rfl rfl rfl Iff.rfl

theorem steady_setMTUAndUp : Keeps (Steady range) (setMTUAndUp config) :=
  steady_interfaceRequest fun _ => steady_of_eq rfl le_rfl rfl rfl Iff.rfl

theorem steady_updateResolvers (resolvers : List QHostAddress) :
    Keeps (Steady range) ((linux qt).updateResolvers resolvers) :=
  steady_interfaceRequest fun _ => steady_of_eq rfl le_rfl rfl rfl Iff.rfl

theorem steady_restoreResolvers : Keeps (Steady range) (linux qt).restoreResolvers :=
  fun _ => steady_of_eq rfl le_rfl rfl rfl Iff.rfl

end Neutral

section Peers

open WireguardInterface

variable {range : IPAddress} {p : LinuxPlatform} {config : InterfaceConfig} (qt : QtLibrary)

def Serves (config : InterfaceConfig) (range : IPAddress) : Prop :=
  config.m_hopType ≠ .MultiHopExit ∧ range ∈ serverAddresses qt config

variable (hrange : ¬ Unroutable range) (h : Up p)

include hrange h

theorem excluded_updatePeer (htrue : ((linux qt).updatePeer config p).1 = true) :
    Up ((linux qt).updatePeer config p).2 ∧
      (Excluded range ((linux qt).updatePeer config p).2 ↔
        Excluded range p ∨ Serves qt config range) := by
  change (updatePeer qt routeMonitor uapiCommand config p).1 = true at htrue
  change Up (updatePeer qt routeMonitor uapiCommand config p).2 ∧
    (Excluded range (updatePeer qt routeMonitor uapiCommand config p).2 ↔ _)
  unfold updatePeer at htrue ⊢
  cases hendpoint : endpoint config with
  | none => simp [hendpoint] at htrue
  | some address =>
    simp only [hendpoint, andThen_fst, Bool.and_eq_true] at htrue
    dsimp only
    rw [andThen_of_true htrue.1]
    have hexclude : Up (excludeServer qt routeMonitor config p).2 ∧
        (Excluded range (excludeServer qt routeMonitor config p).2 ↔
          Excluded range p ∨ Serves qt config range) := by
      unfold excludeServer Serves
      by_cases hhop : config.m_hopType = .MultiHopExit
      · simpa [hhop] using h
      · rw [if_pos ⟨hhop, h.monitored⟩, excluded_each_newRoute hrange _ h]
        exact ⟨up_each (fun _ _ hp => up_rtmSendRoute hp _ _) _ h, by simp [hhop]⟩
    obtain ⟨hup, hsteady⟩ := steady_uapiCommand range _ _ hexclude.1
    exact ⟨hup, hsteady.trans hexclude.2⟩

theorem excluded_deletePeer (htrue : ((linux qt).deletePeer config p).1 = true) :
    Up ((linux qt).deletePeer config p).2 ∧
      (Excluded range ((linux qt).deletePeer config p).2 ↔
        Excluded range p ∧ ¬ Serves qt config range) := by
  change (deletePeer qt routeMonitor uapiCommand config p).1 = true at htrue
  change Up (deletePeer qt routeMonitor uapiCommand config p).2 ∧
    (Excluded range (deletePeer qt routeMonitor uapiCommand config p).2 ↔ _)
  unfold deletePeer at htrue ⊢
  rw [andThen_fst, Bool.and_eq_true] at htrue
  rw [andThen_of_true htrue.1]
  have hinclude : Up (includeServer qt routeMonitor config p).2 ∧
      (Excluded range (includeServer qt routeMonitor config p).2 ↔
        Excluded range p ∧ ¬ Serves qt config range) := by
    unfold includeServer Serves
    by_cases hhop : config.m_hopType = .MultiHopExit
    · simpa [hhop] using h
    · rw [if_pos ⟨hhop, h.monitored⟩, excluded_each_delRoute hrange _ h]
      exact ⟨up_each (fun _ _ hp => up_rtmSendRoute hp _ _) _ h, by simp [hhop]⟩
  obtain ⟨hup, hsteady⟩ := steady_uapiCommand range _ _ hinclude.1
  exact ⟨hup, hsteady.trans hinclude.2⟩

end Peers

end AmneziaVpn.LinuxPlatform
