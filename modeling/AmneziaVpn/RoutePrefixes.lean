import AmneziaVpn.LinuxExclusionRoutes
import AmneziaVpn.MacosExclusionRoutes
import AmneziaVpn.SwitchedRoutes

/-!
# Updating and deleting routes on Linux and macOS

Both kernels follow the laws of a routing table. On Linux a route into the tunnel and one past it
stand side by side for the same range, on macOS there is one route for a destination.
-/

namespace AmneziaVpn

open FallibleOps FallibleOps.Op WireguardInterface Daemon List

namespace LinuxPlatform

def linuxTable (qt : QtLibrary) : RouteTable KernelRoute qt routeMonitor uapiCommand where
  Ready := Up
  routes := LinuxPlatform.routes
  route range := ⟨range, .tunnel⟩
  IsFor route range := route = ⟨range, .tunnel⟩
  Takes range := ¬ Unroutable range
  Shares _ _ := False
  present h := h.monitored
  insertRoute {p} h range htakes := by
    change (newRoute ⟨range, .tunnel⟩ p).1 = true ∧ Up (newRoute ⟨range, .tunnel⟩ p).2 ∧
      ∀ r, r ∈ (newRoute ⟨range, .tunnel⟩ p).2.routes ↔ _
    refine ⟨?_, up_rtmSendRoute h _ _, fun r => ?_⟩
    · rw [newRoute, rtmSendRoute_up h htakes]
    · rw [newRoute, rtmSendRoute_up h htakes, mem_insert_iff]
      constructor
      · rintro (rfl | hr)
        · by_cases hold : (⟨range, .tunnel⟩ : KernelRoute) ∈ p.routes
          · exact Or.inl hold
          · exact Or.inr ⟨rfl, fun r' hr' hfor => hold (hfor ▸ hr')⟩
        · exact Or.inl hr
      · rintro (hr | ⟨rfl, -⟩)
        · exact Or.inr hr
        · exact Or.inl rfl
  insertRoute_refused _ _ htakes := rtmSendRoute_unroutable (not_not.mp htakes) _ _
  deleteRoute {p} h range htakes := by
    change (delRoute ⟨range, .tunnel⟩ p).1 = true ∧ Up (delRoute ⟨range, .tunnel⟩ p).2 ∧
      ∀ r, r ∈ (delRoute ⟨range, .tunnel⟩ p).2.routes ↔ _
    refine ⟨?_, up_rtmSendRoute h _ _, fun r => ?_⟩
    · rw [delRoute, rtmSendRoute_up h htakes]
    · rw [delRoute, rtmSendRoute_up h htakes, mem_filter, decide_eq_true_iff]
  deleteRoute_refused _ _ htakes := rtmSendRoute_unroutable (not_not.mp htakes) _ _
  addExclusionRoute h _ := up_rtmSendRoute h _ _
  deleteExclusionRoute {p} h range := by
    change Up (delRoute ⟨range, .gateway⟩ p).2 ∧ ∀ x, (∃ r ∈ (delRoute ⟨range, .gateway⟩ p).2.routes, _) ↔ _
    refine ⟨up_rtmSendRoute h _ _, fun x => ?_⟩
    by_cases htakes : Unroutable range
    · rw [delRoute, rtmSendRoute_unroutable htakes, not_false_eq_true, and_true]
    · rw [delRoute, rtmSendRoute_up h htakes]
      simp
  uapi {p} h f := by
    simp only [uapiCommand, h.allDone.next, h.running, if_true]
    exact ⟨⟨h.allDone.called, h.running, h.monitored⟩, rfl⟩
  isFor_route _ := rfl
  isFor_congr h range := by rw [h]
  shares_congr _ _ h := h
  takes_halves := routable_halves qt

end LinuxPlatform

namespace MacosPlatform

variable (qt : QtLibrary) (destination : IPAddress → IPAddress)

def macosTable : RouteTable KernelRoute qt (routeMonitor destination) uapiCommand where
  Ready := Up
  routes := MacosPlatform.routes
  route range := ⟨destination range, .tunnel⟩
  IsFor route range := route.destination = destination range
  Takes _ := True
  Shares x range :=
    range.type ≠ .UnknownNetworkLayerProtocol ∧ destination x = destination range
  present h := h.monitored
  insertRoute {p} h range _ := by
    change (rtmSendRoute destination .RTM_ADD range .tunnel p).1 = true ∧
      Up (rtmSendRoute destination .RTM_ADD range .tunnel p).2 ∧
      ∀ r, r ∈ (rtmSendRoute destination .RTM_ADD range .tunnel p).2.routes ↔ _
    refine ⟨?_, up_rtmSendRoute h range .tunnel .RTM_ADD, fun r => ?_⟩
    · rw [rtmSendRoute_add h]
      split_ifs <;> rfl
    · rw [rtmSendRoute_add h]
      split_ifs with hexists
      · obtain ⟨r', hr', hfor⟩ := hexists
        exact (or_iff_left fun hnew => hnew.2 r' hr' hfor).symm
      · rw [mem_cons, or_comm, and_iff_left fun r' hr' hfor => hexists ⟨r', hr', hfor⟩]
  insertRoute_refused _ _ htakes := absurd trivial htakes
  deleteRoute {p} h range _ := by
    change (rtmSendRoute destination .RTM_DELETE range .tunnel p).1 = true ∧
      Up (rtmSendRoute destination .RTM_DELETE range .tunnel p).2 ∧
      ∀ r, r ∈ (rtmSendRoute destination .RTM_DELETE range .tunnel p).2.routes ↔ _
    refine ⟨?_, up_rtmSendRoute h range .tunnel .RTM_DELETE, fun r => ?_⟩
    · rw [rtmSendRoute_delete h]
    · rw [rtmSendRoute_delete h, mem_filter, decide_eq_true_iff]
  deleteRoute_refused _ _ htakes := absurd trivial htakes
  addExclusionRoute {p} h range := by
    change Up (addExclusionRoute destination range p).2
    have h' : Up { p with m_exclusionRoutes := p.m_exclusionRoutes ++ [range] } :=
      ⟨h.allDone, h.running, h.monitored⟩
    unfold addExclusionRoute
    split_ifs
    · exact h
    · dsimp only
      split_ifs
      · exact up_rtmSendRoute h' range .gateway .RTM_ADD
      · exact h'
  deleteExclusionRoute {p} h range := by
    change Up (deleteExclusionRoute destination range p).2 ∧
      ∀ x, (∃ r ∈ (deleteExclusionRoute destination range p).2.routes, _) ↔ _
    have h' : Up { p with m_exclusionRoutes := p.m_exclusionRoutes.filter (· ≠ range) } :=
      ⟨h.allDone, h.running, h.monitored⟩
    unfold deleteExclusionRoute
    dsimp only
    by_cases htype : range.type = .UnknownNetworkLayerProtocol
    · rw [if_pos htype]
      exact ⟨h', fun x => by simp [htype]⟩
    · rw [if_neg htype]
      refine ⟨up_rtmSendRoute h' range .gateway .RTM_DELETE, fun x => ?_⟩
      rw [rtmSendRoute_delete h']
      constructor
      · rintro ⟨r, hr, hfor⟩
        obtain ⟨hold, hkept⟩ := mem_filter.mp hr
        refine ⟨⟨r, hold, hfor⟩, fun hshares => ?_⟩
        exact of_decide_eq_true hkept (hfor.trans hshares.2)
      · rintro ⟨⟨r, hr, hfor⟩, hkept⟩
        refine ⟨r, mem_filter.mpr ⟨hr, decide_eq_true fun hdest => ?_⟩, hfor⟩
        exact hkept ⟨htype, hfor.symm.trans hdest⟩
  uapi {p} h f := by
    simp only [uapiCommand, h.next, h.running, if_true]
    exact ⟨⟨h.called.allDone, h.running, h.monitored⟩, rfl⟩
  isFor_route _ := rfl
  isFor_congr h range := by rw [h]
  shares_congr hfor _ hshares := ⟨hshares.1, hfor.symm.trans hshares.2⟩
  takes_halves _ _ _ := trivial

end MacosPlatform

open LinuxPlatform MacosPlatform

/-- When deletions restore the table and switches leave no route, on both platforms. -/
theorem routePrefix_iff (qt : QtLibrary) (destination : IPAddress → IPAddress) :
    (∀ p range, LinuxPlatform.Up p → range.type ≠ .UnknownNetworkLayerProtocol →
      ((linux qt).updateRoutePrefix range p).1 = true ∧
      ((linuxTable qt).SameRoutes p
          ((linux qt).deleteRoutePrefix range ((linux qt).updateRoutePrefix range p).2).2 ↔
        if 0 < range.m_prefixLength then (linuxTable qt).Has range p
        else ∀ half ∈ halves qt range.type, ¬ (linuxTable qt).Has half p)) ∧
    (∀ d lastConfig config, LinuxPlatform.Up d.platform →
      (switchServer qt.toQtParser (linux qt).toWireguardUtils lastConfig config d).1 = true →
      ((linuxTable qt).LeavesNone lastConfig config
          (switchServer qt.toQtParser (linux qt).toWireguardUtils lastConfig config d).2.platform ↔
        (linuxTable qt).Undone lastConfig config)) ∧
    (∀ p range, MacosPlatform.Up p → range.type ≠ .UnknownNetworkLayerProtocol →
      ((macos destination qt).updateRoutePrefix range p).1 = true ∧
      ((macosTable qt destination).SameRoutes p ((macos destination qt).deleteRoutePrefix range
          ((macos destination qt).updateRoutePrefix range p).2).2 ↔
        if 0 < range.m_prefixLength then (macosTable qt destination).Has range p
        else ∀ half ∈ halves qt range.type, ¬ (macosTable qt destination).Has half p)) ∧
    (∀ d lastConfig config, MacosPlatform.Up d.platform →
      (switchServer qt.toQtParser (macos destination qt) lastConfig config d).1 = true →
      ((macosTable qt destination).LeavesNone lastConfig config
          (switchServer qt.toQtParser (macos destination qt) lastConfig config d).2.platform ↔
        (macosTable qt destination).Undone lastConfig config)) := by
  refine ⟨fun p range hup htype => ⟨?_, ?_⟩, fun d lastConfig config hup htrue => ?_,
    fun p range hup htype => ⟨?_, ?_⟩, fun d lastConfig config hup htrue => ?_⟩
  · exact (RouteTable.updateRoutePrefix_succeeds (T := linuxTable qt) hup htype htype).1
  · exact RouteTable.sameRoutes_iff (T := linuxTable qt) hup htype htype
  · exact RouteTable.leavesNone_iff (T := linuxTable qt) hup htrue
  · exact (RouteTable.updateRoutePrefix_succeeds (T := macosTable qt destination) hup trivial htype).1
  · exact RouteTable.sameRoutes_iff (T := macosTable qt destination) hup trivial htype
  · exact RouteTable.leavesNone_iff (T := macosTable qt destination) hup htrue

def linuxUp : LinuxPlatform := { smooth with m_tunnel := .Running, m_rtmonitor := true }

def macosUp : MacosPlatform :=
  { attempts := fun _ => .done, m_tunnel := .Running, m_rtmonitor := true }

def defaultConfig : InterfaceConfig :=
  { sampleConfig with m_allowedIPAddressRanges := [⟨.ipv4 0, 0⟩] }

def unroutedConfig : InterfaceConfig := { sampleConfig with m_allowedIPAddressRanges := [] }

theorem undone_default {σ : Type} {M : RouteMonitor σ} {uapi : (Device → Device) → Op σ}
    (T : RouteTable KernelRoute sampleQt M uapi) : T.Undone defaultConfig unroutedConfig := by
  intro before range after hsplit hlength
  have hmem : range ∈ goneRanges defaultConfig unroutedConfig := by rw [hsplit]; simp
  have hgone : goneRanges defaultConfig unroutedConfig = [⟨.ipv4 0, 0⟩] := by decide
  rw [hgone, mem_singleton] at hmem
  subst hmem
  exact absurd hlength (lt_irrefl 0)

theorem routePrefix_default :
    (linuxTable sampleQt).SameRoutes linuxUp ((linux sampleQt).deleteRoutePrefix ⟨.ipv4 0, 0⟩
      ((linux sampleQt).updateRoutePrefix ⟨.ipv4 0, 0⟩ linuxUp).2).2 ∧
    (linuxTable sampleQt).LeavesNone defaultConfig unroutedConfig
      (switchServer sampleQt.toQtParser (linux sampleQt).toWireguardUtils defaultConfig unroutedConfig
        (initial linuxUp)).2.platform ∧
    (macosTable sampleQt id).SameRoutes macosUp ((macos id sampleQt).deleteRoutePrefix ⟨.ipv4 0, 0⟩
      ((macos id sampleQt).updateRoutePrefix ⟨.ipv4 0, 0⟩ macosUp).2).2 ∧
    (macosTable sampleQt id).LeavesNone defaultConfig unroutedConfig
      (switchServer sampleQt.toQtParser (macos id sampleQt) defaultConfig unroutedConfig
        (initial macosUp)).2.platform := by
  obtain ⟨hlinux, hlinux', hmacos, hmacos'⟩ := routePrefix_iff sampleQt id
  have hup : LinuxPlatform.Up linuxUp := ⟨fun _ _ => rfl, rfl, rfl⟩
  have hup' : MacosPlatform.Up macosUp := ⟨fun _ _ => rfl, rfl, rfl⟩
  refine ⟨(hlinux _ _ hup (by decide)).2.mpr ?_, ?_, (hmacos _ _ hup' (by decide)).2.mpr ?_, ?_⟩
  · rintro half - ⟨r, hr, -⟩
    exact absurd hr not_mem_nil
  · exact (hlinux' _ _ _ hup (by decide +kernel)).mpr (undone_default _)
  · rintro half - ⟨r, hr, -⟩
    exact absurd hr not_mem_nil
  · exact (hmacos' _ _ _ hup' (by decide +kernel)).mpr (undone_default _)

theorem routePrefix_not_deleted :
    (⟨⟨.ipv4 0x14000000, 8⟩, .tunnel⟩ ∉ linuxUp.routes ∧
      ⟨⟨.ipv4 0x14000000, 8⟩, .tunnel⟩ ∈
        ((linux sampleQt).deleteRoutePrefix ⟨.ipv4 0x14000000, 8⟩
          ((linux sampleQt).updateRoutePrefix ⟨.ipv4 0x14000000, 8⟩ linuxUp).2).2.routes) ∧
    ((switchServer sampleQt.toQtParser (linux sampleQt).toWireguardUtils sampleConfig unroutedConfig
        connected).1 = true ∧
      ⟨⟨.ipv4 0x14000000, 8⟩, .tunnel⟩ ∈ (switchServer sampleQt.toQtParser
        (linux sampleQt).toWireguardUtils sampleConfig unroutedConfig connected).2.platform.routes) ∧
    (⟨⟨.ipv4 0x14000000, 8⟩, .tunnel⟩ ∉ macosUp.routes ∧
      ⟨⟨.ipv4 0x14000000, 8⟩, .tunnel⟩ ∈
        ((macos id sampleQt).deleteRoutePrefix ⟨.ipv4 0x14000000, 8⟩
          ((macos id sampleQt).updateRoutePrefix ⟨.ipv4 0x14000000, 8⟩ macosUp).2).2.routes) ∧
    ((switchServer sampleQt.toQtParser (macos id sampleQt) sampleConfig unroutedConfig
        (initial macosUp)).1 = true ∧
      ⟨⟨.ipv4 0x14000000, 8⟩, .tunnel⟩ ∈ (switchServer sampleQt.toQtParser (macos id sampleQt)
        sampleConfig unroutedConfig (initial macosUp)).2.platform.routes) := by
  decide +kernel

end AmneziaVpn
