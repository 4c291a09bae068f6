import AmneziaVpn.LinuxDaemonExclusions

/-!
# The route to the endpoint

The packets of the tunnel reach the server over a route past the tunnel.
-/

namespace AmneziaVpn.LinuxPlatform

open FallibleOps FallibleOps.Op Daemon WireguardInterface

structure Idle (p : LinuxPlatform) : Prop where
  allDone : AllDone p
  notRunning : p.m_tunnel = .NotRunning

def StaysUp (p p' : LinuxPlatform) : Prop := ∀ range, Unroutable range → Steady range p p'

instance : IsPreorder LinuxPlatform StaysUp where
  refl p _ _ := refl p
  trans _ _ _ h h' range hrange := trans_of (Steady range) (h range hrange) (h' range hrange)

theorem keptByMonitor_unroutable {range : IPAddress} (hrange : Unroutable range) :
    WireguardInterface.KeptByMonitor (Steady range) routeMonitor where
  insertRoute := steady_insertRoute
  deleteRoute := steady_deleteRoute
  addExclusionRoute _ := steady_newRoute fun h => h.2 hrange
  deleteExclusionRoute _ := steady_delRoute fun h => h.2 hrange

theorem keptByMonitor_staysUp : WireguardInterface.KeptByMonitor StaysUp routeMonitor where
  insertRoute other p _ hrange := (keptByMonitor_unroutable hrange).insertRoute other p
  deleteRoute other p _ hrange := (keptByMonitor_unroutable hrange).deleteRoute other p
  addExclusionRoute other p _ hrange := (keptByMonitor_unroutable hrange).addExclusionRoute other p
  deleteExclusionRoute other p _ hrange :=
    (keptByMonitor_unroutable hrange).deleteExclusionRoute other p

theorem staysUp_uapiCommand (f : Device → Device) : Keeps StaysUp (uapiCommand f) :=
  fun p range _ => steady_uapiCommand range f p

theorem staysUp_deletePeer (qt : QtLibrary) (config : InterfaceConfig) :
    Keeps StaysUp ((linux qt).deletePeer config) :=
  keeps_deletePeer qt config keptByMonitor_staysUp.deleteExclusionRoute
    fun _ => staysUp_uapiCommand _

theorem keptByPlatform_staysUp (qt : QtLibrary) : KeptByPlatform StaysUp (linux qt) where
  toUtilsKeep := keptByMonitor_staysUp.utils qt (fun _ => (staysUp_uapiCommand _).onSuccess)
    (fun _ => (staysUp_uapiCommand _).onSuccess)
  updateResolvers resolvers d _ _ _ := steady_updateResolvers qt resolvers d.platform
  restoreResolvers d _ _ _ := steady_restoreResolvers qt d.platform
  addInterfaceIPs config d _ _ _ := steady_addInterfaceIPs config d.platform
  setMTUAndUp config d _ _ _ := steady_setMTUAndUp config d.platform
  run _ _ d _ := refl_of StaysUp d.platform

structure Settled (d : Daemon LinuxPlatform) : Prop where
  upOrIdle : Up d.platform ∨ (Idle d.platform ∧ d.m_connections = fun _ => none)
  routable : ∀ range, Unroutable range → ¬ Excluded range d.platform

theorem settled_initial_smooth : Settled (initial smooth) where
  upOrIdle := Or.inr ⟨⟨allDone_smooth, rfl⟩, rfl⟩
  routable _ _ h := by simp [Excluded, initial, smooth] at h

section Creation

structure Started (routes : List KernelRoute) (p : LinuxPlatform) : Prop where
  allDone : AllDone p
  running : p.m_tunnel = .Running
  routes_eq : p.routes = routes

variable {routes : List KernelRoute}

theorem succeeds_startTunnel :
    Succeeds (fun p => Idle p ∧ p.routes = routes) startTunnel (Started routes) := by
  rintro p ⟨hidle, hroutes⟩
  unfold startTunnel
  rw [hidle.allDone.next]
  exact ⟨rfl, hidle.allDone.called, rfl, hroutes⟩

theorem succeeds_waitForTunnelName :
    Succeeds (Started routes) waitForTunnelName (Started routes) := by
  intro p h
  unfold waitForTunnelName
  rw [h.allDone.next]
  exact ⟨rfl, h.allDone.called, h.running, h.routes_eq⟩

theorem succeeds_startMonitor :
    Succeeds (Started routes) startMonitor fun p => Up p ∧ p.routes = routes :=
  fun _ h => ⟨rfl, ⟨h.allDone, h.running, rfl⟩, h.routes_eq⟩

variable (qt : QtLibrary) (config : InterfaceConfig)

theorem succeeds_configureInterface :
    Succeeds (fun p => Up p ∧ p.routes = routes) (configureInterface qt config)
      fun p => Up p ∧ p.routes = routes := by
  rintro p ⟨hup, hroutes⟩
  unfold configureInterface uapiCommand
  rw [hup.allDone.next]
  dsimp only
  rw [if_pos hup.running]
  exact ⟨rfl, ⟨hup.allDone.called, hup.running, hup.monitored⟩, hroutes⟩

theorem succeeds_enableKillSwitch :
    Succeeds (fun p => Up p ∧ p.routes = routes) (enableKillSwitch qt config)
      fun p => Up p ∧ p.routes = routes := by
  rintro p ⟨hup, hroutes⟩
  unfold enableKillSwitch applyFirewallRules
  split_ifs
  · rw [ignore_fst, ignore_snd, if_pos hup.allDone.next]
    exact ⟨rfl, ⟨hup.allDone.called, hup.running, hup.monitored⟩, hroutes⟩
  · exact ⟨rfl, hup, hroutes⟩

theorem addInterface_idle {p : LinuxPlatform} (h : Idle p) :
    (addInterface qt config p).1 = true ∧ Up (addInterface qt config p).2 ∧
      (addInterface qt config p).2.routes = p.routes := by
  unfold addInterface
  rw [if_neg (not_not_intro h.notRunning)]
  have hcreated := (@succeeds_startTunnel p.routes).andThen succeeds_waitForTunnelName
    |>.andThen succeeds_startMonitor |>.andThen (succeeds_configureInterface qt config)
    |>.andThen (succeeds_enableKillSwitch qt config)
  exact hcreated p ⟨h, rfl⟩

end Creation

section Activation

variable (qt : QtLibrary) {config : InterfaceConfig} {d : Daemon LinuxPlatform}

theorem tracks_ensureInterface (config : InterfaceConfig)
    (h : Up d.platform ∨ Idle d.platform) (range : IPAddress) :
    Tracks range (Excluded range d.platform) (d.m_excludedAddrSet.count range)
      (ensureInterface (linux qt) config d).2 := by
  unfold ensureInterface
  rcases h with hup | hidle
  · have hexists : (linux qt).interfaceExists d.platform = true := by simp [linux, hup.running]
    rw [if_pos hexists]
    exact ⟨hup, Iff.rfl, rfl⟩
  · have hexists : ¬ (linux qt).interfaceExists d.platform = true := by
      simp [linux, hidle.notRunning]
    obtain ⟨-, hup, hroutes⟩ := addInterface_idle qt config hidle
    rw [if_neg hexists]
    refine ⟨hup, ?_, rfl⟩
    change _ ∈ (addInterface qt config d.platform).2.routes ↔ _
    rw [hroutes]
    rfl

variable {p : LinuxPlatform}

theorem deleteInterface_running (hdone : AllDone p) (hrunning : p.m_tunnel = .Running) :
    (deleteInterface p).1 = true ∧ Idle (deleteInterface p).2 ∧
      ∀ range, Excluded range (deleteInterface p).2 ↔ Excluded range p := by
  have hnext : p.attempts (p.calls + 1) = .done := hdone _ (Nat.le_succ _)
  have hdeleted : deleteInterface p = (true, { p with
      calls := p.calls + 2, m_tunnel := .NotRunning, device := {}, m_rtmonitor := false,
      routes := p.routes.filter (·.via ≠ .tunnel), firewall := .uninstalled }) := by
    have hfirst : p.attempts p.calls = .done := hdone.next
    simp [deleteInterface, hrunning, stopTunnel, uninstallFirewall, ignore, next, called, exited,
      hfirst, hnext]
  rw [hdeleted]
  refine ⟨rfl, ⟨fun k hk => hdone k (by simp only at hk; omega), rfl⟩, fun range => ?_⟩
  simp [Excluded]

theorem unroutable_null : Unroutable ⟨.null, 0⟩ := rfl

theorem StaysUp.up {p' : LinuxPlatform} (h : StaysUp p p') (hup : Up p) : Up p' :=
  (h _ unroutable_null hup).1

theorem StaysUp.settled {d' : Daemon LinuxPlatform} (h : StaysUp d.platform d'.platform)
    (hup : Up d.platform) (hroutable : ∀ range, Unroutable range → ¬ Excluded range d.platform) :
    Settled d' where
  upOrIdle := Or.inl (h.up hup)
  routable range hrange hexcluded := hroutable range hrange ((h range hrange hup).2.mp hexcluded)

theorem settled_deactivate (h : Settled d) (hup : Up d.platform) {emitSignals : Bool}
    (htrue : (deactivate (linux qt) emitSignals d).1 = true) :
    Settled (deactivate (linux qt) emitSignals d).2 ∧
      Idle (deactivate (linux qt) emitSignals d).2.platform := by
  obtain ⟨hdown, -, hplatform, hconnections⟩ := platform_deactivate htrue
  have hstays := (keptByPlatform_staysUp qt).tearDown (staysUp_deletePeer qt) emitSignals d hdown
  have hup' := StaysUp.up hstays hup
  obtain ⟨-, hidle, hexcluded⟩ := deleteInterface_running hup'.allDone hup'.running
  change (deactivate (linux qt) emitSignals d).2.platform = (deleteInterface _).2 at hplatform
  rw [← hplatform] at hidle hexcluded
  refine ⟨⟨Or.inr ⟨hidle, hconnections⟩, fun range hrange hex => ?_⟩, hidle⟩
  exact h.routable range hrange ((hstays range hrange hup).2.mp ((hexcluded range).mp hex))

theorem settled_ensureInterface (config : InterfaceConfig) (h : Settled d) :
    Up (ensureInterface (linux qt) config d).2.platform ∧
      ∀ range, Unroutable range →
        ¬ Excluded range (ensureInterface (linux qt) config d).2.platform := by
  have htracks := tracks_ensureInterface qt config (h.upOrIdle.imp_right And.left)
  refine ⟨(htracks ⟨.null, 0⟩).up, fun range hrange hex => ?_⟩
  exact h.routable range hrange ((htracks range).excluded.mp hex)

theorem settled_bringUp (h : Settled d)
    (htrue : (bringUp qt.toQtParser (linux qt) config d).1 = true) :
    Settled (bringUp qt.toQtParser (linux qt) config d).2 := by
  rw [bringUp, andThen_fst, Bool.and_eq_true] at htrue
  rw [bringUp, andThen_of_true htrue.1]
  obtain ⟨hup, hroutable⟩ := settled_ensureInterface qt config h
  exact StaysUp.settled
    ((keptByPlatform_staysUp qt).bringUpPeer qt.toQtParser ignoresRecords_onPlatform
      config _ htrue.2) hup hroutable

theorem Settled.up (h : Settled d) {hop : HopType} {current : ConnectionState}
    (hcurrent : d.m_connections hop = some current) : Up d.platform := by
  rcases h.upOrIdle with hup | ⟨-, hnone⟩
  · exact hup
  · simp [hnone] at hcurrent

theorem settled_prepared (h : Settled d)
    (hdown : ∀ current, d.m_connections config.m_hopType = some current →
      supportServerSwitching current.m_config config = false ∧
        (deactivate (linux qt) false d).1 = true) :
    Settled (prepared (linux qt) config d) := by
  unfold prepared
  cases hcurrent : d.m_connections config.m_hopType with
  | none => exact h
  | some current =>
    obtain ⟨hswitch, htrue⟩ := hdown current hcurrent
    dsimp only
    rw [hswitch, if_neg Bool.false_ne_true]
    exact (settled_deactivate qt h (h.up hcurrent) htrue).1

theorem settled_activate (h : Settled d)
    (htrue : (activate qt.toQtParser (linux qt) config d).1 = true) :
    Settled (activate qt.toQtParser (linux qt) config d).2 := by
  rcases activate_cases htrue with ⟨current, hcurrent, -, hswitch, heq⟩ | ⟨hdown, hup, heq⟩
  · rw [heq]
    have hstays := (keptByPlatform_staysUp qt).switchTo qt.toQtParser
      ignoresRecords_onPlatform current.m_config config d hswitch
    exact StaysUp.settled hstays (h.up hcurrent) h.routable
  · rw [heq]
    exact settled_bringUp qt (settled_prepared qt h hdown) hup

/-- The states that activations lead to when all of them succeed. -/
inductive Reached : Daemon LinuxPlatform → Prop
  | initial : Reached (initial smooth)
  | activate {d : Daemon LinuxPlatform} (config : InterfaceConfig) (h : Reached d)
      (htrue : (activate qt.toQtParser (linux qt) config d).1 = true) :
      Reached (Daemon.activate qt.toQtParser (linux qt) config d).2

theorem Reached.settled (h : Reached qt d) : Settled d := by
  induction h with
  | initial => exact settled_initial_smooth
  | activate config _ htrue ih => exact settled_activate qt ih htrue

theorem serves_endpoint {address : String}
    (haddress : endpointAddress config = some address) :
    Serves qt config (.ofString qt.toQtParser address) ↔ config.m_hopType ≠ .MultiHopExit := by
  refine and_iff_left ?_
  unfold endpointAddress at haddress
  unfold serverAddresses
  cases hipv4 : config.m_serverIpv4AddrIn with
  | some text =>
    rw [hipv4, Option.some_or] at haddress
    cases haddress
    simp
  | none =>
    rw [hipv4, Option.none_or] at haddress
    simp [haddress]

def Routed (config : InterfaceConfig) (d : Daemon LinuxPlatform) (range : IPAddress) : Prop :=
  (Excluded range d.platform ∨ (range ∈ exclusions qt.toQtParser config ∧
    d.m_excludedAddrSet.count range = 0)) ∨ config.m_hopType ≠ .MultiHopExit

/-- The endpoint has its route unless a switch takes it. -/
theorem excluded_endpoint_iff (h : Reached qt d)
    (htrue : (activate qt.toQtParser (linux qt) config d).1 = true) {address : String}
    (haddress : endpointAddress config = some address) :
    Excluded (.ofString qt.toQtParser address)
        (activate qt.toQtParser (linux qt) config d).2.platform ↔
      ¬ Unroutable (.ofString qt.toQtParser address) ∧
      Routed qt config (prepared (linux qt) config d) (.ofString qt.toQtParser address) ∧
      ∀ current, d.m_connections config.m_hopType = some current →
        supportServerSwitching current.m_config config = true →
        ¬ Dropped qt current.m_config config
          (d.m_excludedAddrSet.count (.ofString qt.toQtParser address))
          (.ofString qt.toQtParser address) := by
  unfold Routed
  rw [← serves_endpoint qt haddress]
  generalize IPAddress.ofString qt.toQtParser address = range
  by_cases hrange : Unroutable range
  · exact iff_of_false ((settled_activate qt h.settled htrue).routable range hrange)
      fun hrouted => hrouted.1 hrange
  rw [and_iff_right hrange]
  rcases activate_cases htrue with ⟨current, hcurrent, hswitch, htrue', heq⟩ | ⟨hdown, hup, heq⟩
  · have hprepared : prepared (linux qt) config d = d := by
      simp only [prepared, hcurrent, hswitch, if_true]
    have htracks := Tracks.switchTo qt hrange current.m_config config d
      ⟨h.settled.up hcurrent, Iff.rfl, rfl⟩ htrue'
    rw [heq, hprepared, htracks.excluded]
    refine and_congr_right fun _ => ⟨fun hkept state hstate _ => ?_, fun hkept => ?_⟩
    · rw [hcurrent] at hstate
      cases hstate
      exact hkept
    · exact hkept current hcurrent hswitch
  · have hsettled := settled_prepared qt h.settled hdown
    rw [bringUp, andThen_fst, Bool.and_eq_true] at hup
    have htracks := Tracks.bringUpPeer qt hrange config _
      (tracks_ensureInterface qt config (hsettled.upOrIdle.imp_right And.left) range) hup.2
    rw [heq, bringUp, andThen_of_true hup.1, htracks.excluded]
    refine (and_iff_left fun state hstate hswitch => ?_).symm
    rw [(hdown state hstate).1] at hswitch
    exact absurd hswitch Bool.false_ne_true

theorem excluded_endpoint_sample :
    Excluded (.ofString sampleQt.toQtParser "10.0.0.1")
      (activate sampleQt.toQtParser (linux sampleQt) sampleConfig (initial smooth)).2.platform :=
  (excluded_endpoint_iff sampleQt .initial (by decide +kernel) rfl).mpr
    ⟨by decide, Or.inr (by decide), by simp [initial]⟩

/-- A switch to another key at the same endpoint deletes the route it has just added. -/
theorem not_excluded_switched :
    Reached sampleQt connected ∧
    (activate sampleQt.toQtParser (linux sampleQt) { sampleConfig with m_serverPublicKey := "c" }
      connected).1 = true ∧
    ¬ Excluded (.ofString sampleQt.toQtParser "10.0.0.1")
      (activate sampleQt.toQtParser (linux sampleQt) { sampleConfig with m_serverPublicKey := "c" }
        connected).2.platform :=
  ⟨.activate sampleConfig .initial (by decide +kernel), by decide +kernel⟩

end Activation

end AmneziaVpn.LinuxPlatform
