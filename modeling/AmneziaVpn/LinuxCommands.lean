import AmneziaVpn.EventLoop
import AmneziaVpn.ExclusionBalance
import AmneziaVpn.LinuxDaemon
import AmneziaVpn.LocalSocketController

/-!
# Commands of the Linux daemon and the event loop

A command to the tunnel process waits for its reply in the event loop, and so does the creation of
the interface.
-/

namespace AmneziaVpn

open FallibleOps EventLoop LinuxPlatform Daemon WireguardInterface

structure Session where
  daemon : Daemon LinuxPlatform
  iterating : List (HopType → Option ConnectionState) := []

inductive DaemonCommand
  | activate (config : InterfaceConfig)
  | deactivate
  | status
  | checkHandshake

namespace Session

variable (a : Op (Daemon LinuxPlatform))

def onDaemon : Op Session := fun s =>
  ((a s.daemon).1, { s with daemon := (a s.daemon).2 })

def atOnce : Prog Session := .op (onDaemon a)

def onPlatform (a : Op LinuxPlatform) : Prog Session := atOnce (Daemon.onPlatform a)

def uapiCommand (f : Device → Device) : Prog Session :=
  .wait (.act (onDaemon (Daemon.onPlatform (LinuxPlatform.uapiCommand f))) fun ok => .wait (.ret ok))

def waitForTunnelName : Prog Session := .wait (onPlatform LinuxPlatform.waitForTunnelName)

section Interface

variable (qt : QtLibrary)

variable (config : InterfaceConfig)

def addInterface : Prog Session := .look fun s =>
  if s.daemon.platform.m_tunnel ≠ .NotRunning then .ret false
  else
    (onPlatform startTunnel)
    |>.andThen waitForTunnelName
    |>.andThen (onPlatform startMonitor)
    |>.andThen (uapiCommand fun device =>
        { device with program := some (program qt config), peers := [] })
    |>.andThen (onPlatform (enableKillSwitch qt config))

def updatePeer : Prog Session :=
  match endpoint config with
  | none => .ret false
  | some endpoint =>
      (onPlatform (excludeServer qt routeMonitor config)).andThen
        (uapiCommand (WireguardInterface.Device.updatePeer
          ⟨qt.fromBase64 config.m_serverPublicKey, config.m_serverPskKey.map qt.fromBase64, endpoint,
            config.m_allowedIPAddressRanges⟩))

def deletePeer : Prog Session :=
  (onPlatform (includeServer qt routeMonitor config)).andThen
    (uapiCommand (WireguardInterface.Device.deletePeer (qt.fromBase64 config.m_serverPublicKey)))

def ensureInterface : Prog Session := .look fun s =>
  if s.daemon.platform.m_tunnel = .Running then .ret true else addInterface qt config

end Interface

section Daemon

variable (qt : QtLibrary)

def utils : WireguardUtils LinuxPlatform := (linux qt).toWireguardUtils

variable (config : InterfaceConfig)

def bringUpPeer : Prog Session :=
  (atOnce (Op.each (addExclusionRoute (utils qt))
    (exclusions qt.toQtParser config)))
  |>.andThen (updatePeer qt config)
  |>.andThen (atOnce (Daemon.maybeUpdateResolvers qt.toQtParser (linux qt) config))
  |>.andThen (onPlatform (addInterfaceIPs config))
  |>.andThen (onPlatform (setMTUAndUp config))
  |>.andThen (atOnce (Op.allOf (fun ip => Daemon.onPlatform ((utils qt).updateRoutePrefix ip))
      config.m_allowedIPAddressRanges))
  |>.andThen (onPlatform ((linux qt).run .Up config))
  |>.andThen (atOnce (Daemon.established config))

def bringUp : Prog Session :=
  (ensureInterface qt config).andThen (bringUpPeer qt config)

variable (lastConfig : InterfaceConfig)

def deleteOldPeer (config : InterfaceConfig) : Prog Session :=
  if config.m_serverPublicKey ≠ lastConfig.m_serverPublicKey then deletePeer qt lastConfig
  else .ret true

def switchServer (config : InterfaceConfig) : Prog Session :=
  (atOnce (Op.each (addExclusionRoute (utils qt))
    (exclusions qt.toQtParser config)))
  |>.andThen (updatePeer qt config)
  |>.andThen (atOnce (Op.allOf (fun ip => Daemon.onPlatform ((utils qt).updateRoutePrefix ip))
      config.m_allowedIPAddressRanges).ignore)
  |>.andThen (atOnce (Op.each (delExclusionRoute (utils qt))
      (switchedExclusions qt.toQtParser lastConfig)))
  |>.andThen (atOnce (Op.each (fun ip => Daemon.onPlatform ((utils qt).deleteRoutePrefix ip))
      (goneRanges lastConfig config)))
  |>.andThen (deleteOldPeer qt lastConfig config)
  |>.andThen (atOnce fun d => (true, d.register config))

def switchTo (config : InterfaceConfig) : Prog Session :=
  (switchServer qt lastConfig config)
  |>.andThen (onPlatform (linux qt).restoreResolvers)
  |>.andThen (atOnce (Daemon.maybeUpdateResolvers qt.toQtParser (linux qt) config))
  |>.andThen (onPlatform ((linux qt).run .Switch config))
  |>.andThen (atOnce (Daemon.established config))

def deleteConnection (state : ConnectionState) : Prog Session :=
  (atOnce (Op.each (fun ip => Daemon.onPlatform ((utils qt).deleteRoutePrefix ip))
    state.m_config.m_allowedIPAddressRanges)).andThen (deletePeer qt state.m_config).ignore

def beginLoop : Op Session := fun s =>
  (true, { s with iterating := s.daemon.m_connections :: s.iterating })

def endLoop : Op Session := fun s => (true, { s with iterating := s.iterating.tail })

/-- `for (const ConnectionState& state : m_connections)` -/
def deleteConnections : Prog Session :=
  .act beginLoop fun _ => .look fun s =>
    (Prog.each (deleteConnection qt) s.daemon.connections).bind fun _ => .op endLoop

def deactivate (emitSignals : Bool) : Prog Session :=
  (atOnce (runDown (linux qt)))
  |>.andThen (atOnce fun d => (true, if emitSignals then d.emit .disconnected else d))
  |>.andThen (onPlatform (linux qt).restoreResolvers)
  |>.andThen (atOnce fun d => ((linux qt).interfaceExists d.platform, d))
  |>.andThen (deleteConnections qt)
  |>.andThen (atOnce (clearExclusions (linux qt)))
  |>.andThen (onPlatform deleteInterface)
  |>.andThen (atOnce fun d => (true, { d with m_connections := fun _ => none }))

/-- `emit_failure_guard` -/
def failureGuard (p : Prog Session) : Prog Session := p.bind fun ok =>
  if ok then .ret true else atOnce fun d => (false, d.emit .activationFailure)

def activate : Prog Session := failureGuard (.look fun s =>
  match s.daemon.m_connections config.m_hopType with
  | none => bringUp qt config
  | some current =>
      if Daemon.supportServerSwitching current.m_config config then
        switchTo qt current.m_config config
      else (deactivate qt false).andThen (failureGuard (bringUp qt config)))

def getStatus : Prog Session := .look fun s =>
  if s.daemon.platform.m_tunnel = .Running ∧ ¬ s.daemon.connections.isEmpty then .wait (.ret true)
  else .ret true

variable (getPeerStatus : LinuxPlatform → List PeerStatus)

def checkHandshake : Prog Session :=
  .wait (atOnce fun d => (true, d.checkHandshake getPeerStatus))

def handler : DaemonCommand → Prog Session
  | .activate config => activate qt config
  | .deactivate => deactivate qt true
  | .status => getStatus
  | .checkHandshake => checkHandshake getPeerStatus

end Daemon

section Loops

variable (qt : QtLibrary) (getPeerStatus : LinuxPlatform → List PeerStatus)

variable (s : Session)

def Intact : Prop := ∀ map ∈ s.iterating, map = s.daemon.m_connections

def Outside : Prop := s.iterating = []

def Inside : Prop := s.iterating = [s.daemon.m_connections]

theorem Outside.intact {s : Session} (h : Outside s) : Intact s := by
  intro map hmap
  rw [Outside] at h
  simp [h] at hmap

theorem Inside.intact {s : Session} (h : Inside s) : Intact s := by
  intro map hmap
  rw [Inside] at h
  simpa [h] using hmap

def Keeps (J : Session → Prop) (p : Prog Session) : Prop := ∀ s, J s → p.Holds Intact J s

section Keeps

variable {J : Session → Prop} (hJ : ∀ {s}, J s → Intact s)

include hJ

theorem keeps_ret (ok : Bool) : Keeps J (.ret ok) := fun _ hs => ⟨hJ hs, hs⟩

variable {p : Prog Session}

theorem Keeps.wait (h : Keeps J p) : Keeps J (.wait p) :=
  fun s hs => ⟨hJ hs, h s hs⟩

theorem Keeps.look {p : Session → Prog Session} (h : ∀ s, Keeps J (p s)) : Keeps J (.look p) :=
  fun s hs => ⟨hJ hs, h s s hs⟩

theorem keeps_op {a : Op Session} (h : ∀ s, J s → J (a s).2) : Keeps J (.op a) :=
  fun s hs => ⟨hJ hs, hJ (h s hs), h s hs⟩

omit hJ in
theorem Keeps.andThen {q : Prog Session} (hp : Keeps J p) (hq : Keeps J q) :
    Keeps J (p.andThen q) :=
  fun s hs => (hp s hs).andThen fun s _ hs => hq s hs

omit hJ in
theorem Keeps.ignore (h : Keeps J p) : Keeps J p.ignore :=
  fun s hs => (h s hs).ignore

end Keeps

theorem keeps_atOnce (a : Op (Daemon LinuxPlatform)) : Keeps Outside (atOnce a) :=
  keeps_op Outside.intact fun _ hs => hs

theorem keeps_atOnce_inside {a : Op (Daemon LinuxPlatform)}
    (h : Op.Keeps Daemon.SameConnections a) : Keeps Inside (atOnce a) := by
  refine keeps_op Inside.intact fun s hs => ?_
  have hsame := h s.daemon
  rw [Daemon.SameConnections] at hsame
  rw [Inside] at hs ⊢
  exact hs.trans (congrArg (fun map => [map]) hsame.symm)

theorem keeps_uapiCommand {J : Session → Prop} (hJ : ∀ {s}, J s → Intact s) (f : Device → Device)
    (h : Keeps J (onPlatform (LinuxPlatform.uapiCommand f))) : Keeps J (uapiCommand f) := by
  intro s hs
  obtain ⟨hhere, -, hthere⟩ := h s hs
  exact ⟨hhere, hhere, hJ hthere, hJ hthere, hthere⟩

theorem keeps_onPlatform_inside (a : Op LinuxPlatform) : Keeps Inside (onPlatform a) :=
  keeps_atOnce_inside (Daemon.sameConnections_onPlatform a)

section Programs

variable (config lastConfig : InterfaceConfig)

theorem keeps_uapiCommand_outside (f : Device → Device) : Keeps Outside (uapiCommand f) :=
  keeps_uapiCommand Outside.intact f (keeps_atOnce _)

theorem keeps_updatePeer : Keeps Outside (updatePeer qt config) := by
  unfold updatePeer
  cases endpoint config with
  | none => exact keeps_ret Outside.intact false
  | some endpoint => exact (keeps_atOnce _).andThen (keeps_uapiCommand_outside _)

theorem keeps_deletePeer : Keeps Outside (deletePeer qt config) :=
  (keeps_atOnce _).andThen (keeps_uapiCommand_outside _)

theorem keeps_addInterface : Keeps Outside (addInterface qt config) := by
  refine Keeps.look Outside.intact fun s => ?_
  split_ifs
  · exact keeps_ret Outside.intact false
  · exact (keeps_atOnce _).andThen ((keeps_atOnce _).wait Outside.intact)
      |>.andThen (keeps_atOnce _)
      |>.andThen (keeps_uapiCommand_outside _)
      |>.andThen (keeps_atOnce _)

theorem keeps_ensureInterface : Keeps Outside (ensureInterface qt config) := by
  refine Keeps.look Outside.intact fun s => ?_
  split_ifs
  · exact keeps_ret Outside.intact true
  · exact keeps_addInterface qt config

theorem keeps_bringUp : Keeps Outside (bringUp qt config) :=
  (keeps_ensureInterface qt config).andThen
    ((keeps_atOnce _).andThen (keeps_updatePeer qt config)
      |>.andThen (keeps_atOnce _)
      |>.andThen (keeps_atOnce _)
      |>.andThen (keeps_atOnce _)
      |>.andThen (keeps_atOnce _)
      |>.andThen (keeps_atOnce _)
      |>.andThen (keeps_atOnce _))

theorem keeps_deleteOldPeer : Keeps Outside (deleteOldPeer qt lastConfig config) := by
  unfold deleteOldPeer
  split_ifs
  · exact keeps_deletePeer qt lastConfig
  · exact keeps_ret Outside.intact true

theorem keeps_switchServer : Keeps Outside (switchServer qt lastConfig config) :=
  (keeps_atOnce _).andThen (keeps_updatePeer qt config)
    |>.andThen (keeps_atOnce _)
    |>.andThen (keeps_atOnce _)
    |>.andThen (keeps_atOnce _)
    |>.andThen (keeps_deleteOldPeer qt config lastConfig)
    |>.andThen (keeps_atOnce _)

theorem keeps_switchTo : Keeps Outside (switchTo qt lastConfig config) :=
  (keeps_switchServer qt config lastConfig).andThen (keeps_atOnce _)
    |>.andThen (keeps_atOnce _)
    |>.andThen (keeps_atOnce _)
    |>.andThen (keeps_atOnce _)

theorem keeps_deleteConnection (state : ConnectionState) :
    Keeps Inside (deleteConnection qt state) := by
  have hroutes := Op.Keeps.each
    (fun ip => Daemon.sameConnections_onPlatform ((utils qt).deleteRoutePrefix ip))
    state.m_config.m_allowedIPAddressRanges
  have hpeer : Keeps Inside (deletePeer qt state.m_config) :=
    (keeps_onPlatform_inside _).andThen
      (keeps_uapiCommand Inside.intact _ (keeps_onPlatform_inside _))
  exact (keeps_atOnce_inside hroutes).andThen hpeer.ignore

theorem keeps_deleteConnections : Keeps Outside (deleteConnections qt) := by
  intro s hs
  have hinside : Inside (beginLoop s).2 := by
    rw [Outside] at hs
    simp [Inside, beginLoop, hs]
  refine ⟨hs.intact, hinside.intact, Prog.Holds.bind
    (Prog.holds_each (fun state s _ hs => keeps_deleteConnection qt state s hs) _ hinside.intact
      hinside) fun _ s _ hs => ?_⟩
  have hout : Outside (endLoop s).2 := by
    rw [Inside] at hs
    simp [Outside, endLoop, hs]
  exact ⟨hs.intact, hout.intact, hout⟩

theorem keeps_deactivate (emitSignals : Bool) : Keeps Outside (deactivate qt emitSignals) :=
  (keeps_atOnce _).andThen (keeps_atOnce _)
    |>.andThen (keeps_atOnce _)
    |>.andThen (keeps_atOnce _)
    |>.andThen (keeps_deleteConnections qt)
    |>.andThen (keeps_atOnce _)
    |>.andThen (keeps_atOnce _)
    |>.andThen (keeps_atOnce _)

theorem Keeps.failureGuard {p : Prog Session} (h : Keeps Outside p) :
    Keeps Outside (failureGuard p) := by
  refine fun s hs => (h s hs).bind fun ok s _ hs => ?_
  cases ok with
  | true => exact keeps_ret Outside.intact true s hs
  | false => exact keeps_atOnce _ s hs

theorem keeps_activate : Keeps Outside (activate qt config) := by
  refine Keeps.failureGuard (Keeps.look Outside.intact fun s => ?_)
  cases s.daemon.m_connections config.m_hopType with
  | none => exact keeps_bringUp qt config
  | some current =>
    dsimp only
    split_ifs
    · exact keeps_switchTo qt config current.m_config
    · exact (keeps_deactivate qt false).andThen (keeps_bringUp qt config).failureGuard

end Programs

theorem keeps_handler (c : DaemonCommand) : Keeps Outside (handler qt getPeerStatus c) := by
  cases c with
  | activate config => exact keeps_activate qt config
  | deactivate => exact keeps_deactivate qt true
  | status =>
    refine Keeps.look Outside.intact fun s => ?_
    split_ifs
    · exact (keeps_ret Outside.intact true).wait Outside.intact
    · exact keeps_ret Outside.intact true
  | checkHandshake => exact (keeps_atOnce _).wait Outside.intact

end Loops

section Runs

open Machine RunInvariants

variable (qt : QtLibrary) (getPeerStatus : LinuxPlatform → List PeerStatus)

/-- Commands run one at a time, and no loop over the connections sees their map change. -/
def RunToCompletion (d : Daemon LinuxPlatform) (events : List (Event ℕ DaemonCommand)) : Prop :=
  Throughout (step (handler qt getPeerStatus)) (fun m => m.stack.length ≤ 1 ∧ Intact m.state) events
    (idle ⟨d, []⟩)

/-- Commands run one at a time if none is handled while another one waits. -/
theorem runToCompletion_iff (d : Daemon LinuxPlatform) (events : List (Event ℕ DaemonCommand)) :
    RunToCompletion qt getPeerStatus d events ↔
      NoneOf (step (handler qt getPeerStatus)) Interrupts events (idle ⟨d, []⟩) := by
  have hstart : Outside ⟨d, []⟩ := rfl
  exact alone_iff (fun c s _ hs => keeps_handler qt getPeerStatus c s hs) hstart.intact hstart events

/-- The second client clears the map under the loop of the first. -/
def twoClients : List (Event ℕ DaemonCommand) :=
  [Event.arrive 0 DaemonCommand.deactivate, Event.arrive 1 DaemonCommand.deactivate,
    Event.notify 0] ++ List.replicate 8 Event.proceed ++ [Event.notify 1] ++
      List.replicate 15 Event.proceed

def connectedDaemon : Daemon LinuxPlatform :=
  (Daemon.activate sampleQt.toQtParser (linux sampleQt) sampleConfig
    (initial smooth)).2

theorem not_runToCompletion_twoClients :
    let m := twoClients.foldl (step (handler sampleQt fun _ => [])) (idle ⟨connectedDaemon, []⟩)
    m.stack.length = 2 ∧ ¬ Intact m.state ∧
      ¬ RunToCompletion sampleQt (fun _ => []) connectedDaemon twoClients := by
  have hnested : (twoClients.foldl (step (handler sampleQt fun _ => []))
      (idle ⟨connectedDaemon, []⟩)).stack.length = 2 := by
    decide +kernel
  refine ⟨hnested, fun hintact => ?_, fun h => ?_⟩
  · have hhop : ∀ map ∈ (twoClients.foldl (step (handler sampleQt fun _ => []))
        (idle ⟨connectedDaemon, []⟩)).state.iterating, (map .SingleHop).isSome =
          ((twoClients.foldl (step (handler sampleQt fun _ => []))
            (idle ⟨connectedDaemon, []⟩)).state.daemon.m_connections .SingleHop).isSome :=
      fun map hmap => by rw [hintact map hmap]
    revert hhop
    decide +kernel
  · have hlength := (h twoClients [] (List.append_nil _).symm).1
    rw [hnested] at hlength
    exact absurd hlength (by decide)

end Runs

end Session

end AmneziaVpn
