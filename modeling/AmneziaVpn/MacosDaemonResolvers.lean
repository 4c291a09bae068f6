import AmneziaVpn.ExclusionRuns
import AmneziaVpn.MacosResolvers

/-!
# The resolvers of the daemon on macOS

An activation that fails behind the update leaves no connection and does not restore them, so that
the next one saves the settings of the VPN in place of those of the services.
-/

namespace AmneziaVpn

open FallibleOps FallibleOps.Op Daemon

/-- The state of the services and the calls made for it beside the rest of the system. -/
structure MacosServices (τ : Type) where
  system : τ
  dns : DnsUtilsMacos
  calls : List ResolverCall := []

namespace MacosServices

variable {τ : Type} (qt : QtParser) (unicode : QtUnicode)

def onSystem (a : Op τ) : Op (MacosServices τ) := fun p =>
  ((a p.system).1, { p with system := (a p.system).2 })

/-- The platform with the resolvers of macOS. -/
def macos (P : DaemonPlatform τ) : DaemonPlatform (MacosServices τ) where
  updatePeer config := onSystem (P.updatePeer config)
  deletePeer config := onSystem (P.deletePeer config)
  updateRoutePrefix range := onSystem (P.updateRoutePrefix range)
  deleteRoutePrefix range := onSystem (P.deleteRoutePrefix range)
  addExclusionRoute range := onSystem (P.addExclusionRoute range)
  deleteExclusionRoute range := onSystem (P.deleteExclusionRoute range)
  interfaceExists p := P.interfaceExists p.system
  addInterface config := onSystem (P.addInterface config)
  deleteInterface := onSystem P.deleteInterface
  updateResolvers resolvers := (onSystem (P.updateResolvers resolvers)).andThen fun p =>
    (true, { p with
      dns := p.dns.updateResolvers unicode resolvers
      calls := p.calls ++ [.update resolvers] })
  restoreResolvers p :=
    (true, { p with dns := p.dns.restoreResolvers, calls := p.calls ++ [.restore] })
  addInterfaceIPs config := onSystem (P.addInterfaceIPs config)
  setMTUAndUp config := onSystem (P.setMTUAndUp config)
  run op config := onSystem (P.run op config)

variable (P : DaemonPlatform τ)

variable (calls : List (τ × Call)) (d : Daemon (MacosServices τ))

def runDaemon : Daemon (MacosServices τ) :=
  calls.foldl (fun d c => call qt (macos unicode P) { d.platform with system := c.1 } c.2 d) d

def Logged (p p' : MacosServices τ) : Prop :=
  ∃ calls, p'.calls = p.calls ++ calls ∧ p'.dns = DnsUtilsMacos.run unicode calls p.dns

instance : IsPreorder (MacosServices τ) (Logged unicode) where
  refl p := ⟨[], (List.append_nil _).symm, rfl⟩
  trans p p' p'' := by
    rintro ⟨calls, hcalls, hdns⟩ ⟨calls', hcalls', hdns'⟩
    refine ⟨calls ++ calls', ?_, ?_⟩
    · rw [hcalls', hcalls, List.append_assoc]
    · rw [hdns', hdns, DnsUtilsMacos.run_append]

theorem logged_onSystem (a : Op τ) : Keeps (OnPlatform (Logged unicode)) (onPlatform (onSystem a)) :=
  fun _ => ⟨[], (List.append_nil _).symm, rfl⟩

theorem platformKeeps_logged :
    PlatformKeeps (fun _ => True) (OnPlatform (Logged unicode)) (macos unicode P) where
  success := trivial
  updatePeer _ := (logged_onSystem unicode _).when
  deletePeer _ := (logged_onSystem unicode _).when
  updateRoutePrefix _ := logged_onSystem unicode _
  deleteRoutePrefix _ := logged_onSystem unicode _
  addExclusionRoute _ := logged_onSystem unicode _
  deleteExclusionRoute _ := logged_onSystem unicode _
  updateResolvers resolvers := by
    apply Keeps.when
    apply keeps_onPlatform
    apply Keeps.andThen
    · exact fun _ => ⟨[], (List.append_nil _).symm, rfl⟩
    · exact fun _ => ⟨[.update resolvers], rfl, rfl⟩
  restoreResolvers _ _ := ⟨[.restore], rfl, rfl⟩
  addInterfaceIPs _ := (logged_onSystem unicode _).when
  setMTUAndUp _ := (logged_onSystem unicode _).when
  run _ _ := (logged_onSystem unicode _).when

theorem logged_runDaemon : Logged unicode d.platform (runDaemon qt unicode P calls d).platform := by
  induction calls generalizing d with
  | nil => exact refl_of (Logged unicode) d.platform
  | cons c calls ih =>
    obtain ⟨system, request⟩ := c
    have hsystem : Logged unicode d.platform { d.platform with system } :=
      ⟨[], (List.append_nil _).symm, rfl⟩
    have hcall : Logged unicode { d.platform with system }
        (call qt (macos unicode P) { d.platform with system } request d).platform := by
      cases request with
      | activate config =>
        exact (platformKeeps_logged unicode P).activate qt ignoresRecords_onPlatform
          (fun _ => logged_onSystem unicode _) (logged_onSystem unicode _) config _
      | deactivate =>
        exact (platformKeeps_logged unicode P).deactivate (logged_onSystem unicode _)
          ignoresRecords_onPlatform.counts (fun _ => ignoresRecords_onPlatform _ _ rfl)
          (fun _ => ignoresRecords_onPlatform _ _ rfl) _
    exact trans_of (Logged unicode) (trans_of (Logged unicode) hsystem hcall) (ih _)

def fresh (system : τ) (n : MacosNetwork) : Daemon (MacosServices τ) :=
  initial { system, dns := { network := n } }

/-- Restores bring the settings back if no update saves those of an earlier one. -/
theorem restores_settings_iff (system : τ) (n : MacosNetwork) (calls : List (τ × Call)) :
    let p := (runDaemon qt unicode P calls (fresh system n)).platform
    p.dns = DnsUtilsMacos.run unicode p.calls { network := n } ∧
      (DnsUtilsMacos.Restored unicode n p.calls ↔ DnsUtilsMacos.Restorable unicode n p.calls) := by
  obtain ⟨made, hmade, hdns⟩ := logged_runDaemon qt unicode P calls (fresh system n)
  refine ⟨?_, DnsUtilsMacos.restored_iff_restorable n _⟩
  rw [hdns, hmade]
  rfl

def flaky : DaemonPlatform Bool where
  updatePeer _ s := (true, s)
  deletePeer _ s := (true, s)
  updateRoutePrefix _ s := (true, s)
  deleteRoutePrefix _ s := (true, s)
  addExclusionRoute _ s := (true, s)
  deleteExclusionRoute _ s := (true, s)
  interfaceExists _ := true
  addInterface _ s := (true, s)
  deleteInterface s := (true, s)
  updateResolvers _ s := (true, s)
  restoreResolvers s := (true, s)
  addInterfaceIPs _ s := (s, s)
  setMTUAndUp _ s := (true, s)
  run _ _ s := (true, s)

def plainUnicode : QtUnicode where
  fromUtf16 text := text
  print address := if address = .ipv4 0x0a000001 then "10.0.0.1" else ""
  fromUtf16_eq _ _ := rfl
  print_head address := by
    split_ifs <;> simp [IsByteOrderMark]

def oneService : MacosNetwork where
  services := ["A"]
  dns uuid := if uuid = "A" then some { serverAddresses := some (.array [.string "192.168.0.1"]) }
    else none
  nodup_services := by decide

/-- The next activation saves the settings of the VPN. -/
theorem vpn_settings_restored :
    let config := { sampleConfig with m_dnsServer := "10.0.0.1" }
    let p := (runDaemon sampleQt.toQtParser plainUnicode flaky
      [(false, .activate config), (true, .activate config), (true, .deactivate)]
      (fresh false oneService)).platform
    p.calls = [.update [.ipv4 0x0a000001], .update [.ipv4 0x0a000001], .restore] ∧
      oneService.settings "A" =
        { serverAddresses := some (.array [.string "192.168.0.1"]) } ∧
      p.dns.network.settings "A" =
        { domainName := some (.scalar (.string "lan"))
          serverAddresses := some (.array [.string "10.0.0.1"]) } := by
  decide +kernel

end MacosServices

end AmneziaVpn
