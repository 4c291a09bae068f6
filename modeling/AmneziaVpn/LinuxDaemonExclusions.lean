import AmneziaVpn.LinuxExclusionRoutes

/-!
# Following an excluded range through the daemon

A switch adds what the new configuration needs before it deletes what the old one had, and so it can
delete what it has just added.
-/

namespace AmneziaVpn.LinuxPlatform

open FallibleOps FallibleOps.Op Daemon List

/-- `E` says whether the range has a route past the tunnel, `n` how often it is counted. -/
structure Tracks (range : IPAddress) (E : Prop) (n : ℕ) (d : Daemon LinuxPlatform) : Prop where
  up : Up d.platform
  excluded : Excluded range d.platform ↔ E
  counted : d.m_excludedAddrSet.count range = n

def Unmoved (range : IPAddress) (d d' : Daemon LinuxPlatform) : Prop :=
  OnPlatform (Steady range) d d' ∧ d'.m_excludedAddrSet = d.m_excludedAddrSet

instance (range : IPAddress) : IsPreorder (Daemon LinuxPlatform) (Unmoved range) where
  refl d := ⟨refl d, rfl⟩
  trans _ _ _ h h' := ⟨trans_of (OnPlatform (Steady range)) h.1 h'.1, h'.2.trans h.2⟩

section Tracking

variable {range : IPAddress} {E : Prop} {n : ℕ} {d : Daemon LinuxPlatform} (qt : QtLibrary)

theorem unmoved_onPlatform {a : Op LinuxPlatform} (h : Keeps (Steady range) a) :
    Keeps (Unmoved range) (onPlatform a) :=
  fun d => ⟨h d.platform, rfl⟩

theorem leads_of_unmoved {a : Op (Daemon LinuxPlatform)} (h : Keeps (Unmoved range) a) :
    Leads (Tracks range E n) a (Tracks range E n) := by
  intro d hd _
  obtain ⟨hsteady, hset⟩ := h d
  refine ⟨(hsteady hd.up).1, (hsteady hd.up).2.trans hd.excluded, ?_⟩
  rw [hset, hd.counted]

theorem unmoved_allOf_updateRoutePrefix (ranges : List IPAddress) :
    Keeps (Unmoved range)
      (Op.allOf (fun ip => onPlatform ((linux qt).updateRoutePrefix ip)) ranges) :=
  Keeps.allOf (fun other => unmoved_onPlatform (steady_updateRoutePrefix qt other)) ranges

theorem unmoved_each_deleteRoutePrefix (ranges : List IPAddress) :
    Keeps (Unmoved range)
      (Op.each (fun ip => onPlatform ((linux qt).deleteRoutePrefix ip)) ranges) :=
  Keeps.each (fun other => unmoved_onPlatform (steady_deleteRoutePrefix qt other)) ranges

theorem unmoved_maybeUpdateResolvers (config : InterfaceConfig) :
    Keeps (Unmoved range) (maybeUpdateResolvers qt.toQtParser (linux qt) config) := by
  intro d
  unfold maybeUpdateResolvers
  by_cases hhop : config.m_hopType = .MultiHopExit ∨ config.m_hopType = .SingleHop
  · rw [if_pos hhop]
    exact unmoved_onPlatform (steady_updateResolvers qt _) d
  · rw [if_neg hhop]
    exact refl d

theorem unmoved_run (op : RunOp) (config : InterfaceConfig) :
    Keeps (Unmoved range) (onPlatform ((linux qt).run op config)) :=
  unmoved_onPlatform fun p => refl_of (Steady range) p

theorem unmoved_register (config : InterfaceConfig) :
    Keeps (Unmoved range) fun d => (true, d.register config) :=
  fun d => ⟨refl_of (Steady range) d.platform, rfl⟩

theorem unmoved_established (config : InterfaceConfig) :
    Keeps (Unmoved range) (established config) :=
  fun d => ⟨refl_of (Steady range) d.platform, rfl⟩

theorem addExclusionRoute_up {p : LinuxPlatform} (h : Up p) (other : IPAddress) :
    (linux qt).addExclusionRoute other p = newRoute ⟨other, .gateway⟩ p := by
  change WireguardInterface.addExclusionRoute routeMonitor other p = _
  simp [WireguardInterface.addExclusionRoute, routeMonitor, h.monitored]

theorem deleteExclusionRoute_up {p : LinuxPlatform} (h : Up p) (other : IPAddress) :
    (linux qt).deleteExclusionRoute other p = delRoute ⟨other, .gateway⟩ p := by
  change WireguardInterface.deleteExclusionRoute routeMonitor other p = _
  simp [WireguardInterface.deleteExclusionRoute, routeMonitor, h.monitored]

variable (hrange : ¬ Unroutable range)

include hrange

theorem Tracks.addExclusionRoute (h : Tracks range E n d) (other : IPAddress) :
    Tracks range (E ∨ (range = other ∧ n = 0)) (n + [other].count range)
      (Daemon.addExclusionRoute (linux qt).toWireguardUtils other d).2 := by
  have hnew : Excluded range (newRoute ⟨other, .gateway⟩ d.platform).2 ↔ _ :=
    excluded_newRoute h.up _
  unfold Daemon.addExclusionRoute
  rw [addExclusionRoute_up qt h.up]
  by_cases hmem : other ∈ d.m_excludedAddrSet
  · rw [if_pos hmem]
    refine ⟨h.up, h.excluded.trans (or_iff_left ?_).symm, ?_⟩
    · rintro ⟨rfl, hzero⟩
      rw [← h.counted, count_eq_zero] at hzero
      exact hzero hmem
    · rw [← h.counted, count_cons, count_singleton]
  · rw [if_neg hmem]
    by_cases hother : Unroutable other
    · have hne : range ≠ other := fun heq => hrange (heq ▸ hother)
      rw [newRoute, rtmSendRoute_unroutable hother]
      refine ⟨h.up, h.excluded.trans (or_iff_left fun heq => hne heq.1).symm, ?_⟩
      simp [h.counted, hne.symm]
    · have hup := up_rtmSendRoute h.up (List.insert ⟨other, .gateway⟩) ⟨other, .gateway⟩
      have htrue : (newRoute ⟨other, .gateway⟩ d.platform).1 = true := by
        rw [newRoute, rtmSendRoute_up h.up hother]
      dsimp only
      rw [if_pos htrue]
      refine ⟨hup, hnew.trans ?_, ?_⟩
      · rw [h.excluded]
        refine or_congr_right ⟨fun heq => ?_, fun heq => ⟨?_, hrange⟩⟩
        · have : other = range := by simpa using heq.1
          subst this
          exact ⟨rfl, by rw [← h.counted, count_eq_zero]; exact hmem⟩
        · rw [heq.1]
      · rw [← h.counted, count_cons, count_singleton]

theorem Tracks.delExclusionRoute (h : Tracks range E n d) (other : IPAddress) :
    Tracks range (E ∧ ¬ (range = other ∧ n ≤ 1)) (n - [other].count range)
      (Daemon.delExclusionRoute (linux qt).toWireguardUtils other d).2 := by
  have hcount : (d.m_excludedAddrSet.erase other).count range = n - [other].count range := by
    rw [count_erase, count_singleton, h.counted]
  unfold Daemon.delExclusionRoute
  dsimp only
  by_cases hmany : d.m_excludedAddrSet.count other > 1
  · rw [if_pos hmany]
    refine ⟨h.up, h.excluded.trans (and_iff_left ?_).symm, hcount⟩
    rintro ⟨rfl, hle⟩
    rw [← h.counted] at hle
    omega
  · rw [if_neg hmany]
    refine ⟨?_, ?_, hcount⟩
    · change Up ((linux qt).deleteExclusionRoute other d.platform).2
      rw [deleteExclusionRoute_up qt h.up]
      exact up_rtmSendRoute h.up _ _
    · change Excluded range ((linux qt).deleteExclusionRoute other d.platform).2 ↔ _
      rw [deleteExclusionRoute_up qt h.up, excluded_delRoute h.up, h.excluded]
      refine and_congr_right fun _ => not_congr ⟨fun heq => ?_, fun heq => ⟨?_, hrange⟩⟩
      · have : other = range := by simpa using heq.1
        subst this
        exact ⟨rfl, by rw [← h.counted]; omega⟩
      · rw [heq.1]

/-- A loop of additions routes the range past the tunnel unless it was counted. -/
theorem Tracks.each_addExclusionRoute (h : Tracks range E n d) (ranges : List IPAddress) :
    Tracks range (E ∨ (range ∈ ranges ∧ n = 0)) (n + ranges.count range)
      (Op.each (Daemon.addExclusionRoute (linux qt).toWireguardUtils) ranges d).2 := by
  induction ranges generalizing E n d with
  | nil => simpa using h
  | cons other ranges ih =>
    have hrest := ih (h.addExclusionRoute qt hrange other)
    rw [each_cons]
    refine ⟨hrest.up, hrest.excluded.trans ?_, hrest.counted.trans ?_⟩
    · rw [or_assoc, mem_cons]
      refine or_congr_right ?_
      by_cases heq : range = other
      · subst heq
        simp
      · simp [heq, Ne.symm heq]
    · rw [Nat.add_assoc, ← count_append, singleton_append]

/-- A loop of deletions removes the route for the range as soon as its count is used up. -/
theorem Tracks.each_delExclusionRoute (h : Tracks range E n d) (ranges : List IPAddress) :
    Tracks range (E ∧ ¬ (range ∈ ranges ∧ n ≤ ranges.count range)) (n - ranges.count range)
      (Op.each (Daemon.delExclusionRoute (linux qt).toWireguardUtils) ranges d).2 := by
  induction ranges generalizing E n d with
  | nil => simpa using h
  | cons other ranges ih =>
    have hrest := ih (h.delExclusionRoute qt hrange other)
    rw [each_cons]
    refine ⟨hrest.up, hrest.excluded.trans ?_, hrest.counted.trans ?_⟩
    · rw [and_assoc]
      refine and_congr_right fun _ => ?_
      by_cases heq : range = other
      · subst heq
        have hzero : range ∉ ranges → ranges.count range = 0 := count_eq_zero.mpr
        simp only [mem_cons, true_or, count_cons_self, count_nil]
        by_cases hmem : range ∈ ranges
        · simp only [hmem, true_and]
          omega
        · simp [hmem, hzero hmem]
      · simp [heq, Ne.symm heq]
    · rw [Nat.sub_sub, ← count_append, singleton_append]

theorem Tracks.updatePeer (config : InterfaceConfig) :
    Leads (Tracks range E n) (Daemon.onPlatform ((linux qt).updatePeer config))
      (Tracks range (E ∨ Serves qt config range) n) := by
  intro d h htrue
  obtain ⟨hup, hexcluded⟩ := excluded_updatePeer qt hrange h.up htrue
  exact ⟨hup, hexcluded.trans (or_congr_left h.excluded), h.counted⟩

theorem Tracks.deleteOldPeer (lastConfig config : InterfaceConfig) :
    Leads (Tracks range E n) (Daemon.deleteOldPeer (linux qt).toWireguardUtils lastConfig config)
      (Tracks range (E ∧ ¬ (config.m_serverPublicKey ≠ lastConfig.m_serverPublicKey ∧
        Serves qt lastConfig range)) n) := by
  intro d h htrue
  unfold Daemon.deleteOldPeer at htrue ⊢
  by_cases hkeys : config.m_serverPublicKey = lastConfig.m_serverPublicKey
  · simpa [hkeys] using h
  · rw [if_pos hkeys] at htrue ⊢
    obtain ⟨hup, hexcluded⟩ := excluded_deletePeer qt hrange h.up htrue
    refine ⟨hup, hexcluded.trans ?_, h.counted⟩
    simp [hkeys, h.excluded]

theorem Tracks.bringUpPeer (config : InterfaceConfig) :
    Leads (Tracks range E n) (Daemon.bringUpPeer qt.toQtParser (linux qt) config)
      (Tracks range ((E ∨ (range ∈ exclusions qt.toQtParser config ∧ n = 0)) ∨ Serves qt config range)
        (n + (exclusions qt.toQtParser config).count range)) := by
  have hadd : Leads (Tracks range E n)
      (Op.each (Daemon.addExclusionRoute (linux qt).toWireguardUtils)
        (exclusions qt.toQtParser config)) _ :=
    fun _ h _ => h.each_addExclusionRoute qt hrange _
  exact hadd.andThen (Tracks.updatePeer qt hrange config)
    |>.andThen (leads_of_unmoved (unmoved_maybeUpdateResolvers qt config))
    |>.andThen (leads_of_unmoved (unmoved_onPlatform (steady_addInterfaceIPs config)))
    |>.andThen (leads_of_unmoved (unmoved_onPlatform (steady_setMTUAndUp config)))
    |>.andThen (leads_of_unmoved (unmoved_allOf_updateRoutePrefix qt _))
    |>.andThen (leads_of_unmoved (unmoved_run qt .Up config))
    |>.andThen (leads_of_unmoved (unmoved_established config))

/-- A switch takes the route of the range away. -/
def Dropped (lastConfig config : InterfaceConfig) (n : ℕ) (range : IPAddress) : Prop :=
  (range ∈ switchedExclusions qt.toQtParser lastConfig ∧
    n + (exclusions qt.toQtParser config).count range ≤
      (switchedExclusions qt.toQtParser lastConfig).count range) ∨
  (config.m_serverPublicKey ≠ lastConfig.m_serverPublicKey ∧ Serves qt lastConfig range)

theorem Tracks.switchTo (lastConfig config : InterfaceConfig) :
    Leads (Tracks range E n) (Daemon.switchTo qt.toQtParser (linux qt) lastConfig config)
      (Tracks range (((E ∨ (range ∈ exclusions qt.toQtParser config ∧ n = 0)) ∨
        Serves qt config range) ∧ ¬ Dropped qt lastConfig config n range)
        (n + (exclusions qt.toQtParser config).count range -
          (switchedExclusions qt.toQtParser lastConfig).count range)) := by
  have hadd : Leads (Tracks range E n)
      (Op.each (Daemon.addExclusionRoute (linux qt).toWireguardUtils)
        (exclusions qt.toQtParser config)) _ :=
    fun _ h _ => h.each_addExclusionRoute qt hrange _
  have hserver := hadd.andThen (Tracks.updatePeer qt hrange config)
    |>.andThen (leads_of_unmoved
      (unmoved_allOf_updateRoutePrefix qt config.m_allowedIPAddressRanges).ignore)
    |>.andThen (fun _ h _ => h.each_delExclusionRoute qt hrange
      (switchedExclusions qt.toQtParser lastConfig))
    |>.andThen (leads_of_unmoved
      (unmoved_each_deleteRoutePrefix qt (goneRanges lastConfig config)))
    |>.andThen (Tracks.deleteOldPeer qt hrange lastConfig config)
    |>.andThen (leads_of_unmoved (unmoved_register config))
  unfold Dropped
  rw [not_or, ← and_assoc]
  exact hserver.andThen (leads_of_unmoved (unmoved_onPlatform (steady_restoreResolvers qt)))
    |>.andThen (leads_of_unmoved (unmoved_maybeUpdateResolvers qt config))
    |>.andThen (leads_of_unmoved (unmoved_run qt .Switch config))
    |>.andThen (leads_of_unmoved (unmoved_established config))

end Tracking

end AmneziaVpn.LinuxPlatform
