import AmneziaVpn.OpenVpnClient
import AmneziaVpn.WireguardRoutes

/-!
# A second session with the same builder

Below Android 13 the first session leaves the flattened routes in the builder: included networks
only, without the exclusion of the server.
-/

namespace AmneziaVpn.OpenVpnClient

open ProtocolConfig (Builder)
open ProtocolConfig.Builder IpRangeSet List

def newRoutes (routes pushed : List Route) : List Route :=
  (linkedHashSetAddAll routes pushed).drop routes.length

theorem addAll_eq_newRoutes (routes pushed : List Route) :
    linkedHashSetAddAll routes pushed = routes ++ newRoutes routes pushed := by
  obtain ⟨new, hnew, -⟩ := linkedHashSetAddAll_eq_append routes pushed
  rw [newRoutes, hnew, drop_left]

/-- The new routes say about every address what the routes cover. -/
def Repeats (routes pushed : List Route) : Prop :=
  ((∃ r ∈ pushed, r.include = false) → ∀ a r, ¬ Loopback a →
    lastContaining (unicastDefault (newRoutes routes pushed)) a = some r →
      (r.include = true ↔ covered routes a)) ∧
  ((∀ r ∈ pushed, r.include = true) → ∀ r ∈ unicastDefault (newRoutes routes pushed),
    isLoopbackRoute ipv6Loopback r = false →
      r.inetNetwork.IsCidr ∧ ∀ a, r.inetNetwork.contains a → covered routes a)

variable {routes : List Route}

theorem mem_unicastDefault {r : Route} :
    r ∈ unicastDefault routes ↔ r ∈ routes ∧ r ≠ ⟨ipv6DefaultRoute, true⟩ ∨
      r = ⟨globalUnicast, true⟩ ∧ ⟨ipv6DefaultRoute, true⟩ ∈ routes := by
  rw [unicastDefault]
  by_cases hmem : ⟨ipv6DefaultRoute, true⟩ ∈ routes
  · rw [if_pos hmem, mem_linkedHashSetAddAll, mem_singleton, mem_filter,
      decide_eq_true_eq, and_iff_left hmem, or_comm]
  · rw [if_neg hmem, mem_filter, decide_eq_true_eq, or_iff_left fun h => hmem h.2]

theorem unicastDefault_of_nodup (h : routes.Nodup) :
    unicastDefault routes =
      if ⟨ipv6DefaultRoute, true⟩ ∈ routes then
        ⟨globalUnicast, true⟩ :: (routes.filter (· ≠ ⟨ipv6DefaultRoute, true⟩)).filter
          (· ∉ [(⟨globalUnicast, true⟩ : Route)])
      else routes.filter (· ≠ ⟨ipv6DefaultRoute, true⟩) := by
  rw [unicastDefault]
  split_ifs
  · rw [linkedHashSetAddAll_of_nodup _ (h.filter _)]
    rfl
  · rfl

theorem includedLast_of_included (h : ∀ r ∈ routes, r.include = true) (a : IpAddress) :
    IncludedLast routes a ↔ ∃ r ∈ routes, r.inetNetwork.contains a := by
  have hnone : ∀ r ∈ ([] : List Route), r.include = false := by simp
  simpa using includedLast_append h hnone a

/-- Included routes in front decide only about the addresses the others leave open. -/
theorem includedLast_append_included {included : List Route} (h : ∀ r ∈ included, r.include = true)
    (a : IpAddress) :
    IncludedLast (included ++ routes) a ↔ IncludedLast routes a ∨
      lastContaining routes a = none ∧ ∃ r ∈ included, r.inetNetwork.contains a := by
  rw [← includedLast_of_included h, IncludedLast, IncludedLast, IncludedLast, lastContaining_append]
  cases lastContaining routes a with
  | some r => simp
  | none => simp

theorem exists_contains_filter {p : Route → Bool} {a : IpAddress}
    (h : ∀ r ∈ routes, ¬ p r → ¬ r.inetNetwork.contains a) :
    (∃ r ∈ routes.filter p, r.inetNetwork.contains a) ↔ ∃ r ∈ routes, r.inetNetwork.contains a := by
  constructor
  · rintro ⟨r, hr, hcontains⟩
    exact ⟨r, (mem_filter.mp hr).1, hcontains⟩
  · rintro ⟨r, hr, hcontains⟩
    refine ⟨r, mem_filter.mpr ⟨hr, ?_⟩, hcontains⟩
    by_contra hp
    exact h r hr hp hcontains

/-- Included routes without an IPv6 default route stay in front of what the others become. -/
theorem includedLast_unicastDefault_append {included : List Route}
    (hinc : ∀ r ∈ included, r.include = true) (hdefault : ⟨ipv6DefaultRoute, true⟩ ∉ included)
    (hnodup : (included ++ routes).Nodup) (a : IpAddress) :
    IncludedLast (unicastDefault (included ++ routes)) a ↔
      IncludedLast (unicastDefault routes) a ∨
        lastContaining (unicastDefault routes) a = none ∧
          ∃ r ∈ included, r.inetNetwork.contains a := by
  have hkeep : included.filter (· ≠ ⟨ipv6DefaultRoute, true⟩) = included := by
    apply filter_eq_self.mpr
    intro r hr
    have hne : r ≠ ⟨ipv6DefaultRoute, true⟩ := fun h => hdefault (h ▸ hr)
    simp [hne]
  have hroutes : routes.Nodup := (nodup_append.mp hnodup).2.1
  have hboth : ⟨ipv6DefaultRoute, true⟩ ∈ included ++ routes ↔ ⟨ipv6DefaultRoute, true⟩ ∈ routes := by
    rw [mem_append, or_iff_right hdefault]
  rw [unicastDefault_of_nodup hnodup, unicastDefault_of_nodup hroutes, filter_append, hkeep]
  by_cases hmem : ⟨ipv6DefaultRoute, true⟩ ∈ routes
  · rw [if_pos (hboth.mpr hmem), if_pos hmem, filter_append]
    generalize (routes.filter _).filter _ = rest
    have hfront : ∀ r ∈ (⟨globalUnicast, true⟩ : Route) ::
        included.filter (· ∉ [(⟨globalUnicast, true⟩ : Route)]), r.include = true := by
      intro r hr
      rcases mem_cons.mp hr with rfl | hr
      · rfl
      · exact hinc r (mem_filter.mp hr).1
    rw [← cons_append, includedLast_append_included hfront, IncludedLast, IncludedLast,
      lastContaining_cons]
    cases lastContaining rest a with
    | some r => simp
    | none =>
      by_cases hunicast : globalUnicast.contains a
      · simp [hunicast]
      · have hsame : (∃ r ∈ included.filter (· ∉ [(⟨globalUnicast, true⟩ : Route)]),
            r.inetNetwork.contains a) ↔ ∃ r ∈ included, r.inetNetwork.contains a := by
          apply exists_contains_filter
          intro r _ hp
          obtain rfl : r = ⟨globalUnicast, true⟩ := by simpa using hp
          exact hunicast
        simp [hunicast, ← hsame]
  · rw [if_neg (hboth.not.mpr hmem), if_neg hmem, includedLast_append_included hinc]

def Unmapped (routes : List Route) : Prop := ∀ r ∈ routes, ¬ IpRange.Mapped r.inetNetwork.ip

theorem Unmapped.unicastDefault (h : Unmapped routes) : Unmapped (unicastDefault routes) := by
  intro r hr
  rcases mem_unicastDefault.mp hr with ⟨hr, -⟩ | ⟨rfl, -⟩
  · exact h r hr
  · exact IpRange.not_mapped_of_ofText ofText_globalUnicast

theorem Unmapped.lastContaining_eq (h : Unmapped routes) {a c : IpAddress} (ha : IpRange.Mapped a)
    (hc : IpRange.Mapped c) : lastContaining routes a = lastContaining routes c := by
  induction routes with
  | nil => rfl
  | cons r routes ih =>
    have hrest : Unmapped routes := fun q hq => h q (mem_cons_of_mem _ hq)
    rw [lastContaining_cons, lastContaining_cons, ih hrest]
    simp [IpRange.contains_mapped_iff (h r mem_cons_self) ha hc]

def AllKept (routes : List Route) : Prop := ∀ a, IncludedLast routes a → KeptIfMapped routes a

theorem platformAccepts_iff (h : ∀ r ∈ routes, r.include = true) :
    platformAccepts routes = true ↔ ∀ r ∈ routes, r.inetNetwork.IsCidr := by
  rw [platformAccepts, all_eq_true]
  refine forall_congr' fun r => forall_congr' fun hr => ?_
  simp [h r hr]

theorem processRoutes_accepted {b : Builder} {sdk : ℕ} (hsdk : sdk < tiramisu)
    (hexcluded : ∃ r ∈ unicastDefault b.routes, r.include = false)
    (hmask : ∀ r ∈ unicastDefault b.routes, -8 < r.inetNetwork.mask)
    (hunmapped : Unmapped (unicastDefault b.routes)) :
    ∃ routes, b.processRoutes sdk = .ok (b.withRoutes routes) ∧ routes.Nodup ∧
      (∀ r ∈ routes, r.include = true ∧ ¬ IpRange.Mapped r.inetNetwork.ip ∧
        isLoopbackRoute ipv6Loopback r = false) ∧
      (platformAccepts routes = true ↔ AllKept (unicastDefault b.routes)) ∧
      ∀ a, covered routes a ↔ IncludedLast (unicastDefault b.routes) a ∧ ¬ Loopback a ∧
        KeptIfMapped (unicastDefault b.routes) a := by
  obtain ⟨s, ns, hs, hsubnets, hflat, hset⟩ :=
    flattenRoutes_subnets (b.withRoutes (unicastDefault b.routes)) hmask
  obtain ⟨routes, hrun, hcov⟩ := processRoutes_flattened hsdk hexcluded hmask
  have hroutes := processRoutes_of_excluded hsdk hexcluded hflat
  obtain rfl : routes = (linkedHashSetAddAll [] (ns.map (⟨·, true⟩))).filter
      fun r => !isLoopbackRoute ipv6Loopback r :=
    congrArg Builder.routes (Except.ok.inj (hrun.symm.trans hroutes))
  have hmem : ∀ r, r ∈ (linkedHashSetAddAll [] (ns.map (⟨·, true⟩))).filter
      (fun r => !isLoopbackRoute ipv6Loopback r) ↔
      (r.inetNetwork ∈ ns ∧ r.include = true) ∧ isLoopbackRoute ipv6Loopback r = false := by
    intro r
    rw [mem_filter, mem_networkRoutes, Bool.not_eq_true']
  refine ⟨_, hrun, (nodup_linkedHashSetAddAll nodup_nil _).filter _, ?_, ?_, hcov⟩
  · intro r hr
    obtain ⟨⟨hn, hinc⟩, hloop⟩ := (hmem r).mp hr
    exact ⟨hinc, not_mapped_of_mem_subnets hsubnets hn, hloop⟩
  · rw [platformAccepts_iff fun r hr => ((hmem r).mp hr).1.2]
    have haround : s.AroundMapped ↔ ∀ c : IpAddress, c.size = 16 → c.value ∈ IpRange.aroundMapped →
        IncludedLast (unicastDefault b.routes) c := by
      refine forall_congr' fun c => forall_congr' fun hsize => forall_congr' fun hc => ?_
      rw [hset, and_iff_left (not_loopback_of_around hsize hc)]
      rfl
    constructor
    · intro hcidr a ha hmapped
      rw [← haround]
      by_contra hnot
      have hfirst : s.covers IpRange.firstMapped := by
        refine (hset _).mpr ⟨?_, not_loopback_of_mapped IpRange.mapped_firstMapped⟩
        rw [IncludedLast, withRoutes_routes,
          hunmapped.lastContaining_eq IpRange.mapped_firstMapped hmapped]
        exact ha
      obtain ⟨n, hn, hzero, hprefix⟩ := subnets_rejected hs hsubnets hfirst hnot
      have hloop : isLoopbackRoute ipv6Loopback ⟨n, true⟩ = false := by
        simp [isLoopbackRoute, InetNetwork.isIpv4, InetAddress.isInet4, hzero]
      exact hprefix (hcidr ⟨n, true⟩ ((hmem _).mpr ⟨⟨hn, rfl⟩, hloop⟩)).1
    · intro hkept r hr
      refine subnets_isCidr hs hsubnets (fun a ha hmapped => ?_) _ ((hmem r).mp hr).1.1
      exact haround.mpr (hkept a ((hset a).mp ha).1 hmapped)

section Sessions

variable {order : HashOrder InetNetwork} {sdk : ℕ} {b b' : Builder} {callbacks : List TunCallback}

theorem validate_eq_ok : b.validate = .ok () ↔ b.addresses ≠ [] ∧ b.routes ≠ [] ∧ b.mtu ≠ 0 := by
  rw [validate]
  by_cases haddresses : b.addresses = []
  · simp [haddresses]
  · by_cases hroutes : b.routes = []
    · simp [haddresses, hroutes]
    · by_cases hmtu : b.mtu = 0
      · simp [haddresses, hroutes, hmtu]
      · simp [haddresses, hroutes, hmtu]

def SplitOff (b : Builder) : Prop := b.includedAddresses = [] ∧ b.excludedAddresses = []

theorem processSplitTunneling_off (h : SplitOff b) : b.processSplitTunneling order = .ok b := by
  simp only [processSplitTunneling, h.1, h.2, ne_eq, not_true_eq_false, and_self, if_false]
  rfl

theorem establish_eq_ok (h : SplitOff b) :
    establish order sdk b = .ok b' ↔ b.processRoutes sdk = .ok b' ∧ b'.addresses ≠ [] ∧
      b'.routes ≠ [] ∧ b'.mtu ≠ 0 ∧ platformAccepts b'.routes = true := by
  rw [establish, configBuild, processSplitTunneling_off h]
  simp only [bind_eq_ok, Except.ok.injEq, exists_eq_left', pure, Except.pure]
  constructor
  · rintro ⟨c, ⟨d, hd, u, hvalid, rfl⟩, hrun⟩
    obtain ⟨haddresses, hroutes, hmtu⟩ := validate_eq_ok.mp hvalid
    split_ifs at hrun with haccepts
    obtain rfl := Except.ok.inj hrun
    exact ⟨hd, haddresses, hroutes, hmtu, haccepts⟩
  · rintro ⟨hprocess, haddresses, hroutes, hmtu, haccepts⟩
    refine ⟨b', ⟨b', hprocess, (), validate_eq_ok.mpr ⟨haddresses, hroutes, hmtu⟩, rfl⟩, ?_⟩
    rw [if_pos haccepts]

theorem session_eq_some (h : session order sdk b callbacks = .ok (some b')) :
    establish order sdk ((pushedBy callbacks).into (tunBuilderNew b)) = .ok b' ∧
      ∀ d d', session order sdk d callbacks = .ok (some d') ↔
        establish order sdk ((pushedBy callbacks).into (tunBuilderNew d)) = .ok d' := by
  obtain ⟨⟨accepted, c⟩, hcallbacks, hrest⟩ := bind_eq_ok.mp h
  cases accepted with
  | false => cases hrest
  | true =>
    have hsession : ∀ d d', session order sdk d callbacks = .ok (some d') ↔
        establish order sdk ((pushedBy callbacks).into (tunBuilderNew d)) = .ok d' := by
      intro d d'
      rw [session, onCallbacks_eq hcallbacks]
      change some <$> establish order sdk _ = _ ↔ _
      cases establish order sdk ((pushedBy callbacks).into (tunBuilderNew d)) with
      | error e => simp [Functor.map, Except.map]
      | ok d'' => simp [Functor.map, Except.map]
    exact ⟨(hsession b b').mp h, hsession⟩

theorem startVpn_spec {hostName : String} {config : ConfigJson}
    (hsplit : config.splitTunnelType = 0) (h : startVpn hostName config = .ok b) :
    ∃ server, ¬ IpRange.Mapped server.ip ∧ b.routes = [⟨server, false⟩] ∧ SplitOff b := by
  obtain ⟨a, ha, h⟩ := bind_eq_ok.mp h
  dsimp only at h
  rw [Wireguard.configSplitTunneling_disabled hsplit] at h
  obtain ⟨hroutes, hincluded, hexcluded⟩ := Wireguard.configAppSplitTunneling_eq h
  exact ⟨InetNetwork.ofAddress a, IpRange.not_mapped_of_parseInetAddress ha, hroutes, hincluded,
    hexcluded⟩

/-- What the first session leaves in the builder. -/
structure LeftBehind (routes pushed : List Route) : Prop where
  nodup : routes.Nodup
  nonempty : routes ≠ []
  included : ∀ r ∈ routes, r.include = true
  cidr : ∀ r ∈ routes, r.inetNetwork.IsCidr
  unmapped : Unmapped routes
  nonLoopback : ∀ r ∈ routes, isLoopbackRoute ipv6Loopback r = false
  clear : ∀ a, covered routes a → ¬ Loopback a
  kept : ∀ a, covered routes a → IpRange.Mapped a → ∀ c : IpAddress, c.size = 16 →
    c.value ∈ IpRange.aroundMapped → covered routes c
  masks : ∀ r ∈ pushed, -8 < r.inetNetwork.mask
  pushedUnmapped : Unmapped pushed

theorem excluded_mem_unicastDefault {routes : List Route} {r : Route} (hr : r ∈ routes)
    (hexcluded : r.include = false) : ∃ r ∈ unicastDefault routes, r.include = false := by
  refine ⟨r, mem_unicastDefault.mpr (.inl ⟨hr, ?_⟩), hexcluded⟩
  rintro rfl
  cases hexcluded

theorem leftBehind_of_establish {server : InetNetwork} {pushed : List Route}
    (hsdk : sdk < tiramisu) (hoff : SplitOff b) (hserver : ¬ IpRange.Mapped server.ip)
    (hpushed : Unmapped pushed) (hroutes : b.routes = linkedHashSetAddAll [⟨server, false⟩] pushed)
    (h : establish order sdk b = .ok b') :
    LeftBehind b'.routes pushed ∧ b'.addresses = b.addresses ∧ b'.mtu = b.mtu ∧
      b'.addresses ≠ [] ∧ b'.mtu ≠ 0 ∧ SplitOff b' := by
  obtain ⟨hprocess, haddresses, hnonempty, hmtu, haccepts⟩ := (establish_eq_ok hoff).mp h
  have hmem : ∀ r, r ∈ b.routes ↔ r = ⟨server, false⟩ ∨ r ∈ pushed := by
    intro r
    rw [hroutes, mem_linkedHashSetAddAll, mem_singleton]
  have hexcluded : ∃ r ∈ unicastDefault b.routes, r.include = false :=
    excluded_mem_unicastDefault ((hmem _).mpr (.inl rfl)) rfl
  have hmask := mask_of_processRoutes hsdk hexcluded hprocess
  have hunmapped : Unmapped b.routes := by
    intro r hr
    rcases (hmem r).mp hr with rfl | hr
    · exact hserver
    · exact hpushed r hr
  obtain ⟨routes, hrun, hnodup, hall, hcidr, hcov⟩ :=
    processRoutes_accepted hsdk hexcluded hmask hunmapped.unicastDefault
  obtain rfl : b.withRoutes routes = b' := Except.ok.inj (hrun.symm.trans hprocess)
  rw [withRoutes_routes] at haccepts hnonempty ⊢
  have hkept := hcidr.mp haccepts
  have hincluded := fun r hr => (hall r hr).1
  refine ⟨⟨hnodup, hnonempty, hincluded, (platformAccepts_iff hincluded).mp haccepts,
    fun r hr => (hall r hr).2.1, fun r hr => (hall r hr).2.2, fun a ha => ((hcov a).mp ha).2.1, ?_, ?_,
    hpushed⟩, rfl, rfl, haddresses, hmtu, hoff⟩
  · intro a ha hmapped c hsize hc
    have hinc := ((hcov a).mp ha).2.2 hmapped c hsize hc
    exact (hcov c).mpr ⟨hinc, not_loopback_of_around hsize hc, hkept c hinc⟩
  · intro r hr
    by_cases hdefault : r = ⟨ipv6DefaultRoute, true⟩
    · rw [hdefault]
      decide
    · exact hmask r (mem_unicastDefault.mpr (.inl ⟨(hmem r).mpr (.inr hr), hdefault⟩))

namespace LeftBehind

variable {routes pushed : List Route}

theorem covered_iff (h : LeftBehind routes pushed) (a : IpAddress) :
    covered routes a ↔ ∃ r ∈ routes, r.inetNetwork.contains a := by
  constructor
  · rintro ⟨r, hr, -, hcov⟩
    exact ⟨r, hr, hcov.2⟩
  · rintro ⟨r, hr, hcontains⟩
    exact ⟨r, hr, h.included r hr, (h.cidr r hr).1, hcontains⟩

theorem exists_covered (h : LeftBehind routes pushed) : ∃ a, covered routes a := by
  obtain ⟨r, hr⟩ := exists_mem_of_ne_nil routes h.nonempty
  exact ⟨r.inetNetwork.ip, (h.covered_iff _).mpr ⟨r, hr, rfl, rfl⟩⟩

theorem not_mem_default (h : LeftBehind routes pushed) : ⟨ipv6DefaultRoute, true⟩ ∉ routes := by
  intro hmem
  have hcov : covered routes ipv6Loopback.ip :=
    (h.covered_iff _).mpr ⟨_, hmem, by decide⟩
  exact h.clear _ hcov (.inr ⟨rfl, rfl⟩)

theorem includedLast_second (h : LeftBehind routes pushed) (a : IpAddress) :
    IncludedLast (unicastDefault (linkedHashSetAddAll routes pushed)) a ↔
      IncludedLast (unicastDefault (newRoutes routes pushed)) a ∨
        lastContaining (unicastDefault (newRoutes routes pushed)) a = none ∧ covered routes a := by
  have hnodup := nodup_linkedHashSetAddAll h.nodup pushed
  rw [addAll_eq_newRoutes] at hnodup ⊢
  rw [includedLast_unicastDefault_append h.included h.not_mem_default hnodup, h.covered_iff]

theorem mem_second (h : LeftBehind routes pushed) (r : Route) :
    r ∈ unicastDefault (linkedHashSetAddAll routes pushed) ↔
      r ∈ routes ∨ r ∈ unicastDefault (newRoutes routes pushed) := by
  have hdefault := h.not_mem_default
  rw [addAll_eq_newRoutes, mem_unicastDefault, mem_unicastDefault, mem_append, mem_append,
    or_iff_right hdefault, or_and_right, or_assoc]
  refine or_congr_left (and_iff_left_of_imp ?_)
  rintro hr rfl
  exact hdefault hr

theorem second_flattened (h : LeftBehind routes pushed) (hsdk : sdk < tiramisu)
    (hexcluded : ∃ r ∈ pushed, r.include = false) (hoff : SplitOff b) (haddresses : b.addresses ≠ [])
    (hmtu : b.mtu ≠ 0) (hroutes : b.routes = linkedHashSetAddAll routes pushed) :
    (∃ b', establish order sdk b = .ok b' ∧ ∀ a, covered b'.routes a ↔ covered routes a) ↔
      ∀ a r, ¬ Loopback a → lastContaining (unicastDefault (newRoutes routes pushed)) a = some r →
        (r.include = true ↔ covered routes a) := by
  have hmem : ∀ r, r ∈ b.routes ↔ r ∈ routes ∨ r ∈ pushed := by
    intro r
    rw [hroutes, mem_linkedHashSetAddAll]
  obtain ⟨x, hx, hxinc⟩ := hexcluded
  have hsome : ∃ r ∈ unicastDefault b.routes, r.include = false :=
    excluded_mem_unicastDefault ((hmem x).mpr (.inr hx)) hxinc
  have hmask : ∀ r ∈ unicastDefault b.routes, -8 < r.inetNetwork.mask := by
    intro r hr
    rcases mem_unicastDefault.mp hr with ⟨hr, -⟩ | ⟨rfl, -⟩
    · rcases (hmem r).mp hr with hr | hr
      · have := (h.cidr r hr).1.1
        omega
      · exact h.masks r hr
    · decide
  have hunmapped : Unmapped b.routes := by
    intro r hr
    rcases (hmem r).mp hr with hr | hr
    · exact h.unmapped r hr
    · exact h.pushedUnmapped r hr
  obtain ⟨second, hrun, -, -, haccepts, hcov⟩ :=
    processRoutes_accepted hsdk hsome hmask hunmapped.unicastDefault
  have hlast := h.includedLast_second
  rw [← hroutes] at hlast
  constructor
  · rintro ⟨b', hestablish, hsame⟩ a r hloop hnew
    obtain ⟨hprocess, -, -, -, haccepted⟩ := (establish_eq_ok hoff).mp hestablish
    obtain rfl : b.withRoutes second = b' := Except.ok.inj (hrun.symm.trans hprocess)
    have hkept := haccepts.mp haccepted
    rw [← hsame, withRoutes_routes, hcov, hlast, IncludedLast, hnew]
    simp only [Option.some.injEq, exists_eq_left', reduceCtorEq, false_and, or_false]
    refine ⟨fun hinc => ⟨hinc, hloop, hkept a ?_⟩, And.left⟩
    rw [hlast, IncludedLast, hnew]
    simp [hinc]
  · intro hagree
    have hset : ∀ a, IncludedLast (unicastDefault b.routes) a ∧ ¬ Loopback a ↔ covered routes a := by
      intro a
      rw [hlast, IncludedLast]
      constructor
      · rintro ⟨⟨r, hnew, hinc⟩ | ⟨-, hcovered⟩, hloop⟩
        · exact (hagree a r hloop hnew).mp hinc
        · exact hcovered
      · intro hcovered
        have hloop := h.clear a hcovered
        refine ⟨?_, hloop⟩
        cases hnew : lastContaining (unicastDefault (newRoutes routes pushed)) a with
        | some r => exact .inl ⟨r, rfl, (hagree a r hloop hnew).mpr hcovered⟩
        | none => exact .inr ⟨rfl, hcovered⟩
    have hkept : AllKept (unicastDefault b.routes) := by
      intro a ha hmapped c hsize hc
      have hcovered := (hset a).mp ⟨ha, not_loopback_of_mapped hmapped⟩
      exact ((hset c).mpr (h.kept a hcovered hmapped c hsize hc)).1
    have hsame : ∀ a, covered second a ↔ covered routes a := by
      intro a
      rw [hcov, ← hset, ← and_assoc]
      exact and_iff_left_of_imp fun ha => hkept a ha.1
    have hnonempty : second ≠ [] := by
      obtain ⟨a, ha⟩ := h.exists_covered
      obtain ⟨r, hr, -⟩ := (hsame a).mpr ha
      exact ne_nil_of_mem hr
    exact ⟨b.withRoutes second, (establish_eq_ok hoff).mpr
      ⟨hrun, haddresses, hnonempty, hmtu, haccepts.mpr hkept⟩, hsame⟩

theorem second_kept (h : LeftBehind routes pushed) (hincluded : ∀ r ∈ pushed, r.include = true)
    (hoff : SplitOff b) (haddresses : b.addresses ≠ []) (hmtu : b.mtu ≠ 0)
    (hroutes : b.routes = linkedHashSetAddAll routes pushed) :
    (∃ b', establish order sdk b = .ok b' ∧ ∀ a, covered b'.routes a ↔ covered routes a) ↔
      ∀ r ∈ unicastDefault (newRoutes routes pushed), isLoopbackRoute ipv6Loopback r = false →
        r.inetNetwork.IsCidr ∧ ∀ a, r.inetNetwork.contains a → covered routes a := by
  have hall : ∀ r ∈ unicastDefault b.routes, r.include = true := by
    intro r hr
    rcases mem_unicastDefault.mp hr with ⟨hr, -⟩ | ⟨rfl, -⟩
    · rw [hroutes, mem_linkedHashSetAddAll] at hr
      exact hr.elim (h.included r) (hincluded r)
    · rfl
  have hrun : b.processRoutes sdk = .ok (b.withRoutes
      ((unicastDefault b.routes).filter fun r => !isLoopbackRoute ipv6Loopback r)) :=
    processRoutes_included hall sdk
  have hmem : ∀ r, r ∈ (unicastDefault b.routes).filter (fun r => !isLoopbackRoute ipv6Loopback r) ↔
      r ∈ routes ∨ r ∈ unicastDefault (newRoutes routes pushed) ∧
        isLoopbackRoute ipv6Loopback r = false := by
    intro r
    rw [mem_filter, Bool.not_eq_true', hroutes, h.mem_second, or_and_right]
    exact or_congr_left (and_iff_left_of_imp (h.nonLoopback r))
  have hinc : ∀ r ∈ (unicastDefault b.routes).filter (fun r => !isLoopbackRoute ipv6Loopback r),
      r.include = true := fun r hr => hall r (mem_filter.mp hr).1
  generalize (unicastDefault b.routes).filter _ = second at hrun hmem hinc
  constructor
  · rintro ⟨b', hestablish, hsame⟩ r hr hloop
    obtain ⟨hprocess, -, -, -, haccepted⟩ := (establish_eq_ok hoff).mp hestablish
    obtain rfl : b.withRoutes second = b' := Except.ok.inj (hrun.symm.trans hprocess)
    have hsecond := (hmem r).mpr (.inr ⟨hr, hloop⟩)
    have hcidr := (platformAccepts_iff hinc).mp haccepted r hsecond
    refine ⟨hcidr, fun a ha => (hsame a).mp ⟨r, hsecond, hinc r hsecond, hcidr.1, ha⟩⟩
  · intro hnew
    have hcidr : ∀ r ∈ second, r.inetNetwork.IsCidr := by
      intro r hr
      rcases (hmem r).mp hr with hr | ⟨hr, hloop⟩
      · exact h.cidr r hr
      · exact (hnew r hr hloop).1
    have hnonempty : second ≠ [] := by
      obtain ⟨r, hr⟩ := exists_mem_of_ne_nil routes h.nonempty
      exact ne_nil_of_mem ((hmem r).mpr (.inl hr))
    refine ⟨b.withRoutes second, (establish_eq_ok hoff).mpr
      ⟨hrun, haddresses, hnonempty, hmtu, (platformAccepts_iff hinc).mpr hcidr⟩, fun a => ?_⟩
    rw [withRoutes_routes]
    constructor
    · rintro ⟨r, hr, -, hcov⟩
      rcases (hmem r).mp hr with hr | ⟨hr, hloop⟩
      · exact (h.covered_iff a).mpr ⟨r, hr, hcov.2⟩
      · exact (hnew r hr hloop).2 a hcov.2
    · rintro ⟨r, hr, hrinc, hcov⟩
      exact ⟨r, (hmem r).mpr (.inl hr), hrinc, hcov⟩

end LeftBehind

/-- A second session covers what the first one covers exactly when its new routes repeat it. -/
theorem reconnected_covered_iff {hostName : String} {config : ConfigJson} {b₀ b₁ : Builder}
    (hsdk : sdk < tiramisu) (hsplit : config.splitTunnelType = 0)
    (hstart : startVpn hostName config = .ok b₀)
    (hfirst : session order sdk b₀ callbacks = .ok (some b₁)) :
    (∃ b₂, session order sdk b₁ callbacks = .ok (some b₂) ∧
      ∀ a, covered b₂.routes a ↔ covered b₁.routes a) ↔
        Repeats b₁.routes (pushedRoutes callbacks) := by
  obtain ⟨server, hserver, hroutes₀, hoff₀⟩ := startVpn_spec hsplit hstart
  obtain ⟨hestablish, hsession⟩ := session_eq_some hfirst
  have hroutes : ((pushedBy callbacks).into (tunBuilderNew b₀)).routes =
      linkedHashSetAddAll [⟨server, false⟩] (pushedRoutes callbacks) := by
    rw [← hroutes₀]
    rfl
  have hoff : SplitOff ((pushedBy callbacks).into (tunBuilderNew b₀)) := hoff₀
  obtain ⟨hleft, haddresses, hmtu, hsome, hnonzero, hoff₁⟩ := leftBehind_of_establish hsdk hoff
    hserver (not_mapped_pushedRoutes callbacks) hroutes hestablish
  have haddresses₂ : ((pushedBy callbacks).into (tunBuilderNew b₁)).addresses ≠ [] := by
    rw [haddresses] at hsome
    exact hsome
  have hmtu₂ : ((pushedBy callbacks).into (tunBuilderNew b₁)).mtu ≠ 0 := by
    have hmtu₁ : b₁.mtu = (pushedBy callbacks).mtu.getD b₀.mtu := hmtu
    change (pushedBy callbacks).mtu.getD b₁.mtu ≠ 0
    rw [hmtu₁] at hnonzero ⊢
    cases hset : (pushedBy callbacks).mtu with
    | none => rwa [hset] at hnonzero
    | some mtu => rwa [hset] at hnonzero
  have hoff₂ : SplitOff ((pushedBy callbacks).into (tunBuilderNew b₁)) := hoff₁
  simp only [hsession]
  by_cases hexcluded : ∃ r ∈ pushedRoutes callbacks, r.include = false
  · rw [hleft.second_flattened hsdk hexcluded hoff₂ haddresses₂ hmtu₂ rfl, Repeats]
    obtain ⟨r, hr, hinc⟩ := hexcluded
    refine ⟨fun h => ⟨fun _ => h, fun hall => ?_⟩, fun h => h.1 ⟨r, hr, hinc⟩⟩
    rw [hall r hr] at hinc
    cases hinc
  · have hall : ∀ r ∈ pushedRoutes callbacks, r.include = true := by
      intro r hr
      by_contra hinc
      exact hexcluded ⟨r, hr, by simpa using hinc⟩
    rw [hleft.second_kept hall hoff₂ haddresses₂ hmtu₂ rfl, Repeats]
    exact ⟨fun h => ⟨fun hex => absurd hex hexcluded, fun _ => h⟩, fun h => h.2 hall⟩

end Sessions

def insertionOrder : HashOrder InetNetwork := ⟨id, fun _ => .refl _⟩

def oneRoute : List TunCallback := [.addAddress "10.8.0.2" 24, .addRoute "10.0.0.0" 8]

def excludedFirst : List TunCallback :=
  [.addAddress "10.8.0.2" 24, .excludeRoute "10.1.0.0" 16, .addRoute "10.0.0.0" 8]

def tenNetwork : InetNetwork := ⟨⟨[10, 0, 0, 0], .inl rfl⟩, 8⟩

def twoSessions (b : Builder) (callbacks : List TunCallback) :
    Outcome (Option (List Route × List Route)) := do
  match ← session insertionOrder 29 b callbacks with
  | none => return none
  | some b₁ =>
      match ← session insertionOrder 29 b₁ callbacks with
      | none => return none
      | some b₂ => return some (b₁.routes, b₂.routes)

theorem twoSessions_eq {b : Builder} {callbacks : List TunCallback} {first second : List Route}
    (h : twoSessions b callbacks = .ok (some (first, second))) :
    ∃ b₁ b₂, session insertionOrder 29 b callbacks = .ok (some b₁) ∧
      session insertionOrder 29 b₁ callbacks = .ok (some b₂) ∧ b₁.routes = first ∧
      b₂.routes = second := by
  obtain ⟨result₁, hfirst, h⟩ := bind_eq_ok.mp h
  cases result₁ with
  | none => cases h
  | some b₁ =>
    obtain ⟨result₂, hsecond, h⟩ := bind_eq_ok.mp h
    cases result₂ with
    | none => cases h
    | some b₂ =>
      cases h
      exact ⟨b₁, b₂, hfirst, hsecond, rfl, rfl⟩

def started : Builder := openVpnBuilder.excludeRoute serverNetwork

theorem startVpn_started : startVpn "1.2.3.4" ⟨none, 0, none, 0, none⟩ = .ok started := rfl

theorem reconnected_covered_oneRoute : ∃ b₁ b₂,
    startVpn "1.2.3.4" ⟨none, 0, none, 0, none⟩ = .ok started ∧
      session insertionOrder 29 started oneRoute = .ok (some b₁) ∧
      session insertionOrder 29 b₁ oneRoute = .ok (some b₂) ∧
      ∀ a, covered b₂.routes a ↔ covered b₁.routes a := by
  have hrun : twoSessions started oneRoute =
      .ok (some ([⟨tenNetwork, true⟩], [⟨tenNetwork, true⟩])) := by decide +kernel
  obtain ⟨b₁, -, hfirst, -, hroutes, -⟩ := twoSessions_eq hrun
  have hnew : unicastDefault (newRoutes b₁.routes (pushedRoutes oneRoute)) = [] := by
    rw [hroutes]
    decide +kernel
  have hrepeats : Repeats b₁.routes (pushedRoutes oneRoute) := by
    rw [Repeats, hnew]
    refine ⟨?_, ?_⟩
    · intro _ a r _ hlast
      cases hlast
    · intro _ r hr
      cases hr
  obtain ⟨b₂, hsecond, hsame⟩ :=
    (reconnected_covered_iff (by decide) rfl startVpn_started hfirst).mpr hrepeats
  exact ⟨b₁, b₂, startVpn_started, hfirst, hsecond, hsame⟩

def tenWithoutOne : List Route :=
  [(0, 16), (2, 15), (4, 14), (8, 13), (16, 12), (32, 11), (64, 10), (128, 9)].map
    fun (byte, mask) => ⟨⟨⟨[10, byte, 0, 0], .inl rfl⟩, mask⟩, true⟩

/-- The exclusion is the last word in the second session. -/
theorem reconnected_excludedFirst : ∃ b₁ b₂,
    startVpn "1.2.3.4" ⟨none, 0, none, 0, none⟩ = .ok started ∧
      session insertionOrder 29 started excludedFirst = .ok (some b₁) ∧
      session insertionOrder 29 b₁ excludedFirst = .ok (some b₂) ∧
      covered b₁.routes ⟨[10, 1, 0, 1], .inl rfl⟩ ∧
      ¬ covered b₂.routes ⟨[10, 1, 0, 1], .inl rfl⟩ := by
  have hrun : twoSessions started excludedFirst =
      .ok (some ([⟨tenNetwork, true⟩], tenWithoutOne)) := by decide +kernel
  obtain ⟨b₁, b₂, hfirst, hsecond, hroutes₁, hroutes₂⟩ := twoSessions_eq hrun
  refine ⟨b₁, b₂, startVpn_started, hfirst, hsecond, ?_, ?_⟩
  · rw [hroutes₁]
    exact ⟨⟨tenNetwork, true⟩, mem_singleton_self _, rfl, by decide⟩
  · rw [hroutes₂]
    rintro ⟨r, hr, -, hcov⟩
    revert r
    decide +kernel

end AmneziaVpn.OpenVpnClient
