import AmneziaVpn.ProtocolConfig

/-!
# Flattened routes

The routes are applied to a set of ranges one after another, so an address ends up in the set when
the last route containing it is an included one.
-/

namespace AmneziaVpn

open IpRangeSet List InetNetwork

variable (routes : List Route)

def covered (a : IpAddress) : Prop :=
  ∃ r ∈ routes, r.include = true ∧ r.inetNetwork.covers a

def lastContaining (a : IpAddress) : Option Route :=
  routes.reverse.find? fun r => decide (r.inetNetwork.contains a)

def IncludedLast (a : IpAddress) : Prop :=
  ∃ r, lastContaining routes a = some r ∧ r.include = true

theorem lastContaining_cons (r : Route) (routes : List Route) (a : IpAddress) :
    lastContaining (r :: routes) a =
      (lastContaining routes a).or (if r.inetNetwork.contains a then some r else none) := by
  simp [lastContaining, reverse_cons, find?_append, find?_singleton, decide_eq_true_eq]

theorem lastContaining_append (others : List Route) (a : IpAddress) :
    lastContaining (routes ++ others) a = (lastContaining others a).or (lastContaining routes a) := by
  simp [lastContaining, reverse_append, find?_append]

variable {a : IpAddress}

theorem lastContaining_eq_none {routes : List Route} :
    lastContaining routes a = none ↔ ∀ r ∈ routes, ¬ r.inetNetwork.contains a := by
  simp [lastContaining]

theorem lastContaining_eq_some {routes : List Route} {r : Route}
    (h : lastContaining routes a = some r) : r ∈ routes ∧ r.inetNetwork.contains a := by
  rw [lastContaining] at h
  exact ⟨by simpa using mem_of_find?_eq_some h, by simpa using find?_some h⟩

def ipv4DefaultRoute : InetNetwork := ⟨⟨[0, 0, 0, 0], .inl rfl⟩, 0⟩

def ipv6DefaultRoute : InetNetwork := ⟨⟨List.replicate 16 0, .inr rfl⟩, 0⟩

/-- `2000::/3` -/
def globalUnicast : InetNetwork := ⟨⟨0x20 :: List.replicate 15 0, .inr rfl⟩, 3⟩

/-- `127.0.0.0/8` -/
def ipv4Loopback : InetNetwork := ⟨⟨[127, 0, 0, 0], .inl rfl⟩, 8⟩

/-- `::1/128` -/
def ipv6Loopback : InetNetwork := ⟨⟨List.replicate 15 0 ++ [1], .inr rfl⟩, 128⟩

def Loopback (a : IpAddress) : Prop := ipv4Loopback.contains a ∨ ipv6Loopback.contains a

theorem ipv4DefaultRoute_contains : ipv4DefaultRoute.contains a ↔ a.size = 4 := by
  change a.size = 4 ∧ a.value / 2 ^ 32 = 0 ↔ _
  refine ⟨And.left, fun h => ⟨h, ?_⟩⟩
  have := (IpAddress.rank_of_size_four h).2
  omega

theorem globalUnicast_contains :
    globalUnicast.contains a ↔ a.size = 16 ∧ a.value / 2 ^ 125 = 1 := by
  have hsize : globalUnicast.ip.size = 16 := rfl
  have hbits : globalUnicast.hostBits = 125 := by decide
  have hvalue : globalUnicast.ip.value / 2 ^ 125 = 1 := by decide
  rw [InetNetwork.contains, hsize, hbits, hvalue]

theorem ipv4Loopback_contains :
    ipv4Loopback.contains a ↔ a.size = 4 ∧ a.value / 2 ^ 24 = 127 := Iff.rfl

theorem ipv6Loopback_contains : ipv6Loopback.contains a ↔ a.size = 16 ∧ a.value = 1 := by
  have hsize : ipv6Loopback.ip.size = 16 := rfl
  have hbits : ipv6Loopback.hostBits = 0 := by decide
  have hvalue : ipv6Loopback.ip.value = 1 := by decide
  simp [InetNetwork.contains, hsize, hbits, hvalue, pow_zero, Nat.div_one]

@[simp] theorem ofText_ipv4DefaultRoute : ofText "0.0.0.0" 0 = .ok ipv4DefaultRoute := rfl

@[simp] theorem ofText_ipv6DefaultRoute : ofText "::" 0 = .ok ipv6DefaultRoute := rfl

@[simp] theorem ofText_globalUnicast : ofText "2000::" 3 = .ok globalUnicast := rfl

@[simp] theorem ofText_ipv4Loopback : ofText "127.0.0.0" 8 = .ok ipv4Loopback := rfl

@[simp] theorem ofText_ipv6Loopback : ofText "::1" 128 = .ok ipv6Loopback := rfl

namespace ProtocolConfig.Builder

variable (b : Builder)

def withRoutes (routes : List Route) : Builder := { b with routes := routes }

@[simp] theorem withRoutes_routes (routes : List Route) :
    (b.withRoutes routes).routes = routes := rfl

variable {routes : List Route} {s : IpRangeSet} {r : Route}

theorem applyRoute_spec (hs : s.ranges.Pairwise Before) (hr : -8 < r.inetNetwork.mask) :
    ∃ t, applyRoute s r = .ok t ∧ t.ranges.Pairwise Before ∧
      ∀ a, t.covers a ↔ if r.inetNetwork.contains a then r.include = true else s.covers a := by
  obtain ⟨range, hrange, hcontains⟩ := IpRange.network_eq_ok hr
  cases hinc : r.include with
  | true =>
    obtain ⟨t, hrun, ht, hcov⟩ := add_spec s range hs
    refine ⟨t, ?_, ht, fun a => ?_⟩
    · simp [applyRoute, hrange, hinc, hrun, bind, Except.bind]
    · rw [hcov, hcontains]
      split_ifs with h <;> simp [h]
  | false =>
    obtain ⟨t, hrun, ht, hcov⟩ := remove_spec s range hs
    refine ⟨t, ?_, ht, fun a => ?_⟩
    · simp [applyRoute, hrange, hinc, hrun, bind, Except.bind, Bool.false_eq_true]
    · rw [hcov, hcontains]
      split_ifs with h <;> simp [h]

/-- After the routes an address is in the set if the last route containing it is included. -/
theorem foldlM_applyRoute (routes : List Route) (hroutes : ∀ r ∈ routes, -8 < r.inetNetwork.mask)
    (hs : s.ranges.Pairwise Before) :
    ∃ t, routes.foldlM applyRoute s = .ok t ∧ t.ranges.Pairwise Before ∧
      ∀ a, t.covers a ↔
        IncludedLast routes a ∨ lastContaining routes a = none ∧ s.covers a := by
  induction routes generalizing s with
  | nil => exact ⟨s, rfl, hs, fun a => by simp [IncludedLast, lastContaining]⟩
  | cons r routes ih =>
    obtain ⟨s', hstep, hs', hcov'⟩ := applyRoute_spec hs (hroutes r mem_cons_self)
    obtain ⟨t, hrun, ht, hcov⟩ := ih (fun q hq => hroutes q (mem_cons_of_mem _ hq)) hs'
    refine ⟨t, ?_, ht, fun a => ?_⟩
    · rw [foldlM_cons, hstep]
      exact hrun
    · rw [hcov, hcov', IncludedLast, IncludedLast, lastContaining_cons]
      cases lastContaining routes a with
      | some last => simp
      | none =>
        by_cases h : r.inetNetwork.contains a
        · simp [h]
        · simp [h]

theorem mask_of_foldlM_applyRoute {s t : IpRangeSet} (h : routes.foldlM applyRoute s = .ok t) :
    ∀ r ∈ routes, -8 < r.inetNetwork.mask := by
  induction routes generalizing s with
  | nil => simp
  | cons r routes ih =>
    rw [foldlM_cons] at h
    have hmask : -8 < r.inetNetwork.mask := by
      by_contra hneg
      simp [applyRoute, IpRange.network_of_neg (not_lt.mp hneg), bind, Except.bind] at h
    intro q hq
    rcases mem_cons.mp hq with rfl | hq
    · exact hmask
    · cases hstep : applyRoute s r with
      | error e => simp [hstep, bind, Except.bind] at h
      | ok s' =>
        rw [hstep] at h
        exact ih h q hq

theorem foldl_addRoute (subnets : List InetNetwork) (b : Builder) :
    subnets.foldl addRoute b =
      { b with routes := linkedHashSetAddAll b.routes (subnets.map (⟨·, true⟩)) } := by
  induction subnets generalizing b with
  | nil => rfl
  | cons n subnets ih =>
    rw [foldl_cons, ih]
    rfl

/-- An IPv4-mapped address keeps its place only with all of `::fffe:0:0/95`. -/
def KeptIfMapped (routes : List Route) (a : IpAddress) : Prop :=
  IpRange.Mapped a → ∀ c : IpAddress, c.size = 16 → c.value ∈ IpRange.aroundMapped →
    IncludedLast routes c

theorem not_loopback_of_around {c : IpAddress} (hsize : c.size = 16)
    (h : c.value ∈ IpRange.aroundMapped) : ¬ Loopback c := by
  rintro (hc | hc)
  · have : c.size = 4 := hc.1
    omega
  · have hone := ipv6Loopback_contains.mp hc
    rw [IpRange.mem_aroundMapped, mappedFirst, hone.2] at h
    omega

theorem not_loopback_of_mapped {a : IpAddress} (h : IpRange.Mapped a) : ¬ Loopback a :=
  not_loopback_of_around h.1 h.mem_aroundMapped

theorem remove_network (hs : s.ranges.Pairwise Before) {n : InetNetwork} (hn : -8 < n.mask) :
    ∃ range t, IpRange.network n = .ok range ∧ s.remove range = .ok t ∧
      t.ranges.Pairwise Before ∧ ∀ a, t.covers a ↔ s.covers a ∧ ¬ n.contains a := by
  obtain ⟨range, hrange, hcontains⟩ := IpRange.network_eq_ok hn
  obtain ⟨t, hrun, ht, hcov⟩ := remove_spec s range hs
  exact ⟨range, t, hrange, hrun, ht, fun a => by rw [hcov, hcontains]⟩

/-- The flattened routes are the networks of the set that the routes make, without loopback. -/
theorem flattenRoutes_subnets (hroutes : ∀ r ∈ b.routes, -8 < r.inetNetwork.mask) :
    ∃ (s : IpRangeSet) (ns : List InetNetwork), s.ranges.Pairwise Before ∧ s.subnets = .ok ns ∧
      b.flattenRoutes = .ok (b.withRoutes (linkedHashSetAddAll [] (ns.map (⟨·, true⟩)))) ∧
      ∀ a, s.covers a ↔ IncludedLast b.routes a ∧ ¬ Loopback a := by
  obtain ⟨s, hrun, hs, hcov⟩ := foldlM_applyRoute b.routes hroutes (s := IpRangeSet.empty)
    List.Pairwise.nil
  obtain ⟨range₄, s₄, hrange₄, hrun₄, hs₄, hcov₄⟩ := remove_network hs (n := ipv4Loopback) (by decide)
  obtain ⟨range₆, s₆, hrange₆, hrun₆, hs₆, hcov₆⟩ := remove_network hs₄ (n := ipv6Loopback) (by decide)
  obtain ⟨ns, hsubnets, -⟩ := subnets_spec hs₆
  refine ⟨s₆, ns, hs₆, hsubnets, ?_, fun a => ?_⟩
  · simp [flattenRoutes, hrun, ofText_ipv4Loopback, ofText_ipv6Loopback, hrange₄, hrun₄, hrange₆, hrun₆, hsubnets, bind, Except.bind, pure, Except.pure, foldl_addRoute, clearRoutes, withRoutes]
  · rw [hcov₆, hcov₄, hcov, Loopback, not_or, and_assoc]
    simp [IpRangeSet.covers, IpRangeSet.empty]

theorem mem_networkRoutes {ns : List InetNetwork} :
    r ∈ linkedHashSetAddAll [] (ns.map (⟨·, true⟩)) ↔ r.inetNetwork ∈ ns ∧ r.include = true := by
  obtain ⟨n, inc⟩ := r
  simp [mem_linkedHashSetAddAll, eq_comm]

theorem flattenRoutes_spec (hroutes : ∀ r ∈ b.routes, -8 < r.inetNetwork.mask) :
    ∃ routes, b.flattenRoutes = .ok (b.withRoutes routes) ∧
      (∀ r ∈ routes, r.include = true) ∧
      ∀ a, covered routes a ↔
        IncludedLast b.routes a ∧ ¬ Loopback a ∧ KeptIfMapped b.routes a := by
  obtain ⟨s, ns, hs, hsubnets, hrun, hset⟩ := flattenRoutes_subnets b hroutes
  obtain ⟨ns', hsubnets', hcovns⟩ := subnets_spec hs
  obtain rfl : ns' = ns := Except.ok.inj (hsubnets'.symm.trans hsubnets)
  refine ⟨_, hrun, fun r hr => (mem_networkRoutes.mp hr).2, fun a => ?_⟩
  have hcovered : covered (linkedHashSetAddAll [] (ns'.map (⟨·, true⟩))) a ↔
      ∃ n ∈ ns', n.covers a := by
    simp [covered]
  rw [hcovered, hcovns, hset, and_assoc]
  refine and_congr_right fun _ => and_congr_right fun _ => ?_
  refine forall_congr' fun _ => forall_congr' fun c => forall_congr' fun hsize =>
    forall_congr' fun hc => ?_
  rw [hset, and_iff_left (not_loopback_of_around hsize hc)]

def unicastDefault (routes : List Route) : List Route :=
  let rest := routes.filter (· ≠ ⟨ipv6DefaultRoute, true⟩)
  if ⟨ipv6DefaultRoute, true⟩ ∈ routes then linkedHashSetAddAll [⟨globalUnicast, true⟩] rest
  else rest

theorem replaceIpv6DefaultRoute_eq :
    b.replaceIpv6DefaultRoute = .ok (b.withRoutes (unicastDefault b.routes)) := by
  have hdefault : ∀ r : Route, (r.include && decide (r.inetNetwork = ipv6DefaultRoute)) =
      decide (r = ⟨ipv6DefaultRoute, true⟩) := by
    rintro ⟨n, inc⟩
    cases inc <;> simp
  have hany : (b.routes.any fun r => decide (r = ⟨ipv6DefaultRoute, true⟩)) = true ↔
      ⟨ipv6DefaultRoute, true⟩ ∈ b.routes := by
    simp
  simp only [replaceIpv6DefaultRoute, ofText_ipv6DefaultRoute, hdefault, hany, bind, Except.bind,
    unicastDefault, prependRoutes, clearRoutes, ofText_globalUnicast, pure, Except.pure]
  split_ifs
  · simp [addRoute, linkedHashSetAdd, withRoutes]
  · simp [withRoutes]

theorem ip_loopback_of_isLoopbackRoute (h : isLoopbackRoute ipv6Loopback r) :
    Loopback r.inetNetwork.ip := by
  rw [isLoopbackRoute, Bool.and_eq_true] at h
  by_cases hv4 : r.inetNetwork.isIpv4
  · rw [if_pos hv4, beq_iff_eq] at h
    have hlen : r.inetNetwork.address.address.length = 4 := by
      simpa [isIpv4, InetAddress.isInet4] using hv4
    refine .inl (ipv4Loopback_contains.mpr ⟨hlen, ?_⟩)
    obtain ⟨-, hhead⟩ := h
    change ByteOrder.beValue r.inetNetwork.address.address / 2 ^ 24 = 127
    cases hbytes : r.inetNetwork.address.address with
    | nil => simp [hbytes] at hlen
    | cons x xs =>
      rw [hbytes] at hhead hlen
      obtain rfl : x = 127 := hhead
      have hxs : xs.length = 3 := by simpa using hlen
      have hlt := ByteOrder.beValue_lt xs
      rw [ByteOrder.beValue_cons, hxs]
      rw [hxs] at hlt
      change (127 * 256 ^ 3 + _) / 2 ^ 24 = 127
      omega
  · rw [if_neg hv4, decide_eq_true_eq] at h
    rw [h.2]
    exact .inr ⟨rfl, rfl⟩

theorem covered_filter_loopback {a : IpAddress}
    (h : ∀ r ∈ routes, isLoopbackRoute ipv6Loopback r → ¬ r.inetNetwork.covers a) :
    covered (routes.filter fun r => !isLoopbackRoute ipv6Loopback r) a ↔ covered routes a := by
  constructor
  · rintro ⟨r, hr, hinc⟩
    exact ⟨r, (mem_filter.mp hr).1, hinc⟩
  · rintro ⟨r, hr, hinc, hcov⟩
    refine ⟨r, mem_filter.mpr ⟨hr, ?_⟩, hinc, hcov⟩
    rw [Bool.not_eq_true', ← Bool.not_eq_true]
    exact fun hloop => h r hr hloop hcov

/-- A loopback route that stands for some address stands for a loopback address. -/
theorem not_covers_of_isLoopbackRoute (hroutes : ∀ a, covered routes a → ¬ Loopback a)
    (hr : r ∈ routes) (hloop : isLoopbackRoute ipv6Loopback r) (a : IpAddress) :
    ¬ r.inetNetwork.covers a := by
  intro hcov
  have hinc : r.include = true := (Bool.and_eq_true_iff.mp hloop).1
  exact hroutes _ ⟨r, hr, hinc, hcov.1, rfl, rfl⟩ (ip_loopback_of_isLoopbackRoute hloop)

theorem any_excluded (h : ∃ r ∈ routes, r.include = false) : routes.any (!·.include) = true := by
  obtain ⟨r, hr, hinc⟩ := h
  exact any_eq_true.mpr ⟨r, hr, by simp [hinc]⟩

theorem processRoutes_of_excluded {b : Builder} {sdk : ℕ} (hsdk : sdk < tiramisu)
    (hexcluded : ∃ r ∈ unicastDefault b.routes, r.include = false)
    (hflat : (b.withRoutes (unicastDefault b.routes)).flattenRoutes = .ok (b.withRoutes routes)) :
    b.processRoutes sdk =
      .ok (b.withRoutes (routes.filter fun r => !isLoopbackRoute ipv6Loopback r)) := by
  have hany := any_excluded hexcluded
  simp only [processRoutes, replaceIpv6DefaultRoute_eq, bind, Except.bind, withRoutes_routes, hsdk,
    hany, and_self, if_true, hflat, ofText_ipv6Loopback, pure, Except.pure]
  rfl

theorem processRoutes_flattened {b : Builder} {sdk : ℕ} (hsdk : sdk < tiramisu)
    (hexcluded : ∃ r ∈ unicastDefault b.routes, r.include = false)
    (hroutes : ∀ r ∈ unicastDefault b.routes, -8 < r.inetNetwork.mask) :
    ∃ routes, b.processRoutes sdk = .ok (b.withRoutes routes) ∧
      ∀ a, covered routes a ↔ IncludedLast (unicastDefault b.routes) a ∧ ¬ Loopback a ∧
        KeptIfMapped (unicastDefault b.routes) a := by
  obtain ⟨routes, hrun, -, hcov⟩ :=
    flattenRoutes_spec (b.withRoutes (unicastDefault b.routes)) hroutes
  refine ⟨_, processRoutes_of_excluded hsdk hexcluded hrun, fun a => ?_⟩
  rw [covered_filter_loopback fun r hr hloop =>
    not_covers_of_isLoopbackRoute (fun a ha => ((hcov a).mp ha).2.1) hr hloop a]
  exact hcov a

theorem mask_of_processRoutes {b b' : Builder} {sdk : ℕ} (hsdk : sdk < tiramisu)
    (hexcluded : ∃ r ∈ unicastDefault b.routes, r.include = false)
    (h : b.processRoutes sdk = .ok b') :
    ∀ r ∈ unicastDefault b.routes, -8 < r.inetNetwork.mask := by
  have hany := any_excluded hexcluded
  cases hrun : (unicastDefault b.routes).foldlM applyRoute IpRangeSet.empty with
  | ok s => exact mask_of_foldlM_applyRoute hrun
  | error e =>
    simp [processRoutes, replaceIpv6DefaultRoute_eq, bind, Except.bind, hsdk, hany,
      flattenRoutes, hrun] at h

end ProtocolConfig.Builder

end AmneziaVpn
