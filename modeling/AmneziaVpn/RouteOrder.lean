import AmneziaVpn.RouteFlattening

/-!
# Flattened routes against excluded routes

From Android 13 on the routes are handed to the system, where the longest prefix containing an
address decides and a later call for the same destination overrides an earlier one.
-/

namespace AmneziaVpn

open ProtocolConfig.Builder List

variable (routes : List Route)

variable (a : IpAddress)

def longestPrefix : Option Route :=
  routes.foldl (fun best r =>
    if r.inetNetwork.contains a then
      match best with
      | some s => if s.inetNetwork.mask ≤ r.inetNetwork.mask then some r else some s
      | none => some r
    else best) none

namespace ProtocolConfig.Builder

variable (b : Builder)

def pushRoute (r : Route) : Builder :=
  if r.include then b.addRoute r.inetNetwork else b.excludeRoute r.inetNetwork

def pushRoutes (routes : List Route) : Builder := routes.foldl pushRoute b

theorem pushRoutes_eq (routes : List Route) :
    b.pushRoutes routes = b.withRoutes (linkedHashSetAddAll b.routes routes) := by
  induction routes generalizing b with
  | nil => rfl
  | cons r routes ih =>
    have hpush : b.pushRoute r = b.withRoutes (linkedHashSetAdd b.routes r) := by
      obtain ⟨n, inc⟩ := r
      cases inc <;> rfl
    change (b.pushRoute r).pushRoutes routes = _
    rw [ih, hpush]
    rfl

/-- An included `::/0` is read as `2000::/3` in front of all others. -/
def effectiveRoutes (routes : List Route) : List Route :=
  unicastDefault (linkedHashSetAddAll [] routes)

end ProtocolConfig.Builder

/-- An IPv4-mapped address that flattening loses. -/
def LostMapped : Prop :=
  IpRange.Mapped a ∧ (∃ r ∈ routes, r.include = false) ∧
    ∃ c : IpAddress, c.size = 16 ∧ c.value ∈ IpRange.aroundMapped ∧ ¬ IncludedLast routes c

/-- The last route with the address is of the same kind as the longest one. -/
def OrderAgrees : Prop :=
  (LostMapped routes a → (longestPrefix routes a).map (·.include) ≠ some true) ∧
    (¬ LostMapped routes a →
      (lastContaining routes a).map (·.include) = (longestPrefix routes a).map (·.include))

section LongestPrefix

variable {a : IpAddress}

theorem longestPrefix_append_singleton (routes : List Route) (r : Route) :
    longestPrefix (routes ++ [r]) a =
      if r.inetNetwork.contains a then
        match longestPrefix routes a with
        | some s => if s.inetNetwork.mask ≤ r.inetNetwork.mask then some r else some s
        | none => some r
      else longestPrefix routes a := by
  rw [longestPrefix, foldl_append]
  rfl

theorem longestPrefix_filter {routes : List Route} {p : Route → Bool}
    (h : ∀ r ∈ routes, p r = false → ¬ r.inetNetwork.contains a) :
    longestPrefix (routes.filter p) a = longestPrefix routes a := by
  induction routes using List.reverseRecOn with
  | nil => rfl
  | append_singleton routes r ih =>
    have hrest := ih fun q hq => h q (by simp [hq])
    rw [filter_append, longestPrefix_append_singleton]
    cases hp : p r with
    | true =>
      rw [filter_cons_of_pos hp, filter_nil, longestPrefix_append_singleton, hrest]
    | false =>
      rw [filter_cons_of_neg (by simp [hp]), filter_nil, append_nil, hrest,
        if_neg (h r (by simp) hp)]

theorem longestPrefix_eq_none {routes : List Route} :
    longestPrefix routes a = none ↔ ∀ r ∈ routes, ¬ r.inetNetwork.contains a := by
  induction routes using List.reverseRecOn with
  | nil => simp [longestPrefix]
  | append_singleton routes r ih =>
    rw [longestPrefix_append_singleton]
    by_cases hr : r.inetNetwork.contains a
    · rw [if_pos hr]
      refine iff_of_false ?_ fun h => h r (by simp) hr
      cases longestPrefix routes a with
      | none => simp
      | some s =>
        simp only
        split_ifs <;> simp
    · rw [if_neg hr, ih]
      simp [or_imp, forall_and, hr]

end LongestPrefix

theorem lastContaining_eq_none_iff_longestPrefix {routes : List Route} {a : IpAddress} :
    lastContaining routes a = none ↔ longestPrefix routes a = none := by
  rw [lastContaining_eq_none, longestPrefix_eq_none]

theorem loopback_of_isLoopbackRoute {r : Route} (hcidr : r.inetNetwork.IsCidr)
    (hloop : isLoopbackRoute ipv6Loopback r) {a : IpAddress} (ha : r.inetNetwork.contains a) :
    Loopback a := by
  rcases ip_loopback_of_isLoopbackRoute hloop with h | h
  · obtain ⟨hsize, hvalue⟩ := ipv4Loopback_contains.mp h
    have hbits : r.inetNetwork.hostBits ≤ 24 := by
      by_contra hlarge
      have hdvd : 2 ^ 25 ∣ r.inetNetwork.ip.value := (pow_dvd_pow 2 (by omega)).trans hcidr.2
      omega
    refine .inl (ipv4Loopback_contains.mpr ⟨ha.1.trans hsize, ?_⟩)
    rw [← hvalue]
    exact PrefixMasks.div_eq_of_le hbits ha.2
  · obtain ⟨hsize, -⟩ := ipv6Loopback_contains.mp h
    have hv4 : r.inetNetwork.isIpv4 = false := by
      have hlen : r.inetNetwork.address.address.length = 16 := hsize
      simp [InetNetwork.isIpv4, InetAddress.isInet4, hlen]
    rw [isLoopbackRoute, hv4, Bool.and_eq_true] at hloop
    have heq : r.inetNetwork = ipv6Loopback := by simpa using hloop.2
    exact .inr (heq ▸ ha)

theorem isCidr_effectiveRoutes {routes : List Route} (h : ∀ r ∈ routes, r.inetNetwork.IsCidr) :
    ∀ r ∈ effectiveRoutes routes, r.inetNetwork.IsCidr := by
  intro r hr
  unfold effectiveRoutes unicastDefault at hr
  have hrest : ∀ q ∈ (linkedHashSetAddAll [] routes).filter (· ≠ ⟨ipv6DefaultRoute, true⟩),
      q.inetNetwork.IsCidr := by
    intro q hq
    exact h q (by simpa using (mem_filter.mp hq).1)
  split_ifs at hr
  · rw [mem_linkedHashSetAddAll, mem_singleton] at hr
    rcases hr with rfl | hr
    · decide
    · exact hrest r hr
  · exact hrest r hr

section Agreement

variable {b : ProtocolConfig.Builder} {routes : List Route} {a : IpAddress}

/-- Where nothing is flattened the routes stay, up to loopback routes. -/
theorem processRoutes_kept (b : ProtocolConfig.Builder) {sdk : ℕ}
    (h : ¬ (sdk < tiramisu ∧ (unicastDefault b.routes).any (!·.include))) :
    b.processRoutes sdk = .ok (b.withRoutes
      ((unicastDefault b.routes).filter fun r => !isLoopbackRoute ipv6Loopback r)) := by
  simp only [processRoutes, replaceIpv6DefaultRoute_eq, bind, Except.bind, withRoutes_routes, h,
    if_false, ofText_ipv6Loopback, pure, Except.pure]
  rfl

theorem processRoutes_included {b : ProtocolConfig.Builder}
    (h : ∀ r ∈ unicastDefault b.routes, r.include = true) (sdk : ℕ) :
    b.processRoutes sdk = .ok (b.withRoutes
      ((unicastDefault b.routes).filter fun r => !isLoopbackRoute ipv6Loopback r)) := by
  apply processRoutes_kept
  rintro ⟨-, hany⟩
  obtain ⟨r, hr, hinc⟩ := any_eq_true.mp hany
  simp [h r hr] at hinc

theorem effectiveRoutes_pushRoutes (routes : List Route) (hb : b.routes = []) :
    unicastDefault (b.pushRoutes routes).routes = effectiveRoutes routes := by
  rw [pushRoutes_eq, withRoutes_routes, hb, effectiveRoutes]

theorem longestPrefix_without_loopback (hroutes : ∀ r ∈ routes, r.inetNetwork.IsCidr)
    (ha : ¬ Loopback a) :
    longestPrefix (routes.filter fun r => !isLoopbackRoute ipv6Loopback r) a =
      longestPrefix routes a := by
  apply longestPrefix_filter
  intro r hr hloop hcontains
  exact ha (loopback_of_isLoopbackRoute (hroutes r hr) (by simpa using hloop) hcontains)

theorem covered_older (hb : b.routes = []) (hroutes : ∀ r ∈ routes, r.inetNetwork.IsCidr)
    {sdk : ℕ} (hsdk : sdk < tiramisu) :
    ∃ older, (b.pushRoutes routes).processRoutes sdk = .ok older ∧ ∀ a, ¬ Loopback a →
      (covered older.routes a ↔
        IncludedLast (effectiveRoutes routes) a ∧ ¬ LostMapped (effectiveRoutes routes) a) := by
  have hcidr := isCidr_effectiveRoutes hroutes
  have heffective := effectiveRoutes_pushRoutes routes hb
  by_cases hexcluded : ∃ r ∈ effectiveRoutes routes, r.include = false
  · obtain ⟨flat, hrun, hcov⟩ := processRoutes_flattened (b := b.pushRoutes routes) hsdk
      (heffective ▸ hexcluded) (by
        rw [heffective]
        intro r hr
        have := (hcidr r hr).1.1
        omega)
    refine ⟨_, hrun, fun a ha => ?_⟩
    rw [withRoutes_routes, hcov, heffective]
    refine and_congr_right fun _ => ?_
    rw [and_iff_right ha, LostMapped, KeptIfMapped]
    push Not
    constructor
    · exact fun h hm _ c hsize hc => h hm c hsize hc
    · exact fun h hm c hsize hc => h hm hexcluded c hsize hc
  · have hall : ∀ r ∈ effectiveRoutes routes, r.include = true := by
      intro r hr
      by_contra hinc
      exact hexcluded ⟨r, hr, by simpa using hinc⟩
    refine ⟨_, processRoutes_included (heffective ▸ hall) sdk, fun a ha => ?_⟩
    rw [withRoutes_routes, heffective, covered_filter_loopback fun r hr hloop hcov =>
      ha (loopback_of_isLoopbackRoute (hcidr r hr) hloop hcov.2)]
    have hnot : ¬ LostMapped (effectiveRoutes routes) a := fun h => hexcluded h.2.1
    rw [and_iff_left hnot, IncludedLast]
    constructor
    · rintro ⟨r, hr, -, hcov⟩
      cases hlast : lastContaining (effectiveRoutes routes) a with
      | none => exact absurd hcov.2 (lastContaining_eq_none.mp hlast r hr)
      | some q => exact ⟨q, rfl, hall q (lastContaining_eq_some hlast).1⟩
    · rintro ⟨r, hlast, hinc⟩
      obtain ⟨hr, hcontains⟩ := lastContaining_eq_some hlast
      exact ⟨r, hr, hinc, (hcidr r hr).1, hcontains⟩

theorem includedLast_iff_map {routes : List Route} {a : IpAddress} :
    IncludedLast routes a ↔ (lastContaining routes a).map (·.include) = some true := by
  simp [IncludedLast]

/-- Older and newer systems agree where the order of routes agrees with their lengths. -/
theorem covered_iff_longestPrefix {older newer : ℕ} (holder : older < tiramisu)
    (hnewer : tiramisu ≤ newer) (hb : b.routes = [])
    (hroutes : ∀ r ∈ routes, r.inetNetwork.IsCidr) (ha : ¬ Loopback a) :
    ∃ flattened handed, (b.pushRoutes routes).processRoutes older = .ok flattened ∧
      (b.pushRoutes routes).processRoutes newer = .ok handed ∧
      ((covered flattened.routes a ↔
          ∃ r, longestPrefix handed.routes a = some r ∧ r.include = true) ↔
        OrderAgrees (effectiveRoutes routes) a) := by
  obtain ⟨flattened, hflattened, hcov⟩ := covered_older hb hroutes holder
  have hhanded := processRoutes_kept (b.pushRoutes routes)
    (fun h => absurd h.1 (not_lt.mpr hnewer))
  refine ⟨flattened, _, hflattened, hhanded, ?_⟩
  rw [hcov a ha, withRoutes_routes, effectiveRoutes_pushRoutes routes hb,
    longestPrefix_without_loopback (isCidr_effectiveRoutes hroutes) ha, includedLast_iff_map,
    OrderAgrees]
  generalize hlongest : longestPrefix (effectiveRoutes routes) a = longest
  generalize hlast : lastContaining (effectiveRoutes routes) a = last
  have hnone : last = none ↔ longest = none := by
    rw [← hlast, ← hlongest, lastContaining_eq_none_iff_longestPrefix]
  by_cases hlost : LostMapped (effectiveRoutes routes) a
  · simp [hlost]
  · cases last with
    | none =>
      obtain rfl := hnone.mp rfl
      simp
    | some r =>
      obtain ⟨s, rfl⟩ := Option.ne_none_iff_exists'.mp (hnone.not.mp (by simp))
      cases hr : r.include <;> cases hs : s.include <;> simp [hlost, hr, hs]

end Agreement

def openVpnBuilder : ProtocolConfig.Builder := { blockingMode := false, mtu := 1500 }

def serverNetwork : InetNetwork := ⟨⟨[1, 2, 3, 4], .inl rfl⟩, 32⟩

theorem covered_iff_longestPrefix_default_first :
    ∃ flattened handed,
      (openVpnBuilder.pushRoutes [⟨ipv4DefaultRoute, true⟩, ⟨serverNetwork, false⟩]).processRoutes
        29 = .ok flattened ∧
      (openVpnBuilder.pushRoutes [⟨ipv4DefaultRoute, true⟩, ⟨serverNetwork, false⟩]).processRoutes
        34 = .ok handed ∧
      ((covered flattened.routes serverNetwork.ip ↔
          ∃ r, longestPrefix handed.routes serverNetwork.ip = some r ∧ r.include = true) ↔
        OrderAgrees (effectiveRoutes [⟨ipv4DefaultRoute, true⟩, ⟨serverNetwork, false⟩])
          serverNetwork.ip) :=
  covered_iff_longestPrefix (by decide) (by decide) rfl (by decide)
    (by rintro (h | h) <;> exact absurd h (by decide))

/-- Older systems send the server's own traffic into the tunnel. -/
theorem covered_server_default_last :
    ∃ flattened handed,
      (openVpnBuilder.pushRoutes [⟨serverNetwork, false⟩, ⟨ipv4DefaultRoute, true⟩]).processRoutes
        29 = .ok flattened ∧
      (openVpnBuilder.pushRoutes [⟨serverNetwork, false⟩, ⟨ipv4DefaultRoute, true⟩]).processRoutes
        34 = .ok handed ∧
      covered flattened.routes serverNetwork.ip ∧
      longestPrefix handed.routes serverNetwork.ip = some ⟨serverNetwork, false⟩ := by
  have hcidr : ∀ r ∈ ([⟨serverNetwork, false⟩, ⟨ipv4DefaultRoute, true⟩] : List Route),
      r.inetNetwork.IsCidr := by
    decide
  have holder : 29 < tiramisu := by decide
  obtain ⟨flattened, hflattened, hcov⟩ := 
    covered_older (show openVpnBuilder.routes = [] from rfl) hcidr holder
  refine ⟨flattened, _, hflattened, processRoutes_kept _ (by decide), ?_, by decide +kernel⟩
  rw [hcov _ (by rintro (h | h) <;> exact absurd h (by decide))]
  refine ⟨⟨⟨ipv4DefaultRoute, true⟩, by decide +kernel, rfl⟩, ?_⟩
  rintro ⟨hmapped, -⟩
  exact absurd hmapped.1 (by decide)

end AmneziaVpn
