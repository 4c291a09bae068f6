import AmneziaVpn.RouteFlattening
import AmneziaVpn.Wireguard

/-!
# Routes of a WireGuard configuration with excluded sites

With only default routes allowed, the routes of the configuration are put in front of the excluded
sites whatever the order they came in, so on older systems every site ends up excluded.
-/

namespace AmneziaVpn

open ProtocolConfig (Builder)
open ProtocolConfig.Builder List

variable {included excluded : List Route}

theorem includedLast_append (hincluded : ∀ r ∈ included, r.include = true)
    (hexcluded : ∀ r ∈ excluded, r.include = false) (a : IpAddress) :
    IncludedLast (included ++ excluded) a ↔
      (∃ r ∈ included, r.inetNetwork.contains a) ∧ ∀ r ∈ excluded, ¬ r.inetNetwork.contains a := by
  rw [IncludedLast, lastContaining_append]
  cases hlast : lastContaining excluded a with
  | some r =>
    obtain ⟨hr, ha⟩ := lastContaining_eq_some hlast
    constructor
    · rintro ⟨q, hq, hinc⟩
      simp only [Option.some_or, Option.some.injEq] at hq
      subst hq
      rw [hexcluded r hr] at hinc
      cases hinc
    · rintro ⟨-, hnone⟩
      exact absurd ha (hnone r hr)
  | none =>
    rw [Option.none_or, and_iff_left (lastContaining_eq_none.mp hlast)]
    cases hfirst : lastContaining included a with
    | some r =>
      obtain ⟨hr, ha⟩ := lastContaining_eq_some hfirst
      exact iff_of_true ⟨r, rfl, hincluded r hr⟩ ⟨r, hr, ha⟩
    | none =>
      refine iff_of_false (by simp) ?_
      rintro ⟨r, hr, ha⟩
      exact lastContaining_eq_none.mp hfirst r hr ha

def OnlyDefaultRoutes (routes : List Route) : Prop :=
  ∀ r ∈ routes, r = ⟨ipv4DefaultRoute, true⟩ ∨ r = ⟨ipv6DefaultRoute, true⟩

variable {routes : List Route}

theorem mem_unicastDefault {r : Route} (hr : r ∈ routes) (hinc : r.include = false) :
    r ∈ unicastDefault routes := by
  have hrest : r ∈ routes.filter (· ≠ ⟨ipv6DefaultRoute, true⟩) := by
    rw [mem_filter, decide_eq_true_eq]
    refine ⟨hr, ?_⟩
    rintro rfl
    cases hinc
  rw [unicastDefault]
  split_ifs
  · exact (mem_linkedHashSetAddAll _ _ _).mpr (.inr hrest)
  · exact hrest

/-- Included routes followed by excluded ones keep their places when `::/0` is replaced. -/
theorem unicastDefault_append (hincluded : ∀ r ∈ included, r.include = true)
    (hexcluded : ∀ r ∈ excluded, r.include = false) :
    ∃ included' excluded', unicastDefault (included ++ excluded) = included' ++ excluded' ∧
      (∀ r, r ∈ included' ↔ r ∈ included ∧ r ≠ ⟨ipv6DefaultRoute, true⟩ ∨
        ⟨ipv6DefaultRoute, true⟩ ∈ included ∧ r = ⟨globalUnicast, true⟩) ∧
      ∀ r, r ∈ excluded' ↔ r ∈ excluded := by
  have hnot : (⟨ipv6DefaultRoute, true⟩ : Route) ∉ excluded := by
    intro h
    cases hexcluded _ h
  have hkeep : excluded.filter (· ≠ ⟨ipv6DefaultRoute, true⟩) = excluded := by
    rw [filter_eq_self]
    intro r hr
    rw [decide_eq_true_eq]
    rintro rfl
    exact hnot hr
  rw [unicastDefault, filter_append, hkeep]
  by_cases hdefault : (⟨ipv6DefaultRoute, true⟩ : Route) ∈ included
  · obtain ⟨new, hnew, hmemnew⟩ := linkedHashSetAddAll_eq_append [(⟨globalUnicast, true⟩ : Route)]
      (included.filter (· ≠ ⟨ipv6DefaultRoute, true⟩))
    obtain ⟨behind, hbehind, hmembehind⟩ := linkedHashSetAddAll_eq_append
      ([(⟨globalUnicast, true⟩ : Route)] ++ new) excluded
    have hmem : ∀ r, r ∈ [(⟨globalUnicast, true⟩ : Route)] ++ new ↔
        r ∈ included ∧ r ≠ ⟨ipv6DefaultRoute, true⟩ ∨
          ⟨ipv6DefaultRoute, true⟩ ∈ included ∧ r = ⟨globalUnicast, true⟩ := by
      intro r
      rw [← hnew, mem_linkedHashSetAddAll, mem_singleton, mem_filter, decide_eq_true_eq,
        and_iff_right hdefault, or_comm]
    refine ⟨[⟨globalUnicast, true⟩] ++ new, behind, ?_, hmem, fun r => ?_⟩
    · rw [if_pos (mem_append_left _ hdefault), ← hbehind, ← hnew, linkedHashSetAddAll,
        foldl_append]
      rfl
    · rw [hmembehind, and_iff_left_of_imp]
      intro hr hin
      have hinc : r.include = true := by
        rcases (hmem r).mp hin with ⟨h, -⟩ | ⟨-, rfl⟩
        · exact hincluded r h
        · rfl
      rw [hexcluded r hr] at hinc
      cases hinc
  · refine ⟨_, excluded, if_neg ?_, fun r => ?_, fun r => Iff.rfl⟩
    · exact fun h => (mem_append.mp h).elim hdefault hnot
    · rw [mem_filter, decide_eq_true_eq, or_iff_left fun h => hdefault h.1]

def UnicastSelected (included : List InetNetwork) (a : IpAddress) : Prop :=
  (∃ n ∈ included, n ≠ ipv6DefaultRoute ∧ n.contains a) ∨
    ipv6DefaultRoute ∈ included ∧ globalUnicast.contains a

theorem includedLast_unicastDefault (hincluded : ∀ r ∈ included, r.include = true)
    (hexcluded : ∀ r ∈ excluded, r.include = false) (a : IpAddress) :
    IncludedLast (unicastDefault (included ++ excluded)) a ↔
      UnicastSelected (included.map (·.inetNetwork)) a ∧
        ∀ r ∈ excluded, ¬ r.inetNetwork.contains a := by
  obtain ⟨included', excluded', hroutes, hmem, hmem'⟩ := unicastDefault_append hincluded hexcluded
  have hroute : ∀ n, (⟨n, true⟩ : Route) ∈ included ↔ n ∈ included.map (·.inetNetwork) := by
    intro n
    rw [mem_map]
    constructor
    · exact fun h => ⟨_, h, rfl⟩
    · rintro ⟨⟨m, inc⟩, hr, rfl⟩
      cases hincluded _ hr
      exact hr
  rw [hroutes, includedLast_append]
  · refine and_congr ?_ (by simp [hmem'])
    rw [UnicastSelected, ← hroute]
    constructor
    · rintro ⟨⟨n, inc⟩, hr, ha⟩
      rcases (hmem _).mp hr with ⟨hin, hne⟩ | ⟨hdefault, heq⟩
      · cases hincluded _ hin
        exact .inl ⟨n, (hroute n).mp hin, fun h => hne (by rw [h]), ha⟩
      · cases heq
        exact .inr ⟨hdefault, ha⟩
    · rintro (⟨n, hn, hne, ha⟩ | ⟨hdefault, ha⟩)
      · exact ⟨⟨n, true⟩, (hmem _).mpr (.inl ⟨(hroute n).mpr hn, by simpa using hne⟩), ha⟩
      · exact ⟨_, (hmem _).mpr (.inr ⟨hdefault, rfl⟩), ha⟩
  · intro r hr
    rcases (hmem r).mp hr with ⟨hin, -⟩ | ⟨-, rfl⟩
    · exact hincluded r hin
    · rfl
  · exact fun r hr => hexcluded r ((hmem' r).mp hr)

def unicastRoutes : List Route := [⟨ipv4DefaultRoute, true⟩, ⟨globalUnicast, true⟩]

theorem unicastSelected_defaults {saved : List Route}
    (h : ∀ r ∈ saved, r = ⟨ipv6DefaultRoute, true⟩) (a : IpAddress) :
    UnicastSelected ((unicastRoutes ++ saved).map (·.inetNetwork)) a ↔
      a.size = 4 ∨ globalUnicast.contains a := by
  constructor
  · rintro (⟨n, hn, hne, ha⟩ | ⟨-, ha⟩)
    · obtain ⟨r, hr, rfl⟩ := mem_map.mp hn
      rcases mem_append.mp hr with hr | hr
      · rcases mem_pair.mp hr with rfl | rfl
        · exact .inl (ipv4DefaultRoute_contains.mp ha)
        · exact .inr ha
      · exact absurd (by rw [h r hr]) hne
    · exact .inr ha
  · rintro (ha | ha)
    · exact .inl ⟨_, .head _, by decide, ipv4DefaultRoute_contains.mpr ha⟩
    · exact .inl ⟨_, .tail _ (.head _), by decide, ha⟩

variable {b : Builder}

/-- Exclusive split tunnelling leaves included routes for IPv4 and `2000::/3`, then the sites. -/
theorem processSplitTunneling_excluding (order : HashOrder InetNetwork)
    (hincluded : b.includedAddresses = []) (hexcluded : b.excludedAddresses ≠ []) :
    ∃ sites : List Route,
      (∀ r, r ∈ sites ↔ r.include = false ∧ r.inetNetwork ∈ b.excludedAddresses) ∧
      b.processSplitTunneling order =
        .ok (b.withRoutes (linkedHashSetAddAll (unicastRoutes ++ sites) b.routes)) := by
  obtain ⟨sites, hsites, hmem⟩ := linkedHashSetAddAll_eq_append unicastRoutes
    ((order.iterate b.excludedAddresses).map (⟨·, false⟩))
  have hadd : linkedHashSetAddAll (linkedHashSetAdd (linkedHashSetAdd []
      ⟨ipv4DefaultRoute, true⟩) ⟨globalUnicast, true⟩)
      ((order.iterate b.excludedAddresses).map (⟨·, false⟩)) = unicastRoutes ++ sites := hsites
  refine ⟨sites, ?_, ?_⟩
  · rintro ⟨n, inc⟩
    rw [hmem]
    cases inc <;> simp [unicastRoutes]
  · simp [processSplitTunneling, hincluded, hexcluded, ne_eq, not_true_eq_false, not_false_eq_true, prependRoutes, clearRoutes, addRoute, excludeRoutes, ofText_ipv4DefaultRoute, ofText_globalUnicast, bind, Except.bind, pure, Except.pure, hadd, withRoutes]

variable {order : HashOrder InetNetwork}

/-- What the built routes cover when some route is excluded after the split tunnelling. -/
theorem covered_configBuild {sdk : ℕ} {b' : Builder} (hsdk : sdk < tiramisu)
    (hsplit : b.processSplitTunneling order = .ok (b.withRoutes routes))
    (hexcluded : ∃ r ∈ unicastDefault routes, r.include = false)
    (h : b.configBuild order sdk = .ok b') (a : IpAddress) :
    covered b'.routes a ↔ IncludedLast (unicastDefault routes) a ∧ ¬ Loopback a ∧
      KeptIfMapped (unicastDefault routes) a := by
  rw [configBuild, hsplit] at h
  obtain ⟨b₁, hb₁, h⟩ := bind_eq_ok.mp h
  obtain rfl := Except.ok.inj hb₁
  obtain ⟨b₂, hprocess, h⟩ := bind_eq_ok.mp h
  obtain ⟨-, -, h⟩ := bind_eq_ok.mp h
  obtain rfl : b₂ = b' := Except.ok.inj h
  obtain ⟨flat, hflat, hcov⟩ := processRoutes_flattened (b := b.withRoutes routes) hsdk hexcluded
    (mask_of_processRoutes hsdk hexcluded hprocess)
  obtain rfl : _ = b₂ := Except.ok.inj (hflat.symm.trans hprocess)
  rw [withRoutes_routes, hcov, withRoutes_routes]

theorem not_mapped_of_unicast {a : IpAddress} (h : a.size = 4 ∨ globalUnicast.contains a) :
    ¬ IpRange.Mapped a := by
  intro hmapped
  rcases h with hsize | hunicast
  · have := hmapped.1
    omega
  · have hvalue := (globalUnicast_contains.mp hunicast).2
    have hmappedValue := hmapped.2
    rw [mappedFirst] at hmappedValue
    omega

/-- What the built routes cover when the builder had default routes and excluded addresses. -/
theorem configBuild_excluding {sdk : ℕ} {b' : Builder} (hsdk : sdk < tiramisu)
    (hroutes : OnlyDefaultRoutes b.routes) (hincluded : b.includedAddresses = [])
    (hexcluded : b.excludedAddresses ≠ []) (h : b.configBuild order sdk = .ok b') (a : IpAddress) :
    covered b'.routes a ↔ (a.size = 4 ∨ globalUnicast.contains a) ∧
      (∀ e ∈ b.excludedAddresses, ¬ e.contains a) ∧ ¬ Loopback a := by
  obtain ⟨sites, hsite, hsplit⟩ := processSplitTunneling_excluding order hincluded hexcluded
  obtain ⟨saved, hsaved, hmem⟩ := linkedHashSetAddAll_eq_append (unicastRoutes ++ sites) b.routes
  rw [hsaved] at hsplit
  have hold : ∀ r ∈ saved, r = ⟨ipv6DefaultRoute, true⟩ := by
    intro r hr
    obtain ⟨hr, hnew⟩ := (hmem r).mp hr
    rcases hroutes r hr with rfl | rfl
    · exact absurd (by simp [unicastRoutes]) hnew
    · rfl
  -- the saved route for all of IPv6 is replaced, so its place does not matter
  have hplace : unicastDefault (unicastRoutes ++ sites ++ saved) =
      unicastDefault (unicastRoutes ++ saved ++ sites) := by
    have hnone : saved.filter (· ≠ ⟨ipv6DefaultRoute, true⟩) = [] := by
      rw [filter_eq_nil_iff]
      intro r hr
      simp [hold r hr]
    simp only [unicastDefault, filter_append, hnone, append_nil, mem_append, or_right_comm]
  obtain ⟨e, he⟩ := exists_mem_of_ne_nil _ hexcluded
  have hsome : ∃ r ∈ unicastDefault (unicastRoutes ++ sites ++ saved), r.include = false :=
    ⟨⟨e, false⟩, mem_unicastDefault (by simp [hsite, he]) rfl, rfl⟩
  have hlast : IncludedLast (unicastDefault (unicastRoutes ++ sites ++ saved)) a ↔
      (a.size = 4 ∨ globalUnicast.contains a) ∧ ∀ e ∈ b.excludedAddresses, ¬ e.contains a := by
    rw [hplace, includedLast_unicastDefault, unicastSelected_defaults]
    · refine and_congr_right fun _ => ⟨fun h e he => h ⟨e, false⟩ ((hsite _).mpr ⟨rfl, he⟩), ?_⟩
      exact fun h r hr => h r.inetNetwork ((hsite r).mp hr).2
    · exact hold
    · rw [forall_mem_append]
      exact ⟨by simp [unicastRoutes], fun r hr => by rw [hold r hr]⟩
    · exact fun r hr => ((hsite r).mp hr).1
  have hkept : IncludedLast (unicastDefault (unicastRoutes ++ sites ++ saved)) a →
      KeptIfMapped (unicastDefault (unicastRoutes ++ sites ++ saved)) a :=
    fun hl hmapped => absurd hmapped (not_mapped_of_unicast (hlast.mp hl).1)
  rw [covered_configBuild hsdk hsplit hsome h]
  constructor
  · rintro ⟨hl, hloop, -⟩
    exact ⟨(hlast.mp hl).1, (hlast.mp hl).2, hloop⟩
  · rintro ⟨hfamily, hsites, hloop⟩
    have hl := hlast.mpr ⟨hfamily, hsites⟩
    exact ⟨hl, hloop, hkept hl⟩

namespace Wireguard

variable {order : HashOrder InetNetwork} {base64ToHex : String → Outcome String}

def OnlyDefaultAllowed (configData : ConfigData) : Prop :=
  ∀ networks, listOf configData "AllowedIPs" InetNetwork.parse = .ok networks →
    ∀ n ∈ networks, n = ipv4DefaultRoute ∨ n = ipv6DefaultRoute

theorem foldl_addAddress (addresses : List InetNetwork) (b : Builder) :
    ∃ set, addresses.foldl addAddress b = { b with addresses := set } := by
  induction addresses generalizing b with
  | nil => exact ⟨b.addresses, rfl⟩
  | cons n addresses ih =>
    obtain ⟨set, hset⟩ := ih (b.addAddress n)
    exact ⟨set, hset⟩

theorem foldl_addDnsServer (dnsServers : List InetAddress) (b : Builder) :
    ∃ set, dnsServers.foldl addDnsServer b = { b with dnsServers := set } := by
  induction dnsServers generalizing b with
  | nil => exact ⟨b.dnsServers, rfl⟩
  | cons n dnsServers ih =>
    obtain ⟨set, hset⟩ := ih (b.addDnsServer n)
    exact ⟨set, hset⟩

variable {config : ConfigJson} {configData : ConfigData} {sites : List String} {b b' : Builder}

theorem configRoutes_eq (hallowed : OnlyDefaultAllowed configData)
    (h : configRoutes order configData b = .ok b') (hb : b.routes = []) :
    ∃ routes, b' = { b with routes := routes } ∧ OnlyDefaultRoutes routes := by
  simp only [configRoutes, ofText_ipv4DefaultRoute, ofText_ipv6DefaultRoute] at h
  obtain ⟨_, h₄, h⟩ := bind_eq_ok.mp h
  obtain rfl := Except.ok.inj h₄
  obtain ⟨_, h₆, h⟩ := bind_eq_ok.mp h
  obtain rfl := Except.ok.inj h₆
  obtain ⟨networks, hnetworks, h⟩ := bind_eq_ok.mp h
  have hnone : (linkedHashSetAddAll [] networks).any
      (· ∉ [ipv4DefaultRoute, ipv6DefaultRoute]) = false := by
    rw [any_eq_false]
    intro n hn
    have := hallowed networks hnetworks n (by simpa using hn)
    simpa [or_iff_not_imp_left] using this
  simp only [hnone, Bool.false_eq_true, if_false] at h
  obtain rfl := Except.ok.inj h
  refine ⟨_, rfl, fun r hr => ?_⟩
  rw [hb, mem_linkedHashSetAddAll] at hr
  obtain ⟨n, hn, rfl⟩ := mem_map.mp (hr.resolve_left (by simp))
  have hn' : n ∈ networks := by simpa using hn
  rcases hallowed networks hnetworks n hn' with rfl | rfl
  · exact .inl rfl
  · exact .inr rfl

theorem configMtu_eq {mtu : String} (h : configMtu configData mtu b = .ok b') :
    ∃ m, b' = { b with mtu := m } := by
  have hset : ∀ text, b.setMtu <$> toInt text = .ok b' → ∃ m, b' = { b with mtu := m } := by
    intro text htext
    cases hint : toInt text with
    | error e => simp [hint] at htext
    | ok m =>
      rw [hint] at htext
      exact ⟨m, (Except.ok.inj htext).symm⟩
  unfold configMtu at h
  split_ifs at h
  · exact hset _ h
  · split at h
    · exact hset _ h
    · exact ⟨b.mtu, (Except.ok.inj h).symm⟩

theorem configWireguard_base (hallowed : OnlyDefaultAllowed configData) {json : WireguardJson}
    {b : WireguardConfig.Builder} (h : configWireguard order base64ToHex configData json {} = .ok b) :
    OnlyDefaultRoutes b.base.routes ∧ b.base.includedAddresses = [] ∧
      b.base.excludedAddresses = [] ∧ b.base.allowSplitTunneling = true := by
  obtain ⟨addresses, -, h⟩ := bind_eq_ok.mp h
  obtain ⟨dnsServers, -, h⟩ := bind_eq_ok.mp h
  obtain ⟨base₁, hroutes, h⟩ := bind_eq_ok.mp h
  obtain ⟨base₂, hmtu, h⟩ := bind_eq_ok.mp h
  obtain ⟨_, -, h⟩ := bind_eq_ok.mp h
  obtain ⟨_, -, h⟩ := bind_eq_ok.mp h
  obtain ⟨_, -, h⟩ := bind_eq_ok.mp h
  obtain ⟨_, -, h⟩ := bind_eq_ok.mp h
  obtain ⟨_, -, h⟩ := bind_eq_ok.mp h
  obtain rfl := Except.ok.inj h
  obtain ⟨set, hset⟩ := foldl_addAddress addresses { blockingMode := true, mtu := WireguardConfig.defaultMtu }
  obtain ⟨dns, hdns⟩ := foldl_addDnsServer dnsServers (addresses.foldl addAddress
    { blockingMode := true, mtu := WireguardConfig.defaultMtu })
  rw [hset] at hdns
  obtain ⟨routes, rfl, honly⟩ := configRoutes_eq hallowed hroutes (by rw [hset, hdns])
  obtain ⟨m, rfl⟩ := configMtu_eq hmtu
  rw [hset, hdns]
  exact ⟨honly, rfl, rfl, rfl⟩

theorem foldlM_sites {handler : Builder → InetNetwork → Builder} {networks : List InetNetwork}
    (hsites : sites.mapM InetNetwork.parse = .ok networks) (b : Builder) :
    sites.foldlM (fun b site => do
      let address ← InetNetwork.parse site
      return handler b address) b = .ok (networks.foldl handler b) := by
  induction sites generalizing b networks with
  | nil =>
    obtain rfl := Except.ok.inj hsites
    rfl
  | cons site sites ih =>
    rw [mapM_cons] at hsites
    obtain ⟨n, hn, hsites⟩ := bind_eq_ok.mp hsites
    obtain ⟨ns, hns, hsites⟩ := bind_eq_ok.mp hsites
    obtain rfl := Except.ok.inj hsites
    rw [foldlM_cons, hn]
    exact ih hns (handler b n)

variable (networks : List InetNetwork)

theorem foldl_includeAddress (b : Builder) :
    networks.foldl includeAddress b =
      { b with includedAddresses := linkedHashSetAddAll b.includedAddresses networks } := by
  induction networks generalizing b with
  | nil => rfl
  | cons n networks ih =>
    rw [foldl_cons, ih]
    rfl

theorem foldl_excludeAddress (b : Builder) :
    networks.foldl excludeAddress b =
      { b with excludedAddresses := linkedHashSetAddAll b.excludedAddresses networks } := by
  induction networks generalizing b with
  | nil => rfl
  | cons n networks ih =>
    rw [foldl_cons, ih]
    rfl

theorem configSplitTunneling_disabled (htype : config.splitTunnelType = 0) (b : Builder) :
    configSplitTunneling config b = .ok b := by
  rw [configSplitTunneling, if_pos htype, ite_self]

theorem configSplitTunneling_including {b : Builder} (hallow : b.allowSplitTunneling = true)
    (htype : config.splitTunnelType = 1) (hsites : config.splitTunnelSites = some sites)
    {included : List InetNetwork} (hincluded : sites.mapM InetNetwork.parse = .ok included) :
    configSplitTunneling config b =
      .ok { b with includedAddresses := linkedHashSetAddAll b.includedAddresses included } := by
  rw [configSplitTunneling, if_neg (by simp [hallow]), htype, hsites, if_neg (by decide),
    ← foldl_includeAddress]
  exact bind_eq_ok.mpr ⟨sites, rfl,
    bind_eq_ok.mpr ⟨includeAddress, rfl, foldlM_sites hincluded b⟩⟩

theorem configSplitTunneling_excluding {b : Builder} (hallow : b.allowSplitTunneling = true)
    (htype : config.splitTunnelType = 2) (hsites : config.splitTunnelSites = some sites)
    {excluded : List InetNetwork} (hexcluded : sites.mapM InetNetwork.parse = .ok excluded) :
    configSplitTunneling config b =
      .ok { b with excludedAddresses := linkedHashSetAddAll b.excludedAddresses excluded } := by
  rw [configSplitTunneling, if_neg (by simp [hallow]), htype, hsites, if_neg (by decide),
    ← foldl_excludeAddress]
  exact bind_eq_ok.mpr ⟨sites, rfl,
    bind_eq_ok.mpr ⟨excludeAddress, rfl, foldlM_sites hexcluded b⟩⟩

theorem foldl_applications {handler : Builder → String → Builder}
    (hhandler : handler = includeApplication ∨ handler = excludeApplication) (apps : List String)
    (b : Builder) :
    (apps.foldl handler b).routes = b.routes ∧
      (apps.foldl handler b).includedAddresses = b.includedAddresses ∧
      (apps.foldl handler b).excludedAddresses = b.excludedAddresses := by
  induction apps generalizing b with
  | nil => exact ⟨rfl, rfl, rfl⟩
  | cons app apps ih =>
    rw [foldl_cons]
    obtain ⟨hroutes, hincluded, hexcluded⟩ := ih (handler b app)
    rw [hroutes, hincluded, hexcluded]
    rcases hhandler with rfl | rfl <;> exact ⟨rfl, rfl, rfl⟩

theorem configAppSplitTunneling_eq (h : configAppSplitTunneling config b = .ok b') :
    b'.routes = b.routes ∧ b'.includedAddresses = b.includedAddresses ∧
      b'.excludedAddresses = b.excludedAddresses := by
  unfold configAppSplitTunneling at h
  split_ifs at h
  · obtain rfl := Except.ok.inj h
    exact ⟨rfl, rfl, rfl⟩
  · obtain ⟨apps, -, h⟩ := bind_eq_ok.mp h
    obtain ⟨handler, hhandler, h⟩ := bind_eq_ok.mp h
    obtain rfl := Except.ok.inj h
    apply foldl_applications
    unfold handlerFor at hhandler
    split at hhandler
    · exact .inl (Except.ok.inj hhandler).symm
    · exact .inr (Except.ok.inj hhandler).symm
    · cases hhandler

/-- A configuration with excluded sites covers IPv4 and `2000::/3` without them. -/
theorem covered_parseConfig_excluding {sdk : ℕ} (hsdk : sdk < tiramisu) {config : ConfigJson}
    {json : WireguardJson} {text : String} (hjson : config.wireguardConfigData = some json)
    (htext : json.config = some text) (hallowed : OnlyDefaultAllowed (parseConfigData text))
    (htype : config.splitTunnelType = 2) {sites : List String}
    (hsites : config.splitTunnelSites = some sites) {excluded : List InetNetwork}
    (hexcluded : sites.mapM InetNetwork.parse = .ok excluded) (hne : excluded ≠ [])
    {result : WireguardConfig} (hbuild : parseConfig order base64ToHex sdk config = .ok result)
    (a : IpAddress) :
    covered result.protocolConfig.routes a ↔ (a.size = 4 ∨ globalUnicast.contains a) ∧
      (∀ e ∈ excluded, ¬ e.contains a) ∧ ¬ Loopback a := by
  simp only [parseConfig, hjson, required] at hbuild
  obtain ⟨_, hj, hbuild⟩ := bind_eq_ok.mp hbuild
  obtain rfl := Except.ok.inj hj
  rw [htext] at hbuild
  obtain ⟨_, ht, hbuild⟩ := bind_eq_ok.mp hbuild
  obtain rfl := Except.ok.inj ht
  obtain ⟨b, hwireguard, hbuild⟩ := bind_eq_ok.mp hbuild
  obtain ⟨hroutes, hincluded, hempty, hallow⟩ := configWireguard_base hallowed hwireguard
  obtain ⟨base₁, hsplit, hbuild⟩ := bind_eq_ok.mp hbuild
  obtain ⟨base₂, happs, hbuild⟩ := bind_eq_ok.mp hbuild
  obtain ⟨built, hconfig, hbuild⟩ := bind_eq_ok.mp hbuild
  obtain ⟨_, -, hbuild⟩ := bind_eq_ok.mp hbuild
  obtain ⟨_, -, hbuild⟩ := bind_eq_ok.mp hbuild
  obtain ⟨_, -, hbuild⟩ := bind_eq_ok.mp hbuild
  obtain rfl := Except.ok.inj hbuild
  rw [configSplitTunneling_excluding hallow htype hsites hexcluded] at hsplit
  have hbase₁ := (Except.ok.inj hsplit).symm
  obtain ⟨hroutes₂, hincluded₂, hexcluded₂⟩ := configAppSplitTunneling_eq happs
  have hmem : ∀ e, e ∈ base₂.excludedAddresses ↔ e ∈ excluded := by
    intro e
    rw [hexcluded₂, hbase₁, hempty]
    simp
  have hne₂ : base₂.excludedAddresses ≠ [] := by
    obtain ⟨e, he⟩ := exists_mem_of_ne_nil _ hne
    exact ne_nil_of_mem ((hmem e).mpr he)
  have hcov := configBuild_excluding hsdk (by rw [hroutes₂, hbase₁]; exact hroutes)
    (by rw [hincluded₂, hbase₁]; exact hincluded) hne₂ hconfig a
  simp only [hmem] at hcov
  exact hcov

def sampleText : String :=
  "Address=10.8.1.1/32\nPrivateKey=a\nPublicKey=b\nAllowedIPs=0.0.0.0/0,::/0\nEndpoint=1.2.3.4:5"

def sampleConfig : ConfigJson where
  wireguardConfigData := some { config := some sampleText }
  splitTunnelType := 2
  splitTunnelSites := some ["0.0.0.0/1", "::/0"]

theorem covered_sampleConfig :
    ∃ result, parseConfig .insertion .ok 29 sampleConfig = .ok result ∧
      ∀ a, covered result.protocolConfig.routes a ↔ (a.size = 4 ∨ globalUnicast.contains a) ∧
        (∀ e ∈ [⟨⟨[0, 0, 0, 0], .inl rfl⟩, 1⟩, ipv6DefaultRoute], ¬ e.contains a) ∧ ¬ Loopback a := by
  have hallowed : listOf (parseConfigData sampleText) "AllowedIPs" InetNetwork.parse =
      .ok [ipv4DefaultRoute, ipv6DefaultRoute] := by decide +kernel
  have hok : (parseConfig .insertion .ok 29 sampleConfig).isOk := by decide +kernel
  obtain ⟨result, hbuild⟩ := exists_ok_of_isOk hok
  refine ⟨result, hbuild, fun a => covered_parseConfig_excluding (by decide) rfl rfl
    (fun networks hnetworks n hn => ?_) rfl rfl (by decide +kernel) (by simp) hbuild a⟩
  obtain rfl := Except.ok.inj (hallowed.symm.trans hnetworks)
  simpa using hn

end Wireguard

end AmneziaVpn
