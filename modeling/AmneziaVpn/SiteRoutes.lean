import AmneziaVpn.ApplicationSettings
import AmneziaVpn.Routers

/-!
# Routes for sites

When a connection is up, routes are added for the addresses of the sites that are known, and a
lookup is started for every site with a name.
-/

namespace AmneziaVpn

open UndoLog Settings NetworkUtilities List

structure Lookup where
  site : String
  gw : String
  mode : RouteMode
  ips : List String

structure SitesConnection (Key Value Entry : Type) where
  router : State Key Value Entry
  pending : List Lookup
  vpnSites : RouteMode → List (String × String)

def insertSite (site ip : String) : List (String × String) → List (String × String)
  | [] => [(site, ip)]
  | m :: rest =>
      if m.1 = site then (site, ip) :: rest
      else if site < m.1 then (site, ip) :: m :: rest
      else m :: insertSite site ip rest

namespace SitesConnection

variable {Key Value Entry : Type} [DecidableEq Key] (rt : RouterRuntime)
  (r : Router Key Value Entry)

def addVpnSite (mode : RouteMode) (site ip : String) (c : SitesConnection Key Value Entry) :
    SitesConnection Key Value Entry :=
  let sites := c.vpnSites mode
  if (sites.lookup site).isSome ∧ ip = "" then c
  else { c with vpnSites := Function.update c.vpnSites mode (insertSite site ip sites) }

def knownIps (sites : List (String × String)) : List String :=
  (sites.filterMap fun (site, ip) =>
    if checkIpSubnetFormat rt site then some site
    else if checkIpSubnetFormat rt ip then some ip
    else none).eraseDups

def names (sites : List (String × String)) : List String :=
  (sites.map Prod.fst).filter fun site => !checkIpSubnetFormat rt site

def addSitesRoutes (gw : String) (mode : RouteMode) (c : SitesConnection Key Value Entry) :
    SitesConnection Key Value Entry :=
  let ips := knownIps rt (c.vpnSites mode)
  { c with
    router := r.routeAddList c.router gw ips
    pending := c.pending ++ (names rt (c.vpnSites mode)).map fun site => ⟨site, gw, mode, ips⟩ }

/-- The callback of a lookup takes the first IPv4 address. -/
def cbResolv (l : Lookup) (addresses : List QHostAddress) (c : SitesConnection Key Value Entry) :
    SitesConnection Key Value Entry :=
  match addresses.find? (·.protocol = .IPv4Protocol) with
  | some (.ipv4 a) =>
      if dotted a ∈ l.ips then c
      else { c with router := r.routeAddList c.router l.gw [dotted a] }.addVpnSite l.mode l.site
        (dotted a)
  | _ => c

variable (c : SitesConnection Key Value Entry)

def complete (completion : ℕ × List QHostAddress) : SitesConnection Key Value Entry :=
  match c.pending[completion.1]? with
  | none => c
  | some l => cbResolv r l completion.2 { c with pending := c.pending.eraseIdx completion.1 }

def completeAll (completions : List (ℕ × List QHostAddress)) :
    SitesConnection Key Value Entry := completions.foldl (complete r) c

/-- The part of `disconnectFromVpn` before the protocol is dropped. -/
def disconnectFromVpn : SitesConnection Key Value Entry :=
  { c with router := r.clearSavedRoutes c.router }

omit [DecidableEq Key] in
theorem router_addVpnSite (mode : RouteMode) (site ip : String)
    (c : SitesConnection Key Value Entry) : (c.addVpnSite mode site ip).router = c.router := by
  unfold addVpnSite
  dsimp only
  split_ifs <;> rfl

theorem extends_cbResolv (l : Lookup) (addresses : List QHostAddress)
    (c : SitesConnection Key Value Entry) :
    Extends r.rules c.router (cbResolv r l addresses c).router := by
  unfold cbResolv
  split
  · split_ifs
    · exact Extends.refl _
    · rw [router_addVpnSite]
      exact Extends.addAll _ _
  · exact Extends.refl _

theorem extends_complete (completion : ℕ × List QHostAddress) :
    Extends r.rules c.router (complete r c completion).router := by
  unfold complete
  split
  · exact Extends.refl _
  · exact extends_cbResolv r _ _ { c with pending := c.pending.eraseIdx completion.1 }

theorem extends_completeAll (completions : List (ℕ × List QHostAddress)) :
    Extends r.rules c.router (completeAll r c completions).router := by
  induction completions generalizing c with
  | nil => exact Extends.refl _
  | cons completion completions ih => exact (extends_complete r c completion).trans (ih _)

def lookupRoutes (completion : ℕ × List QHostAddress) : List Entry :=
  match c.pending[completion.1]? with
  | none => []
  | some l =>
      match completion.2.find? (·.protocol = .IPv4Protocol) with
      | some (.ipv4 a) =>
          if dotted a ∈ l.ips then [] else r.candidates c.router.table l.gw [dotted a]
      | _ => []

def Idle (tunnel : Key → Bool) :
    SitesConnection Key Value Entry → List (ℕ × List QHostAddress) → Prop
  | _, [] => True
  | c, completion :: completions =>
      (∀ e ∈ lookupRoutes r c completion, attempt r.rules c.router.table e = .added →
        tunnel (r.rules.key e) = true) ∧
      Idle tunnel (complete r c completion) completions

theorem router_complete (completion : ℕ × List QHostAddress) :
    (complete r c completion).router = addAll r.rules c.router (lookupRoutes r c completion) := by
  unfold complete lookupRoutes
  cases c.pending[completion.1]? with
  | none => rfl
  | some l =>
    dsimp only
    unfold cbResolv
    split
    · split_ifs
      · rfl
      · rw [router_addVpnSite]
        rfl
    · rfl

end SitesConnection

def Added {Key Value : Type} (tunnel : Key → Bool) (before after : Table Key Value) (k : Key) :
    Prop := tunnel k = false ∧ before k = none ∧ after k ≠ none

section Added

open SitesConnection

variable {Key Value Entry : Type} [DecidableEq Key] {R : Rules Key Value Entry}
  {r : Router Key Value Entry} {tunnel : Key → Bool}

variable {s : State Key Value Entry}

omit [DecidableEq Key] in
theorem not_added_trans_iff {s' s'' : State Key Value Entry} (h : Extends R s s')
    (h' : Extends R s' s'') :
    (∀ k, ¬ Added tunnel s.table s''.table k) ↔
      (∀ k, ¬ Added tunnel s.table s'.table k) ∧ ∀ k, ¬ Added tunnel s'.table s''.table k := by
  constructor
  · intro hnone
    constructor
    · rintro k ⟨htunnel, hbefore, hafter⟩
      exact hnone k ⟨htunnel, hbefore, h'.kept k hafter ▸ hafter⟩
    · rintro k ⟨htunnel, hbefore, hafter⟩
      refine hnone k ⟨htunnel, ?_, hafter⟩
      by_contra hne
      exact hne (h.kept k hne ▸ hbefore)
  · rintro ⟨hfirst, hsecond⟩ k ⟨htunnel, hbefore, hafter⟩
    by_cases hbetween : s'.table k = none
    · exact hsecond k ⟨htunnel, hbetween, hafter⟩
    · exact hfirst k ⟨htunnel, hbefore, hbetween⟩

theorem not_added_add_iff {e : Entry} :
    (∀ k, ¬ Added tunnel s.table (add R s e).table k) ↔
      (attempt R s.table e = .added → tunnel (R.key e) = true) := by
  constructor
  · intro hnone hadded
    by_contra htunnel
    exact hnone (R.key e) ⟨by simpa using htunnel, (attempt_eq_added.mp hadded).1,
      insert_self_of_added hadded⟩
  · rintro htunnel k ⟨hk, hbefore, hafter⟩
    by_cases hadded : attempt R s.table e = .added
    · by_cases hkey : k = R.key e
      · rw [hkey, htunnel hadded] at hk
        cases hk
      · exact hafter ((insert_of_ne hkey).trans hbefore)
    · exact hafter ((congrFun (if_neg hadded) k).trans hbefore)

theorem not_added_addAll_iff {es : List Entry} (h : es.length ≤ 1) :
    (∀ k, ¬ Added tunnel s.table (addAll R s es).table k) ↔
      ∀ e ∈ es, attempt R s.table e = .added → tunnel (R.key e) = true := by
  match es, h with
  | [], _ => exact ⟨fun _ e he => absurd he not_mem_nil, fun _ k hk => hk.2.2 hk.2.1⟩
  | [e], _ =>
    rw [forall_mem_singleton]
    exact not_added_add_iff

omit [DecidableEq Key] in
theorem length_lookupRoutes_le (h : ∀ table gw ip, (r.candidates table gw [ip]).length ≤ 1)
    (c : SitesConnection Key Value Entry) (completion : ℕ × List QHostAddress) :
    (lookupRoutes r c completion).length ≤ 1 := by
  unfold lookupRoutes
  split
  · exact Nat.zero_le 1
  · split
    · split_ifs
      · exact Nat.zero_le 1
      · exact h _ _ _
    · exact Nat.zero_le 1

theorem not_added_completeAll_iff (h : ∀ table gw ip, (r.candidates table gw [ip]).length ≤ 1)
    (c : SitesConnection Key Value Entry) (completions : List (ℕ × List QHostAddress)) :
    (∀ k, ¬ Added tunnel c.router.table (completeAll r c completions).router.table k) ↔
      Idle r tunnel c completions := by
  induction completions generalizing c with
  | nil => exact ⟨fun _ => trivial, fun _ k hk => hk.2.2 hk.2.1⟩
  | cons completion completions ih =>
    have hstep := extends_complete r c completion
    have hrest := extends_completeAll r (complete r c completion) completions
    refine (not_added_trans_iff hstep hrest).trans (and_congr ?_ (ih _))
    rw [router_complete]
    exact not_added_addAll_iff (length_lookupRoutes_le h c completion)

end Added

inductive Desktop
  | linux | macos | windows

namespace Desktop

def Key : Desktop → Type
  | linux => UInt32 × UInt32 × UInt32
  | macos => UInt32 × UInt32
  | windows => WindowsKey

def Entry : Desktop → Type
  | linux => SavedRoute
  | macos => SavedRoute
  | windows => MibIpForwardRow

instance : (platform : Desktop) → DecidableEq platform.Key
  | linux => inferInstanceAs (DecidableEq (UInt32 × UInt32 × UInt32))
  | macos => inferInstanceAs (DecidableEq (UInt32 × UInt32))
  | windows => inferInstanceAs (DecidableEq WindowsKey)

structure Systems (Value : Type) where
  linux : RoutingSystem (UInt32 × UInt32 × UInt32) Value SavedRoute
  macos : RoutingSystem (UInt32 × UInt32) Value SavedRoute
  windows : WindowsRouting Value

def router {Value : Type} (rt : RouterRuntime) (systems : Systems Value) :
    (platform : Desktop) → Router platform.Key Value platform.Entry
  | linux => routerLinux rt systems.linux
  | macos => routerMac rt systems.macos
  | windows => routerWin rt systems.windows

theorem length_candidates_le {Value : Type} (rt : RouterRuntime) (systems : Systems Value)
    (platform : Desktop) (table : Table platform.Key Value) (gw ip : String) :
    ((platform.router rt systems).candidates table gw [ip]).length ≤ 1 := by
  cases platform with
  | linux => exact length_filter_le _ _
  | macos => exact length_filter_le _ _
  | windows =>
    change ((routerWin rt systems.windows).candidates table gw [ip]).length ≤ 1
    unfold routerWin
    dsimp only
    split_ifs
    · exact Nat.zero_le 1
    · split
      · exact Nat.zero_le 1
      · rw [length_map]
        exact length_filter_le _ _

end Desktop

section Disconnect

open SitesConnection

variable {Value : Type} (rt : RouterRuntime) (systems : Desktop.Systems Value) (platform : Desktop)

/-- No site route remains if clearing deletes those added and no later lookup adds one. -/
theorem siteRoutes_removed_iff (tunnel : platform.Key → Bool)
    (c : SitesConnection platform.Key Value platform.Entry) (gw : String) (mode : RouteMode)
    (earlier later : List (ℕ × List QHostAddress)) :
    let r := platform.router rt systems
    let connected := completeAll r (addSitesRoutes rt r gw mode c) earlier
    let disconnected := disconnectFromVpn r connected
    let completed := completeAll r disconnected later
    (∀ k, Added tunnel c.router.table connected.router.table k ∨
        Added tunnel disconnected.router.table completed.router.table k →
      completed.router.table k = none) ↔
    (∀ k, Added tunnel c.router.table connected.router.table k →
      Deleted r.rules connected.router.log k) ∧
    Idle r tunnel disconnected later := by
  intro r connected disconnected completed
  have hlater : Extends r.rules disconnected.router completed.router :=
    extends_completeAll r disconnected later
  rw [← not_added_completeAll_iff (Desktop.length_candidates_le rt systems platform)]
  constructor
  · intro hremoved
    refine ⟨?_, fun k hadded => hadded.2.2 (hremoved k (Or.inr hadded))⟩
    intro k hadded
    by_contra hdeleted
    have hleft : disconnected.router.table k = connected.router.table k :=
      clear_of_not_deleted hdeleted
    have hkept := hlater.kept k (hleft ▸ hadded.2.2)
    exact hadded.2.2 (hleft ▸ hkept ▸ hremoved k (Or.inl hadded))
  · rintro ⟨hdeleted, hnone⟩ k (hadded | hadded)
    · have hgone : disconnected.router.table k = none := clear_of_deleted (hdeleted k hadded)
      by_contra hback
      exact hnone k ⟨hadded.1, hgone, hback⟩
    · exact absurd hadded (hnone k)

/-- The site `example.org` is looked up, the connection is ended and the lookup completes. -/
theorem siteRoute_left_behind :
    let r := routerLinux fewRoutes (acceptsAll _ _)
    let c : SitesConnection (UInt32 × UInt32 × UInt32) Unit SavedRoute :=
      ⟨⟨fun _ => none, []⟩, [], fun _ => [("example.org", "")]⟩
    let connected := addSitesRoutes fewRoutes r "192.168.1.1" .vpnAllExceptSites c
    let completed := completeAll r (disconnectFromVpn r connected) [(0, [.ipv4 0x01010101])]
    completed.pending.length = 0 ∧
      completed.router.table (0x01010101, 0xffffffff, 0xc0a80101) = some () := by
  decide +kernel

end Disconnect

end AmneziaVpn
