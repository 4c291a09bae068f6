import AmneziaVpn.BacktrackingRegex
import AmneziaVpn.QtStringLists
import AmneziaVpn.SiteRoutes

/-!
# Sites that are added and removed while connected

A site is removed together with the route to the text that it is listed under, which for a name is
not the route that was added.
-/

namespace AmneziaVpn

open UndoLog Settings NetworkUtilities BacktrackingRegex List

namespace NetworkUtilities

def between (first last : Char) : Regex := .cls fun c => first ≤ c && c ≤ last

def char (c : Char) : Regex := .cls (· == c)

/-- `25[0-5]|2[0-4][0-9]|1[0-9][0-9]|[1-9][0-9]|[0-9]` -/
def octet : Regex :=
  .alt (.seq (char '2') (.seq (char '5') (between '0' '5')))
    (.alt (.seq (char '2') (.seq (between '0' '4') (between '0' '9')))
      (.alt (.seq (char '1') (.seq (between '0' '9') (between '0' '9')))
        (.alt (.seq (between '1' '9') (between '0' '9')) (between '0' '9'))))

def ipAddressWithSubnetRegExp : Regex :=
  let part := .seq octet (char '.')
  .seq part (.seq part (.seq part (.seq octet
    (.opt (.group 1 (.seq (char '/') (.seq (between '0' '9') (.opt (between '0' '9')))))))))

def exactMatch (r : Regex) (s : String) : Bool :=
  (run r (.start [] s.toList) fun q => if q.after = [] then some q else none).isSome

end NetworkUtilities

section Deleting

variable (rt : RouterRuntime) {Value : Type}

/-- `ipMap` of `RouterWin::routeDeleteList`, with the mask for each address. -/
def ipMap (ips : List String) : UInt32 → Option UInt32 :=
  ips.foldl (fun map ipMask =>
    if ipMask = "" ∨ ipAddressFromIpWithSubnet ipMask = "" then map
    else Function.update map (rt.inet_addr (ipAddressFromIpWithSubnet ipMask))
      (some (rt.inet_addr (netMaskFromIpWithSubnet rt ipMask)))) fun _ => none

namespace Desktop

variable (systems : Systems Value)

/-- On Windows the interface of a row does not matter. -/
def routeDeleteList : (platform : Desktop) → Table platform.Key Value →
    String → List String → Table platform.Key Value
  | linux, table, gw, ips =>
      (ips.map fun ip => ⟨ip, gw⟩).foldl (erase (routerLinux rt systems.linux).rules) table
  | macos, table, gw, ips =>
      (ips.map fun ip => ⟨ip, gw⟩).foldl (erase (routerMac rt systems.macos).rules) table
  | windows, table, gw, ips => fun (row : WindowsKey) =>
      if ipMap rt ips row.1 = some row.2.1 ∧ row.2.2.1 = rt.inet_addr gw then none else table row

def Deletes : (platform : Desktop) → String → String → platform.Key → Prop
  | linux, gw, ip, k => SavedRoute.exempt rt ⟨ip, gw⟩ = false ∧
      (routerLinux rt systems.linux).rules.key ⟨ip, gw⟩ = k
  | macos, gw, ip, k => SavedRoute.exempt rt ⟨ip, gw⟩ = false ∧
      (routerMac rt systems.macos).rules.key ⟨ip, gw⟩ = k
  | windows, gw, ip, (dest, mask, nextHop, _) => ipAddressFromIpWithSubnet ip ≠ "" ∧
      dest = rt.inet_addr (ipAddressFromIpWithSubnet ip) ∧
      mask = rt.inet_addr (netMaskFromIpWithSubnet rt ip) ∧ nextHop = rt.inet_addr gw

end Desktop

end Deleting

/-- What `VpnConnection` knows when routes are added or deleted. -/
structure VpnLink where
  connected : Bool
  routeMode : RouteMode
  vpnGateway : String
  routeGateway : String

def VpnLink.gateway (link : VpnLink) : Option String :=
  if link.connected = false then none
  else
    match link.routeMode with
    | .vpnOnlyForwardSites => some link.vpnGateway
    | .vpnAllExceptSites => some link.routeGateway
    | .vpnAllSites => none

/-- The sites as they are listed, with what the connection and the settings hold. -/
structure Sites (platform : Desktop) (Value : Type) where
  connection : SitesConnection platform.Key Value platform.Entry
  m_sites : List (String × String)

namespace Sites

variable (rt : RouterRuntime) {Value : Type} (systems : Desktop.Systems Value) {platform : Desktop}
  (link : VpnLink)

abbrev table (s : Sites platform Value) : Table platform.Key Value := s.connection.router.table

variable (ips : List String)

def addRoutes (s : Sites platform Value) : Sites platform Value :=
  match link.gateway with
  | none => s
  | some gw => { s with connection := { s.connection with
      router := (platform.router rt systems).routeAddList s.connection.router gw ips } }

def deleteRoutes (s : Sites platform Value) : Sites platform Value :=
  match link.gateway with
  | none => s
  | some gw => { s with connection := { s.connection with
      router := { s.connection.router with
        table := platform.routeDeleteList rt systems s.table gw ips } } }

/-- The loop of `SitesModel::addSite` with the row that it changes or appends. -/
def addRow (hostname ip : String) : List (String × String) → List (String × String)
  | [] => [(hostname, ip)]
  | row :: rows =>
      if row.1 = hostname ∧ row.2 = "" ∧ ip ≠ "" then (row.1, ip) :: rows
      else if row.1 = hostname ∧ row.2 = ip then row :: rows
      else row :: addRow hostname ip rows

def modelAddSite (hostname ip : String) (s : Sites platform Value) : Sites platform Value :=
  if ((s.connection.vpnSites link.routeMode).lookup hostname).isSome ∧ ip = "" then s
  else
    { connection := s.connection.addVpnSite link.routeMode hostname ip
      m_sites := addRow hostname ip s.m_sites }

def processSite (hostname ip : String) (s : Sites platform Value) : Sites platform Value :=
  let s := modelAddSite link hostname ip s
  if ip ≠ "" then addRoutes rt systems link [ip] s
  else if exactMatch ipAddressWithSubnetRegExp hostname then addRoutes rt systems link [hostname] s
  else s

def siteName (hostname : String) : String :=
  if exactMatch ipAddressWithSubnetRegExp hostname then hostname
  else
    let hostname := QString.replace hostname "https://" ""
    let hostname := QString.replace hostname "http://" ""
    let hostname := QString.replace hostname "ftp://" ""
    (QString.splitSkipEmpty hostname "/").headD ""

/-- With the name whose lookup is started, if there is one. -/
def addSite (hostname : String) (s : Sites platform Value) : Sites platform Value × Option String :=
  if hostname = "" then (s, none)
  else if QString.contains hostname "." = false then (s, none)
  else
    let hostname := siteName hostname
    if exactMatch ipAddressWithSubnetRegExp hostname then
      (processSite rt systems link hostname "" s, none)
    else (processSite rt systems link hostname "" s, some hostname)

def resolveCallback (hostname : String) (addresses : List QHostAddress) (s : Sites platform Value) :
    Sites platform Value :=
  match addresses.find? (·.protocol = .IPv4Protocol) with
  | some (.ipv4 a) => processSite rt systems link hostname (dotted a) s
  | _ => s

/-- There is no row behind the last one. -/
def removeSite (index : ℕ) (s : Sites platform Value) : Option (Sites platform Value) :=
  match s.m_sites[index]? with
  | none => none
  | some (hostname, _) => some (deleteRoutes rt systems link [hostname]
      { connection := { s.connection with
          vpnSites := Function.update s.connection.vpnSites link.routeMode
            ((s.connection.vpnSites link.routeMode).filter (·.1 ≠ hostname)) }
        m_sites := s.m_sites.eraseIdx index })

/-- When the lookup that adding a site has started completes. -/
inductive Answer
  | never
  | beforeRemoval (addresses : List QHostAddress)
  | afterRemoval (addresses : List QHostAddress)

def added (hostname : String) (answer : Answer) (s : Sites platform Value) : Sites platform Value :=
  let (s, lookup) := addSite rt systems link hostname s
  match lookup, answer with
  | some name, .beforeRemoval addresses => resolveCallback rt systems link name addresses s
  | _, _ => s

def settled (hostname : String) (answer : Answer) (before removed : Sites platform Value) :
    Sites platform Value :=
  match (addSite rt systems link hostname before).2, answer with
  | some name, .afterRemoval addresses => resolveCallback rt systems link name addresses removed
  | _, _ => removed

def resolved (addresses : List QHostAddress) : Option String :=
  match addresses.find? (·.protocol = .IPv4Protocol) with
  | some (.ipv4 a) => some (dotted a)
  | _ => none

variable (site : String)

def routeBefore (answer : Answer) : Option String :=
  if exactMatch ipAddressWithSubnetRegExp site then some site
  else
    match answer with
    | .beforeRemoval addresses => resolved addresses
    | _ => none

def routeAfter (answer : Answer) : Option String :=
  if exactMatch ipAddressWithSubnetRegExp site then none
  else
    match answer with
    | .afterRemoval addresses => resolved addresses
    | _ => none

def Adds (table : Table platform.Key Value) (route : Option String) (k : platform.Key) : Prop :=
  ∃ gw ip, link.gateway = some gw ∧ route = some ip ∧
    ∃ e ∈ (platform.router rt systems).candidates table gw [ip],
      attempt (platform.router rt systems).rules table e = .added ∧
        (platform.router rt systems).rules.key e = k

def DeletedWith (k : platform.Key) : Prop :=
  ∃ gw, link.gateway = some gw ∧ platform.Deletes rt systems gw site k

end Sites

/-- Where some keys are new and the others are as they were. -/
structure Installed {Key Value : Type} (added : Key → Prop) (before after : Table Key Value) : Prop where
  other : ∀ k, ¬ added k → after k = before k
  new : ∀ k, added k → before k = none ∧ after k ≠ none

section Installed

variable {Key Value Entry : Type} {A D : Key → Prop} {t t' t'' : Table Key Value}

theorem Installed.refl (h : ∀ k, ¬ A k) : Installed A t t :=
  ⟨fun _ _ => rfl, fun k hk => absurd hk (h k)⟩

theorem Installed.eq_iff (h : Installed A t t') : t' = t ↔ ∀ k, ¬ A k := by
  constructor
  · intro heq k hk
    obtain ⟨hnone, hsome⟩ := h.new k hk
    exact hsome (heq ▸ hnone)
  · exact fun hnone => funext fun k => h.other k (hnone k)

/-- Deleting undoes adding if all that is new is deleted, and nothing else. -/
theorem Installed.undone_iff (h : Installed A t t') (hdeleted : ∀ k, D k → t'' k = none)
    (hkept : ∀ k, ¬ D k → t'' k = t' k) :
    t'' = t ↔ (∀ k, D k → t k = none) ∧ ∀ k, A k → D k := by
  constructor
  · intro heq
    constructor
    · intro k hk
      rw [← heq, hdeleted k hk]
    · intro k hk
      by_contra hleft
      obtain ⟨hnone, hsome⟩ := h.new k hk
      apply hsome
      rw [← hkept k hleft, heq, hnone]
  · rintro ⟨hfree, hgone⟩
    funext k
    by_cases hk : D k
    · rw [hdeleted k hk, hfree k hk]
    · rw [hkept k hk, h.other k fun hadded => hk (hgone k hadded)]

theorem installed_addAll [DecidableEq Key] {R : Rules Key Value Entry} {s : State Key Value Entry}
    {es : List Entry} (hlen : es.length ≤ 1) :
    Installed (fun k => ∃ e ∈ es, attempt R s.table e = .added ∧ R.key e = k) s.table
      (addAll R s es).table := by
  match es, hlen with
  | [], _ => exact Installed.refl (by simp)
  | [e], _ =>
    constructor
    · intro k hk
      by_cases hkey : k = R.key e
      · have hadded : attempt R s.table e ≠ .added := fun hadded => hk ⟨e, by simp, hadded, hkey.symm⟩
        exact congrFun (if_neg hadded) k
      · exact insert_of_ne hkey
    · rintro k ⟨e', he', hadded, rfl⟩
      obtain rfl := mem_singleton.mp he'
      exact ⟨(attempt_eq_added.mp hadded).1, insert_self_of_added hadded⟩

theorem erase_apply [DecidableEq Key] (R : Rules Key Value Entry) (t : Table Key Value) (e : Entry)
    (k : Key) : (R.exempt e = false ∧ R.key e = k → erase R t e k = none) ∧
      (¬ (R.exempt e = false ∧ R.key e = k) → erase R t e k = t k) := by
  have h := @foldl_erase Key Value Entry _ R [e] t k
  simpa only [Deleted, mem_singleton, exists_eq_left, foldl_cons, foldl_nil] using h

end Installed

namespace Desktop

variable {rt : RouterRuntime} {Value : Type} {systems : Systems Value}

theorem ipMap_singleton (ip : String) (address mask : UInt32) :
    ipMap rt [ip] address = some mask ↔ ipAddressFromIpWithSubnet ip ≠ "" ∧
      address = rt.inet_addr (ipAddressFromIpWithSubnet ip) ∧
      mask = rt.inet_addr (netMaskFromIpWithSubnet rt ip) := by
  have hempty : ip = "" → ipAddressFromIpWithSubnet ip = "" := by
    rintro rfl
    rfl
  rw [ipMap, foldl_cons, foldl_nil]
  split_ifs with hskip
  · have hnone : ipAddressFromIpWithSubnet ip = "" := hskip.elim hempty id
    simp [hnone]
  · rw [not_or] at hskip
    by_cases haddress : address = rt.inet_addr (ipAddressFromIpWithSubnet ip)
    · rw [haddress, Function.update_self]
      simp [hskip.2, eq_comm]
    · rw [Function.update_of_ne haddress]
      simp [haddress]

theorem routeDeleteList_apply (platform : Desktop) (table : Table platform.Key Value) (gw ip : String)
    (k : platform.Key) :
    (platform.Deletes rt systems gw ip k →
      platform.routeDeleteList rt systems table gw [ip] k = none) ∧
    (¬ platform.Deletes rt systems gw ip k →
      platform.routeDeleteList rt systems table gw [ip] k = table k) := by
  cases platform with
  | linux => exact erase_apply (routerLinux rt systems.linux).rules table ⟨ip, gw⟩ k
  | macos => exact erase_apply (routerMac rt systems.macos).rules table ⟨ip, gw⟩ k
  | windows =>
    obtain ⟨dest, mask, nextHop, index⟩ := k
    have hiff : (ipMap rt [ip] dest = some mask ∧ nextHop = rt.inet_addr gw) ↔
        windows.Deletes rt systems gw ip (dest, mask, nextHop, index) := by
      rw [ipMap_singleton, and_assoc, and_assoc]
      rfl
    constructor
    · exact fun h => if_pos (hiff.mpr h)
    · exact fun h => if_neg fun hrow => h (hiff.mp hrow)

end Desktop

namespace Sites

section Tables

variable {rt : RouterRuntime} {Value : Type} {systems : Desktop.Systems Value} {platform : Desktop}
  {link : VpnLink} {s : Sites platform Value} {hostname ip site : String} {answer : Answer}

theorem table_modelAddSite : (modelAddSite link hostname ip s).table = s.table := by
  unfold modelAddSite
  split_ifs
  · rfl
  · exact congrArg State.table (SitesConnection.router_addVpnSite _ _ _ _)

theorem not_adds_none (table : Table platform.Key Value) (k : platform.Key) :
    ¬ Adds rt systems link table none k := by
  rintro ⟨gw, ip, -, hroute, -⟩
  cases hroute

theorem installed_addRoutes : Installed (Adds rt systems link s.table (some ip)) s.table
    (addRoutes rt systems link [ip] s).table := by
  unfold addRoutes
  split
  · rename_i hgateway
    apply Installed.refl
    rintro k ⟨gw, ip, hgw, -⟩
    exact absurd (hgateway.symm.trans hgw) (by simp)
  · rename_i gw hgateway
    have hinstalled := installed_addAll (R := (platform.router rt systems).rules)
      (s := s.connection.router) (platform.length_candidates_le rt systems s.table gw ip)
    have hiff (k : platform.Key) : Adds rt systems link s.table (some ip) k ↔
        ∃ e ∈ (platform.router rt systems).candidates s.table gw [ip],
          attempt (platform.router rt systems).rules s.table e = .added ∧
            (platform.router rt systems).rules.key e = k := by
      constructor
      · rintro ⟨gw', ip', hgw', hip', hadds⟩
        obtain rfl := Option.some.inj (hgateway.symm.trans hgw')
        obtain rfl := Option.some.inj hip'
        exact hadds
      · exact fun hadds => ⟨gw, ip, hgateway, rfl, hadds⟩
    exact ⟨fun k hk => hinstalled.other k fun h => hk ((hiff k).mpr h),
      fun k hk => hinstalled.new k ((hiff k).mp hk)⟩

def processed (hostname ip : String) : Option String :=
  if ip ≠ "" then some ip
  else if exactMatch ipAddressWithSubnetRegExp hostname then some hostname
  else none

theorem installed_processSite : Installed (Adds rt systems link s.table (processed hostname ip)) s.table
    (processSite rt systems link hostname ip s).table := by
  have htable := @table_modelAddSite Value platform link s hostname ip
  unfold processSite processed
  dsimp only
  split_ifs
  · rw [← htable]
    exact installed_addRoutes
  · rw [← htable]
    exact installed_addRoutes
  · rw [htable]
    exact Installed.refl (not_adds_none _)

theorem dotted_ne_empty (a : UInt32) : dotted a ≠ "" := by
  intro h
  have hlength := congrArg String.length h
  simp [dotted] at hlength

theorem installed_resolveCallback (addresses : List QHostAddress) :
    Installed (Adds rt systems link s.table (resolved addresses)) s.table
      (resolveCallback rt systems link hostname addresses s).table := by
  unfold resolveCallback resolved
  split
  · rename_i a _
    have hprocessed : processed hostname (dotted a) = some (dotted a) := if_pos (dotted_ne_empty a)
    rw [← hprocessed]
    exact installed_processSite
  · exact Installed.refl (not_adds_none _)

def Accepted (hostname : String) : Prop := hostname ≠ "" ∧ QString.contains hostname "." = true

theorem addSite_of_accepted (h : Accepted hostname) : addSite rt systems link hostname s =
    (processSite rt systems link (siteName hostname) "" s,
      if exactMatch ipAddressWithSubnetRegExp (siteName hostname) then none
      else some (siteName hostname)) := by
  have hdot : ¬ QString.contains hostname "." = false := by rw [h.2]; simp
  rw [addSite, if_neg h.1, if_neg hdot]
  dsimp only
  split_ifs <;> rfl

theorem addSite_of_not_accepted (h : ¬ Accepted hostname) :
    addSite rt systems link hostname s = (s, none) := by
  unfold addSite
  split_ifs with hempty hdot
  · rfl
  · rfl
  · exact absurd ⟨hempty, by simpa using hdot⟩ h

theorem installed_added (h : Accepted hostname) :
    Installed (Adds rt systems link s.table (routeBefore (siteName hostname) answer)) s.table
      (added rt systems link hostname answer s).table := by
  have hprocess := @installed_processSite rt Value systems platform link s (siteName hostname) ""
  unfold added routeBefore
  rw [addSite_of_accepted h]
  dsimp only
  by_cases hmatch : exactMatch ipAddressWithSubnetRegExp (siteName hostname) = true
  · have hprocessed : processed (siteName hostname) "" = some (siteName hostname) := by
      rw [processed, if_neg (by simp), if_pos hmatch]
    rw [if_pos hmatch, if_pos hmatch, ← hprocessed]
    exact hprocess
  · have hprocessed : processed (siteName hostname) "" = none := by
      rw [processed, if_neg (by simp), if_neg hmatch]
    rw [hprocessed] at hprocess
    have htable := hprocess.eq_iff.mpr (not_adds_none _)
    rw [if_neg hmatch, if_neg hmatch, ← htable]
    cases answer with
    | never => exact Installed.refl (not_adds_none _)
    | beforeRemoval addresses => exact installed_resolveCallback addresses
    | afterRemoval addresses => exact Installed.refl (not_adds_none _)

theorem installed_settled (h : Accepted hostname) (removed : Sites platform Value) :
    Installed (Adds rt systems link removed.table (routeAfter (siteName hostname) answer)) removed.table
      (settled rt systems link hostname answer s removed).table := by
  unfold settled routeAfter
  rw [addSite_of_accepted h]
  by_cases hmatch : exactMatch ipAddressWithSubnetRegExp (siteName hostname) = true
  · rw [if_pos hmatch, if_pos hmatch]
    exact Installed.refl (not_adds_none _)
  · rw [if_neg hmatch, if_neg hmatch]
    cases answer with
    | never => exact Installed.refl (not_adds_none _)
    | beforeRemoval addresses => exact Installed.refl (not_adds_none _)
    | afterRemoval addresses => exact installed_resolveCallback addresses

theorem deleteRoutes_apply (k : platform.Key) :
    (DeletedWith rt systems link site k → (deleteRoutes rt systems link [site] s).table k = none) ∧
    (¬ DeletedWith rt systems link site k →
      (deleteRoutes rt systems link [site] s).table k = s.table k) := by
  unfold deleteRoutes DeletedWith
  cases link.gateway with
  | none => exact ⟨fun ⟨_, hgw, _⟩ => (by cases hgw), fun _ => rfl⟩
  | some gw =>
    simp only [Option.some.injEq, exists_eq_left']
    exact platform.routeDeleteList_apply s.table gw site k

/-- Apart from the text of the default route, the route to the site itself is deleted with it. -/
theorem deletedWith_of_adds {table : Table platform.Key Value} {k : platform.Key}
    (hsite : site ≠ "0.0.0.0/0") (h : Adds rt systems link table (some site) k) :
    DeletedWith rt systems link site k := by
  obtain ⟨gw, ip, hgw, hroute, e, he, -, rfl⟩ := h
  obtain rfl := Option.some.inj hroute
  refine ⟨gw, hgw, ?_⟩
  have hsaved {e : SavedRoute} (he : e ∈ SavedRoute.candidates rt gw [site]) :
      e = ⟨site, gw⟩ ∧ SavedRoute.exempt rt ⟨site, gw⟩ = false := by
    obtain ⟨hmem, hvalid⟩ := mem_filter.mp he
    obtain rfl : e = ⟨site, gw⟩ := mem_singleton.mp hmem
    exact ⟨rfl, (exempt_eq_false_iff rt hvalid).mpr hsite⟩
  cases platform with
  | linux =>
    obtain ⟨rfl, hexempt⟩ := hsaved he
    exact ⟨hexempt, rfl⟩
  | macos =>
    obtain ⟨rfl, hexempt⟩ := hsaved he
    exact ⟨hexempt, rfl⟩
  | windows =>
    change e ∈ (routerWin rt systems.windows).candidates table gw [site] at he
    unfold routerWin at he
    dsimp only at he
    split_ifs at he
    · exact absurd he not_mem_nil
    · split at he
      · exact absurd he not_mem_nil
      · obtain ⟨ip, hip, rfl⟩ := mem_map.mp he
        obtain ⟨hmem, hvalid⟩ := mem_filter.mp hip
        obtain rfl := mem_singleton.mp hmem
        refine ⟨?_, rfl, rfl, rfl⟩
        intro hempty
        rw [hempty] at hvalid
        cases hvalid

theorem routeBefore_of_match (h : exactMatch ipAddressWithSubnetRegExp site = true) :
    routeBefore site answer = some site := if_pos h

theorem routeAfter_of_match (h : exactMatch ipAddressWithSubnetRegExp site = true) :
    routeAfter site answer = none := if_pos h

/-- A removal undoes an addition if its routes were new and no lookup adds one later. -/
theorem removal_undoes_iff (hnew : ∀ row ∈ s.m_sites, row.1 ≠ siteName hostname) {index : ℕ}
    {ip : String} (hrow : (added rt systems link hostname answer s).m_sites[index]? =
      some (siteName hostname, ip)) :
    ∃ removed, removeSite rt systems link index (added rt systems link hostname answer s) =
        some removed ∧
      ((removed.table = s.table ∧
          (settled rt systems link hostname answer s removed).table = s.table) ↔
        (∀ k, DeletedWith rt systems link (siteName hostname) k → s.table k = none) ∧
        (∀ k, Adds rt systems link s.table (routeBefore (siteName hostname) answer) k →
          DeletedWith rt systems link (siteName hostname) k) ∧
        ∀ k, ¬ Adds rt systems link s.table (routeAfter (siteName hostname) answer) k) := by
  have haccepted : Accepted hostname := by
    by_contra hrefused
    rw [added, addSite_of_not_accepted hrefused] at hrow
    exact hnew _ (mem_of_getElem? hrow) rfl
  have hadded := @installed_added rt Value systems platform link s hostname answer haccepted
  rw [removeSite, hrow]
  refine ⟨_, rfl, ?_⟩
  generalize hremoved : deleteRoutes rt systems link [siteName hostname] _ = removed
  have hundone : removed.table = s.table ↔
      (∀ k, DeletedWith rt systems link (siteName hostname) k → s.table k = none) ∧
      ∀ k, Adds rt systems link s.table (routeBefore (siteName hostname) answer) k →
        DeletedWith rt systems link (siteName hostname) k := by
    rw [← hremoved]
    exact hadded.undone_iff (fun k => (deleteRoutes_apply k).1) (fun k => (deleteRoutes_apply k).2)
  have hsettled := @installed_settled rt Value systems platform link s hostname answer haccepted removed
  constructor
  · rintro ⟨hsame, hlater⟩
    obtain ⟨hfree, hgone⟩ := hundone.mp hsame
    rw [hsame] at hsettled
    exact ⟨hfree, hgone, hsettled.eq_iff.mp hlater⟩
  · rintro ⟨hfree, hgone, hnone⟩
    have hsame := hundone.mpr ⟨hfree, hgone⟩
    rw [hsame] at hsettled
    exact ⟨hsame, hsettled.eq_iff.mpr hnone⟩

end Tables

def exceptSites : VpnLink := ⟨true, .vpnAllExceptSites, "10.8.0.1", "192.168.1.1"⟩

def noSites : Sites .linux Unit := ⟨⟨⟨fun _ => none, []⟩, [], fun _ => []⟩, []⟩

def acceptingSystems : Desktop.Systems Unit := ⟨acceptsAll _ _, acceptsAll _ _, acceptsAllRows⟩

theorem removal_undoes_address :
    ∃ removed, removeSite fewRoutes acceptingSystems exceptSites 0
        (added fewRoutes acceptingSystems exceptSites "1.1.1.1" .never noSites) = some removed ∧
      removed.table = noSites.table := by
  have hsite : siteName "1.1.1.1" = "1.1.1.1" := by decide +kernel
  have hmatch : exactMatch ipAddressWithSubnetRegExp "1.1.1.1" = true := by decide +kernel
  have hrow : (added fewRoutes acceptingSystems exceptSites "1.1.1.1" .never noSites).m_sites[0]? =
      some (siteName "1.1.1.1", "") := by decide +kernel
  obtain ⟨removed, hremoved, hiff⟩ := removal_undoes_iff (by simp [noSites]) hrow
  refine ⟨removed, hremoved, (hiff.mpr ⟨fun _ _ => rfl, ?_, ?_⟩).1⟩
  · rw [hsite, routeBefore_of_match hmatch]
    exact fun k => deletedWith_of_adds (by decide)
  · rw [hsite, routeAfter_of_match hmatch]
    exact not_adds_none _

/-- The name `example.org` is added and resolved, and the site removed. Its route stays. -/
theorem name_route_left :
    (removeSite fewRoutes acceptingSystems exceptSites 0
      (added fewRoutes acceptingSystems exceptSites "https://example.org/" (.beforeRemoval [.ipv4 0x01010101])
        noSites)).map (fun removed => (removed.m_sites,
          (removed.table : Table (UInt32 × UInt32 × UInt32) Unit) (0x01010101, 0xffffffff, 0xc0a80101))) =
      some ([], some ()) ∧
    (noSites.table : Table (UInt32 × UInt32 × UInt32) Unit) (0x01010101, 0xffffffff, 0xc0a80101) =
      none := by
  decide +kernel

end Sites

end AmneziaVpn
