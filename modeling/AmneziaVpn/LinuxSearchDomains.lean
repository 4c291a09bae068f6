import AmneziaVpn.FallibleOps
import Mathlib.Data.List.AList

/-!
# Search domains on Linux

An update of the resolvers asks the resolver service for the search domains of all links.
-/

namespace AmneziaVpn

open FallibleOps List

structure DnsLinkDomain where
  domain : String
  search : Bool
deriving DecidableEq

abbrev LinkDomains := AList fun _ : ℕ => List DnsLinkDomain

/-- The calls of the service that concern the domains of links. -/
inductive ResolveCall
  | setLinkDomains (ifindex : ℕ) (domains : List DnsLinkDomain)
  | revertLink (ifindex : ℕ)
  | getDomains
deriving DecidableEq

/-- The links that the service knows and their domains, and the domains of no link. -/
structure ResolveService where
  links : List ℕ
  globals : List DnsLinkDomain
  domains : ℕ → List DnsLinkDomain
  nodup_links : links.Nodup
  positive_links : 0 ∉ links

namespace ResolveService

variable (r : ResolveService)

def snapshot : List (ℕ × DnsLinkDomain) :=
  r.globals.map (0, ·) ++ r.links.flatMap fun link => (r.domains link).map (link, ·)

/-- A link that does not exist is refused. -/
def set (link : ℕ) (domains : List DnsLinkDomain) : ResolveService :=
  if link ∈ r.links then { r with domains := Function.update r.domains link domains } else r

def handle : ResolveCall → ResolveService
  | .setLinkDomains ifindex domains => r.set ifindex domains
  | .revertLink ifindex => r.set ifindex []
  | .getDomains => r

end ResolveService

/-- A reply without a list is an error. -/
structure DnsUtilsLinux where
  m_ifindex : ℕ := 0
  m_linkDomains : LinkDomains := ∅
  service : ResolveService
  calls : List ResolveCall := []
  replies : List (Option (List (ℕ × DnsLinkDomain))) := []

namespace DnsUtilsLinux

def root : DnsLinkDomain := ⟨".", true⟩

/-- `ifindex` is what the name of the interface is resolved to. -/
def updateResolvers (ifindex : ℕ) : Op DnsUtilsLinux := fun d =>
  if ifindex = 0 then (false, { d with m_ifindex := 0 })
  else (true, { d with m_ifindex := ifindex, calls := d.calls ++ [.getDomains] })

variable (saved : LinkDomains)

def sendSaved : List ResolveCall :=
  saved.entries.map fun e => .setLinkDomains e.1 e.2

variable (d : DnsUtilsLinux)

def restoreResolvers : DnsUtilsLinux :=
  { d with
    m_linkDomains := ∅
    m_ifindex := 0
    calls := d.calls ++ sendSaved d.m_linkDomains ++
      if d.m_ifindex > 0 then [.revertLink d.m_ifindex] else [] }

def appendDomain (d : ℕ × DnsLinkDomain) : LinkDomains :=
  if d.1 = 0 then saved else saved.insert d.1 ((saved.lookup d.1).getD [] ++ [d.2])

def linkDomains (list : List (ℕ × DnsLinkDomain)) : LinkDomains := list.foldl appendDomain ∅

/-- The links that have the root domain, without it. -/
def dropRoot : List ResolveCall :=
  (saved.entries.filter fun e => root ∈ e.2).map fun e =>
    .setLinkDomains e.1 (e.2.filter (· ≠ root))

def dnsDomainsReceived : Option (List (ℕ × DnsLinkDomain)) → DnsUtilsLinux
  | none => d
  | some list =>
      { d with
        m_linkDomains := linkDomains list
        calls := d.calls ++ dropRoot (linkDomains list) ++ [.setLinkDomains d.m_ifindex [root]] }

def serve (fails : Bool) (d : DnsUtilsLinux) : DnsUtilsLinux :=
  match d.calls with
  | [] => d
  | .getDomains :: calls =>
      { d with calls, replies := d.replies ++ [if fails then none else some d.service.snapshot] }
  | call :: calls => { d with calls, service := d.service.handle call }

def receive (k : ℕ) (d : DnsUtilsLinux) : DnsUtilsLinux :=
  match d.replies[k]? with
  | none => d
  | some reply => dnsDomainsReceived { d with replies := d.replies.eraseIdx k } reply

inductive Event
  | update (ifindex : ℕ)
  | restore
  | serve (fails : Bool)
  | receive (k : ℕ)
deriving DecidableEq

def step : Event → DnsUtilsLinux
  | .update ifindex => (updateResolvers ifindex d).2
  | .restore => restoreResolvers d
  | .serve fails => serve fails d
  | .receive k => receive k d

def run (events : List Event) (d : DnsUtilsLinux) : DnsUtilsLinux := events.foldl step d

def Settled : Prop := d.calls = [] ∧ d.replies = []

def Event.IsAsynchronous : Event → Prop
  | .update _ | .restore => False
  | .serve _ | .receive _ => True

/-- A run that ends with a restore leaves the links as they were. -/
def Restores : Prop :=
  ∀ events later, (∀ event ∈ later, event.IsAsynchronous) →
    Settled (run (events ++ .restore :: later) d) →
    ∀ link ∈ d.service.links, .update link ∉ events →
      (run (events ++ .restore :: later) d).service.domains link = d.service.domains link

def domainsOf (link : ℕ) (list : List (ℕ × DnsLinkDomain)) : List DnsLinkDomain :=
  (list.filter (·.1 = link)).map (·.2)

theorem domainsOf_append (link : ℕ) (list list' : List (ℕ × DnsLinkDomain)) :
    domainsOf link (list ++ list') = domainsOf link list ++ domainsOf link list' := by
  unfold domainsOf
  rw [filter_append, map_append]

theorem domainsOf_map_same (link : ℕ) (domains : List DnsLinkDomain) :
    domainsOf link (domains.map (link, ·)) = domains := by
  unfold domainsOf
  induction domains with
  | nil => rfl
  | cons d domains ih => simpa using ih

variable {link : ℕ}

theorem domainsOf_map_other {other : ℕ} (h : other ≠ link) (domains : List DnsLinkDomain) :
    domainsOf link (domains.map (other, ·)) = [] := by
  unfold domainsOf
  simp [h]

theorem domainsOf_flatMap {links : List ℕ} (hnodup : links.Nodup) (h : link ∈ links)
    (domains : ℕ → List DnsLinkDomain) :
    domainsOf link (links.flatMap fun l => (domains l).map (l, ·)) = domains link := by
  have habsent : ∀ links : List ℕ, link ∉ links →
      domainsOf link (links.flatMap fun l => (domains l).map (l, ·)) = [] := by
    intro links hlinks
    induction links with
    | nil => rfl
    | cons l links ih =>
      obtain ⟨hl, hrest⟩ := not_or.mp (mt mem_cons.mpr hlinks)
      rw [flatMap_cons, domainsOf_append, domainsOf_map_other (Ne.symm hl), ih hrest]
      rfl
  induction links with
  | nil => exact absurd h not_mem_nil
  | cons l links ih =>
    obtain ⟨hl, hnodup⟩ := nodup_cons.mp hnodup
    rw [flatMap_cons, domainsOf_append]
    rcases mem_cons.mp h with rfl | hmem
    · rw [domainsOf_map_same, habsent links hl, append_nil]
    · have hne : l ≠ link := fun heq => hl (heq ▸ hmem)
      rw [domainsOf_map_other hne, ih hnodup hmem, nil_append]

theorem domainsOf_snapshot (r : ResolveService) (h : link ∈ r.links) :
    domainsOf link r.snapshot = r.domains link := by
  have hzero : 0 ≠ link := fun heq => r.positive_links (heq ▸ h)
  rw [ResolveService.snapshot, domainsOf_append, domainsOf_map_other hzero,
    domainsOf_flatMap r.nodup_links h, nil_append]

theorem lookup_foldl_appendDomain (h : link ≠ 0) (list : List (ℕ × DnsLinkDomain))
    (saved : LinkDomains) :
    ((list.foldl appendDomain saved).lookup link).getD [] =
      (saved.lookup link).getD [] ++ domainsOf link list := by
  induction list generalizing saved with
  | nil => simp [domainsOf]
  | cons d list ih =>
    have hcons : domainsOf link (d :: list) = domainsOf link [d] ++ domainsOf link list :=
      domainsOf_append link [d] list
    rw [foldl_cons, ih, hcons, ← append_assoc]
    congr 1
    unfold appendDomain
    by_cases hzero : d.1 = 0
    · simp [hzero, domainsOf, h.symm]
    · rw [if_neg hzero]
      by_cases hlink : d.1 = link
      · subst hlink
        simp [domainsOf]
      · rw [AList.lookup_insert_ne (Ne.symm hlink)]
        simp [domainsOf, hlink]

theorem lookup_linkDomains (h : link ≠ 0) (list : List (ℕ × DnsLinkDomain)) :
    ((linkDomains list).lookup link).getD [] = domainsOf link list :=
  lookup_foldl_appendDomain h list ∅

section Untouched

variable {link : ℕ} {domains : List DnsLinkDomain}

/-- Whatever is under way, the link gets the domains it has. -/
structure Untouched (link : ℕ) (domains : List DnsLinkDomain) (d : DnsUtilsLinux) : Prop where
  known : link ∈ d.service.links
  current : d.service.domains link = domains
  sent : ∀ ds, .setLinkDomains link ds ∈ d.calls → ds = domains
  unreverted : .revertLink link ∉ d.calls
  saved : ∀ ds, d.m_linkDomains.lookup link = some ds → ds = domains
  reported : ∀ list, some list ∈ d.replies → domainsOf link list = domains
  other : d.m_ifindex ≠ link

variable (r : ResolveService)

theorem domains_set_of_ne {other : ℕ} (h : link ≠ other) (ds : List DnsLinkDomain) :
    (r.set other ds).domains link = r.domains link := by
  unfold ResolveService.set
  split_ifs
  · exact Function.update_of_ne h ds r.domains
  · rfl

theorem domains_set_self (h : link ∈ r.links) (ds : List DnsLinkDomain) :
    (r.set link ds).domains link = ds := by
  rw [ResolveService.set, if_pos h]
  exact Function.update_self link ds r.domains

@[simp] theorem links_set (other : ℕ) (ds : List DnsLinkDomain) :
    (r.set other ds).links = r.links := by
  unfold ResolveService.set
  split_ifs <;> rfl

@[simp] theorem links_handle (call : ResolveCall) : (r.handle call).links = r.links := by
  cases call with
  | setLinkDomains ifindex ds => exact links_set r ifindex ds
  | revertLink ifindex => exact links_set r ifindex []
  | getDomains => rfl

theorem domains_handle (hknown : link ∈ r.links) {call : ResolveCall}
    (hcurrent : r.domains link = domains)
    (hset : ∀ ds, call = .setLinkDomains link ds → ds = domains) (hrevert : call ≠ .revertLink link) :
    (r.handle call).domains link = domains := by
  cases call with
  | setLinkDomains ifindex ds =>
    by_cases hlink : link = ifindex
    · subst hlink
      exact (domains_set_self r hknown ds).trans (hset ds rfl)
    · exact (domains_set_of_ne r hlink ds).trans hcurrent
  | revertLink ifindex =>
    have hlink : link ≠ ifindex := fun heq => hrevert (heq ▸ rfl)
    exact (domains_set_of_ne r hlink []).trans hcurrent
  | getDomains => exact hcurrent

theorem mem_dropRoot {saved : LinkDomains} {ds : List DnsLinkDomain}
    (h : .setLinkDomains link ds ∈ dropRoot saved) :
    ∃ ds', saved.lookup link = some ds' ∧ root ∈ ds' ∧ ds = ds'.filter (· ≠ root) := by
  obtain ⟨e, he, heq⟩ := mem_map.mp h
  obtain ⟨hmem, hroot⟩ := mem_filter.mp he
  obtain ⟨rfl, rfl⟩ := ResolveCall.setLinkDomains.inj heq
  exact ⟨e.2, AList.mem_lookup_iff.mpr hmem, of_decide_eq_true hroot, rfl⟩

theorem mem_sendSaved {saved : LinkDomains} {ds : List DnsLinkDomain} :
    .setLinkDomains link ds ∈ sendSaved saved ↔ saved.lookup link = some ds := by
  rw [sendSaved, mem_map, ← Option.mem_def, AList.mem_lookup_iff]
  constructor
  · rintro ⟨e, he, heq⟩
    obtain ⟨rfl, rfl⟩ := ResolveCall.setLinkDomains.inj heq
    exact he
  · exact fun h => ⟨_, h, rfl⟩

theorem revertLink_not_mem_sendSaved (saved : LinkDomains) (ifindex : ℕ) :
    .revertLink ifindex ∉ sendSaved saved := by
  intro h
  obtain ⟨e, -, heq⟩ := mem_map.mp h
  cases heq

theorem revertLink_not_mem_dropRoot (saved : LinkDomains) (ifindex : ℕ) :
    .revertLink ifindex ∉ dropRoot saved := by
  intro h
  obtain ⟨e, -, heq⟩ := mem_map.mp h
  cases heq

namespace Untouched

variable {d : DnsUtilsLinux}

theorem updateResolvers (h : Untouched link domains d) {ifindex : ℕ} (hother : ifindex ≠ link) :
    Untouched link domains (updateResolvers ifindex d).2 := by
  unfold DnsUtilsLinux.updateResolvers
  split_ifs with hzero
  · exact { h with other := hzero ▸ hother }
  · exact { h with
      sent := fun ds hds => h.sent ds (by simpa using hds)
      unreverted := by simpa using h.unreverted
      other := hother }

theorem restoreResolvers (h : Untouched link domains d) (hlink : link ≠ 0) :
    Untouched link domains d.restoreResolvers where
  known := h.known
  current := h.current
  sent ds hds := by
    rcases mem_append.mp hds with hds | hrevert
    · rcases mem_append.mp hds with hds | hsaved
      · exact h.sent ds hds
      · exact h.saved ds (mem_sendSaved.mp hsaved)
    · split_ifs at hrevert <;> simp at hrevert
  unreverted := by
    intro hrevert
    rcases mem_append.mp hrevert with hrevert | hrevert
    · rcases mem_append.mp hrevert with hrevert | hrevert
      · exact h.unreverted hrevert
      · exact revertLink_not_mem_sendSaved _ _ hrevert
    · split_ifs at hrevert
      · exact h.other (ResolveCall.revertLink.inj (mem_singleton.mp hrevert)).symm
      · cases hrevert
  saved ds hds := by
    simp [DnsUtilsLinux.restoreResolvers] at hds
  reported := h.reported
  other := hlink.symm

theorem dnsDomainsReceived (h : Untouched link domains d) (hlink : link ≠ 0)
    (hroot : root ∉ domains) {list : List (ℕ × DnsLinkDomain)}
    (hlist : domainsOf link list = domains) :
    Untouched link domains (d.dnsDomainsReceived (some list)) := by
  have hsaved : ∀ ds, (linkDomains list).lookup link = some ds → ds = domains := by
    intro ds hds
    rw [← hlist, ← lookup_linkDomains hlink, hds, Option.getD_some]
  refine { h with saved := hsaved, sent := fun ds hds => ?_, unreverted := fun hrevert => ?_ }
  · rcases mem_append.mp hds with hds | hds
    · rcases mem_append.mp hds with hds | hdrop
      · exact h.sent ds hds
      · obtain ⟨ds', hds', hmem, -⟩ := mem_dropRoot hdrop
        exact absurd (hsaved ds' hds' ▸ hmem) hroot
    · obtain ⟨hindex, -⟩ := ResolveCall.setLinkDomains.inj (mem_singleton.mp hds)
      exact absurd hindex.symm h.other
  · rcases mem_append.mp hrevert with hrevert | hrevert
    · rcases mem_append.mp hrevert with hrevert | hdrop
      · exact h.unreverted hrevert
      · exact revertLink_not_mem_dropRoot _ _ hdrop
    · cases mem_singleton.mp hrevert

theorem receive (h : Untouched link domains d) (hlink : link ≠ 0) (hroot : root ∉ domains) (k : ℕ) :
    Untouched link domains (receive k d) := by
  unfold DnsUtilsLinux.receive
  cases hreply : d.replies[k]? with
  | none => exact h
  | some reply =>
    have hrest : Untouched link domains { d with replies := d.replies.eraseIdx k } :=
      { h with reported := fun list hmem => h.reported list (mem_of_mem_eraseIdx hmem) }
    cases reply with
    | none => exact hrest
    | some list =>
      exact hrest.dnsDomainsReceived hlink hroot (h.reported list (mem_of_getElem? hreply))

theorem serve (h : Untouched link domains d) (fails : Bool) :
    Untouched link domains (serve fails d) := by
  have hrest {call : ResolveCall} {calls : List ResolveCall} (hcalls : d.calls = call :: calls) :
      Untouched link domains { d with calls, service := d.service.handle call } := by
    refine { h with known := ?_, current := ?_, sent := ?_, unreverted := ?_ }
    · rw [links_handle]
      exact h.known
    · apply domains_handle _ h.known h.current
      · rintro ds rfl
        exact h.sent ds (hcalls ▸ mem_cons_self)
      · rintro rfl
        exact h.unreverted (hcalls ▸ mem_cons_self)
    · exact fun ds hds => h.sent ds (hcalls ▸ mem_cons_of_mem _ hds)
    · exact fun hrevert => h.unreverted (hcalls ▸ mem_cons_of_mem _ hrevert)
  unfold DnsUtilsLinux.serve
  split
  · exact h
  · rename_i calls hcalls
    refine { hrest hcalls with reported := fun list hlist => ?_ }
    rcases mem_append.mp hlist with hlist | hlist
    · exact h.reported list hlist
    · split_ifs at hlist
      · simp at hlist
      · obtain rfl := Option.some.inj (mem_singleton.mp hlist)
        rw [domainsOf_snapshot d.service h.known, h.current]
  · rename_i call calls _ hcalls
    exact hrest hcalls

theorem step (h : Untouched link domains d) (hlink : link ≠ 0) (hroot : root ∉ domains)
    {event : Event} (hevent : event ≠ .update link) : Untouched link domains (step d event) := by
  cases event with
  | update ifindex => exact h.updateResolvers fun heq => hevent (heq ▸ rfl)
  | restore => exact h.restoreResolvers hlink
  | serve fails => exact h.serve fails
  | receive k => exact h.receive hlink hroot k

theorem run (h : Untouched link domains d) (hlink : link ≠ 0) (hroot : root ∉ domains)
    {events : List Event} (hevents : .update link ∉ events) :
    Untouched link domains (run events d) := by
  induction events generalizing d with
  | nil => exact h
  | cons event events ih =>
    obtain ⟨hevent, hevents⟩ := not_or.mp (mt mem_cons.mpr hevents)
    exact ih (h.step hlink hroot (Ne.symm hevent)) hevents

end Untouched

end Untouched

section Draining

variable {link : ℕ} {domains : List DnsLinkDomain}

theorem run_append (events events' : List Event) (d : DnsUtilsLinux) :
    run (events ++ events') d = run events' (run events d) := foldl_append

def drain (d : DnsUtilsLinux) : DnsUtilsLinux :=
  run (List.replicate d.calls.length (.serve false)) d

theorem drain_eq {d : DnsUtilsLinux} (h : .getDomains ∉ d.calls) :
    drain d = { d with calls := [], service := d.calls.foldl ResolveService.handle d.service } := by
  obtain ⟨m_ifindex, m_linkDomains, service, calls, replies⟩ := d
  unfold drain
  dsimp only at h ⊢
  induction calls generalizing service with
  | nil => rfl
  | cons call calls ih =>
    obtain ⟨hcall, hcalls⟩ := not_or.mp (mt mem_cons.mpr h)
    have hserve : serve false ⟨m_ifindex, m_linkDomains, service, call :: calls, replies⟩ =
        ⟨m_ifindex, m_linkDomains, service.handle call, calls, replies⟩ := by
      cases call with
      | setLinkDomains ifindex ds => rfl
      | revertLink ifindex => rfl
      | getDomains => exact absurd rfl hcall
    rw [length_cons, replicate_succ, run, foldl_cons, ← run, step, hserve]
    exact ih (service.handle call) hcalls

/-- If all calls for a link set the same domains, it has them in the end. -/
theorem domains_foldl_handle (calls : List ResolveCall) (r : ResolveService)
    (hknown : link ∈ r.links) (hset : ∀ ds, .setLinkDomains link ds ∈ calls → ds = domains)
    (hrevert : .revertLink link ∉ calls)
    (hcurrent : r.domains link = domains ∨ ∃ ds, .setLinkDomains link ds ∈ calls) :
    (calls.foldl ResolveService.handle r).domains link = domains := by
  induction calls generalizing r with
  | nil => exact hcurrent.resolve_right (by simp)
  | cons call calls ih =>
    obtain ⟨hne, hrest⟩ := not_or.mp (mt mem_cons.mpr hrevert)
    have hcall : ∀ ds, call = .setLinkDomains link ds → ds = domains := by
      rintro ds rfl
      exact hset ds mem_cons_self
    rw [foldl_cons]
    apply ih _ (by rwa [links_handle]) (fun ds hds => hset ds (mem_cons_of_mem _ hds)) hrest
    rcases hcurrent with hcurrent | ⟨ds, hds⟩
    · exact Or.inl (domains_handle r hknown hcurrent hcall (Ne.symm hne))
    · rcases mem_cons.mp hds with heq | hds
      · subst heq
        exact Or.inl ((domains_set_self r hknown ds).trans (hcall ds rfl))
      · exact Or.inr ⟨ds, hds⟩

theorem getDomains_not_mem_dropRoot (saved : LinkDomains) : .getDomains ∉ dropRoot saved := by
  intro h
  obtain ⟨e, -, heq⟩ := mem_map.mp h
  cases heq

theorem mem_dropRoot_of_lookup {saved : LinkDomains} (h : saved.lookup link = some domains)
    (hroot : root ∈ domains) :
    .setLinkDomains link (domains.filter (· ≠ root)) ∈ dropRoot saved := by
  have hmem := AList.mem_lookup_iff.mp h
  exact mem_map.mpr ⟨⟨link, domains⟩, mem_filter.mpr ⟨hmem, decide_eq_true hroot⟩, rfl⟩

end Draining

section Late

variable {link : ℕ}

def lateReply (ifindex : ℕ) : List Event :=
  [.update ifindex, .restore, .serve false, .serve false, .receive 0]

variable {ifindex : ℕ}

theorem run_lateReply (r : ResolveService) (h : ifindex ≠ 0) :
    run (lateReply ifindex) { service := r } =
      { service := r.set ifindex []
        m_linkDomains := linkDomains r.snapshot
        calls := dropRoot (linkDomains r.snapshot) ++ [.setLinkDomains 0 [root]] } := by
  simp [lateReply, run, step, updateResolvers, h, restoreResolvers, sendSaved,
    Nat.pos_of_ne_zero h, serve, receive, dnsDomainsReceived, ResolveService.handle]

theorem run_lateReply_append (ifindex : ℕ) (d : DnsUtilsLinux) :
    run ([.update ifindex] ++ .restore :: ([.serve false, .serve false, .receive 0] ++
        List.replicate (run (lateReply ifindex) d).calls.length (.serve false))) d =
      drain (run (lateReply ifindex) d) :=
  run_append (lateReply ifindex) _ d

theorem service_drain_lateReply (r : ResolveService) (h : ifindex ≠ 0) (hlink : link ∈ r.links)
    (hroot : root ∈ r.domains link) :
    (drain (run (lateReply ifindex) { service := r })).service.domains link =
      (r.domains link).filter (· ≠ root) := by
  have hzero : link ≠ 0 := fun heq => r.positive_links (heq ▸ hlink)
  have hlookup : (linkDomains r.snapshot).lookup link = some (r.domains link) := by
    have hdomains := lookup_linkDomains hzero r.snapshot
    rw [domainsOf_snapshot r hlink] at hdomains
    cases hsaved : (linkDomains r.snapshot).lookup link with
    | none =>
      rw [hsaved, Option.getD_none] at hdomains
      rw [← hdomains] at hroot
      exact absurd hroot not_mem_nil
    | some ds =>
      rw [hsaved, Option.getD_some] at hdomains
      rw [hdomains]
  rw [run_lateReply r h, drain_eq (by simp [getDomains_not_mem_dropRoot])]
  apply domains_foldl_handle
  · rwa [links_set]
  · intro ds hds
    rcases mem_append.mp hds with hdrop | hzeroLink
    · obtain ⟨ds', hds', -, rfl⟩ := mem_dropRoot hdrop
      rw [Option.some.inj (hlookup.symm.trans hds')]
    · obtain ⟨heq, -⟩ := ResolveCall.setLinkDomains.inj (mem_singleton.mp hzeroLink)
      exact absurd heq hzero
  · simp [revertLink_not_mem_dropRoot]
  · exact Or.inr ⟨_, mem_append_left _ (mem_dropRoot_of_lookup hlookup hroot)⟩

theorem settled_drain_lateReply (r : ResolveService) (h : ifindex ≠ 0) :
    Settled (drain (run (lateReply ifindex) { service := r })) := by
  rw [run_lateReply r h, drain_eq (by simp [getDomains_not_mem_dropRoot])]
  exact ⟨rfl, rfl⟩

def twoLinks : ResolveService where
  links := [2, 3]
  globals := []
  domains link := if link = 2 then [root, ⟨"lan", true⟩] else []
  nodup_links := by decide
  positive_links := by decide

end Late

end DnsUtilsLinux

end AmneziaVpn
