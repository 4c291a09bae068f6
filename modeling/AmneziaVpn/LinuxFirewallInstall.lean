import AmneziaVpn.LinuxFirewallEffects

/-!
# The firewall installed and absent

`Setup` is the state of the installed firewall in one family: the rules of other software on both
sides of the jump to the root chain, the anchors that are enabled and the lists that are loaded.
-/

namespace AmneziaVpn.LinuxFirewall

open ShellScript FilterChains Firewall List

def order : Family → List Anchor
  | .ipv4 =>
      [.allowLoopback, .allowDNS, .blockDNS, .allowLAN, .allowDHCP, .allowVPN, .blockNets,
        .allowNets, .blockAll]
  | .ipv6 => [.allowLoopback, .blockDNS, .allowLAN, .allowDHCP, .blockIPv6, .allowVPN, .blockAll]

@[ext] structure Setup (F : Type) where
  before : List (Option F)
  after : List (Option F)
  enabled : Anchor → Bool
  dnsServers : List String
  allowAddrs : List String
  blockAddrs : List String

namespace Setup

variable {F : Type}

/-- The rules of an anchor. Of the loaded ones those are there that `iptables` could read. -/
def rules (reads : Reads) (v : Family) (s : Setup F) : Anchor → List (Rule F)
  | .allowLoopback => [accept [.out "lo"]]
  | .allowDNS => (getDNSRules s.dnsServers).filter (·.readable reads)
  | .blockDNS => [reject [.udp, .dport 53], reject [.tcp, .dport 53]]
  | .allowLAN => lanRules v
  | .allowDHCP => dhcpRules v
  | .blockIPv6 => [reject [.notOut "lo"]]
  | .allowVPN => [accept [.out "amn0"], accept [.out "tun0"]]
  | .blockNets => (getBlockRule s.blockAddrs).filter (·.readable reads)
  | .allowNets => (getAllowRule s.allowAddrs).filter (·.readable reads)
  | .blockAll => [reject []]
  | _ => []

def layout (reads : Reads) (v : Family) (s : Setup F) : Layout F where
  output := s.before.map otherRule ++ .jump .kRootChain :: s.after.map otherRule
  anchors := order v
  enabled := s.enabled
  rules := s.rules reads v

def fresh (after : List (Option F)) : Setup F := ⟨[], after, fun _ => false, [], [], []⟩

variable (s : Setup F)

def first : Setup F := { s with before := [], after := s.before ++ s.after }

def setEnabled (v : Family) (ip : IPVersion) (a : Anchor) (enabled : Bool) : Setup F :=
  if ip.covers v then { s with enabled := Function.update s.enabled a enabled } else s

variable (servers : List String)

def setDNSServers : Setup F :=
  { s with dnsServers := servers }

def setAllowAddrs : Setup F :=
  { s with allowAddrs := servers }

def setBlockAddrs : Setup F :=
  { s with blockAddrs := servers }

theorem setEnabled_others (v : Family) (ip : IPVersion) (a : Anchor) (enabled : Bool) :
    (s.setEnabled v ip a enabled).before = s.before ∧
      (s.setEnabled v ip a enabled).after = s.after ∧
      (s.setEnabled v ip a enabled).dnsServers = s.dnsServers ∧
      (s.setEnabled v ip a enabled).allowAddrs = s.allowAddrs ∧
      (s.setEnabled v ip a enabled).blockAddrs = s.blockAddrs := by
  unfold setEnabled
  split <;> exact ⟨rfl, rfl, rfl, rfl, rfl⟩

theorem setEnabled_enabled (v : Family) (ip : IPVersion) (a b : Anchor) (enabled : Bool) :
    (s.setEnabled v ip a enabled).enabled b =
      if ip.covers v ∧ b = a then enabled else s.enabled b := by
  unfold setEnabled
  by_cases hv : ip.covers v = true
  · simp [hv, Function.update_apply]
  · simp [hv]

end Setup

variable {F : Type}

def Tables (fw : Firewall F) (T : Family → Table Chain (Rule F)) : Prop :=
  ∀ v, fw.chains v .filter = T v

def Installed (reads : Reads) (fw : Firewall F) (s : Family → Setup F) : Prop :=
  Tables fw fun v => ((s v).layout reads v).table

def Absent (fw : Firewall F) (others : Family → List (Option F)) : Prop :=
  Tables fw fun v => absentTable ((others v).map otherRule)

theorem Effect.tables {f : Firewall F → Firewall F}
    {g : Family → Table Chain (Rule F) → Table Chain (Rule F)} (h : Effect f g) {fw : Firewall F}
    {T T' : Family → Table Chain (Rule F)} (hT : Tables fw T) (hg : ∀ v, g v (T v) = T' v) :
    Tables (f fw) T' :=
  fun v => by rw [h.filter, hT v, hg v]

theorem effect_setupTrafficSplitting :
    Effect (F := F) setupTrafficSplitting fun _ t => t :=
  ⟨fun _ _ => rfl, fun _ => rfl⟩

theorem effect_teardownTrafficSplitting :
    Effect (F := F) teardownTrafficSplitting fun _ t => t :=
  ⟨fun _ _ => rfl, fun _ => rfl⟩

section Install

variable [DecidableEq F] {reads : Reads} {fw : Firewall F} {others : Family → List (Option F)}

theorem isInstalled_of_installed {s : Family → Setup F} (h : Installed reads fw s) :
    isInstalled reads fw = true := by
  have hout : fw.chains .ipv4 .filter .kOutputChain = some _ := congrFun (h .ipv4) .kOutputChain
  have hmem : Rule.jump .kRootChain ∈ ((s .ipv4).layout reads .ipv4).output :=
    mem_append_right _ mem_cons_self
  unfold isInstalled run
  rw [Script.run_cmd_of_some (Command.exec_check hout hmem)]

theorem isInstalled_of_absent (h : Absent fw others) : isInstalled reads fw = false := by
  have hout : fw.chains .ipv4 .filter .kOutputChain = some _ := congrFun (h .ipv4) .kOutputChain
  unfold isInstalled run
  rw [Script.run_cmd_of_none (Command.exec_check_of_notMem hout (jump_notMem_others _))]

theorem effect_execute_of_ne (reads : Reads) {tb : TableName} (htb : tb ≠ .filter) (ip : IPVersion)
    (script : Script (Cmd F)) :
    Effect (ip.each fun v => execute reads v tb script) fun _ t => t := by
  have h := effect_execute reads ip tb script
  simp only [htb, and_false, if_false] at h
  exact h

theorem effect_execute_both (reads : Reads) (script : Script (Cmd F)) :
    Effect (IPVersion.both.each fun v => execute reads v .filter script)
      fun _ t => (run reads script t).1 := by
  have h := effect_execute reads .both .filter script
  simp only [IPVersion.covers, true_and, if_true] at h
  exact h

theorem uninstallAnchorAt_absentTable (a : Anchor) (output : List (Rule F)) :
    uninstallAnchorAt reads a (absentTable output) = absentTable output := by
  unfold uninstallAnchorAt
  rw [run_unlinkChain_of_none rfl, run_deleteChain_of_none rfl, run_deleteChain_of_none rfl]

variable (v : Family)

theorem foldl_uninstallAnchorAt (output : List (Rule F)) (l : List (IPVersion × Anchor × TableName))
    :
    l.foldl (fun t s => if s.1.covers v ∧ s.2.2 = .filter then uninstallAnchorAt reads s.2.1 t else t)
      (absentTable output) = absentTable output := by
  induction l with
  | nil => rfl
  | cons s l ih => rw [foldl_cons, uninstallAnchorAt_absentTable, ite_self, ih]

def uninstallAt (reads : Reads) (v : Family) (t : Table Chain (Rule F)) : Table Chain (Rule F) :=
  uninstalledAnchors.foldl
    (fun t s => if s.1.covers v ∧ s.2.2 = .filter then uninstallAnchorAt reads s.2.1 t else t)
    (run reads (deleteChainScript .kRootChain)
      (run reads (unlinkChainScript .kRootChain .kOutputChain) t).1).1

theorem effect_uninstall (reads : Reads) :
    Effect (F := F) (uninstall reads) (uninstallAt reads) := by
  have hraw : TableName.raw ≠ .filter := by decide
  have hnat : TableName.nat ≠ .filter := by decide
  have hmangle : TableName.mangle ≠ .filter := by decide
  have hanchors := Effect.foldl (fun s : IPVersion × Anchor × TableName =>
    effect_uninstallAnchor (F := F) reads s.1 s.2.1 s.2.2) uninstalledAnchors
  exact (effect_execute_both reads (unlinkChainScript .kRootChain .kOutputChain))
    |>.comp (effect_execute_both reads (deleteChainScript .kRootChain))
    |>.comp (effect_execute_of_ne reads hraw .both (unlinkChainScript .kRootChain .kPreRoutingChain))
    |>.comp (effect_execute_of_ne reads hraw .both (deleteChainScript .kRootChain))
    |>.comp (effect_execute_of_ne reads hnat .both (unlinkChainScript .kRootChain .kPostRoutingChain))
    |>.comp (effect_execute_of_ne reads hnat .both (deleteChainScript .kRootChain))
    |>.comp (effect_execute_of_ne reads hmangle .both (unlinkChainScript .kRootChain .kOutputChain))
    |>.comp (effect_execute_of_ne reads hmangle .both (deleteChainScript .kRootChain))
    |>.comp hanchors
    |>.comp effect_teardownTrafficSplitting

theorem uninstallAt_absentTable (others : List (Option F)) :
    uninstallAt reads v (absentTable (others.map otherRule)) =
      absentTable (others.map otherRule) := by
  have hout : absentTable (others.map otherRule) .kOutputChain = some (others.map otherRule) := rfl
  unfold uninstallAt
  rw [run_unlinkChain_of_notMem hout (jump_notMem_others .kRootChain), run_deleteChain_of_none rfl,
    foldl_uninstallAnchorAt]

def installAt (reads : Reads) (v : Family) (t : Table Chain (Rule F)) : Table Chain (Rule F) :=
  (run reads (linkChainScript .kRootChain .kOutputChain true)
    (anchorSpecs.foldl
      (fun t spec => if spec.ip.covers v ∧ spec.table = .filter then
        installAnchorAt reads spec.anchor spec.rules t else t)
      (run reads (createChainScript .kRootChain) (uninstallAt reads v t)).1)).1

theorem effect_install (reads : Reads) :
    Effect (F := F) (install reads) (installAt reads) := by
  have hraw : TableName.raw ≠ .filter := by decide
  have hnat : TableName.nat ≠ .filter := by decide
  have hmangle : TableName.mangle ≠ .filter := by decide
  have hanchors := Effect.foldl (effect_installAnchor (F := F) reads) anchorSpecs
  exact (effect_uninstall reads)
    |>.comp (effect_execute_both reads (createChainScript .kRootChain))
    |>.comp (effect_execute_of_ne reads hraw .both (createChainScript .kRootChain))
    |>.comp (effect_execute_of_ne reads hnat .both (createChainScript .kRootChain))
    |>.comp (effect_execute_of_ne reads hmangle .both (createChainScript .kRootChain))
    |>.comp hanchors
    |>.comp (effect_execute_both reads (linkChainScript .kRootChain .kOutputChain true))
    |>.comp (effect_execute_of_ne reads hnat .both (linkChainScript .kRootChain .kPostRoutingChain true))
    |>.comp (effect_execute_of_ne reads hmangle .both (linkChainScript .kRootChain .kOutputChain true))
    |>.comp (effect_execute_of_ne reads hraw .both (linkChainScript .kRootChain .kPreRoutingChain true))
    |>.comp effect_setupTrafficSplitting

def filterAnchors (specs : List (AnchorSpec F)) : List Anchor :=
  (specs.filter fun spec => spec.ip.covers v && decide (spec.table = .filter)).map (·.anchor)

omit [DecidableEq F] in
theorem filterAnchors_anchorSpecs : filterAnchors v (anchorSpecs (F := F)) = order v := by
  cases v <;> rfl

/-- What a call of `installAnchor` needs for the layout it is to produce. -/
def Fits (reads : Reads) (l : Layout F) (spec : AnchorSpec F) : Prop :=
  (∀ r ∈ spec.rules, r.chain? = none) ∧ l.enabled spec.anchor = false ∧
    l.rules spec.anchor = spec.rules.filter (·.readable reads)

theorem foldl_installAnchorAt {v : Family} {specs : List (AnchorSpec F)} {l : Layout F}
    (hnodup : (l.anchors ++ filterAnchors v specs).Nodup)
    (hfits : ∀ spec ∈ specs, spec.ip.covers v = true → spec.table = .filter → Fits reads l spec) :
    specs.foldl (fun t spec => if spec.ip.covers v ∧ spec.table = .filter then
        installAnchorAt reads spec.anchor spec.rules t else t) l.table =
      { l with anchors := l.anchors ++ filterAnchors v specs }.table := by
  induction specs generalizing l with
  | nil => simp [filterAnchors]
  | cons spec specs ih =>
    have hrest : ∀ spec ∈ specs, spec.ip.covers v = true → spec.table = .filter →
        Fits reads l spec := fun s hs => hfits s (mem_cons_of_mem _ hs)
    rw [foldl_cons]
    by_cases hspec : spec.ip.covers v = true ∧ spec.table = .filter
    · obtain ⟨hrules, hen, hl⟩ := hfits spec mem_cons_self hspec.1 hspec.2
      have hanchors : filterAnchors v (spec :: specs) = spec.anchor :: filterAnchors v specs := by
        simp [filterAnchors, hspec.1, hspec.2]
      rw [hanchors, append_cons] at hnodup
      have hfresh : spec.anchor ∉ l.anchors := by
        intro hmem
        have hdisjoint := disjoint_of_nodup_append (nodup_append'.mp hnodup).1
        exact hdisjoint hmem mem_cons_self
      rw [if_pos hspec, installAnchorAt_table hfresh hrules hen hl, hanchors, append_cons]
      exact ih hnodup hrest
    · have hanchors : filterAnchors v (spec :: specs) = filterAnchors v specs := by
        unfold filterAnchors
        rw [filter_cons_of_neg (by simpa using hspec)]
      rw [if_neg hspec, hanchors]
      rw [hanchors] at hnodup
      exact ih hnodup hrest

omit [DecidableEq F] in
/-- The rules that `install` gives to the anchors name no chain and no address as a text. -/
theorem fixed_rules_anchorSpecs (reads : Reads) :
    ∀ spec ∈ anchorSpecs (F := F), ∀ r ∈ spec.rules, r.chain? = none ∧ r.readable reads = true := by
  simp [anchorSpecs, accept, reject, lanRules, dhcpRules, Rule.chain?, Rule.readable]

omit [DecidableEq F] in
theorem rules_fresh (after : List (Option F)) :
    ∀ spec ∈ anchorSpecs, spec.ip.covers v = true → spec.table = .filter →
      (Setup.fresh after).rules reads v spec.anchor = spec.rules := by
  cases v <;> simp [anchorSpecs, IPVersion.covers, Setup.fresh, Setup.rules, getDNSRules,
    getAllowRule, getBlockRule]

omit [DecidableEq F] in
theorem fits_anchorSpecs (after : List (Option F)) :
    ∀ spec ∈ anchorSpecs, spec.ip.covers v = true → spec.table = .filter →
      Fits reads ((Setup.fresh after).layout reads v) spec := by
  intro spec hspec hcovers htable
  have hrules := fixed_rules_anchorSpecs reads spec hspec
  have hfilter : spec.rules.filter (·.readable reads) = spec.rules :=
    filter_eq_self.mpr fun r hr => (hrules r hr).2
  refine ⟨fun r hr => (hrules r hr).1, rfl, ?_⟩
  rw [hfilter]
  exact rules_fresh v after spec hspec hcovers htable

theorem createRoot_absentTable {l : Layout F} (hl : l.anchors = []) :
    (run reads (createChainScript .kRootChain) (absentTable l.output)).1 = l.table := by
  rw [run_createChain_of_none rfl]
  funext c
  cases c <;> simp [Layout.table, absentTable, hl]

theorem installAt_absentTable (others : List (Option F)) :
    installAt reads v (absentTable (others.map otherRule)) =
      ((Setup.fresh (others.erase none)).layout reads v).table := by
  have hnodup : (order v).Nodup := by cases v <;> decide
  let bare : Layout F := { (Setup.fresh others).layout reads v with
    output := others.map otherRule, anchors := [] }
  have hroot : (run reads (createChainScript .kRootChain)
      (absentTable (others.map otherRule))).1 = bare.table := createRoot_absentTable (l := bare) rfl
  have hanchors := foldl_installAnchorAt (l := bare) (v := v)
    (by simpa [bare, filterAnchors_anchorSpecs] using hnodup) (fits_anchorSpecs v others)
  unfold installAt
  rw [uninstallAt_absentTable, hroot, hanchors, filterAnchors_anchorSpecs,
    run_linkRoot_of_others rfl]
  rfl

theorem Absent.install (h : Absent fw others) :
    Installed reads (install reads fw) fun v => Setup.fresh ((others v).erase none) :=
  (effect_install reads).tables h fun v => installAt_absentTable v (others v)

end Install

section Calls

variable [DecidableEq F] {reads : Reads} {fw : Firewall F} {s : Family → Setup F}
  {others : Family → List (Option F)}

omit [DecidableEq F] in
theorem Installed.congr (h : Installed reads fw s) {s' : Family → Setup F}
    (hs : ∀ v, s v = s' v) : Installed reads fw s' :=
  funext hs ▸ h

theorem Installed.ensureRootAnchorPriority (h : Installed reads fw s) :
    Installed reads (ensureRootAnchorPriority reads .both fw) fun v => (s v).first := by
  apply (effect_execute_both reads _).tables h
  intro v
  rw [run_linkRoot_of_jump rfl]
  rfl

theorem Installed.setAnchorEnabled (h : Installed reads fw s) (ip : IPVersion) (a : Anchor)
    (enabled : Bool) :
    Installed reads (setAnchorEnabled reads ip a enabled .filter fw)
      fun v => (s v).setEnabled v ip a enabled := by
  apply (effect_setAnchorEnabled reads ip a enabled).tables h
  intro v
  unfold Setup.setEnabled
  cases hv : ip.covers v with
  | false => simp [hv]
  | true =>
    simp only [hv, if_true]
    cases enabled with
    | false => exact run_disableAnchor ((s v).layout reads v) a
    | true => exact run_enableAnchor ((s v).layout reads v) a

theorem Installed.updateAnchor (h : Installed reads fw s) {a : Anchor} {rules : List (Rule F)}
    {s' : Family → Setup F} (ha : a ∈ order .ipv4) (hnot : a ∉ order .ipv6)
    (hrules : ∀ r ∈ rules, r.chain? = none)
    (hs : ∀ v, (s' v).layout reads v =
      ((s v).layout reads v).setRules a (rules.filter (·.readable reads))) :
    Installed reads (updateAnchor reads a rules fw) s' := by
  apply (effect_updateAnchor reads a rules).tables h
  intro v
  rw [hs]
  cases v with
  | ipv4 => exact updateAnchorAt_table ha hrules
  | ipv6 => exact (Layout.table_setRules_of_notMem hnot _).symm

theorem Installed.updateDNSServers (h : Installed reads fw s) (servers : List String) :
    Installed reads (updateDNSServers reads servers fw)
      fun v => (s v).setDNSServers servers := by
  apply h.updateAnchor (by decide) (by decide)
  · intro r hr
    simp only [getDNSRules, mem_flatMap, mem_cons, not_mem_nil, or_false] at hr
    obtain ⟨server, -, rfl | rfl | rfl | rfl⟩ := hr <;> rfl
  · intro v
    refine Layout.ext rfl rfl rfl ?_
    funext b
    cases b <;> rfl

theorem Installed.updateAllowNets (h : Installed reads fw s) (servers : List String) :
    Installed reads (updateAllowNets reads servers fw)
      fun v => (s v).setAllowAddrs servers := by
  apply h.updateAnchor (by decide) (by decide)
  · intro r hr
    obtain ⟨server, -, rfl⟩ := mem_map.mp hr
    rfl
  · intro v
    refine Layout.ext rfl rfl rfl ?_
    funext b
    cases b <;> rfl

theorem Installed.updateBlockNets (h : Installed reads fw s) (servers : List String) :
    Installed reads (updateBlockNets reads servers fw)
      fun v => (s v).setBlockAddrs servers := by
  apply h.updateAnchor (by decide) (by decide)
  · intro r hr
    obtain ⟨server, -, rfl⟩ := mem_map.mp hr
    rfl
  · intro v
    refine Layout.ext rfl rfl rfl ?_
    funext b
    cases b <;> rfl

theorem Absent.setAnchorEnabled (h : Absent fw others) (ip : IPVersion) (a : Anchor)
    (enabled : Bool) : Absent (setAnchorEnabled reads ip a enabled .filter fw) others := by
  apply (effect_setAnchorEnabled reads ip a enabled).tables h
  intro v
  cases enabled with
  | false =>
    rw [if_neg Bool.false_ne_true, run_disableAnchor_of_none rfl, ite_self]
  | true =>
    rw [if_pos rfl, run_enableAnchor_of_none rfl, ite_self]

theorem Absent.updateAnchor (h : Absent fw others) (a : Anchor) (rules : List (Rule F)) :
    Absent (updateAnchor reads a rules fw) others := by
  apply (effect_updateAnchor reads a rules).tables h
  intro v
  rw [updateAnchorAt_of_none rfl, ite_self]

end Calls

end AmneziaVpn.LinuxFirewall
