import AmneziaVpn.LinuxFirewall

/-!
# What the scripts do to the chains of the firewall

A `Layout` says what the chains of one family hold: the rules of `OUTPUT`, the anchors in the order
of the root chain, which of them are enabled and the rules of each.
-/

namespace AmneziaVpn.LinuxFirewall

open ShellScript FilterChains Firewall List Command Function

@[ext] structure Layout (F : Type) where
  output : List (Rule F)
  anchors : List Anchor
  enabled : Anchor → Bool
  rules : Anchor → List (Rule F)

def absentTable {F : Type} (output : List (Rule F)) : Table Chain (Rule F)
  | .kOutputChain => some output
  | _ => none

namespace Layout

variable {F : Type}

def link (enabled : Bool) (a : Anchor) : List (Rule F) :=
  if enabled then [.jump (.actualChain a)] else []

def table (l : Layout F) : Table Chain (Rule F)
  | .kOutputChain => some l.output
  | .kPostRoutingChain => none
  | .kPreRoutingChain => none
  | .kRootChain => some (l.anchors.map fun a => .jump (.anchorChain a))
  | .anchorChain a => if a ∈ l.anchors then some (link (l.enabled a) a) else none
  | .actualChain a => if a ∈ l.anchors then some (l.rules a) else none

def setEnabled (l : Layout F) (a : Anchor) (enabled : Bool) : Layout F :=
  { l with enabled := update l.enabled a enabled }

def setRules (l : Layout F) (a : Anchor) (rules : List (Rule F)) : Layout F :=
  { l with rules := update l.rules a rules }

def setOutput (l : Layout F) (output : List (Rule F)) : Layout F := { l with output }

def addAnchor (l : Layout F) (a : Anchor) : Layout F := { l with anchors := l.anchors ++ [a] }

variable {l : Layout F}

@[simp] theorem addAnchor_anchors (l : Layout F) (a : Anchor) :
    (l.addAnchor a).anchors = l.anchors ++ [a] := rfl

@[simp] theorem addAnchor_enabled (l : Layout F) (a : Anchor) :
    (l.addAnchor a).enabled = l.enabled := rfl

@[simp] theorem addAnchor_rules (l : Layout F) (a : Anchor) :
    (l.addAnchor a).rules = l.rules := rfl

variable {a : Anchor}

theorem table_anchorChain (h : a ∈ l.anchors) :
    l.table (.anchorChain a) = some (link (l.enabled a) a) :=
  if_pos h

theorem table_actualChain (h : a ∈ l.anchors) : l.table (.actualChain a) = some (l.rules a) :=
  if_pos h

theorem table_anchorChain_of_notMem (h : a ∉ l.anchors) : l.table (.anchorChain a) = none :=
  if_neg h

theorem table_actualChain_of_notMem (h : a ∉ l.anchors) : l.table (.actualChain a) = none :=
  if_neg h

/-- Chains of an anchor that is not installed do not depend on the rest of the layout. -/
theorem table_setEnabled_of_notMem (h : a ∉ l.anchors) (enabled : Bool) :
    (l.setEnabled a enabled).table = l.table := by
  funext c
  cases c with
  | anchorChain b =>
    by_cases hb : b ∈ l.anchors
    · have hne : b ≠ a := fun e => h (e ▸ hb)
      simp [table, setEnabled, hb, update_of_ne hne]
    · simp [table, setEnabled, hb]
  | _ => rfl

theorem table_setRules_of_notMem (h : a ∉ l.anchors) (rules : List (Rule F)) :
    (l.setRules a rules).table = l.table := by
  funext c
  cases c with
  | actualChain b =>
    by_cases hb : b ∈ l.anchors
    · have hne : b ≠ a := fun e => h (e ▸ hb)
      simp [table, setRules, hb, update_of_ne hne]
    · simp [table, setRules, hb]
  | _ => rfl

theorem update_anchorChain (h : a ∈ l.anchors) (enabled : Bool) :
    update l.table (.anchorChain a) (some (link enabled a)) =
      (l.setEnabled a enabled).table := by
  funext c
  cases c with
  | anchorChain b =>
    by_cases hb : b = a
    · subst hb
      simp [update_self, table, setEnabled, h]
    · simp [update_of_ne (Chain.anchorChain.injEq b a ▸ hb), table, setEnabled, update_of_ne hb]
  | _ => rfl

theorem update_actualChain (h : a ∈ l.anchors) (rules : List (Rule F)) :
    update l.table (.actualChain a) (some rules) = (l.setRules a rules).table := by
  funext c
  cases c with
  | actualChain b =>
    by_cases hb : b = a
    · subst hb
      simp [update_self, table, setRules, h]
    · simp [update_of_ne (Chain.actualChain.injEq b a ▸ hb), table, setRules, update_of_ne hb]
  | _ => rfl

theorem update_output (l : Layout F) (output : List (Rule F)) :
    update l.table .kOutputChain (some output) = (l.setOutput output).table := by
  funext c
  cases c <;> rfl

end Layout

open Layout

section Scripts

variable {F : Type} {reads : Reads} {t : Table Chain (Rule F)} {c parent : Chain} {a : Anchor}
  {r : Rule F} {rules : List (Rule F)}

theorem addable_jump (h : t c ≠ none) : addable (dialect reads) t (.jump c) = true := by
  cases ht : t c with
  | none => exact absurd ht h
  | some rules => simp [addable, dialect, Rule.jump, Rule.readable, Rule.chain?, ht]

theorem addable_of_chain?_eq_none (reads : Reads) (t : Table Chain (Rule F))
    (h : r.chain? = none) : addable (dialect reads) t r = r.readable reads := by
  simp [addable, dialect, h]

theorem jump_notMem_map {anchors : List Anchor} (h : a ∉ anchors) :
    Rule.jump (.anchorChain a) ∉ anchors.map fun b => (Rule.jump (.anchorChain b) : Rule F) := by
  intro hmem
  obtain ⟨b, hb, heq⟩ := mem_map.mp hmem
  simp only [Rule.jump, Rule.own.injEq, Option.some.injEq, Target.chain.injEq,
    Chain.anchorChain.injEq, true_and] at heq
  exact h (heq ▸ hb)

variable [DecidableEq F]

theorem run_createChain_of_none (h : t c = none) :
    run reads (createChainScript c) t = (update t c (some []), true) := by
  unfold run createChainScript
  apply Script.run_orElse_of_true
  apply Script.run_cmd_of_some
  exact exec_newChain h

theorem run_deleteChain_of_none (h : t c = none) :
    run reads (deleteChainScript c) t = (t, true) := by
  unfold run deleteChainScript
  rw [Script.run_ite_of_false (Script.run_cmd_of_none (exec_list_of_none h))]
  rfl

theorem run_unlinkChain_of_none (h : t parent = none) :
    run reads (unlinkChainScript c parent) t = (t, true) := by
  unfold run unlinkChainScript
  rw [Script.run_ite_of_false (Script.run_cmd_of_none (exec_check_of_none h))]
  rfl

theorem run_unlinkChain_of_notMem (h : t parent = some rules) (hc : .jump c ∉ rules) :
    run reads (unlinkChainScript c parent) t = (t, true) := by
  unfold run unlinkChainScript
  rw [Script.run_ite_of_false (Script.run_cmd_of_none (exec_check_of_notMem h hc))]
  rfl

theorem run_linkChain_of_notMem (h : t parent = some rules) (hnew : .jump c ∉ rules)
    (hc : t c ≠ none) :
    run reads (linkChainScript c parent false) t =
      (update t parent (some (rules ++ [.jump c])), true) := by
  have hcheck := Script.run_cmd_of_none (exec_check_of_notMem (D := dialect reads) h hnew)
  unfold run linkChainScript
  rw [if_neg Bool.false_ne_true, Script.run_ite_of_true (Script.run_neg hcheck)]
  apply Script.run_cmd_of_some
  exact exec_append h (addable_jump hc)

theorem run_enableAnchor_of_none (h : t (.anchorChain a) = none) :
    (run reads (enableAnchorScript a) t).1 = t := by
  unfold run enableAnchorScript
  rw [Script.run_ite_of_false (Script.run_cmd_of_none (exec_check_of_none h)),
    Script.run_cmd_of_none (exec_append_of_none h)]

theorem run_disableAnchor_of_none (h : t (.anchorChain a) = none) :
    (run reads (disableAnchorScript a) t).1 = t := by
  have hcheck := Script.run_cmd_of_none (exec_check_of_none (D := dialect reads)
    (r := .jump (.actualChain a)) h)
  unfold run disableAnchorScript
  rw [Script.run_ite_of_true (Script.run_neg hcheck)]
  rfl

theorem run_enableAnchor (l : Layout F) (a : Anchor) :
    (run reads (enableAnchorScript a) l.table).1 = (l.setEnabled a true).table := by
  by_cases ha : a ∈ l.anchors
  · have hchain := table_anchorChain ha
    have hupdate := update_anchorChain ha true
    unfold run enableAnchorScript
    cases hen : l.enabled a with
    | true =>
      rw [hen] at hchain
      rw [Script.run_ite_of_true (Script.run_cmd_of_some (exec_check hchain
        mem_cons_self)), Script.run_pass, ← hupdate, ← hchain,
        update_eq_self]
    | false =>
      rw [hen] at hchain
      have hactual : l.table (.actualChain a) ≠ none := by simp [table_actualChain ha]
      rw [Script.run_ite_of_false (Script.run_cmd_of_none (exec_check_of_notMem hchain
        not_mem_nil)), Script.run_cmd_of_some (exec_append hchain
        (addable_jump hactual)), ← hupdate]
      rfl
  · rw [run_enableAnchor_of_none (table_anchorChain_of_notMem ha),
      table_setEnabled_of_notMem ha]

theorem run_disableAnchor (l : Layout F) (a : Anchor) :
    (run reads (disableAnchorScript a) l.table).1 = (l.setEnabled a false).table := by
  by_cases ha : a ∈ l.anchors
  · have hchain := table_anchorChain ha
    have hupdate := update_anchorChain ha false
    unfold run disableAnchorScript
    cases hen : l.enabled a with
    | true =>
      rw [hen] at hchain
      have hcheck := Script.run_cmd_of_some (exec_check (D := dialect reads) hchain
        mem_cons_self)
      rw [Script.run_ite_of_false (Script.run_neg hcheck),
        Script.run_cmd_of_some (exec_flush hchain), ← hupdate]
      rfl
    | false =>
      rw [hen] at hchain
      have hcheck := Script.run_cmd_of_none (exec_check_of_notMem (D := dialect reads)
        (r := .jump (.actualChain a)) hchain not_mem_nil)
      rw [Script.run_ite_of_true (Script.run_neg hcheck), Script.run_pass, ← hupdate,
        ← hchain, update_eq_self]
  · rw [run_disableAnchor_of_none (table_anchorChain_of_notMem ha),
      table_setEnabled_of_notMem ha]

def appendAll (reads : Reads) (c : Chain) (rules : List (Rule F)) (t : Table Chain (Rule F)) :
    Table Chain (Rule F) :=
  rules.foldl (fun t r => (run reads (.cmd (.append c r)) t).1) t

theorem appendAll_of_none (h : t c = none) : appendAll reads c rules t = t := by
  induction rules with
  | nil => rfl
  | cons r rules ih =>
    have hstep : (run reads (.cmd (.append c r)) t).1 = t := by
      unfold run
      rw [Script.run_cmd_of_none (exec_append_of_none h)]
    rw [appendAll, foldl_cons, hstep]
    exact ih

/-- Of rules without a jump those are appended that `iptables` can read. -/
theorem appendAll_of_some {old : List (Rule F)} (h : t c = some old)
    (hrules : ∀ r ∈ rules, r.chain? = none) :
    appendAll reads c rules t =
      update t c (some (old ++ rules.filter (·.readable reads))) := by
  induction rules generalizing t old with
  | nil => simp [appendAll, ← h]
  | cons r rules ih =>
    have hadd := addable_of_chain?_eq_none reads t (hrules r mem_cons_self)
    have hrest : ∀ r ∈ rules, r.chain? = none := fun r hr => hrules r (mem_cons_of_mem _ hr)
    rw [appendAll, foldl_cons, ← appendAll]
    cases hr : r.readable reads with
    | true =>
      rw [hr] at hadd
      have hstep : (run reads (.cmd (.append c r)) t).1 =
          update t c (some (old ++ [r])) := by
        unfold run
        rw [Script.run_cmd_of_some (exec_append h hadd)]
      rw [hstep, ih (update_self ..) hrest, update_idem,
        filter_cons_of_pos hr, append_assoc, singleton_append]
    | false =>
      rw [hr] at hadd
      have hstep : (run reads (.cmd (.append c r)) t).1 = t := by
        unfold run
        rw [Script.run_cmd_of_none (exec_append_of_not_addable hadd)]
      rw [hstep, ih h hrest, filter_cons_of_neg (by simp [hr])]

def installAnchorAt (reads : Reads) (a : Anchor) (rules : List (Rule F))
    (t : Table Chain (Rule F)) : Table Chain (Rule F) :=
  appendAll reads (.actualChain a) rules
    (run reads (createChainScript (.actualChain a))
      (run reads (linkChainScript (.anchorChain a) .kRootChain false)
        (run reads (createChainScript (.anchorChain a)) t).1).1).1

/-- Installing a new anchor puts it behind the others, disabled and with its rules. -/
theorem installAnchorAt_table {l : Layout F} (ha : a ∉ l.anchors)
    (hrules : ∀ r ∈ rules, r.chain? = none) (hen : l.enabled a = false)
    (hl : l.rules a = rules.filter (·.readable reads)) :
    installAnchorAt reads a rules l.table = (l.addAnchor a).table := by
  have hroot : update l.table (.anchorChain a) (some []) .kRootChain =
      some (l.anchors.map fun a => .jump (.anchorChain a)) := rfl
  unfold installAnchorAt
  rw [run_createChain_of_none (table_anchorChain_of_notMem ha),
    run_linkChain_of_notMem hroot (jump_notMem_map ha) (by simp),
    run_createChain_of_none (by simp [table_actualChain_of_notMem ha]),
    appendAll_of_some (update_self ..) hrules, nil_append, ← hl]
  funext c
  cases c with
  | anchorChain b =>
    by_cases hb : b = a
    · subst hb
      simp [table, link, hen]
    · by_cases hmem : b ∈ l.anchors <;> simp [table, hb, hmem]
  | actualChain b =>
    by_cases hb : b = a
    · subst hb
      simp [table]
    · by_cases hmem : b ∈ l.anchors <;> simp [table, hb, hmem]
  | kRootChain => simp [table]
  | _ => rfl

def updateAnchorAt (reads : Reads) (a : Anchor) (rules : List (Rule F))
    (t : Table Chain (Rule F)) : Table Chain (Rule F) :=
  appendAll reads (.actualChain a) rules (run reads (.cmd (.flush (.actualChain a))) t).1

theorem updateAnchorAt_of_none (h : t (.actualChain a) = none) :
    updateAnchorAt reads a rules t = t := by
  unfold updateAnchorAt run
  rw [Script.run_cmd_of_none (exec_flush_of_none h), appendAll_of_none h]

theorem updateAnchorAt_table {l : Layout F} (ha : a ∈ l.anchors)
    (hrules : ∀ r ∈ rules, r.chain? = none) :
    updateAnchorAt reads a rules l.table =
      (l.setRules a (rules.filter (·.readable reads))).table := by
  have hchain := table_actualChain ha
  unfold updateAnchorAt run
  rw [Script.run_cmd_of_some (exec_flush hchain),
    appendAll_of_some (update_self ..) hrules, update_idem, nil_append,
    update_actualChain ha]

end Scripts

end AmneziaVpn.LinuxFirewall
