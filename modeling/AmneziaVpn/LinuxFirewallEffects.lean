import AmneziaVpn.LinuxFirewallLayout

/-!
# The functions of the firewall, seen from the filter table

Every function edits each family's table on its own, so what it does to the filter table of a family
depends on that table only.
-/

namespace AmneziaVpn.LinuxFirewall

open ShellScript FilterChains Firewall List

section Output

variable {F : Type} {reads : Reads} {l : Layout F} {others before after : List (Option F)}

/-- A rule of `OUTPUT` that is not the firewall's: one of other software, or a blank one. -/
def otherRule : Option F → Rule F
  | some f => .foreign f
  | none => .blank

theorem otherRule_injective : Function.Injective (otherRule (F := F)) := by
  intro x y h
  cases x <;> cases y <;> simp_all [otherRule, Rule.blank]

theorem chain?_otherRule (x : Option F) : (otherRule x).chain? = none := by
  cases x <;> rfl

theorem jump_notMem_others (c : Chain) : Rule.jump c ∉ others.map otherRule := by
  intro hmem
  obtain ⟨x, -, hx⟩ := mem_map.mp hmem
  have := chain?_otherRule x
  rw [hx] at this
  exact Option.some_ne_none _ this

theorem target_others (reads : Reads) (c : Chain) :
    ∀ r ∈ others.map otherRule, (dialect reads).target r ≠ some c := by
  intro r hr
  obtain ⟨x, -, rfl⟩ := mem_map.mp hr
  change (otherRule x).chain? ≠ some c
  rw [chain?_otherRule]
  exact (Option.some_ne_none c).symm

variable [DecidableEq F]

theorem erase_blank (others : List (Option F)) :
    (others.map otherRule).erase .blank = (others.erase none).map otherRule :=
  (map_erase (a := none) otherRule_injective others).symm

theorem run_insertRoot (reads : Reads) (l : Layout F) :
    (Script.cmd (.insert .kOutputChain (.jump .kRootChain))).run (Command.exec (dialect reads))
      l.table = ((l.setOutput (.jump .kRootChain :: l.output)).table, true) := by
  have hroot : l.table .kRootChain ≠ none := Option.some_ne_none _
  rw [← Layout.update_output]
  exact Script.run_cmd_of_some (Command.exec_insert rfl (addable_jump hroot))

/-- The root chain comes first in an `OUTPUT` chain without it. -/
theorem run_linkRoot_of_others (h : l.output = others.map otherRule) :
    (run reads (linkChainScript .kRootChain .kOutputChain true) l.table).1 =
      (l.setOutput (.jump .kRootChain :: (others.erase none).map otherRule)).table := by
  have hout : l.table .kOutputChain = some (others.map otherRule) := congrArg some h
  have hfirst := Command.exec_firstJumps_of_ne hout
    (fun r hr => target_others reads .kRootChain r (mem_of_mem_head? hr))
  have hne : (Rule.jump .kRootChain : Rule F) ≠ .blank := by simp [Rule.jump, Rule.blank]
  unfold run linkChainScript
  rw [if_pos rfl, Script.run_ite_of_true (Script.run_neg (Script.run_cmd_of_none hfirst)),
    Script.run_andThen_of_true (run_insertRoot reads l), h]
  set inserted := l.setOutput (.jump .kRootChain :: others.map otherRule)
  have hexec : (Command.deleteListed .kOutputChain .kRootChain .blank).exec (dialect reads)
      inserted.table = deleteFirst inserted.table .kOutputChain inserted.output .blank :=
    Command.exec_deleteListed_of_none rfl (target_others reads .kRootChain)
  by_cases hblank : (none : Option F) ∈ others
  · have hmem : Rule.blank ∈ inserted.output :=
      mem_cons_of_mem _ (mem_map_of_mem (f := otherRule) hblank)
    rw [deleteFirst, if_pos hmem] at hexec
    have hout : inserted.output.erase .blank =
        .jump .kRootChain :: (others.erase none).map otherRule := by
      rw [← erase_blank]
      exact erase_cons_tail (by simpa using hne)
    rw [Script.run_cmd_of_some hexec, hout, Layout.update_output]
    rfl
  · have hmem : Rule.blank ∉ inserted.output := by
      intro hmem
      obtain ⟨x, hx, hxb⟩ := mem_map.mp (mem_of_ne_of_mem hne.symm hmem)
      have hnone : x = none := otherRule_injective hxb
      exact hblank (hnone ▸ hx)
    rw [deleteFirst, if_neg hmem] at hexec
    rw [Script.run_cmd_of_none hexec, erase_of_not_mem hblank]

theorem run_linkRoot_of_jump
    (h : l.output = before.map otherRule ++ .jump .kRootChain :: after.map otherRule) :
    (run reads (linkChainScript .kRootChain .kOutputChain true) l.table).1 =
      (l.setOutput (.jump .kRootChain :: (before ++ after).map otherRule)).table := by
  have hout : l.table .kOutputChain =
      some (before.map otherRule ++ .jump .kRootChain :: after.map otherRule) := congrArg some h
  unfold run linkChainScript
  rw [if_pos rfl]
  cases before with
  | nil =>
    have hfirst := Command.exec_firstJumps (D := dialect reads) (d := .kRootChain) hout rfl
    rw [Script.run_ite_of_false (Script.run_neg (Script.run_cmd_of_some hfirst)), Script.run_pass,
      ← Layout.update_output, nil_append]
    rw [map_nil, nil_append] at hout
    rw [← hout]
    exact (Function.update_eq_self ..).symm
  | cons x xs =>
    have hfirst := Command.exec_firstJumps_of_ne (D := dialect reads) (d := .kRootChain) hout
      (by simp [dialect, chain?_otherRule])
    rw [Script.run_ite_of_true (Script.run_neg (Script.run_cmd_of_none hfirst)),
      Script.run_andThen_of_true (run_insertRoot reads l), h]
    set inserted := l.setOutput (.jump .kRootChain ::
      ((x :: xs).map otherRule ++ .jump .kRootChain :: after.map otherRule))
    have hlisted : ∃ r ∈ (x :: xs).map otherRule ++ .jump .kRootChain :: after.map otherRule,
        (dialect reads).target r = some .kRootChain := ⟨.jump .kRootChain, by simp, rfl⟩
    have hexec := Command.exec_deleteListed (t := inserted.table) (c := .kOutputChain)
      (r := .blank) rfl hlisted
    rw [Script.run_cmd_of_some hexec, Layout.update_output, eraseP_append_right _ (by
      intro r hr
      simpa using target_others reads .kRootChain r hr)]
    rw [eraseP_cons_of_pos (by rfl), ← map_append]
    rfl

end Output

open ShellScript FilterChains Firewall

def IPVersion.covers : IPVersion → Family → Bool
  | ipv4, .ipv4 => true
  | ipv6, .ipv6 => true
  | both, _ => true
  | _, _ => false

variable {F : Type}

structure ActsOn (tb : TableName) (f : Family → Firewall F → Firewall F)
    (g : Table Chain (Rule F) → Table Chain (Rule F)) : Prop where
  same : ∀ v fw, (f v fw).chains v tb = g (fw.chains v tb)
  frame : ∀ v fw w t, ¬ (w = v ∧ t = tb) → (f v fw).chains w t = fw.chains w t
  passes : ∀ v fw, (f v fw).passes = fw.passes

namespace ActsOn

variable {tb : TableName} {f f' : Family → Firewall F → Firewall F}
  {g g' : Table Chain (Rule F) → Table Chain (Rule F)}

theorem id : ActsOn tb (fun _ fw => fw) (fun t : Table Chain (Rule F) => t) :=
  ⟨fun _ _ => rfl, fun _ _ _ _ _ => rfl, fun _ _ => rfl⟩

theorem comp (h : ActsOn tb f g) (h' : ActsOn tb f' g') :
    ActsOn tb (fun v fw => f' v (f v fw)) (fun t => g' (g t)) where
  same v fw := by rw [h'.same, h.same]
  frame v fw w t hne := by rw [h'.frame v _ w t hne, h.frame v fw w t hne]
  passes v fw := by rw [h'.passes, h.passes]

theorem foldl {α : Type} {f : α → Family → Firewall F → Firewall F}
    {g : α → Table Chain (Rule F) → Table Chain (Rule F)} (h : ∀ x, ActsOn tb (f x) (g x))
    (l : List α) :
    ActsOn tb (fun v fw => l.foldl (fun fw x => f x v fw) fw)
      (fun t => l.foldl (fun t x => g x t) t) := by
  induction l with
  | nil => exact id
  | cons x l ih => exact (h x).comp ih

end ActsOn

/-- `f` changes the filter table of each family by `g`. -/
structure Effect (f : Firewall F → Firewall F)
    (g : Family → Table Chain (Rule F) → Table Chain (Rule F)) : Prop where
  filter : ∀ fw v, (f fw).chains v .filter = g v (fw.chains v .filter)
  passes : ∀ fw, (f fw).passes = fw.passes

namespace Effect

variable {f f' : Firewall F → Firewall F}
  {g g' : Family → Table Chain (Rule F) → Table Chain (Rule F)}

theorem comp (h : Effect f g) (h' : Effect f' g') :
    Effect (fun fw => f' (f fw)) (fun v t => g' v (g v t)) where
  filter fw v := by rw [h'.filter, h.filter]
  passes fw := by rw [h'.passes, h.passes]

theorem foldl {α : Type} {f : α → Firewall F → Firewall F}
    {g : α → Family → Table Chain (Rule F) → Table Chain (Rule F)} (h : ∀ x, Effect (f x) (g x))
    (l : List α) :
    Effect (fun fw => l.foldl (fun fw x => f x fw) fw)
      (fun v t => l.foldl (fun t x => g x v t) t) := by
  induction l with
  | nil => exact ⟨fun _ _ => rfl, fun _ => rfl⟩
  | cons x l ih => exact (h x).comp ih

end Effect

theorem ActsOn.each {tb : TableName} {f : Family → Firewall F → Firewall F}
    {g : Table Chain (Rule F) → Table Chain (Rule F)} (h : ActsOn tb f g) (ip : IPVersion) :
    Effect (ip.each f) fun v t => if ip.covers v ∧ tb = .filter then g t else t where
  filter fw v := by
    by_cases htb : tb = .filter
    · subst htb
      cases ip <;> cases v <;>
        simp [IPVersion.each, IPVersion.covers, h.same, h.frame]
    · have hne : TableName.filter ≠ tb := fun e => htb e.symm
      cases ip <;> simp [IPVersion.each, htb, hne, h.frame]
  passes fw := by cases ip <;> simp [IPVersion.each, h.passes]

section Functions

theorem effect_runCallback (enabled : Bool) (tb : TableName) (a : Anchor) :
    Effect (F := F) (runCallback enabled tb a) fun _ t => t := by
  have hcall (fw : Firewall F) : (runCallback enabled tb a fw).chains = fw.chains ∧
      (runCallback enabled tb a fw).passes = fw.passes := by
    unfold runCallback
    cases fw.anchorCallbacks enabled tb a with
    | none => exact ⟨rfl, rfl⟩
    | some f => cases f <;> exact ⟨rfl, rfl⟩
  exact ⟨fun fw v => by rw [(hcall fw).1], fun fw => (hcall fw).2⟩

theorem chains_registerCallback (enabled : Bool) (tb : TableName) (a : Anchor)
    (f : Option Callback) (fw : Firewall F) :
    (registerCallback enabled tb a f fw).chains = fw.chains ∧
      (registerCallback enabled tb a f fw).passes = fw.passes := by
  unfold registerCallback
  split <;> exact ⟨rfl, rfl⟩

theorem actsOn_registerCallback (enabled : Bool) (tb : TableName) (a : Anchor)
    (f : Option Callback) :
    ActsOn tb (fun _ fw => registerCallback (F := F) enabled tb a f fw) (fun t => t) where
  same v fw := by rw [(chains_registerCallback enabled tb a f fw).1]
  frame v fw w t _ := by rw [(chains_registerCallback enabled tb a f fw).1]
  passes v fw := (chains_registerCallback enabled tb a f fw).2

variable [DecidableEq F] (reads : Reads)

theorem actsOn_execute (tb : TableName) (script : Script (Cmd F)) :
    ActsOn tb (fun v => execute reads v tb script) (fun t => (run reads script t).1) where
  same v fw := by simp [execute]
  frame v fw w t hne := by
    by_cases hw : w = v
    · subst hw
      have ht : t ≠ tb := fun e => hne ⟨rfl, e⟩
      simp [execute, ht]
    · simp [execute, hw]
  passes v fw := rfl

theorem actsOn_appendRules (tb : TableName) (c : Chain) (rules : List (Rule F)) :
    ActsOn tb (fun v => appendRules reads v tb c rules) (appendAll reads c rules) :=
  .foldl (fun r => actsOn_execute reads tb (.cmd (.append c r))) rules

theorem effect_execute (ip : IPVersion) (tb : TableName) (script : Script (Cmd F)) :
    Effect (ip.each fun v => execute reads v tb script)
      fun v t => if ip.covers v ∧ tb = .filter then (run reads script t).1 else t :=
  (actsOn_execute reads tb script).each ip

theorem effect_installAnchor (spec : AnchorSpec F) :
    Effect (installAnchor reads spec) fun v t =>
      if spec.ip.covers v ∧ spec.table = .filter then
        installAnchorAt reads spec.anchor spec.rules t
      else t :=
  ((actsOn_execute reads spec.table (createChainScript (.anchorChain spec.anchor)))
    |>.comp (actsOn_execute reads spec.table _)
    |>.comp (actsOn_registerCallback true spec.table spec.anchor spec.enableFunc)
    |>.comp (actsOn_registerCallback false spec.table spec.anchor spec.disableFunc)
    |>.comp (actsOn_execute reads spec.table _)
    |>.comp (actsOn_appendRules reads spec.table _ spec.rules)).each spec.ip

/-- The chains of one table after `uninstallAnchor`. -/
def uninstallAnchorAt (a : Anchor) (t : Table Chain (Rule F)) : Table Chain (Rule F) :=
  (run reads (deleteChainScript (.actualChain a))
    (run reads (deleteChainScript (.anchorChain a))
      (run reads (unlinkChainScript (.anchorChain a) .kRootChain) t).1).1).1

theorem effect_uninstallAnchor (ip : IPVersion) (a : Anchor) (tb : TableName) :
    Effect (F := F) (uninstallAnchor reads ip a tb) fun v t =>
      if ip.covers v ∧ tb = .filter then uninstallAnchorAt reads a t else t :=
  ((actsOn_execute reads tb _).comp (actsOn_execute reads tb _)
    |>.comp (actsOn_execute reads tb _)).each ip

theorem effect_setAnchorEnabled (ip : IPVersion) (a : Anchor) (enabled : Bool) :
    Effect (F := F) (setAnchorEnabled reads ip a enabled) fun v t =>
      if ip.covers v then
        (run reads (if enabled then enableAnchorScript a else disableAnchorScript a) t).1
      else t := by
  have hscript (script : Script (Cmd F)) (e : Bool) :=
    (effect_execute reads ip .filter script).comp (effect_runCallback e .filter a)
  simp only [and_true] at hscript
  cases enabled with
  | true => exact hscript (enableAnchorScript a) true
  | false => exact hscript (disableAnchorScript a) false

theorem effect_updateAnchor (a : Anchor) (rules : List (Rule F)) :
    Effect (updateAnchor reads a rules) fun v t =>
      if IPVersion.ipv4.covers v then updateAnchorAt reads a rules t else t := by
  have h := ((actsOn_execute reads .filter (.cmd (.flush (.actualChain a)))).comp
    (actsOn_appendRules reads .filter (.actualChain a) rules)).each .ipv4
  simp only [and_true] at h
  exact h

end Functions

end AmneziaVpn.LinuxFirewall
