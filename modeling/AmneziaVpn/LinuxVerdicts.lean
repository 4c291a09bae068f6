import AmneziaVpn.LinuxKillSwitch

/-!
# Verdicts of the installed firewall

`anchorVerdict` says what an enabled anchor decides on a packet, in terms of the packet and the
loaded lists.
-/

namespace AmneziaVpn.LinuxFirewall

open FilterChains Firewall List Rule Match Setup

def listed (reads : Reads) (texts : List String) (a : Address) : Bool :=
  texts.any fun text => (reads text).any fun s => s a

namespace Packet

def isDns (p : Packet) : Bool := p.dport? == some 53

def onTunnel (p : Packet) : Bool := p.leavesBy "amn0" || p.leavesBy "tun0"

def inLan (p : Packet) : Bool := (lanRanges p.family).any fun n => n.contains p.destination

/-- A request of the family's DHCP client to the addresses of the DHCP anchor. -/
def isDhcp (p : Packet) : Bool :=
  match p.family with
  | .ipv4 => p.isUdp && Network.contains ⟨.ipv4 0xffffffff, 32⟩ p.destination &&
      p.sport? == some 68 && p.dport? == some 67
  | .ipv6 => p.isUdp && Network.contains ⟨.ipv6 0xff000000000000000000000000000000, 8⟩
      p.destination && p.sport? == some 546 && p.dport? == some 547

theorem isDhcp_eq_false {p : Packet} (hlan : p.inLan = false) : p.isDhcp = false := by
  unfold inLan at hlan
  unfold isDhcp
  cases hv : p.family with
  | ipv4 =>
    rw [hv] at hlan
    have hdst := Bool.eq_false_iff.mpr (any_eq_false.mp hlan ⟨.ipv4 0xffffffff, 32⟩ (by decide))
    simp only [hdst, Bool.and_false, Bool.false_and]
  | ipv6 =>
    rw [hv] at hlan
    have hdst := Bool.eq_false_iff.mpr
      (any_eq_false.mp hlan ⟨.ipv6 0xff000000000000000000000000000000, 8⟩ (by decide))
    simp only [hdst, Bool.and_false, Bool.false_and]

theorem isDns_iff (p : Packet) :
    p.isDns = (p.isUdp && p.dport? == some 53 || p.isTcp && p.dport? == some 53) := by
  unfold isDns isUdp isTcp dport?
  cases p.transport <;> simp

end Packet

variable {F : Type} {reads : Reads} {p : Packet}

/-- Rules that accept or reject what they match. -/
def Rule.decides : Rule F → Bool
  | own _ (some .accept) | own _ (some .reject) => true
  | _ => false

def Rule.decision (reads : Reads) (p : Packet) : Rule F → Option Verdict
  | own ms (some .accept) => if ms.all (holds reads p) then some .accept else none
  | own ms (some .reject) => if ms.all (holds reads p) then some .reject else none
  | _ => none

def Setup.anchorVerdict (reads : Reads) (s : Setup F) (p : Packet) : Anchor → Option Verdict
  | .allowLoopback => if p.leavesBy "lo" then some .accept else none
  | .allowDNS =>
      if p.onTunnel && p.isDns && listed reads s.dnsServers p.destination then some .accept
      else none
  | .blockDNS => if p.isDns then some .reject else none
  | .allowLAN => if p.inLan then some .accept else none
  | .allowDHCP => if p.isDhcp then some .accept else none
  | .blockIPv6 => if p.leavesBy "lo" then none else some .reject
  | .allowVPN => if p.onTunnel then some .accept else none
  | .blockNets => if listed reads s.blockAddrs p.destination then some .reject else none
  | .allowNets => if listed reads s.allowAddrs p.destination then some .accept else none
  | .blockAll => some .reject
  | _ => none

variable (ms : List Match)

@[simp] theorem decision_accept :
    (accept ms : Rule F).decision reads p =
      if ms.all (holds reads p) then some .accept else none := rfl

@[simp] theorem decision_reject :
    (reject ms : Rule F).decision reads p =
      if ms.all (holds reads p) then some .reject else none := rfl

theorem listed_cons (text : String) (texts : List String) (a : Address) :
    listed reads (text :: texts) a = ((reads text).any (fun s => s a) || listed reads texts a) :=
  any_cons

theorem decision_flatMap (rulesOf : String → List (Rule F)) (c : Bool) (v : Verdict)
    (hread : ∀ text, ∀ r ∈ rulesOf text, r.readable reads = (reads text).isSome)
    (hdec : ∀ text set, reads text = some set →
      (rulesOf text).findSome? (decision reads p) =
        if c && set p.destination then some v else none)
    (texts : List String) :
    ((texts.flatMap rulesOf).filter (·.readable reads)).findSome? (decision reads p) =
      if c && listed reads texts p.destination then some v else none := by
  induction texts with
  | nil => simp [listed]
  | cons text texts ih =>
    rw [listed_cons, flatMap_cons, filter_append, findSome?_append, ih]
    cases hset : reads text with
    | none =>
      have hnone : (rulesOf text).filter (·.readable reads) = [] := by
        apply filter_eq_nil_iff.mpr
        intro r hr
        simp [hread text r hr, hset]
      simp [hnone]
    | some set =>
      have hall : (rulesOf text).filter (·.readable reads) = rulesOf text := by
        apply filter_eq_self.mpr
        intro r hr
        simp [hread text r hr, hset]
      rw [hall, hdec text set hset]
      cases c <;> cases hdst : set p.destination <;> simp [hdst]

variable (texts : List String)

theorem decision_getAllowRule :
    ((getAllowRule texts : List (Rule F)).filter (·.readable reads)).findSome?
      (decision reads p) =
      if listed reads texts p.destination then some .accept else none := by
  unfold getAllowRule
  rw [map_eq_flatMap]
  apply decision_flatMap _ true
  · simp [accept, readable]
  · intro text set hset
    simp [holds, hset]

theorem decision_getBlockRule :
    ((getBlockRule texts : List (Rule F)).filter (·.readable reads)).findSome?
      (decision reads p) =
      if listed reads texts p.destination then some .reject else none := by
  unfold getBlockRule
  rw [map_eq_flatMap]
  apply decision_flatMap _ true
  · simp [reject, readable]
  · intro text set hset
    simp [holds, hset]

theorem decision_getDNSRules :
    ((getDNSRules texts : List (Rule F)).filter (·.readable reads)).findSome?
      (decision reads p) =
      if p.onTunnel && p.isDns && listed reads texts p.destination then some .accept else none := by
  apply decision_flatMap
  · simp [accept, readable]
  · intro text set hset
    rw [p.isDns_iff]
    unfold Packet.onTunnel
    simp only [findSome?_cons, decision_accept, all_cons, all_nil, holds, hset,
      Option.any_some, Bool.and_true, findSome?_nil]
    cases p.leavesBy "amn0" <;> cases p.leavesBy "tun0" <;> cases set p.destination <;>
      cases p.isUdp <;> cases p.isTcp <;> cases p.dport? == some 53 <;> rfl

theorem decision_lanRules :
    (lanRules p.family : List (Rule F)).findSome? (decision reads p) =
      if p.inLan then some .accept else none := by
  unfold lanRules Packet.inLan
  induction lanRanges p.family with
  | nil => rfl
  | cons n l ih =>
    rw [map_cons, findSome?_cons, ih, any_cons]
    cases h : n.contains p.destination <;> simp [holds, h]

theorem decision_rules (s : Setup F) (a : Anchor) :
    (s.rules reads p.family a).findSome? (decision reads p) = s.anchorVerdict reads p a := by
  cases a with
  | allowDNS => exact decision_getDNSRules s.dnsServers
  | allowNets => exact decision_getAllowRule s.allowAddrs
  | blockNets => exact decision_getBlockRule s.blockAddrs
  | allowLAN => exact decision_lanRules
  | blockDNS =>
    unfold rules anchorVerdict
    rw [p.isDns_iff]
    simp only [findSome?_cons, decision_reject, all_cons, all_nil, holds,
      Bool.and_true, findSome?_nil]
    cases p.isUdp <;> cases p.isTcp <;> cases p.dport? == some 53 <;> rfl
  | allowDHCP =>
    unfold rules anchorVerdict Packet.isDhcp
    cases p.family <;> simp [dhcpRules, holds, and_assoc]
  | allowLoopback => simp [rules, anchorVerdict, holds]
  | blockIPv6 =>
    unfold rules anchorVerdict
    cases h : p.leavesBy "lo" <;> simp [holds, h]
  | allowVPN =>
    unfold rules anchorVerdict Packet.onTunnel
    cases h : p.leavesBy "amn0" <;> cases h' : p.leavesBy "tun0" <;> simp [holds, h, h']
  | blockAll => simp [rules, anchorVerdict]
  | _ => rfl

section Walk

variable {others : Others F} {t : Table Chain (Rule F)}

def otherVerdict (others : Others F) (p : Packet) : Option F → Option Verdict
  | some f => others f p
  | none => none

theorem walk_others (depth : ℕ) (l : List (Option F)) :
    walk (act reads others p) t (depth + 1) (l.map otherRule) =
      l.findSome? (otherVerdict others p) := by
  rw [walk, findSome?_map]
  apply findSome?_congr
  intro x _
  cases x with
  | none => rfl
  | some f =>
    simp only [Function.comp_apply, otherRule, act, otherVerdict]
    cases others f p <;> rfl

theorem act_jump (c : Chain) : (jump c : Rule F).act reads others p = .jump c := rfl

theorem act_of_decides {r : Rule F} (hr : r.decides = true) :
    r.act reads others p = match r.decision reads p with
      | some v => .decide v
      | none => .next := by
  unfold decides at hr
  split at hr
  case h_1 ms => cases hms : ms.all (holds reads p) <;> simp [act, decision, hms]
  case h_2 ms => cases hms : ms.all (holds reads p) <;> simp [act, decision, hms]
  case h_3 => exact absurd hr Bool.false_ne_true

theorem walk_one {rules : List (Rule F)} (hrules : ∀ r ∈ rules, r.decides = true) :
    walk (act reads others p) t 1 rules = rules.findSome? (decision reads p) := by
  rw [walk]
  apply findSome?_congr
  intro r hr
  rw [act_of_decides (hrules r hr)]
  cases r.decision reads p <;> rfl

theorem decides_rules (s : Setup F) (v : Family) (a : Anchor) :
    ∀ r ∈ s.rules reads v a, r.decides = true := by
  cases a with
  | allowDNS =>
    intro r hr
    have hmem := (mem_filter.mp hr).1
    simp only [getDNSRules, mem_flatMap, mem_cons, not_mem_nil, or_false] at hmem
    obtain ⟨server, -, rfl | rfl | rfl | rfl⟩ := hmem <;> rfl
  | _ =>
    cases v <;>
      simp [rules, getAllowRule, getBlockRule, lanRules, dhcpRules, accept, reject, decides]

def Setup.decision (reads : Reads) (s : Setup F) (p : Packet) : Option Verdict :=
  (order p.family).findSome? fun a => if s.enabled a then s.anchorVerdict reads p a else none

theorem walk_layout (others : Others F) (s : Setup F) :
    walk (act reads others p) (s.layout reads p.family).table 4
        (s.layout reads p.family).output =
      (s.before.findSome? (otherVerdict others p)).or
        ((s.decision reads p).or (s.after.findSome? (otherVerdict others p))) := by
  have hanchors : walk (act reads others p) (s.layout reads p.family).table 3
      (((s.layout reads p.family).table .kRootChain).getD []) = s.decision reads p := by
    have hlist : ((s.layout reads p.family).table .kRootChain).getD [] =
        (order p.family).map fun a => jump (.anchorChain a) := rfl
    rw [hlist, walk, findSome?_map]
    apply findSome?_congr
    intro a ha
    change walk _ _ 2 (((s.layout reads p.family).table (.anchorChain a)).getD []) = _
    rw [Layout.table_anchorChain ha, Option.getD_some, Layout.link]
    change walk _ _ 2 (if s.enabled a then _ else _) = _
    cases s.enabled a with
    | false => rfl
    | true =>
      rw [if_pos rfl, if_pos rfl, walk_cons_jump (act_jump (.actualChain a)),
        Layout.table_actualChain ha, Option.getD_some, walk_nil, Option.or_none,
        ← decision_rules s a]
      exact walk_one (decides_rules s p.family a)
  have hout : (s.layout reads p.family).output =
      s.before.map otherRule ++ .jump .kRootChain :: s.after.map otherRule := rfl
  rw [hout, walk_append, walk_cons_jump (act_jump .kRootChain), hanchors, walk_others, walk_others]

end Walk

section Verdict

variable {others : Others F} {fw : Firewall F}

def policyVerdict (fw : Firewall F) (p : Packet) : Verdict :=
  if fw.passes p.family then .accept else .drop

variable {s : Family → Setup F}

theorem verdict_of_installed (h : Installed reads fw s) :
    verdict reads others fw p =
      (((s p.family).before.findSome? (otherVerdict others p)).or
        (((s p.family).decision reads p).or
          ((s p.family).after.findSome? (otherVerdict others p)))).getD (policyVerdict fw p) := by
  unfold verdict
  rw [h p.family]
  exact congrArg (fun d => Option.getD d _) (walk_layout others (s p.family))

theorem verdict_of_absent {rules : Family → List (Option F)} (h : Absent fw rules) :
    verdict reads others fw p =
      ((rules p.family).findSome? (otherVerdict others p)).getD (policyVerdict fw p) := by
  unfold verdict
  rw [h p.family]
  exact congrArg (fun d => Option.getD d _) (walk_others 3 (rules p.family))

/-- Ahead of all other rules, a decision of the anchors is the verdict. -/
theorem verdict_of_decision (others : Others F) (h : Installed reads fw s)
    (hfirst : (s p.family).before = []) {v : Verdict} (hv : (s p.family).decision reads p = some v)
    : verdict reads others fw p = v := by
  rw [verdict_of_installed h, hfirst, hv]
  rfl

end Verdict

end AmneziaVpn.LinuxFirewall
