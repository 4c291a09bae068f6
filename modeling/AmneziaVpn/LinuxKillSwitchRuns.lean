import AmneziaVpn.LinuxKillSwitchVerdicts

/-!
# Runs of the kill switch compared

Two histories of `applyFirewallRules` that end with the same parameters give every packet the same
verdict: a call overwrites what the earlier ones have left.
-/

namespace AmneziaVpn.LinuxFirewall

open FilterChains Firewall List

section History

variable {F : Type} {reads : Reads}

/-- The later of two calls decides, except for what neither of them sets. -/
theorem Setup.applied_applied (s : Setup F) (earlier params : FirewallParams) (v : Family) :
    (s.applied earlier v).applied params v = s.applied params v := by
  apply Setup.ext <;> try rfl
  funext a
  cases v <;> cases a <;> rfl

theorem Setup.first_applied (s : Setup F) (params : FirewallParams) (v : Family) :
    (s.applied params v).first = s.first.applied params v := rfl

variable [DecidableEq F]

def applyAll (reads : Reads) (history : List FirewallParams) (fw : Firewall F) : Firewall F :=
  history.foldl (fun fw params => applyFirewallRules reads params fw) fw

theorem applyAll_append_singleton (history : List FirewallParams) (params : FirewallParams)
    (fw : Firewall F) :
    applyAll reads (history ++ [params]) fw =
      applyFirewallRules reads params (applyAll reads history fw) :=
  foldl_concat ..

theorem passes_applyAll (history : List FirewallParams) (fw : Firewall F) :
    (applyAll reads history fw).passes = fw.passes := by
  induction history using List.reverseRecOn with
  | nil => rfl
  | append_singleton history params ih =>
    rw [applyAll_append_singleton, passes_applyFirewallRules, ih]

/-- Whatever came before, the setup is that of the last parameters applied to a fresh one. -/
theorem Absent.applyAll {fw : Firewall F} {rules : Family → List (Option F)} (h : Absent fw rules)
    (history : List FirewallParams) (params : FirewallParams) :
    Installed reads (applyAll reads (history ++ [params]) fw)
      fun v => (Setup.fresh ((rules v).erase none)).applied params v := by
  induction history using List.reverseRecOn generalizing params with
  | nil => exact h.applyFirewallRules params
  | append_singleton history earlier ih =>
    rw [applyAll_append_singleton]
    apply ((ih earlier).applyFirewallRules params).congr
    intro v
    rw [Setup.first_applied, Setup.applied_applied]
    rfl

/-- The verdict depends only on the last parameters. -/
theorem verdict_applyAll_eq {fw₁ fw₂ : Firewall F} {rules : Family → List (Option F)}
    (h₁ : Absent fw₁ rules) (h₂ : Absent fw₂ rules) (hpasses : fw₁.passes = fw₂.passes)
    (history₁ history₂ : List FirewallParams) (params : FirewallParams) (others : Others F)
    (p : Packet) :
    verdict reads others (applyAll reads (history₁ ++ [params]) fw₁) p =
      verdict reads others (applyAll reads (history₂ ++ [params]) fw₂) p := by
  rw [verdict_of_installed (h₁.applyAll history₁ params),
    verdict_of_installed (h₂.applyAll history₂ params), policyVerdict, policyVerdict,
    passes_applyAll, passes_applyAll, hpasses]

theorem verdict_applyAll_twice :
    verdict readsServer (silent Empty)
        (applyAll readsServer ([{ fullTunnel with allowNets := false }] ++ [fullTunnel])
          emptyFirewall) (outsidePacket serverAddress (.udp 40000 51820)) =
      verdict readsServer (silent Empty) (applyAll readsServer ([] ++ [fullTunnel]) emptyFirewall)
        (outsidePacket serverAddress (.udp 40000 51820)) :=
  verdict_applyAll_eq absent_emptyFirewall absent_emptyFirewall rfl _ _ _ _ _

end History

section Agreement

variable {F : Type} [DecidableEq F] {reads : Reads} {fw : Firewall F} {config : QJsonObject}

def splitTunnelSites (config : QJsonObject) : List String :=
  (config.value "splitTunnelSites").toArray.map QJsonValue.toString

theorem killSwitchParams_of_sites (h : (config.value "splitTunnelType").toInt = 1) :
    (killSwitchParams config).blockAll = false ∧ (killSwitchParams config).blockNets = true ∧
      (killSwitchParams config).allowNets = false ∧
      (killSwitchParams config).blockAddrs = splitTunnelSites config := by
  unfold killSwitchParams
  rw [if_neg (by omega), if_pos h]
  exact ⟨rfl, rfl, rfl, rfl⟩

theorem blockAddrs_killSwitchParams (h : (config.value "splitTunnelType").toInt ≠ 1) :
    (killSwitchParams config).blockAddrs = [] := by
  unfold killSwitchParams
  dsimp only
  split_ifs <;> rfl

def Setup.Leads (s : Setup F) : Prop := ∀ f, some f ∉ s.before

omit [DecidableEq F] in
theorem Setup.Leads.findSome?_before {s : Setup F} (h : s.Leads) (others : Others F) (p : Packet) :
    s.before.findSome? (otherVerdict others p) = none := by
  apply findSome?_eq_none_iff.mpr
  intro x hx
  cases x with
  | none => rfl
  | some f => exact absurd hx (h f)

omit [DecidableEq F] in
/-- The decisions of the anchors after the two functions, which differ in the block list alone. -/
theorem decision_killSwitch_eq (s : Setup F) {p : Packet}
    (hsites : (config.value "splitTunnelType").toInt ≠ 1 ∨ p.family = .ipv6 ∨ p.inLan = true ∨
      listed reads (splitTunnelSites config) p.destination = false) :
    (s.applied { killSwitchParams config with blockNets := (killSwitchParams config).blockAll }
        p.family).decision reads p =
      (s.first.applied (killSwitchParams config) p.family).decision reads p := by
  cases hp : p.family with
  | ipv6 => rw [← hp, decision_applied_ipv6 s hp, decision_applied_ipv6 s.first hp]; rfl
  | ipv4 =>
    rw [← hp, decision_applied_ipv4 s hp, decision_applied_ipv4 s.first hp]
    dsimp only
    by_cases htype : (config.value "splitTunnelType").toInt = 1
    · have hblock := (killSwitchParams_of_sites htype).2.2.2
      obtain h | h | h | h := hsites
      · exact absurd htype h
      · exact absurd (hp.symm.trans h) (by decide)
      · simp [h]
      · rw [hblock, h, Bool.and_false, Bool.and_false]
    · rw [blockAddrs_killSwitchParams htype]
      simp [listed]

variable {s : Family → Setup F}

theorem Installed.enableKillSwitch (h : Installed reads fw s) (config : QJsonObject) :
    Installed reads (enableKillSwitch reads config fw) fun v => (s v).applied
      { killSwitchParams config with blockNets := (killSwitchParams config).blockAll } v :=
  h.setAnchors _

theorem policyVerdict_enableKillSwitch (p : Packet) :
    policyVerdict (enableKillSwitch reads config fw) p = policyVerdict fw p := by
  unfold policyVerdict enableKillSwitch
  rw [passes_setAnchors]

theorem policyVerdict_applyFirewallRules (params : FirewallParams) (p : Packet) :
    policyVerdict (applyFirewallRules reads params fw) p = policyVerdict fw p := by
  unfold policyVerdict
  rw [passes_applyFirewallRules]

omit [DecidableEq F] in
theorem policyVerdict_ne_reject (fw : Firewall F) (p : Packet) : policyVerdict fw p ≠ .reject := by
  unfold policyVerdict
  split <;> decide

omit [DecidableEq F] in
theorem findSome?_silent (rules : List (Option F)) (p : Packet) :
    rules.findSome? (otherVerdict (silent F) p) = none := by
  apply findSome?_eq_none_iff.mpr
  intro x _
  cases x <;> rfl

omit [DecidableEq F] in
theorem findSome?_drop {rules : List (Option F)} {f : F} (hf : some f ∈ rules) (p : Packet) :
    rules.findSome? (otherVerdict (fun _ _ => some .drop) p) = some .drop := by
  induction rules with
  | nil => exact absurd hf not_mem_nil
  | cons x rules ih =>
    cases x with
    | some g => rfl
    | none => exact ih (mem_of_ne_of_mem (Option.some_ne_none f) hf)

def loopbackPacket : Family → Packet
  | .ipv4 => ⟨"lo", .ipv4 0x7f000001, .other 1, ""⟩
  | .ipv6 => ⟨"lo", .ipv6 1, .other 58, ""⟩

theorem accepted_loopbackPacket (h : Prepared reads fw) (others : Others F)
    (params : FirewallParams) (v : Family) :
    verdict reads others (applyFirewallRules reads params fw) (loopbackPacket v) = .accept := by
  obtain ⟨s, hs, hfirst⟩ := h.applyFirewallRules params
  apply verdict_of_decision others hs (hfirst _)
  cases v with
  | ipv4 => rw [decision_applied_ipv4 _ rfl]; rfl
  | ipv6 => rw [decision_applied_ipv6 _ rfl]; rfl

/-- The two functions agree where no other rule comes first and the block list is out of reach. -/
theorem verdict_killSwitch_eq (hs : Installed reads fw s) (hleads : ∀ v, (s v).Leads)
    (others : Others F) {p : Packet}
    (hsites : (config.value "splitTunnelType").toInt ≠ 1 ∨ p.family = .ipv6 ∨ p.inLan = true ∨ listed reads (splitTunnelSites config) p.destination = false)
    :
    verdict reads others (enableKillSwitch reads config fw) p =
      verdict reads others (applyFirewallRules reads (killSwitchParams config) fw) p := by
  have hbefore := (hleads p.family).findSome?_before others p
  rw [verdict_of_installed (hs.enableKillSwitch config), decision_killSwitch_eq _ hsites,
    verdict_of_installed (hs.applyFirewallRules _), policyVerdict_enableKillSwitch,
    policyVerdict_applyFirewallRules]
  simp [Setup.applied, Setup.first, hbefore, findSome?_nil, findSome?_append, Option.none_or]

/-- A setup with a rule of other software ahead of the root chain, which may drop everything. -/
theorem leads_of_agrees (hfw : Prepared reads fw) (hs : Installed reads fw s)
    (hagrees : ∀ (others : Others F) (p : Packet), verdict reads others (enableKillSwitch reads config fw) p = verdict reads others (applyFirewallRules reads (killSwitchParams config) fw) p)
    (v : Family) : (s v).Leads := by
  intro f hf
  have hv : (loopbackPacket v).family = v := by cases v <;> rfl
  have hdrop := hagrees (fun _ _ => some .drop) (loopbackPacket v)
  rw [accepted_loopbackPacket hfw, verdict_of_installed (hs.enableKillSwitch config), hv] at hdrop
  simp [Setup.applied, findSome?_drop hf] at hdrop

theorem installed_of_agrees (hfw : Prepared reads fw)
    (hagrees : ∀ p : Packet,
      verdict reads (silent F) (enableKillSwitch reads config fw) p =
        verdict reads (silent F) (applyFirewallRules reads (killSwitchParams config) fw) p) :
    ∃ s, Installed reads fw s := by
  rcases hfw with hs | ⟨rules, hrules⟩
  · exact hs
  · have habsent : Absent (enableKillSwitch reads config fw) rules := hrules.setAnchors _
    have hdns := hagrees (outsidePacket 0 (.udp 0 53))
    rw [verdict_of_absent habsent, findSome?_silent, policyVerdict_enableKillSwitch] at hdns
    have hreject : verdict reads (silent F)
        (applyFirewallRules reads (killSwitchParams config) fw)
        (outsidePacket 0 (.udp 0 53)) = .reject := by
      apply verdict_of_decision _ (hrules.applyFirewallRules _) rfl
      rw [decision_applied_ipv4 _ rfl]
      rfl
    exact absurd (hdns.trans hreject) (policyVerdict_ne_reject fw _)

theorem sites_of_agrees (hs : Installed reads fw s)
    (hagrees : ∀ p : Packet, verdict reads (silent F) (enableKillSwitch reads config fw) p = verdict reads (silent F) (applyFirewallRules reads (killSwitchParams config) fw) p)
    (htype : (config.value "splitTunnelType").toInt = 1) {a : BitVec 32}
    (ha : listed reads (splitTunnelSites config) (.ipv4 a) = true) :
    (outsidePacket a (.other 1)).inLan = true := by
  obtain ⟨hall, hblock, hallow, haddrs⟩ := killSwitchParams_of_sites htype
  cases hlan : (outsidePacket a (.other 1)).inLan with
  | true => rfl
  | false =>
    have hdhcp := Packet.isDhcp_eq_false hlan
    have hlisted : listed reads (splitTunnelSites config) (outsidePacket a (.other 1)).destination =
        true := ha
    obtain ⟨hlo, htun⟩ := outsidePacket_outside a (.other 1)
    have hdns : (outsidePacket a (.other 1)).isDns = false := rfl
    have hreject : verdict reads (silent F)
        (applyFirewallRules reads (killSwitchParams config) fw)
        (outsidePacket a (.other 1)) = .reject := by
      apply verdict_of_decision _ (hs.applyFirewallRules _) rfl
      rw [decision_applied_ipv4 _ rfl]
      simp [hlo, htun, hdns, hlan, hdhcp, hblock, haddrs, hlisted]
    have hpolicy : verdict reads (silent F) (enableKillSwitch reads config fw)
        (outsidePacket a (.other 1)) = policyVerdict fw (outsidePacket a (.other 1)) := by
      rw [verdict_of_installed (hs.enableKillSwitch config), decision_applied_ipv4 _ rfl,
        findSome?_silent, findSome?_silent, policyVerdict_enableKillSwitch]
      simp [hlo, htun, hdns, hlan, hdhcp, hall, hallow]
    have hsame := hagrees (outsidePacket a (.other 1))
    rw [hreject, hpolicy] at hsame
    exact absurd hsame (policyVerdict_ne_reject fw _)

/-- Both calls agree on installed chains whose sites are in the LAN ranges. -/
theorem enableKillSwitch_agrees_iff (hfw : Prepared reads fw) (config : QJsonObject) :
    (∀ (others : Others F) (p : Packet),
      verdict reads others (enableKillSwitch reads config fw) p =
        verdict reads others (applyFirewallRules reads (killSwitchParams config) fw) p) ↔
      (∃ s, Installed reads fw s ∧ ∀ v, (s v).Leads) ∧
      ((config.value "splitTunnelType").toInt ≠ 1 ∨
        ∀ a, listed reads (splitTunnelSites config) (.ipv4 a) = true →
          (lanRanges .ipv4).any (fun n => n.contains (.ipv4 a)) = true) := by
  constructor
  · intro hagrees
    obtain ⟨s, hs⟩ := installed_of_agrees hfw (hagrees (silent F))
    refine ⟨⟨s, hs, leads_of_agrees hfw hs hagrees⟩, ?_⟩
    by_cases htype : (config.value "splitTunnelType").toInt = 1
    · exact .inr fun a ha => sites_of_agrees hs (hagrees (silent F)) htype ha
    · exact .inl htype
  · rintro ⟨⟨s, hs, hleads⟩, hsites⟩ others p
    apply verdict_killSwitch_eq hs hleads
    rcases hsites with htype | hsites
    · exact .inl htype
    · cases hp : p.destination with
      | ipv6 a => exact .inr (.inl (by rw [Packet.family, hp]; rfl))
      | ipv4 a =>
        cases hlisted : listed reads (splitTunnelSites config) (.ipv4 a) with
        | false => exact .inr (.inr (.inr rfl))
        | true =>
          have hlan := hsites a hlisted
          exact .inr (.inr (.inl (by rw [Packet.inLan, Packet.family, hp]; exact hlan)))

theorem installed_emptyFirewall (reads : Reads) :
    Installed reads (install reads emptyFirewall) fun _ => Setup.fresh [] :=
  absent_emptyFirewall.install

/-- Freshly installed chains and a configuration without split tunnelling. -/
theorem enableKillSwitch_agrees_server :
    verdict readsServer (silent Empty)
        (enableKillSwitch readsServer [("hostName", .string "203.0.113.7")]
          (install readsServer emptyFirewall)) (outsidePacket serverAddress (.udp 40000 51820)) =
      verdict readsServer (silent Empty)
        (applyFirewallRules readsServer
          (killSwitchParams [("hostName", .string "203.0.113.7")])
          (install readsServer emptyFirewall)) (outsidePacket serverAddress (.udp 40000 51820)) :=
  (enableKillSwitch_agrees_iff (.of_installed (installed_emptyFirewall readsServer))
    [("hostName", .string "203.0.113.7")]).mpr
    ⟨⟨_, installed_emptyFirewall readsServer, fun _ f => f.elim⟩, .inl (by decide)⟩ _ _

def sitesTunnel : QJsonObject :=
  [("splitTunnelType", .double 1), ("splitTunnelSites", .array [.string "203.0.113.7"])]

/-- A site is open after `enableKillSwitch` and closed after `applyFirewallRules`. -/
theorem enableKillSwitch_opens_site :
    verdict readsServer (silent Empty)
        (enableKillSwitch readsServer sitesTunnel (install readsServer emptyFirewall))
        (outsidePacket serverAddress (.tcp 40000 443)) = .accept ∧
      verdict readsServer (silent Empty)
        (applyFirewallRules readsServer (killSwitchParams sitesTunnel)
          (install readsServer emptyFirewall))
        (outsidePacket serverAddress (.tcp 40000 443)) = .reject := by
  have hs := installed_emptyFirewall readsServer
  constructor
  · rw [verdict_of_installed (hs.enableKillSwitch sitesTunnel), decision_applied_ipv4 _ rfl,
      findSome?_silent, findSome?_silent, policyVerdict_enableKillSwitch, policyVerdict,
      (effect_install readsServer).passes]
    decide
  · apply verdict_of_decision _ (hs.applyFirewallRules _) rfl
    rw [decision_applied_ipv4 _ rfl]
    decide

end Agreement

end AmneziaVpn.LinuxFirewall
