import AmneziaVpn.LinuxVerdicts

/-!
# What the kill switch lets through

The decision of the anchors after `setAnchors`, one family at a time, and what follows for packets
outside the tunnel.
-/

namespace AmneziaVpn.LinuxFirewall

open FilterChains Firewall

section Decision

variable {F : Type} {reads : Reads} {p : Packet} {params : FirewallParams}

/-- One anchor after the other: an enabled one that decides comes first. -/
theorem findSome?_cons_enabled {f : Anchor → Option Verdict} {a : Anchor} {c : Bool}
    {v : Verdict} (enabled : Anchor → Bool) (h : f a = if c then some v else none)
    (l : List Anchor) :
    (a :: l).findSome? (fun a => if enabled a then f a else none) =
      if enabled a && c then some v
      else l.findSome? fun a => if enabled a then f a else none := by
  rw [List.findSome?_cons, h]
  cases enabled a <;> cases c <;> rfl

theorem decision_applied_ipv4 (s : Setup F) (hp : p.family = .ipv4) :
    (s.applied params p.family).decision reads p =
      if p.leavesBy "lo" then some .accept
      else if p.onTunnel && p.isDns && listed reads params.dnsServers p.destination then
        some .accept
      else if p.isDns then some .reject
      else if p.inLan then some .accept
      else if p.isDhcp then some .accept
      else if p.onTunnel then some .accept
      else if params.blockNets && listed reads params.blockAddrs p.destination then some .reject
      else if params.allowNets && listed reads params.allowAddrs p.destination then some .accept
      else if params.blockAll then some .reject
      else none := by
  unfold Setup.decision
  rw [hp, order, findSome?_cons_enabled _ rfl, findSome?_cons_enabled _ rfl,
    findSome?_cons_enabled _ rfl, findSome?_cons_enabled _ rfl, findSome?_cons_enabled _ rfl,
    findSome?_cons_enabled _ rfl, findSome?_cons_enabled _ rfl, findSome?_cons_enabled _ rfl,
    findSome?_cons_enabled (c := true) _ rfl, Bool.and_true]
  rfl

/-- The anchors of IPv6 after `setAnchors`. The anchor against name lookups is as it was before. -/
theorem decision_applied_ipv6 (s : Setup F) (hp : p.family = .ipv6) :
    (s.applied params p.family).decision reads p =
      if p.leavesBy "lo" then some .accept
      else if s.enabled .blockDNS && p.isDns then some .reject
      else if p.inLan then some .accept
      else if p.isDhcp then some .accept
      else some .reject := by
  have hblock : (s.applied params .ipv6).anchorVerdict reads p .blockIPv6 =
      if !p.leavesBy "lo" then some .reject else none := by
    unfold Setup.anchorVerdict
    cases p.leavesBy "lo" <;> rfl
  unfold Setup.decision
  rw [hp, order, findSome?_cons_enabled _ rfl, findSome?_cons_enabled _ rfl,
    findSome?_cons_enabled _ rfl, findSome?_cons_enabled _ rfl, findSome?_cons_enabled _ hblock]
  cases p.leavesBy "lo" <;> rfl

end Decision

section Safety

variable {F : Type} [DecidableEq F] {reads : Reads} {others : Others F} {fw : Firewall F}
  {p : Packet}

/-- All chains are there, or none is. -/
def Prepared (reads : Reads) (fw : Firewall F) : Prop :=
  (∃ s, Installed reads fw s) ∨ ∃ rules, Absent fw rules

omit [DecidableEq F] in
theorem Prepared.of_installed {s : Family → Setup F} (h : Installed reads fw s) :
    Prepared reads fw :=
  .inl ⟨s, h⟩

/-- After `applyFirewallRules` the root chain is ahead of all other rules. -/
theorem Prepared.applyFirewallRules (h : Prepared reads fw) (params : FirewallParams) :
    ∃ s : Family → Setup F,
      Installed reads (applyFirewallRules reads params fw) (fun v => (s v).applied params v) ∧
        ∀ v, (s v).before = [] := by
  rcases h with ⟨s, hs⟩ | ⟨rules, hrules⟩
  · exact ⟨_, hs.applyFirewallRules params, fun _ => rfl⟩
  · exact ⟨_, hrules.applyFirewallRules params, fun _ => rfl⟩

def outsidePacket (a : BitVec 32) (transport : Transport) : Packet :=
  ⟨"eth0", .ipv4 a, transport, ""⟩

theorem outsidePacket_outside (a : BitVec 32) (transport : Transport) :
    (outsidePacket a transport).leavesBy "lo" = false ∧
      (outsidePacket a transport).onTunnel = false := by
  change "lo".toList.isPrefixOf "eth0".toList = false ∧
    ("amn0".toList.isPrefixOf "eth0".toList || "tun0".toList.isPrefixOf "eth0".toList) = false
  decide

def emptyFirewall : Firewall Empty where
  chains _ _ := absentTable []
  passes _ := true
  anchorCallbacks _ _ _ := none
  splitting := ⟨none, [], []⟩

theorem absent_emptyFirewall : Absent emptyFirewall fun _ => [] := fun _ => rfl

theorem prepared_emptyFirewall (reads : Reads) : Prepared reads emptyFirewall :=
  .inr ⟨_, absent_emptyFirewall⟩

def silent (F : Type) : Others F := fun _ _ => none

def serverAddress : BitVec 32 := 0xcb007107

def readsServer : Reads := fun text =>
  if text = "203.0.113.7" then some fun a => decide (a = .ipv4 serverAddress) else none

def fullTunnel : FirewallParams where
  dnsServers := ["10.8.0.1"]
  allowAddrs := ["203.0.113.7"]
  blockAddrs := []
  blockAll := true
  allowNets := true
  blockNets := false

/-- With `blockAll`, what leaves outside the tunnel to other than allowed addresses is rejected. -/
theorem applyFirewallRules_rejects (h : Prepared reads fw) (params : FirewallParams)
    (hblock : params.blockAll = true) (hlo : p.leavesBy "lo" = false)
    (hamn : p.leavesBy "amn0" = false) (htun : p.leavesBy "tun0" = false) (hlan : p.inLan = false)
    (hallow : ¬ (p.family = .ipv4 ∧ params.allowNets = true ∧
      listed reads params.allowAddrs p.destination = true)) :
    verdict reads others (applyFirewallRules reads params fw) p = .reject := by
  obtain ⟨s, hs, hfirst⟩ := h.applyFirewallRules params
  have hdhcp := Packet.isDhcp_eq_false hlan
  have htunnel : p.onTunnel = false := by rw [Packet.onTunnel, hamn, htun]; rfl
  apply verdict_of_decision others hs (hfirst p.family)
  cases hp : p.family with
  | ipv4 =>
    have hlist : (params.allowNets && listed reads params.allowAddrs p.destination) = false := by
      simpa [hp] using hallow
    rw [← hp, decision_applied_ipv4 (s p.family) hp]
    simp only [hlo, htunnel, hlan, hdhcp, hlist, hblock, Bool.false_and, if_true,
      Bool.false_eq_true, if_false]
    split_ifs <;> rfl
  | ipv6 =>
    rw [← hp, decision_applied_ipv6 (s p.family) hp]
    simp only [hlo, hlan, hdhcp, Bool.false_eq_true, if_false]
    split_ifs <;> rfl

theorem applyFirewallRules_rejects_web :
    verdict readsServer (silent Empty) (applyFirewallRules readsServer fullTunnel emptyFirewall)
      (outsidePacket 0x08080808 (.tcp 40000 443)) = .reject :=
  applyFirewallRules_rejects (prepared_emptyFirewall readsServer) fullTunnel rfl (by decide)
    (by decide) (by decide) (by decide) (by decide)

/-- An allowed address is accepted unless the anchors in front reject it. -/
theorem accepted_iff_of_allowed (h : Prepared reads fw) (params : FirewallParams)
    (hp : p.family = .ipv4) (hallow : params.allowNets = true)
    (hlisted : listed reads params.allowAddrs p.destination = true) :
    verdict reads others (applyFirewallRules reads params fw) p = .accept ↔
      p.leavesBy "lo" = true ∨
      (p.isDns = true ∧ p.onTunnel = true ∧
        listed reads params.dnsServers p.destination = true) ∨
      (p.isDns = false ∧ (p.inLan = true ∨ p.onTunnel = true ∨
        ¬ (params.blockNets = true ∧ listed reads params.blockAddrs p.destination = true))) := by
  obtain ⟨s, hs, hfirst⟩ := h.applyFirewallRules params
  have hverdict {v : Verdict} := verdict_of_decision (v := v) others hs (hfirst p.family)
  rw [decision_applied_ipv4 (s p.family) hp] at hverdict
  cases hlo : p.leavesBy "lo" with
  | true => simp [hverdict (v := .accept) (by simp [hlo])]
  | false =>
  cases hdns : p.isDns with
  | true =>
    by_cases hserver : p.onTunnel = true ∧ listed reads params.dnsServers p.destination = true
    · simp [hverdict (v := .accept) (by simp [hlo, hdns, hserver]), hserver]
    · simp [hverdict (v := .reject) (by simpa [hlo, hdns] using hserver)]
      simpa using hserver
  | false =>
  cases hlan : p.inLan with
  | true => simp [hverdict (v := .accept) (by simp [hlo, hdns, hlan])]
  | false =>
  have hdhcp := Packet.isDhcp_eq_false hlan
  cases htun : p.onTunnel with
  | true => simp [hverdict (v := .accept) (by simp [hlo, hdns, hlan, hdhcp, htun])]
  | false =>
  by_cases hblock : params.blockNets = true ∧ listed reads params.blockAddrs p.destination = true
  · simp [hverdict (v := .reject) (by simp [hlo, hdns, hlan, hdhcp, htun, hblock]), hblock]
  · have hnot : (params.blockNets && listed reads params.blockAddrs p.destination) = false := by
      simpa using hblock
    simpa [hverdict (v := .accept)
      (by simp [hlo, hdns, hlan, hdhcp, htun, hnot, hallow, hlisted])] using hblock

theorem accepted_server :
    verdict readsServer (silent Empty) (applyFirewallRules readsServer fullTunnel emptyFirewall)
      (outsidePacket serverAddress (.udp 40000 51820)) = .accept :=
  (accepted_iff_of_allowed (prepared_emptyFirewall readsServer) fullTunnel rfl rfl
    (by decide)).mpr (.inr (.inr ⟨by decide, .inr (.inr (by decide))⟩))

/-- A server that listens on UDP port 53 is cut off, although it is in the allow list. -/
theorem rejected_server_dns_port :
    fullTunnel.allowNets = true ∧
      listed readsServer fullTunnel.allowAddrs (.ipv4 serverAddress) = true ∧
      verdict readsServer (silent Empty) (applyFirewallRules readsServer fullTunnel emptyFirewall)
        (outsidePacket serverAddress (.udp 40000 53)) = .reject := by
  refine ⟨rfl, by decide, ?_⟩
  apply verdict_of_decision _ (absent_emptyFirewall.applyFirewallRules fullTunnel) rfl
  rw [decision_applied_ipv4 _ rfl]
  decide

/-- A name lookup stays inside the tunnel in IPv4. In IPv6 it may leave to the LAN. -/
theorem dns_not_accepted_iff (h : Prepared reads fw) (params : FirewallParams)
    (hdns : p.isDns = true) (hlo : p.leavesBy "lo" = false) (hamn : p.leavesBy "amn0" = false)
    (htun : p.leavesBy "tun0" = false) :
    verdict reads others (applyFirewallRules reads params fw) p ≠ .accept ↔
      p.family = .ipv4 ∨ p.inLan = false ∨
        ∃ s, Installed reads fw s ∧ (s .ipv6).enabled .blockDNS = true := by
  have htunnel : p.onTunnel = false := by rw [Packet.onTunnel, hamn, htun]; rfl
  cases hp : p.family with
  | ipv4 =>
    obtain ⟨s, hs, hfirst⟩ := h.applyFirewallRules params
    have hreject := verdict_of_decision others hs (hfirst p.family)
      (v := .reject) (by simp [decision_applied_ipv4 (s p.family) hp, hlo, htunnel, hdns])
    simp [hreject]
  | ipv6 =>
    cases hlan : p.inLan with
    | false =>
      obtain ⟨s, hs, hfirst⟩ := h.applyFirewallRules params
      have hreject := verdict_of_decision others hs (hfirst p.family) (v := .reject) (by
        rw [decision_applied_ipv6 (s p.family) hp]
        simp [hlo, hdns, hlan, Packet.isDhcp_eq_false hlan])
      simp [hreject]
    | true =>
      have hdecision (s : Setup F) : (s.applied params p.family).decision reads p =
          some (if s.enabled .blockDNS then .reject else .accept) := by
        rw [decision_applied_ipv6 s hp]
        cases s.enabled .blockDNS <;> simp [hlo, hdns, hlan]
      have hof (s : Family → Setup F) (hs : Installed reads fw s) :
          verdict reads others (applyFirewallRules reads params fw) p =
            if (s .ipv6).enabled .blockDNS then .reject else .accept := by
        rw [← hp]
        exact verdict_of_decision others (hs.applyFirewallRules params) rfl (hdecision (s p.family).first)
      constructor
      · intro hne
        rcases h with ⟨s, hs⟩ | ⟨rules, hrules⟩
        · cases hen : (s .ipv6).enabled .blockDNS with
          | true => exact .inr (.inr ⟨s, hs, hen⟩)
          | false => exact absurd (by rw [hof s hs, hen]; rfl) hne
        · exact absurd (verdict_of_decision others (hrules.applyFirewallRules params) rfl
            (hdecision _)) hne
      · intro hcond
        obtain hcond | hcond | ⟨s, hs, hen⟩ := hcond
        · exact absurd hcond (by decide)
        · exact absurd hcond (by decide)
        · rw [hof s hs, hen]
          decide

theorem dns_not_accepted_ipv4 :
    verdict readsServer (silent Empty) (applyFirewallRules readsServer fullTunnel emptyFirewall)
      (outsidePacket 0xc0a80001 (.udp 40000 53)) ≠ .accept :=
  (dns_not_accepted_iff (prepared_emptyFirewall readsServer) fullTunnel (by decide) (by decide)
    (by decide) (by decide)).mpr (.inl rfl)

def localLookup : Packet :=
  ⟨"eth0", .ipv6 0xfd000000000000000000000000000001, .udp 40000 53, ""⟩

/-- The lookup at the router leaves outside the tunnel. -/
theorem dns_accepted_ipv6 :
    localLookup.isDns = true ∧ localLookup.leavesBy "lo" = false ∧
      localLookup.leavesBy "amn0" = false ∧ localLookup.leavesBy "tun0" = false ∧
      verdict readsServer (silent Empty) (applyFirewallRules readsServer fullTunnel emptyFirewall)
        localLookup = .accept := by
  refine ⟨by decide, by decide, by decide, by decide, ?_⟩
  apply verdict_of_decision _ (absent_emptyFirewall.applyFirewallRules fullTunnel) rfl
  rw [decision_applied_ipv6 _ rfl]
  decide

end Safety

end AmneziaVpn.LinuxFirewall
