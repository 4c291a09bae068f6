import AmneziaVpn.LinuxFirewallInstall
import AmneziaVpn.QtJson

/-!
# Switching the Linux firewall on

The daemon applies a set of parameters with `applyFirewallRules`, the service turns a configuration
into its kill switch with `enableKillSwitch`.
-/

namespace AmneziaVpn.LinuxFirewall

open Firewall

structure FirewallParams where
  dnsServers : List String
  allowAddrs : List String
  blockAddrs : List String
  blockAll : Bool
  allowNets : Bool
  blockNets : Bool

variable {F : Type} [DecidableEq F] (reads : Reads)

variable (params : FirewallParams)

/-- The calls that both functions make, in this order. -/
def setAnchors (fw : Firewall F) : Firewall F :=
  setAnchorEnabled reads .both .allowLoopback true .filter fw
  |> setAnchorEnabled reads .both .blockAll params.blockAll .filter
  |> setAnchorEnabled reads .ipv4 .allowNets params.allowNets .filter
  |> updateAllowNets reads params.allowAddrs
  |> setAnchorEnabled reads .ipv4 .blockNets params.blockNets .filter
  |> updateBlockNets reads params.blockAddrs
  |> setAnchorEnabled reads .ipv4 .allowVPN true .filter
  |> setAnchorEnabled reads .ipv6 .blockIPv6 true .filter
  |> setAnchorEnabled reads .both .allowDHCP true .filter
  |> setAnchorEnabled reads .both .allowLAN true .filter
  |> setAnchorEnabled reads .ipv4 .blockDNS true .filter
  |> updateDNSServers reads params.dnsServers
  |> setAnchorEnabled reads .ipv4 .allowDNS true .filter
  |> setAnchorEnabled reads .both .allowPIA true .filter

def applyFirewallRules (fw : Firewall F) : Firewall F :=
  (if isInstalled reads fw then fw else install reads fw)
  |> ensureRootAnchorPriority reads .both
  |> setAnchors reads params

def killSwitchParams (config : QJsonObject) : FirewallParams :=
  let splitTunnelType := (config.value "splitTunnelType").toInt
  let splitTunnelSites := (config.value "splitTunnelSites").toArray.map QJsonValue.toString
  let hostName := (config.value "hostName").toString
  let dnsServers :=
    [(config.value "dns1").toString, (config.value "dns2").toString, "127.0.0.1", "127.0.0.53"]
  if splitTunnelType = 0 then ⟨dnsServers, [hostName], [], true, true, false⟩
  else if splitTunnelType = 1 then ⟨dnsServers, [], splitTunnelSites, false, false, true⟩
  else if splitTunnelType = 2 then ⟨dnsServers, hostName :: splitTunnelSites, [], true, true, false⟩
  else ⟨dnsServers, [], [], false, false, false⟩

/-- `120.blockNets` is switched with `blockAll` here, and nothing installs the chains. -/
def enableKillSwitch (config : QJsonObject) (fw : Firewall F) : Firewall F :=
  setAnchors reads
    { killSwitchParams config with blockNets := (killSwitchParams config).blockAll } fw

def Setup.applied (v : Family) (s : Setup F) : Setup F where
  before := s.before
  after := s.after
  enabled
    | .allowLoopback | .allowLAN | .allowDHCP => true
    | .blockAll => params.blockAll
    | .allowNets => if v = .ipv4 then params.allowNets else s.enabled .allowNets
    | .blockNets => if v = .ipv4 then params.blockNets else s.enabled .blockNets
    | .allowVPN => v = .ipv4 || s.enabled .allowVPN
    | .blockIPv6 => v = .ipv6 || s.enabled .blockIPv6
    | .blockDNS => v = .ipv4 || s.enabled .blockDNS
    | .allowDNS => v = .ipv4 || s.enabled .allowDNS
    | .allowPIA => true
    | a => s.enabled a
  dnsServers := params.dnsServers
  allowAddrs := params.allowAddrs
  blockAddrs := params.blockAddrs

variable {reads} {fw : Firewall F} {s : Family → Setup F} {others : Family → List (Option F)}

theorem Installed.setAnchors (h : Installed reads fw s) (params : FirewallParams) :
    Installed reads (setAnchors reads params fw) fun v => (s v).applied params v := by
  have hcalls := h
    |>.setAnchorEnabled .both .allowLoopback true
    |>.setAnchorEnabled .both .blockAll params.blockAll
    |>.setAnchorEnabled .ipv4 .allowNets params.allowNets
    |>.updateAllowNets params.allowAddrs
    |>.setAnchorEnabled .ipv4 .blockNets params.blockNets
    |>.updateBlockNets params.blockAddrs
    |>.setAnchorEnabled .ipv4 .allowVPN true
    |>.setAnchorEnabled .ipv6 .blockIPv6 true
    |>.setAnchorEnabled .both .allowDHCP true
    |>.setAnchorEnabled .both .allowLAN true
    |>.setAnchorEnabled .ipv4 .blockDNS true
    |>.updateDNSServers params.dnsServers
    |>.setAnchorEnabled .ipv4 .allowDNS true
    |>.setAnchorEnabled .both .allowPIA true
  apply hcalls.congr
  intro v
  apply Setup.ext
  · simp [Setup.setEnabled_others, Setup.setDNSServers, Setup.setAllowAddrs, Setup.setBlockAddrs, Setup.applied]
  · simp [Setup.setEnabled_others, Setup.setDNSServers, Setup.setAllowAddrs, Setup.setBlockAddrs, Setup.applied]
  · funext b
    simp only [Setup.setEnabled_enabled, Setup.setDNSServers, Setup.setAllowAddrs,
      Setup.setBlockAddrs]
    cases v <;> cases b <;> simp [Setup.applied, IPVersion.covers]
  · simp [Setup.setEnabled_others, Setup.setDNSServers, Setup.applied]
  · simp [Setup.setEnabled_others, Setup.setDNSServers, Setup.setAllowAddrs, Setup.setBlockAddrs, Setup.applied]
  · simp [Setup.setEnabled_others, Setup.setDNSServers, Setup.setBlockAddrs, Setup.applied]

theorem passes_setAnchors (reads : Reads) (fw : Firewall F) :
    (setAnchors reads params fw).passes = fw.passes := by
  simp [setAnchors, updateDNSServers, updateAllowNets, updateBlockNets, (effect_setAnchorEnabled reads _ _ _).passes, (effect_updateAnchor reads _ _).passes]

theorem Absent.setAnchors (h : Absent fw others) (params : FirewallParams) :
    Absent (setAnchors reads params fw) others :=
  h.setAnchorEnabled .both .allowLoopback true
    |>.setAnchorEnabled .both .blockAll params.blockAll
    |>.setAnchorEnabled .ipv4 .allowNets params.allowNets
    |>.updateAnchor .allowNets (getAllowRule params.allowAddrs)
    |>.setAnchorEnabled .ipv4 .blockNets params.blockNets
    |>.updateAnchor .blockNets (getBlockRule params.blockAddrs)
    |>.setAnchorEnabled .ipv4 .allowVPN true
    |>.setAnchorEnabled .ipv6 .blockIPv6 true
    |>.setAnchorEnabled .both .allowDHCP true
    |>.setAnchorEnabled .both .allowLAN true
    |>.setAnchorEnabled .ipv4 .blockDNS true
    |>.updateAnchor .allowDNS (getDNSRules params.dnsServers)
    |>.setAnchorEnabled .ipv4 .allowDNS true
    |>.setAnchorEnabled .both .allowPIA true

theorem Installed.applyFirewallRules (h : Installed reads fw s) (params : FirewallParams) :
    Installed reads (applyFirewallRules reads params fw)
      fun v => (s v).first.applied params v := by
  unfold LinuxFirewall.applyFirewallRules
  rw [if_pos (isInstalled_of_installed h)]
  exact h.ensureRootAnchorPriority.setAnchors params

theorem Absent.applyFirewallRules (h : Absent fw others) (params : FirewallParams) :
    Installed reads (applyFirewallRules reads params fw)
      fun v => (Setup.fresh ((others v).erase none)).applied params v := by
  unfold LinuxFirewall.applyFirewallRules
  rw [isInstalled_of_absent h, if_neg Bool.false_ne_true]
  exact h.install.ensureRootAnchorPriority.setAnchors params

theorem passes_applyFirewallRules (reads : Reads) (fw : Firewall F) :
    (applyFirewallRules reads params fw).passes = fw.passes := by
  unfold applyFirewallRules
  rw [passes_setAnchors]
  cases isInstalled reads fw with
  | true => exact (effect_execute_both reads _).passes fw
  | false => exact ((effect_install reads).comp (effect_execute_both reads _)).passes fw

end AmneziaVpn.LinuxFirewall
