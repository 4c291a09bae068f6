import AmneziaVpn.FilterChains
import AmneziaVpn.ShellScript

/-!
# The Linux firewall of the daemon

The firewall lives in chains of its own. The root chain is the first rule of `OUTPUT` and jumps to
one placeholder chain for each anchor, in the order of installation.
-/

namespace AmneziaVpn.LinuxFirewall

open FilterChains

inductive Family
  | ipv4
  | ipv6
deriving DecidableEq, Repr

inductive IPVersion
  | ipv4
  | ipv6
  | both
deriving DecidableEq, Repr

inductive TableName
  | filter
  | nat
  | mangle
  | raw
deriving DecidableEq, Repr

inductive Anchor
  | allowLoopback
  | allowPIA
  | allowDNS
  | blockDNS
  | allowLAN
  | allowDHCP
  | blockIPv6
  | allowVPN
  | blockNets
  | allowNets
  | blockAll
  | transIp
  | tagPkts
  | vpnTunOnly
deriving DecidableEq, Repr

def Anchor.all : List Anchor :=
  [allowLoopback, allowPIA, allowDNS, blockDNS, allowLAN, allowDHCP, blockIPv6, allowVPN, blockNets,
    allowNets, blockAll, transIp, tagPkts, vpnTunOnly]

def kAnchorName : String := "amnvpn"

def kPacketTag : String := "0x3211"

def kCGroupId : String := "0x567"

def kRtableName : String := kAnchorName ++ "rt"

/-- `anchorChain` is the placeholder of an anchor and `actualChain` has its rules. -/
inductive Chain
  | kOutputChain
  | kPostRoutingChain
  | kPreRoutingChain
  | kRootChain
  | anchorChain (a : Anchor)
  | actualChain (a : Anchor)
deriving DecidableEq, Repr

def Chain.builtin : Chain → Bool
  | kOutputChain | kPostRoutingChain | kPreRoutingChain => true
  | _ => false

def Chain.all : List Chain :=
  [kOutputChain, kPostRoutingChain, kPreRoutingChain, kRootChain] ++ Anchor.all.map anchorChain ++
    Anchor.all.map actualChain

inductive Address
  | ipv4 (bits : BitVec 32)
  | ipv6 (bits : BitVec 128)
deriving DecidableEq, Repr

def Address.family : Address → Family
  | ipv4 _ => .ipv4
  | ipv6 _ => .ipv6

structure Network where
  address : Address
  length : ℕ
deriving DecidableEq, Repr

def Network.contains (n : Network) (a : Address) : Bool :=
  match n.address, a with
  | .ipv4 x, .ipv4 y => x >>> (32 - n.length) == y >>> (32 - n.length)
  | .ipv6 x, .ipv6 y => x >>> (128 - n.length) == y >>> (128 - n.length)
  | _, _ => false

inductive Transport
  | tcp (sport dport : UInt16)
  | udp (sport dport : UInt16)
  | other (protocol : UInt8)
deriving DecidableEq, Repr

/-- An outgoing packet, with the control group of the process that sends it. -/
structure Packet where
  outInterface : String
  destination : Address
  transport : Transport
  cgroup : String
deriving DecidableEq, Repr

namespace Packet

variable (p : Packet)

def family : Family := p.destination.family

/-- Whether the interface matches `-o` with `+` behind the name. -/
def leavesBy (name : String) : Bool := name.toList.isPrefixOf p.outInterface.toList

def sport? : Option UInt16 :=
  match p.transport with
  | .tcp sport _ | .udp sport _ => some sport
  | .other _ => none

def dport? : Option UInt16 :=
  match p.transport with
  | .tcp _ dport | .udp _ dport => some dport
  | .other _ => none

def isTcp : Bool := p.transport matches .tcp _ _

def isUdp : Bool := p.transport matches .udp _ _

end Packet

/-- How `iptables` reads the text of an address: the set of addresses it stands for, if any. -/
abbrev Reads := String → Option (Address → Bool)

inductive Match
  | out (name : String)
  | notOut (name : String)
  | dst (n : Network)
  | dstText (text : String)
  | udp
  | tcp
  | sport (port : UInt16)
  | dport (port : UInt16)
  | cgroup (id : String)
deriving DecidableEq, Repr

def Match.holds (reads : Reads) (p : Packet) : Match → Bool
  | out name => p.leavesBy name
  | notOut name => !p.leavesBy name
  | dst n => n.contains p.destination
  | dstText text => (reads text).any fun s => s p.destination
  | udp => p.isUdp
  | tcp => p.isTcp
  | sport port => p.sport? == some port
  | dport port => p.dport? == some port
  | cgroup id => p.cgroup == id

inductive Target
  | accept
  | reject
  | masquerade
  | setMark (mark : String)
  | chain (c : Chain)
deriving DecidableEq, Repr

/-- A rule with the options the firewall uses, or a rule of other software. -/
inductive Rule (F : Type)
  | own (ms : List Match) (target : Option Target)
  | foreign (f : F)
deriving DecidableEq, Repr

namespace Rule

variable {F : Type}

def jump (c : Chain) : Rule F := own [] (some (.chain c))

/-- The rule of a command line with neither match nor target. -/
def blank : Rule F := own [] none

def chain? : Rule F → Option Chain
  | own _ (some (.chain c)) => some c
  | _ => none

def readable (reads : Reads) : Rule F → Bool
  | own ms _ => ms.all fun
      | .dstText text => (reads text).isSome
      | _ => true
  | foreign _ => true

end Rule

inductive Verdict
  | accept
  | drop
  | reject
deriving DecidableEq, Repr

/-- What the rules of other software decide on a packet. -/
abbrev Others (F : Type) := F → Packet → Option Verdict

def Rule.act {F : Type} (reads : Reads) (others : Others F) (p : Packet) :
    Rule F → Action Chain Verdict
  | own ms target =>
      if ms.all (Match.holds reads p) then
        match target with
        | some .accept => .decide .accept
        | some .reject => .decide .reject
        | some (.chain c) => .jump c
        | _ => .next
      else .next
  | foreign f =>
      match others f p with
      | some v => .decide v
      | none => .next

open ShellScript FilterChains

/-- A line of `ip rule list`. -/
structure IpRule where
  fwmark : String
  lookup : String
  pri : ℕ
deriving DecidableEq, Repr

structure TrafficSplitting where
  cgroup : Option String
  rules : List IpRule
  rtable : List String

inductive Callback
  | setupTrafficSplitting
  | teardownTrafficSplitting
deriving DecidableEq, Repr

structure Firewall (F : Type) where
  chains : Family → TableName → Table Chain (Rule F)
  /-- Whether the policy of `OUTPUT` lets a packet through that no rule decides. -/
  passes : Family → Bool
  anchorCallbacks : Bool → TableName → Anchor → Option Callback
  splitting : TrafficSplitting

namespace Firewall

variable {F : Type} [DecidableEq F] (reads : Reads)

def dialect : Dialect Chain (Rule F) where
  names := Chain.all
  builtin := Chain.builtin
  target := Rule.chain?
  accepts := Rule.readable reads

abbrev Cmd (F : Type) := Command Chain (Rule F)

def run (script : Script (Cmd F)) (t : Table Chain (Rule F)) : Table Chain (Rule F) × Bool :=
  script.run (Command.exec (dialect reads)) t

def execute (v : Family) (table : TableName) (script : Script (Cmd F)) (fw : Firewall F) :
    Firewall F :=
  { fw with
    chains := Function.update fw.chains v
      (Function.update (fw.chains v) table (run reads script (fw.chains v table)).1) }

end Firewall

/-- A function of the source called with `Both` calls itself for the one and then the other. -/
def IPVersion.each {α : Type} (ip : IPVersion) (f : Family → α → α) (x : α) : α :=
  match ip with
  | ipv4 => f .ipv4 x
  | ipv6 => f .ipv6 x
  | both => f .ipv6 (f .ipv4 x)

section Scripts

variable {F : Type}

open Script

variable (chain : Chain)

def createChainScript : Script (Firewall.Cmd F) :=
  orElse (cmd (.newChain chain)) (cmd (.flush chain))

def deleteChainScript : Script (Firewall.Cmd F) :=
  ite (cmd (.list chain)) (andThen (cmd (.flush chain)) (cmd (.deleteChain chain))) pass

def linkChainScript (parent : Chain) (mustBeFirst : Bool) : Script (Firewall.Cmd F) :=
  if mustBeFirst then
    ite (neg (cmd (.firstJumps parent chain)))
      (andThen (cmd (.insert parent (.jump chain))) (cmd (.deleteListed parent chain .blank))) pass
  else ite (neg (cmd (.check parent (.jump chain)))) (cmd (.append parent (.jump chain))) pass

def unlinkChainScript (parent : Chain) : Script (Firewall.Cmd F) :=
  ite (cmd (.check parent (.jump chain))) (cmd (.delete parent (.jump chain))) pass

def enableAnchorScript (a : Anchor) : Script (Firewall.Cmd F) :=
  ite (cmd (.check (.anchorChain a) (.jump (.actualChain a)))) pass
    (cmd (.append (.anchorChain a) (.jump (.actualChain a))))

def disableAnchorScript (a : Anchor) : Script (Firewall.Cmd F) :=
  ite (neg (cmd (.check (.anchorChain a) (.jump (.actualChain a))))) pass
    (cmd (.flush (.anchorChain a)))

end Scripts

namespace Firewall

variable {F : Type} [DecidableEq F] (reads : Reads)

variable (ip : IPVersion) (chain : Chain)

variable (table : TableName)

def createChain : Firewall F → Firewall F :=
  ip.each fun v => execute reads v table (createChainScript chain)

def deleteChain : Firewall F → Firewall F :=
  ip.each fun v => execute reads v table (deleteChainScript chain)

def linkChain (parent : Chain) (mustBeFirst : Bool) (table : TableName) : Firewall F → Firewall F :=
  ip.each fun v => execute reads v table (linkChainScript chain parent mustBeFirst)

def unlinkChain (parent : Chain) (table : TableName) : Firewall F → Firewall F :=
  ip.each fun v => execute reads v table (unlinkChainScript chain parent)

def ensureRootAnchorPriority : Firewall F → Firewall F :=
  linkChain reads ip .kRootChain .kOutputChain true .filter

def appendRules (v : Family) (table : TableName) (chain : Chain) (rules : List (Rule F))
    (fw : Firewall F) : Firewall F :=
  rules.foldl (fun fw rule => execute reads v table (.cmd (.append chain rule)) fw) fw

/-- Remember a callback unless the key already has one. -/
def registerCallback (enabled : Bool) (table : TableName) (a : Anchor) (f : Option Callback)
    (fw : Firewall F) : Firewall F :=
  match f, fw.anchorCallbacks enabled table a with
  | some f, none =>
      { fw with
        anchorCallbacks := fun e t b =>
          if e = enabled ∧ t = table ∧ b = a then some f else fw.anchorCallbacks e t b }
  | _, _ => fw

/-- The arguments of one call of `installAnchor`. -/
structure AnchorSpec (F : Type) where
  ip : IPVersion
  anchor : Anchor
  rules : List (Rule F)
  table : TableName := .filter
  enableFunc : Option Callback := none
  disableFunc : Option Callback := none

def installAnchor (spec : AnchorSpec F) : Firewall F → Firewall F :=
  spec.ip.each fun v fw => fw
    |> execute reads v spec.table (createChainScript (.anchorChain spec.anchor))
    |> execute reads v spec.table (linkChainScript (.anchorChain spec.anchor) .kRootChain false)
    |> registerCallback true spec.table spec.anchor spec.enableFunc
    |> registerCallback false spec.table spec.anchor spec.disableFunc
    |> execute reads v spec.table (createChainScript (.actualChain spec.anchor))
    |> appendRules reads v spec.table (.actualChain spec.anchor) spec.rules

def uninstallAnchor (a : Anchor) (table : TableName) : Firewall F → Firewall F :=
  ip.each fun v fw => fw
    |> execute reads v table (unlinkChainScript (.anchorChain a) .kRootChain)
    |> execute reads v table (deleteChainScript (.anchorChain a))
    |> execute reads v table (deleteChainScript (.actualChain a))

end Firewall

section Rules

variable {F : Type}

open Match

variable (ms : List Match)

def accept : Rule F := .own ms (some .accept)

def reject : Rule F := .own ms (some .reject)

variable (servers : List String)

def getDNSRules : List (Rule F) :=
  servers.flatMap fun server =>
    [accept [out "amn0", dstText server, udp, dport 53],
      accept [out "amn0", dstText server, tcp, dport 53],
      accept [out "tun0", dstText server, udp, dport 53],
      accept [out "tun0", dstText server, tcp, dport 53]]

def getAllowRule : List (Rule F) :=
  servers.map fun server => accept [dstText server]

def getBlockRule : List (Rule F) :=
  servers.map fun server => reject [dstText server]

def lanRanges : Family → List Network
  | .ipv4 =>
      [⟨.ipv4 0x0a000000, 8⟩, ⟨.ipv4 0xa9fe0000, 16⟩, ⟨.ipv4 0xac100000, 12⟩,
        ⟨.ipv4 0xc0a80000, 16⟩, ⟨.ipv4 0xe0000000, 4⟩, ⟨.ipv4 0xffffffff, 32⟩]
  | .ipv6 =>
      [⟨.ipv6 0xfc000000000000000000000000000000, 7⟩,
        ⟨.ipv6 0xfe800000000000000000000000000000, 10⟩,
        ⟨.ipv6 0xff000000000000000000000000000000, 8⟩]

def lanRules (v : Family) : List (Rule F) := (lanRanges v).map fun n => accept [dst n]

def dhcpRules : Family → List (Rule F)
  | .ipv4 => [accept [udp, dst ⟨.ipv4 0xffffffff, 32⟩, sport 68, dport 67]]
  | .ipv6 =>
      [accept [udp, dst ⟨.ipv6 0xff000000000000000000000000000000, 8⟩, sport 546, dport 547]]

/-- The calls of `installAnchor` that `install` makes, in this order. -/
def anchorSpecs : List (Firewall.AnchorSpec F) :=
  [{ ip := .both, anchor := .allowLoopback, rules := [accept [out "lo"]] },
    { ip := .ipv4, anchor := .allowDNS, rules := [] },
    { ip := .both, anchor := .blockDNS, rules := [reject [udp, dport 53], reject [tcp, dport 53]] },
    { ip := .ipv4, anchor := .allowLAN, rules := lanRules .ipv4 },
    { ip := .ipv6, anchor := .allowLAN, rules := lanRules .ipv6 },
    { ip := .ipv4, anchor := .allowDHCP, rules := dhcpRules .ipv4 },
    { ip := .ipv6, anchor := .allowDHCP, rules := dhcpRules .ipv6 },
    { ip := .ipv6, anchor := .blockIPv6, rules := [reject [notOut "lo"]] },
    { ip := .both, anchor := .allowVPN, rules := [accept [out "amn0"], accept [out "tun0"]] },
    { ip := .ipv4, anchor := .blockNets, rules := [] },
    { ip := .ipv4, anchor := .allowNets, rules := [] },
    { ip := .both, anchor := .blockAll, rules := [reject []] },
    { ip := .both, anchor := .transIp, rules := [.own [] (some .masquerade)], table := .nat },
    { ip := .both, anchor := .tagPkts,
      rules := [.own [cgroup kCGroupId] (some (.setMark kPacketTag))], table := .mangle,
      enableFunc := some .setupTrafficSplitting, disableFunc := some .teardownTrafficSplitting },
    { ip := .both, anchor := .vpnTunOnly, rules := [accept []], table := .raw }]

/-- The calls of `uninstallAnchor` that `uninstall` makes, in this order. -/
def uninstalledAnchors : List (IPVersion × Anchor × TableName) :=
  [(.both, .allowLoopback, .filter), (.both, .allowPIA, .filter), (.ipv4, .allowDNS, .filter),
    (.both, .blockDNS, .filter), (.both, .allowLAN, .filter), (.both, .allowDHCP, .filter),
    (.ipv6, .blockIPv6, .filter), (.both, .allowVPN, .filter), (.ipv4, .blockNets, .filter),
    (.ipv4, .allowNets, .filter), (.both, .blockAll, .filter), (.both, .transIp, .nat),
    (.both, .tagPkts, .mangle), (.both, .vpnTunOnly, .raw)]

end Rules

namespace TrafficSplitting

def tagged (r : IpRule) : Bool := decide (kPacketTag.toList <:+: r.fwmark.toList)

variable (s : TrafficSplitting)

def setup : TrafficSplitting :=
  { s with
    cgroup := some (s.cgroup.getD kCGroupId)
    rules := if s.rules.any tagged then s.rules else s.rules ++ [⟨kPacketTag, kRtableName, 100⟩] }

def teardown : TrafficSplitting :=
  { s with
    rules :=
      if s.rules.any tagged then
        s.rules.eraseP fun r => r.fwmark = kPacketTag ∧ r.lookup = kRtableName
      else s.rules
    rtable := [] }

end TrafficSplitting

namespace Firewall

variable {F : Type} [DecidableEq F] (reads : Reads)

variable (fw : Firewall F)

def setupTrafficSplitting : Firewall F :=
  { fw with splitting := fw.splitting.setup }

def teardownTrafficSplitting : Firewall F :=
  { fw with splitting := fw.splitting.teardown }

def call : Callback → Firewall F → Firewall F
  | .setupTrafficSplitting => setupTrafficSplitting
  | .teardownTrafficSplitting => teardownTrafficSplitting

def uninstall : Firewall F :=
  fw
  |> unlinkChain reads .both .kRootChain .kOutputChain .filter
  |> deleteChain reads .both .kRootChain .filter
  |> unlinkChain reads .both .kRootChain .kPreRoutingChain .raw
  |> deleteChain reads .both .kRootChain .raw
  |> unlinkChain reads .both .kRootChain .kPostRoutingChain .nat
  |> deleteChain reads .both .kRootChain .nat
  |> unlinkChain reads .both .kRootChain .kOutputChain .mangle
  |> deleteChain reads .both .kRootChain .mangle
  |> (fun fw => uninstalledAnchors.foldl (fun fw s => uninstallAnchor reads s.1 s.2.1 s.2.2 fw) fw)
  |> teardownTrafficSplitting

def install : Firewall F :=
  uninstall reads fw
  |> createChain reads .both .kRootChain .filter
  |> createChain reads .both .kRootChain .raw
  |> createChain reads .both .kRootChain .nat
  |> createChain reads .both .kRootChain .mangle
  |> (fun fw => anchorSpecs.foldl (fun fw spec => installAnchor reads spec fw) fw)
  |> linkChain reads .both .kRootChain .kOutputChain true .filter
  |> linkChain reads .both .kRootChain .kPostRoutingChain true .nat
  |> linkChain reads .both .kRootChain .kOutputChain true .mangle
  |> linkChain reads .both .kRootChain .kPreRoutingChain true .raw
  |> setupTrafficSplitting

def isInstalled : Bool :=
  (run reads (.cmd (.check .kOutputChain (.jump .kRootChain))) (fw.chains .ipv4 .filter)).2

variable (ip : IPVersion) (a : Anchor) (table : TableName)

def enableAnchor : Firewall F → Firewall F :=
  ip.each fun v => execute reads v table (enableAnchorScript a)

def disableAnchor : Firewall F → Firewall F :=
  ip.each fun v => execute reads v table (disableAnchorScript a)

def runCallback (enabled : Bool) (table : TableName) (a : Anchor) (fw : Firewall F) :
    Firewall F :=
  match fw.anchorCallbacks enabled table a with
  | some f => call f fw
  | none => fw

def setAnchorEnabled (enabled : Bool) (table : TableName := .filter) (fw : Firewall F) :
    Firewall F :=
  if enabled then runCallback true table a (enableAnchor reads ip a table fw)
  else runCallback false table a (disableAnchor reads ip a table fw)

/-- Replace the rules of an anchor's chain, in the way of the three `update` functions. -/
def updateAnchor (rules : List (Rule F)) (fw : Firewall F) : Firewall F :=
  appendRules reads .ipv4 .filter (.actualChain a) rules
    (execute reads .ipv4 .filter (.cmd (.flush (.actualChain a))) fw)

variable (servers : List String)

def updateDNSServers : Firewall F → Firewall F :=
  updateAnchor reads .allowDNS (getDNSRules servers)

def updateAllowNets : Firewall F → Firewall F :=
  updateAnchor reads .allowNets (getAllowRule servers)

def updateBlockNets : Firewall F → Firewall F :=
  updateAnchor reads .blockNets (getBlockRule servers)

/-- Four levels of chains are nested in `OUTPUT`. -/
def verdict (others : Others F) (fw : Firewall F) (p : Packet) : Verdict :=
  let t := fw.chains p.family .filter
  (walk (Rule.act reads others p) t 4 ((t .kOutputChain).getD [])).getD
    (if fw.passes p.family then .accept else .drop)

end Firewall

end AmneziaVpn.LinuxFirewall
