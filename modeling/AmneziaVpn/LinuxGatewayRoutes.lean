import AmneziaVpn.IpAddressText
import AmneziaVpn.LinuxDaemon
import AmneziaVpn.RunInvariants

/-!
# Routes over the default gateway

On Linux a route past the tunnel leads over the default gateway, and both its addition and its
deletion look the gateway up when they are called.
-/

namespace AmneziaVpn

open FallibleOps List Daemon Option

/-- `struct in_addr` -/
def InAddr := { bytes : List UInt8 // bytes.length = 4 }

instance : DecidableEq InAddr := inferInstanceAs (DecidableEq { bytes : List UInt8 // bytes.length = 4 })

variable (address : InAddr)

def InAddr.inet_ntop : String := .ofList (dottedDecimal address.1)

/-- `inet_pton` for `AF_INET` -/
def InAddr.inet_pton (text : String) : Option InAddr :=
  (parseDottedDecimal text.toList).bind fun bytes =>
    if h : bytes.length = 4 then some ⟨bytes, h⟩ else none

theorem InAddr.inet_pton_inet_ntop : inet_pton address.inet_ntop = some address := by
  unfold inet_pton inet_ntop
  rw [String.toList_ofList, parseDottedDecimal_dottedDecimal address.2]
  exact dif_pos address.2

theorem InAddr.inet_pton_empty : inet_pton "" = none := by decide

inductive Nexthop
  | oif
  | gateway (address : InAddr)
deriving DecidableEq

structure NetlinkRoute where
  destination : IPAddress
  priority : ℕ
  nexthop : Nexthop
deriving DecidableEq

inductive RouteAction
  | RTM_NEWROUTE
  | RTM_DELROUTE

inductive RouteType
  | RTN_UNICAST
  | RTN_THROW

/-- A new route replaces the one of its destination and priority. -/
def RouteAction.apply (route : NetlinkRoute) (routes : List NetlinkRoute) :
    RouteAction → List NetlinkRoute
  | .RTM_NEWROUTE => route :: routes.filter fun r =>
      ¬ (r.destination = route.destination ∧ r.priority = route.priority)
  | .RTM_DELROUTE => routes.filter (· ≠ route)

/-- The monitor, the kernel and what is on the stack at each message. -/
structure LinuxRouteMonitor where
  attempts : ℕ → Attempt
  stack : ℕ → InAddr
  calls : ℕ := 0
  m_rtmonitor : Bool := true
  tunnel : Bool := true
  defaultGateway : Option InAddr := none
  routes : List NetlinkRoute := []

namespace LinuxRouteMonitor

variable (m : LinuxRouteMonitor)

def next : Attempt := m.attempts m.calls

def getGatewayAndIface : String := (m.defaultGateway.map InAddr.inet_ntop).getD ""

/-- The variable for the gateway, which is set only if the text is an address. -/
def ip4 (gateway : String) (stack : InAddr) : InAddr := (InAddr.inet_pton gateway).getD stack

/-- The route of a message, unless the function returns before it is sent. -/
def message (type : RouteType) (range : IPAddress) (m : LinuxRouteMonitor) : Option NetlinkRoute :=
  if range.type = .UnknownNetworkLayerProtocol then none
  else
    match type with
    | .RTN_UNICAST => if m.tunnel then some ⟨range, 1, .oif⟩ else none
    | .RTN_THROW => some ⟨range, 0, .gateway (ip4 m.getGatewayAndIface (m.stack m.calls))⟩

def rtmSendRoute (action : RouteAction) (type : RouteType) (range : IPAddress) :
    Op LinuxRouteMonitor := fun m =>
  match m.message type range with
  | none => (false, m)
  | some route =>
      match m.next with
      | .done => (true, { m with calls := m.calls + 1, routes := action.apply route m.routes })
      | .refused => (true, { m with calls := m.calls + 1 })
      | _ => (false, { m with calls := m.calls + 1 })

def routeMonitor : RouteMonitor LinuxRouteMonitor where
  present m := m.m_rtmonitor
  insertRoute := rtmSendRoute .RTM_NEWROUTE .RTN_UNICAST
  deleteRoute := rtmSendRoute .RTM_DELROUTE .RTN_UNICAST
  addExclusionRoute := rtmSendRoute .RTM_NEWROUTE .RTN_THROW
  deleteExclusionRoute := rtmSendRoute .RTM_DELROUTE .RTN_THROW

def viaGateway (range : IPAddress) (address : InAddr) : NetlinkRoute := ⟨range, 0, .gateway address⟩

section Messages

variable {m : LinuxRouteMonitor} {range : IPAddress}

theorem ip4_getGatewayAndIface (m : LinuxRouteMonitor) (stack : InAddr) :
    ip4 m.getGatewayAndIface stack = m.defaultGateway.getD stack := by
  unfold ip4 getGatewayAndIface
  cases m.defaultGateway with
  | none => rw [map_none, getD_none, InAddr.inet_pton_empty]
  | some address => rw [map_some, getD_some, InAddr.inet_pton_inet_ntop]

theorem message_throw (h : range.type ≠ .UnknownNetworkLayerProtocol) :
    m.message .RTN_THROW range = some (viaGateway range (m.defaultGateway.getD (m.stack m.calls))) := by
  unfold message
  rw [if_neg h, ip4_getGatewayAndIface]
  rfl

theorem message_unknown (h : range.type = .UnknownNetworkLayerProtocol) (type : RouteType) :
    m.message type range = none := if_pos h

variable {route : NetlinkRoute}

theorem destination_of_message {type : RouteType} (h : m.message type range = some route) :
    route.destination = range := by
  cases type with
  | RTN_UNICAST =>
    unfold message at h
    split_ifs at h
    obtain rfl := some.inj h
    rfl
  | RTN_THROW =>
    by_cases hknown : range.type = .UnknownNetworkLayerProtocol
    · rw [message_unknown hknown] at h
      cases h
    · rw [message_throw hknown] at h
      obtain rfl := some.inj h
      rfl

theorem mem_routes_rtmSendRoute {action : RouteAction} {type : RouteType}
    (h : route.destination ≠ range) :
    route ∈ (rtmSendRoute action type range m).2.routes ↔ route ∈ m.routes := by
  unfold rtmSendRoute
  cases hr : m.message type range with
  | none => rfl
  | some r =>
    have hdest := destination_of_message hr
    have hne : route ≠ r := fun heq => h (heq ▸ hdest)
    cases m.next with
    | done => cases action <;> simp [RouteAction.apply, hne, hdest, h]
    | refused => rfl
    | failed => rfl
    | exited => rfl

theorem rtmSendRoute_throw (h : range.type ≠ .UnknownNetworkLayerProtocol) (hdone : m.next = .done)
    (action : RouteAction) :
    (rtmSendRoute action .RTN_THROW range m).2.routes =
      action.apply (viaGateway range (m.defaultGateway.getD (m.stack m.calls))) m.routes := by
  unfold rtmSendRoute
  rw [message_throw h, hdone]

@[simp] theorem m_rtmonitor_rtmSendRoute (action : RouteAction) (type : RouteType) :
    (rtmSendRoute action type range m).2.m_rtmonitor = m.m_rtmonitor := by
  unfold rtmSendRoute
  split
  · rfl
  · split <;> rfl

end Messages

end LinuxRouteMonitor

open LinuxRouteMonitor RunInvariants

namespace GatewayRuns

variable (qt : QtLibrary) (uapi : (Device → Device) → Op LinuxRouteMonitor)

def utils : WireguardUtils LinuxRouteMonitor := WireguardInterface.utils qt routeMonitor uapi

inductive Event
  | gateway (address : Option InAddr)
  | add (range : IPAddress)
  | del (range : IPAddress)

def step (d : Daemon LinuxRouteMonitor) : Event → Daemon LinuxRouteMonitor
  | .gateway address => { d with platform := { d.platform with defaultGateway := address } }
  | .add range => (addExclusionRoute (utils qt uapi) range d).2
  | .del range => (delExclusionRoute (utils qt uapi) range d).2

def run (events : List Event) (d : Daemon LinuxRouteMonitor) : Daemon LinuxRouteMonitor :=
  events.foldl (step qt uapi) d

section Steps

variable {qt uapi} {d : Daemon LinuxRouteMonitor} {range : IPAddress}

theorem addExclusionRoute_of_mem (h : range ∈ d.m_excludedAddrSet) :
    addExclusionRoute (utils qt uapi) range d =
      (true, { d with m_excludedAddrSet := range :: d.m_excludedAddrSet }) := if_pos h

theorem addExclusionRoute_platform (h : range ∉ d.m_excludedAddrSet) :
    (addExclusionRoute (utils qt uapi) range d).1 =
        ((utils qt uapi).addExclusionRoute range d.platform).1 ∧
      (addExclusionRoute (utils qt uapi) range d).2.platform =
        ((utils qt uapi).addExclusionRoute range d.platform).2 := by
  unfold addExclusionRoute
  rw [if_neg h]
  dsimp only
  split_ifs with hadded
  · exact ⟨hadded.symm, rfl⟩
  · exact ⟨(Bool.eq_false_iff.mpr hadded).symm, rfl⟩

theorem m_excludedAddrSet_delExclusionRoute (qt : QtLibrary)
    (uapi : (Device → Device) → Op LinuxRouteMonitor) (d : Daemon LinuxRouteMonitor)
    (range : IPAddress) :
    (delExclusionRoute (utils qt uapi) range d).2.m_excludedAddrSet =
      d.m_excludedAddrSet.erase range := by
  unfold delExclusionRoute
  dsimp only
  split_ifs <;> rfl

variable {m : LinuxRouteMonitor}

theorem utils_addExclusionRoute :
    (utils qt uapi).addExclusionRoute range m =
      if m.m_rtmonitor then rtmSendRoute .RTM_NEWROUTE .RTN_THROW range m else (false, m) := by
  change WireguardInterface.addExclusionRoute routeMonitor range m = _
  unfold WireguardInterface.addExclusionRoute
  cases h : m.m_rtmonitor <;> simp [routeMonitor, h]

theorem utils_deleteExclusionRoute :
    (utils qt uapi).deleteExclusionRoute range m =
      if m.m_rtmonitor then rtmSendRoute .RTM_DELROUTE .RTN_THROW range m else (false, m) := by
  change WireguardInterface.deleteExclusionRoute routeMonitor range m = _
  unfold WireguardInterface.deleteExclusionRoute
  cases h : m.m_rtmonitor <;> simp [routeMonitor, h]

variable {route : NetlinkRoute}

theorem mem_routes_addExclusionRoute (h : route.destination ≠ range) :
    route ∈ ((utils qt uapi).addExclusionRoute range m).2.routes ↔ route ∈ m.routes := by
  rw [utils_addExclusionRoute]
  split_ifs
  · exact mem_routes_rtmSendRoute h
  · rfl

theorem mem_routes_deleteExclusionRoute (h : route.destination ≠ range) :
    route ∈ ((utils qt uapi).deleteExclusionRoute range m).2.routes ↔ route ∈ m.routes := by
  rw [utils_deleteExclusionRoute]
  split_ifs
  · exact mem_routes_rtmSendRoute h
  · rfl

theorem delExclusionRoute_platform (h : d.m_excludedAddrSet.count range ≤ 1) :
    (delExclusionRoute (utils qt uapi) range d).2.platform =
      ((utils qt uapi).deleteExclusionRoute range d.platform).2 := by
  unfold delExclusionRoute
  rw [if_neg (by omega)]
  rfl

theorem mem_routes_step {event : Event} (h : range ∈ d.m_excludedAddrSet)
    (h' : range ∈ (step qt uapi d event).m_excludedAddrSet) (hroute : route.destination = range) :
    route ∈ (step qt uapi d event).platform.routes ↔ route ∈ d.platform.routes := by
  cases event with
  | gateway address => rfl
  | add other =>
    by_cases hother : other ∈ d.m_excludedAddrSet
    · rw [step, addExclusionRoute_of_mem hother]
    · have hne : route.destination ≠ other := fun heq => hother (heq ▸ hroute ▸ h)
      rw [step, (addExclusionRoute_platform hother).2]
      exact mem_routes_addExclusionRoute hne
  | del other =>
    by_cases hother : d.m_excludedAddrSet.count other ≤ 1
    · have hne : route.destination ≠ other := by
        rintro rfl
        rw [hroute] at hother
        have hgone := m_excludedAddrSet_delExclusionRoute qt uapi d range
        rw [step, hroute, hgone, ← count_pos_iff, count_erase_self] at h'
        omega
      rw [step, delExclusionRoute_platform hother]
      exact mem_routes_deleteExclusionRoute hne
    · rw [step, delExclusionRoute, if_pos (by omega)]

theorem m_rtmonitor_step (event : Event) :
    (step qt uapi d event).platform.m_rtmonitor = d.platform.m_rtmonitor := by
  cases event with
  | gateway address => rfl
  | add other =>
    by_cases hother : other ∈ d.m_excludedAddrSet
    · rw [step, addExclusionRoute_of_mem hother]
    · rw [step, (addExclusionRoute_platform hother).2, utils_addExclusionRoute]
      split_ifs
      · exact m_rtmonitor_rtmSendRoute _ _
      · rfl
  | del other =>
    by_cases hother : d.m_excludedAddrSet.count other ≤ 1
    · rw [step, delExclusionRoute_platform hother, utils_deleteExclusionRoute]
      split_ifs
      · exact m_rtmonitor_rtmSendRoute _ _
      · rfl
    · rw [step, delExclusionRoute, if_pos (by omega)]

theorem m_rtmonitor_run (events : List Event) :
    (run qt uapi events d).platform.m_rtmonitor = d.platform.m_rtmonitor := by
  induction events generalizing d with
  | nil => rfl
  | cons event events ih => rw [run, foldl_cons, ← run, ih, m_rtmonitor_step]

end Steps

section Pairs

/-- An addition and the deletion that takes it back. -/
structure Paired (d : Daemon LinuxRouteMonitor) (range : IPAddress) (between : List Event) :
    Prop where
  fresh : range ∉ d.m_excludedAddrSet
  added : (addExclusionRoute (utils qt uapi) range d).1 = true
  counted : Throughout (step qt uapi) (range ∈ ·.m_excludedAddrSet) between
    (step qt uapi d (.add range))
  last : (run qt uapi (.add range :: between) d).m_excludedAddrSet.count range = 1
  taken : (run qt uapi (.add range :: between) d).platform.next = .done

def Installs (d : Daemon LinuxRouteMonitor) (range : IPAddress) (route : NetlinkRoute) : Prop :=
  d.platform.message .RTN_THROW range = some route ∧ d.platform.next = .done

/-- The message is the same whatever is on the stack. -/
def StackFree (m : LinuxRouteMonitor) (range : IPAddress) : Prop :=
  ∀ stack stack', message .RTN_THROW range { m with stack } =
    message .RTN_THROW range { m with stack := stack' }

structure Inverse (d : Daemon LinuxRouteMonitor) (range : IPAddress) (between : List Event) :
    Prop where
  removed : ∀ route, Installs d range route →
    route ∉ (run qt uapi (.add range :: between ++ [.del range]) d).platform.routes
  add_defined : StackFree d.platform range
  del_defined : StackFree (run qt uapi (.add range :: between) d).platform range

/-- Both calls find a gateway, and the same one if the route was installed. -/
def SameGateway (d : Daemon LinuxRouteMonitor) (range : IPAddress) (between : List Event) : Prop :=
  ∃ address address', d.platform.defaultGateway = some address ∧
    (run qt uapi (.add range :: between) d).platform.defaultGateway = some address' ∧
    (d.platform.next = .done → address' = address)

theorem stackFree_iff {m : LinuxRouteMonitor} {range : IPAddress}
    (h : range.type ≠ .UnknownNetworkLayerProtocol) :
    StackFree m range ↔ ∃ address, m.defaultGateway = some address := by
  unfold StackFree
  simp only [message_throw h]
  cases m.defaultGateway with
  | none =>
    refine iff_of_false (fun hsame => ?_) (by simp)
    have hroute := some.inj
      (hsame (fun _ => ⟨[0, 0, 0, 0], rfl⟩) fun _ => ⟨[0, 0, 0, 1], rfl⟩)
    have hbytes : (⟨[0, 0, 0, 0], rfl⟩ : InAddr) = ⟨[0, 0, 0, 1], rfl⟩ :=
      Nexthop.gateway.inj (congrArg NetlinkRoute.nexthop hroute)
    exact absurd hbytes (by decide)
  | some address => simp

variable {qt uapi} {d : Daemon LinuxRouteMonitor} {range : IPAddress} {between : List Event}

variable {route : NetlinkRoute}

theorem mem_routes_run (h : Throughout (step qt uapi) (range ∈ ·.m_excludedAddrSet) between d)
    (hroute : route.destination = range) :
    route ∈ (run qt uapi between d).platform.routes ↔ route ∈ d.platform.routes := by
  induction between generalizing d with
  | nil => rfl
  | cons event between ih =>
    obtain ⟨hd, hrest⟩ := throughout_cons.mp h
    rw [run, foldl_cons, ← run, ih hrest]
    exact mem_routes_step hd (hrest [] between rfl) hroute

theorem Paired.sent (h : Paired qt uapi d range between) :
    d.platform.m_rtmonitor = true ∧ range.type ≠ .UnknownNetworkLayerProtocol := by
  have hadded := h.added
  rw [(addExclusionRoute_platform h.fresh).1, utils_addExclusionRoute] at hadded
  split_ifs at hadded with hmonitor
  refine ⟨hmonitor, fun htype => ?_⟩
  rw [rtmSendRoute, message_unknown htype] at hadded
  cases hadded

theorem Paired.mem_routes (h : Paired qt uapi d range between) (hroute : Installs d range route) :
    route ∈ (run qt uapi (.add range :: between) d).platform.routes := by
  obtain ⟨hmonitor, htype⟩ := h.sent
  obtain ⟨hmessage, hdone⟩ := hroute
  have hadd : (step qt uapi d (.add range)).platform =
      (rtmSendRoute .RTM_NEWROUTE .RTN_THROW range d.platform).2 := by
    rw [step, (addExclusionRoute_platform h.fresh).2, utils_addExclusionRoute, if_pos hmonitor]
  apply (mem_routes_run h.counted (destination_of_message hmessage)).mpr
  rw [message_throw htype] at hmessage
  rw [hadd, rtmSendRoute_throw htype hdone, ← some.inj hmessage]
  exact mem_cons_self

theorem Paired.mem_routes_del_iff (h : Paired qt uapi d range between)
    (hroute : Installs d range route) :
    route ∈ (run qt uapi (.add range :: between ++ [.del range]) d).platform.routes ↔
      message .RTN_THROW range (run qt uapi (.add range :: between) d).platform ≠ some route := by
  obtain ⟨hmonitor, htype⟩ := h.sent
  have hrun : run qt uapi (.add range :: between ++ [.del range]) d =
      step qt uapi (run qt uapi (.add range :: between) d) (.del range) := foldl_append
  rw [hrun, step, delExclusionRoute_platform h.last.le, utils_deleteExclusionRoute,
    if_pos ((m_rtmonitor_run _).trans hmonitor), rtmSendRoute_throw htype h.taken,
    message_throw htype]
  change route ∈ List.filter _ _ ↔ _
  rw [mem_filter, and_iff_right (h.mem_routes hroute), decide_eq_true_iff, ne_comm, Ne, Ne,
    some.injEq]

/-- A deletion takes its addition back if both find the same gateway. -/
theorem inverse_iff (h : Paired qt uapi d range between) :
    Inverse qt uapi d range between ↔ SameGateway qt uapi d range between := by
  have htype := h.sent.2
  constructor
  · rintro ⟨hremoved, hadd, hdel⟩
    obtain ⟨address, haddress⟩ := (stackFree_iff htype).mp hadd
    obtain ⟨address', haddress'⟩ := (stackFree_iff htype).mp hdel
    refine ⟨address, address', haddress, haddress', fun hdone => ?_⟩
    have hinstalls : Installs d range (viaGateway range address) := by
      refine ⟨?_, hdone⟩
      rw [message_throw htype, haddress, getD_some]
    have hgone := hremoved _ hinstalls
    rw [h.mem_routes_del_iff hinstalls, not_not, message_throw htype, haddress',
      getD_some] at hgone
    simpa [viaGateway] using hgone
  · rintro ⟨address, address', haddress, haddress', hsame⟩
    refine ⟨fun route hroute => ?_, (stackFree_iff htype).mpr ⟨_, haddress⟩,
      (stackFree_iff htype).mpr ⟨_, haddress'⟩⟩
    rw [h.mem_routes_del_iff hroute, not_not, message_throw htype, haddress', hsame hroute.2]
    rw [← hroute.1, message_throw htype, haddress]
    rfl

def smoothDaemon (stack : InAddr) : Daemon LinuxRouteMonitor :=
  initial { attempts := fun _ => .done, stack := fun _ => stack,
                   defaultGateway := some ⟨[192, 168, 0, 1], rfl⟩ }

def noCommands : (Device → Device) → Op LinuxRouteMonitor := fun _ m => (true, m)

def resolverRange : IPAddress := ⟨.ipv4 0x08080808, 32⟩

theorem paired_smoothDaemon (stack : InAddr) (address : Option InAddr) :
    Paired sampleQt noCommands (smoothDaemon stack) resolverRange [.gateway address] where
  fresh := not_mem_nil
  added := rfl
  counted := by
    refine throughout_cons.mpr ⟨mem_singleton_self _, fun before after hevents => ?_⟩
    obtain ⟨rfl, -⟩ := append_eq_nil_iff.mp hevents.symm
    exact mem_singleton_self _
  last := rfl
  taken := rfl

theorem inverse_same_gateway :
    Inverse sampleQt noCommands (smoothDaemon ⟨[0, 0, 0, 0], rfl⟩) resolverRange
      [.gateway (some ⟨[192, 168, 0, 1], rfl⟩)] :=
  (inverse_iff (paired_smoothDaemon _ _)).mpr ⟨_, _, rfl, rfl, fun _ => rfl⟩

/-- The route over the first gateway is left behind. -/
theorem not_inverse_other_gateway :
    (Installs (smoothDaemon ⟨[0, 0, 0, 0], rfl⟩) resolverRange
        (viaGateway resolverRange ⟨[192, 168, 0, 1], rfl⟩) ∧
      viaGateway resolverRange ⟨[192, 168, 0, 1], rfl⟩ ∈
        (run sampleQt noCommands [.add resolverRange, .gateway (some ⟨[10, 0, 0, 1], rfl⟩),
          .del resolverRange] (smoothDaemon ⟨[0, 0, 0, 0], rfl⟩)).platform.routes ∧
      ¬ Inverse sampleQt noCommands (smoothDaemon ⟨[0, 0, 0, 0], rfl⟩) resolverRange
        [.gateway (some ⟨[10, 0, 0, 1], rfl⟩)]) ∧
    ¬ StackFree (run sampleQt noCommands [.add resolverRange, .gateway none]
        (smoothDaemon ⟨[0, 0, 0, 0], rfl⟩)).platform resolverRange := by
  have hinstalls : Installs (smoothDaemon ⟨[0, 0, 0, 0], rfl⟩) resolverRange
      (viaGateway resolverRange ⟨[192, 168, 0, 1], rfl⟩) := ⟨by decide +kernel, rfl⟩
  have hleft : viaGateway resolverRange ⟨[192, 168, 0, 1], rfl⟩ ∈
      (run sampleQt noCommands [.add resolverRange, .gateway (some ⟨[10, 0, 0, 1], rfl⟩),
        .del resolverRange] (smoothDaemon ⟨[0, 0, 0, 0], rfl⟩)).platform.routes := by
    decide +kernel
  refine ⟨⟨hinstalls, hleft, fun h => h.removed _ hinstalls hleft⟩, ?_⟩
  rw [stackFree_iff (by decide)]
  rintro ⟨address, haddress⟩
  cases haddress

end Pairs

end GatewayRuns

end AmneziaVpn
