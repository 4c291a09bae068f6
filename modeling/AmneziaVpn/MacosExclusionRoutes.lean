import AmneziaVpn.LinuxDaemon

/-!
# Routes past the tunnel on macOS

The monitor keeps the ranges that go past the tunnel and listens to the routing socket: a new
default route sends a message for each of them, and so does a lost one.
-/

namespace AmneziaVpn

open FallibleOps FallibleOps.Op WireguardInterface

structure MacosPlatform where
  attempts : ℕ → Attempt
  calls : ℕ := 0
  m_tunnel : ProcessState := .NotRunning
  device : Device := {}
  m_rtmonitor : Bool := false
  routes : List KernelRoute := []
  m_exclusionRoutes : List IPAddress := []
  defaultIpv4Known : Bool := false
  defaultIpv6Known : Bool := false

namespace MacosPlatform

variable (p : MacosPlatform)

def next : Attempt := p.attempts p.calls

def called : MacosPlatform := { p with calls := p.calls + 1 }

def exited : MacosPlatform :=
  { p with m_tunnel := .NotRunning, device := {}, routes := p.routes.filter (·.via ≠ .tunnel) }

def uapiCommand (f : Device → Device) : Op MacosPlatform := fun p =>
  match p.next with
  | .done =>
      if p.m_tunnel = .Running then (true, { p.called with device := f p.device })
      else (false, p.called)
  | .exited => (false, p.called.exited)
  | _ => (false, p.called)

inductive RtmAction
  | RTM_ADD
  | RTM_DELETE

variable (destination : IPAddress → IPAddress)

/-- An error is taken for success if the route exists, or is not there to delete. -/
def rtmSendRoute (action : RtmAction) (range : IPAddress) (via : Via) : Op MacosPlatform := fun p =>
  if p.next ≠ .done then (false, p.called)
  else
    match action with
    | .RTM_ADD =>
        if ∃ route ∈ p.routes, route.destination = destination range then (true, p.called)
        else (true, { p.called with routes := ⟨destination range, via⟩ :: p.routes })
    | .RTM_DELETE =>
        (true, { p.called with
          routes := p.routes.filter (·.destination ≠ destination range) })

variable (range : IPAddress)

def defaultKnown (p : MacosPlatform) : Bool :=
  match range.type with
  | .IPv4Protocol => p.defaultIpv4Known
  | .IPv6Protocol => p.defaultIpv6Known
  | .UnknownNetworkLayerProtocol => false

def addExclusionRoute : Op MacosPlatform := fun p =>
  if range ∈ p.m_exclusionRoutes then (false, p)
  else
    let p := { p with m_exclusionRoutes := p.m_exclusionRoutes ++ [range] }
    if defaultKnown range p then rtmSendRoute destination .RTM_ADD range .gateway p else (true, p)

def deleteExclusionRoute : Op MacosPlatform := fun p =>
  let p := { p with m_exclusionRoutes := p.m_exclusionRoutes.filter (· ≠ range) }
  if range.type = .UnknownNetworkLayerProtocol then (false, p)
  else rtmSendRoute destination .RTM_DELETE range .gateway p

def routeMonitor : RouteMonitor MacosPlatform where
  present p := p.m_rtmonitor
  insertRoute range := rtmSendRoute destination .RTM_ADD range .tunnel
  deleteRoute range := rtmSendRoute destination .RTM_DELETE range .tunnel
  addExclusionRoute := addExclusionRoute destination
  deleteExclusionRoute := deleteExclusionRoute destination

def macos (qt : QtLibrary) : WireguardUtils MacosPlatform :=
  utils qt (routeMonitor destination) uapiCommand

structure Up (p : MacosPlatform) : Prop where
  allDone : ∀ k, p.calls ≤ k → p.attempts k = .done
  running : p.m_tunnel = .Running
  monitored : p.m_rtmonitor = true

theorem Up.next {p : MacosPlatform} (h : Up p) : p.next = .done := h.allDone p.calls le_rfl

theorem Up.called {p : MacosPlatform} (h : Up p) : Up p.called :=
  ⟨fun k hk => h.allDone k (Nat.le_of_succ_le hk), h.running, h.monitored⟩

section Messages

variable {destination} {p : MacosPlatform} (h : Up p) (range : IPAddress) (via : Via)

include h

theorem rtmSendRoute_add : rtmSendRoute destination .RTM_ADD range via p =
    if ∃ route ∈ p.routes, route.destination = destination range then (true, p.called)
    else (true, { p.called with routes := ⟨destination range, via⟩ :: p.routes }) := by
  simp [rtmSendRoute, h.next]

theorem rtmSendRoute_delete : rtmSendRoute destination .RTM_DELETE range via p =
    (true, { p.called with routes := p.routes.filter (·.destination ≠ destination range) }) := by
  simp [rtmSendRoute, h.next]

theorem up_rtmSendRoute (action : RtmAction) :
    Up (rtmSendRoute destination action range via p).2 := by
  cases action with
  | RTM_ADD =>
    rw [rtmSendRoute_add h]
    split_ifs
    · exact h.called
    · exact ⟨h.called.allDone, h.running, h.monitored⟩
  | RTM_DELETE =>
    rw [rtmSendRoute_delete h]
    exact ⟨h.called.allDone, h.running, h.monitored⟩

end Messages

end MacosPlatform

open FallibleOps

inductive SaFamily
  | AF_UNSPEC
  | AF_INET
  | AF_INET6
  | AF_LINK
  | other
deriving DecidableEq

/-- An entry of the address list of a routing message. -/
structure SockAddr where
  sa_family : SaFamily
  address : List UInt8 := []
  sdl_index : ℕ := 0
deriving DecidableEq

/-- The bytes that are missing are zero. -/
def SockAddr.isDefaultNetmask (sa : SockAddr) : Bool :=
  match sa.sa_family with
  | .AF_INET | .AF_INET6 => sa.address.all (· = 0)
  | .AF_UNSPEC => true
  | .AF_LINK | .other => false

inductive RtmType
  | RTM_ADD
  | RTM_DELETE
  | RTM_CHANGE
  | RTM_GET
  | other
deriving DecidableEq

/-- The addresses are numbered by the bits of `rtm_addrs`. -/
structure RtMsghdr where
  rtm_type : RtmType
  rtm_index : ℕ
  rtm_addrs : ℕ
  ifscope : Bool := false
  ownPid : Bool := false
  addrlist : List SockAddr

namespace RtMsghdr

def RTA_DST : ℕ := 0
def RTA_GATEWAY : ℕ := 1
def RTA_NETMASK : ℕ := 2
def RTA_IFP : ℕ := 4

def hasRoute (rtm : RtMsghdr) : Bool :=
  rtm.rtm_addrs.testBit RTA_DST && rtm.rtm_addrs.testBit RTA_GATEWAY &&
    rtm.rtm_addrs.testBit RTA_NETMASK

/-- The interface of an update, which is nothing if the list ends before its entry. -/
def ifindex (rtm : RtMsghdr) : Option ℕ :=
  if rtm.rtm_addrs.testBit RTA_IFP then
    let addridx := (List.range RTA_IFP).countP rtm.rtm_addrs.testBit
    (rtm.addrlist[addridx]?).map fun sdl =>
      if sdl.sa_family = .AF_LINK then sdl.sdl_index else rtm.rtm_index
  else some rtm.rtm_index

end RtMsghdr

/-- The range stands for the destination and the netmask. -/
structure RouteMessage where
  rtm_type : RtmType
  range : IPAddress
  ifindex : ℕ
  gateway : Option SockAddr
deriving DecidableEq

inductive Errno
  | EEXIST
  | ESRCH
  | other
deriving DecidableEq

structure WriteResult where
  whole : Bool
  errno : Errno

def WriteResult.accepted (result : WriteResult) (action : RtmType) : Bool :=
  result.whole || (action = .RTM_ADD && result.errno = .EEXIST) ||
    (action = .RTM_DELETE && result.errno = .ESRCH)

structure MacosRouteMonitor where
  m_ifindex : ℕ
  m_exclusionRoutes : List IPAddress := []
  m_defaultGatewayIpv4 : Option SockAddr := none
  m_defaultGatewayIpv6 : Option SockAddr := none
  m_defaultIfindexIpv4 : ℕ := 0
  m_defaultIfindexIpv6 : ℕ := 0
  writes : ℕ → WriteResult
  calls : ℕ := 0
  sent : List RouteMessage := []

namespace MacosRouteMonitor

variable (m : MacosRouteMonitor)

def next : WriteResult := m.writes m.calls

def rtmSendRoute (action : RtmType) (range : IPAddress) (ifindex : ℕ) (gateway : Option SockAddr) :
    Op MacosRouteMonitor := fun m =>
  (m.next.accepted action,
    { m with calls := m.calls + 1, sent := m.sent ++ [⟨action, range, ifindex, gateway⟩] })

/-- The default route of a family, if both its interface and its gateway are known. -/
def defaultRoute : NetworkLayerProtocol → Option (ℕ × SockAddr)
  | .IPv4Protocol =>
      if m.m_defaultIfindexIpv4 ≠ 0 then m.m_defaultGatewayIpv4.map (m.m_defaultIfindexIpv4, ·)
      else none
  | .IPv6Protocol =>
      if m.m_defaultIfindexIpv6 ≠ 0 then m.m_defaultGatewayIpv6.map (m.m_defaultIfindexIpv6, ·)
      else none
  | .UnknownNetworkLayerProtocol => none

variable (range : IPAddress)

def addExclusionRoute : Op MacosRouteMonitor := fun m =>
  if range ∈ m.m_exclusionRoutes then (false, m)
  else
    let m := { m with m_exclusionRoutes := m.m_exclusionRoutes ++ [range] }
    match m.defaultRoute range.type with
    | some (ifindex, gateway) => rtmSendRoute .RTM_ADD range ifindex (some gateway) m
    | none => (true, m)

def sendDelete : Op MacosRouteMonitor := fun m =>
  match range.type with
  | .IPv4Protocol => rtmSendRoute .RTM_DELETE range m.m_defaultIfindexIpv4 none m
  | .IPv6Protocol => rtmSendRoute .RTM_DELETE range m.m_defaultIfindexIpv6 none m
  | .UnknownNetworkLayerProtocol => (false, m)

def deleteExclusionRoute : Op MacosRouteMonitor := fun m =>
  sendDelete range { m with m_exclusionRoutes := m.m_exclusionRoutes.filter (· ≠ range) }

def flushExclusionRoutes : MacosRouteMonitor :=
  m.m_exclusionRoutes.foldl (fun m range => (sendDelete range m).2) { m with m_exclusionRoutes := [] }

/-- The loop over the ranges of one family at the end of both handlers. -/
def resend (action : RtmType) (protocol : NetworkLayerProtocol) (ifindex : ℕ)
    (gateway : Option SockAddr) (m : MacosRouteMonitor) : MacosRouteMonitor :=
  m.m_exclusionRoutes.foldl
    (fun m range =>
      if range.type = protocol then (rtmSendRoute action range ifindex gateway m).2 else m) m

variable (stray : NetworkLayerProtocol)

/-- `stray` is what the variable for the family holds if the destination is of no known one. -/
def handleRtmDelete (rtm : RtMsghdr) (m : MacosRouteMonitor) : MacosRouteMonitor :=
  match rtm.addrlist with
  | dst :: _ :: netmask :: _ =>
      if rtm.rtm_index = m.m_ifindex ∨ ¬ rtm.hasRoute ∨ rtm.ifscope ∨ ¬ netmask.isDefaultNetmask then m
      else
        match dst.sa_family with
        | .AF_INET =>
            resend .RTM_DELETE .IPv4Protocol rtm.rtm_index none
              { m with m_defaultGatewayIpv4 := none, m_defaultIfindexIpv4 := 0 }
        | .AF_INET6 =>
            resend .RTM_DELETE .IPv6Protocol rtm.rtm_index none
              { m with m_defaultGatewayIpv6 := none, m_defaultIfindexIpv6 := 0 }
        | _ => resend .RTM_DELETE stray rtm.rtm_index none m
  | _ => m

/-- The type of the message for a range whose default route was at the interface `old`. -/
def updateType (old : ℕ) : RtmType := if old ≠ 0 then .RTM_CHANGE else .RTM_ADD

def handleRtmUpdate (rtm : RtMsghdr) (m : MacosRouteMonitor) : MacosRouteMonitor :=
  match rtm.addrlist with
  | dst :: gateway :: netmask :: _ =>
      if ¬ rtm.hasRoute ∨ rtm.ifscope ∨ rtm.rtm_index = m.m_ifindex ∨
          (rtm.ownPid ∧ rtm.rtm_type ≠ .RTM_GET) then m
      else
        match rtm.ifindex with
        | none => m
        | some ifindex =>
            if ¬ netmask.isDefaultNetmask then m
            else
              match dst.sa_family with
              | .AF_INET =>
                  resend (updateType m.m_defaultIfindexIpv4) .IPv4Protocol ifindex (some gateway)
                    { m with m_defaultGatewayIpv4 := some gateway, m_defaultIfindexIpv4 := ifindex }
              | .AF_INET6 =>
                  resend (updateType m.m_defaultIfindexIpv6) .IPv6Protocol ifindex (some gateway)
                    { m with m_defaultGatewayIpv6 := some gateway, m_defaultIfindexIpv6 := ifindex }
              | _ => m
  | _ => m

def handleMessage (m : MacosRouteMonitor) (rtm : RtMsghdr) : MacosRouteMonitor :=
  match rtm.rtm_type with
  | .RTM_ADD | .RTM_CHANGE | .RTM_GET => handleRtmUpdate rtm m
  | .RTM_DELETE => handleRtmDelete stray rtm m
  | .other => m

def rtsockReady (messages : List RtMsghdr) (m : MacosRouteMonitor) : MacosRouteMonitor :=
  messages.foldl (handleMessage stray) m

inductive Event
  | add (range : IPAddress)
  | delete (range : IPAddress)
  | flush
  | messages (stray : NetworkLayerProtocol) (messages : List RtMsghdr)

def step : Event → MacosRouteMonitor
  | .add range => (addExclusionRoute range m).2
  | .delete range => (deleteExclusionRoute range m).2
  | .flush => flushExclusionRoutes m
  | .messages stray messages => rtsockReady stray messages m

def run (events : List Event) (m : MacosRouteMonitor) : MacosRouteMonitor := events.foldl step m

section Tracked

variable (m : MacosRouteMonitor) (range : IPAddress)

theorem m_exclusionRoutes_addExclusionRoute :
    (addExclusionRoute range m).2.m_exclusionRoutes =
      if range ∈ m.m_exclusionRoutes then m.m_exclusionRoutes
      else m.m_exclusionRoutes ++ [range] := by
  unfold addExclusionRoute
  split_ifs
  · rfl
  · dsimp only
    split <;> rfl

end Tracked

section Retry

variable (range : IPAddress) (m : MacosRouteMonitor)

/-- The call records the range and, if the default route is known, writes a message for it. -/
def Attempts : Prop :=
  (addExclusionRoute range m).2.m_exclusionRoutes = m.m_exclusionRoutes ++ [range] ∧
    ∀ route, m.defaultRoute range.type = some route →
      (addExclusionRoute range m).2.sent =
        m.sent ++ [⟨.RTM_ADD, range, route.1, some route.2⟩]

def Retryable : Prop :=
  (addExclusionRoute range m).1 = false →
    (addExclusionRoute range m).2.m_exclusionRoutes = m.m_exclusionRoutes ∧
      (range ∉ m.m_exclusionRoutes →
        ∀ later : List Event, (∀ event ∈ later, event ≠ .add range) →
          Attempts range (run later (addExclusionRoute range m).2))

def SendFails : Prop :=
  range ∉ m.m_exclusionRoutes ∧ (m.defaultRoute range.type).isSome ∧
    m.next.accepted .RTM_ADD = false

variable {range m}

theorem addExclusionRoute_of_mem (h : range ∈ m.m_exclusionRoutes) :
    addExclusionRoute range m = (false, m) := by
  unfold addExclusionRoute
  rw [if_pos h]

theorem addExclusionRoute_eq_false_iff :
    (addExclusionRoute range m).1 = false ↔ range ∈ m.m_exclusionRoutes ∨ SendFails range m := by
  by_cases h : range ∈ m.m_exclusionRoutes
  · simp [addExclusionRoute_of_mem h, h]
  · have hdefault : defaultRoute { m with m_exclusionRoutes := m.m_exclusionRoutes ++ [range] }
        range.type = m.defaultRoute range.type := rfl
    unfold addExclusionRoute SendFails
    rw [if_neg h]
    dsimp only
    rw [hdefault]
    cases m.defaultRoute range.type with
    | none => simp [h]
    | some route => simp [h, rtmSendRoute, next]

theorem retryable_iff : Retryable range m ↔ ¬ SendFails range m := by
  constructor
  · intro h hfails
    have hroutes := (h (addExclusionRoute_eq_false_iff.mpr (Or.inr hfails))).1
    rw [m_exclusionRoutes_addExclusionRoute, if_neg hfails.1] at hroutes
    simpa using congrArg List.length hroutes
  · intro hsends hfalse
    have hmem := (addExclusionRoute_eq_false_iff.mp hfalse).resolve_right hsends
    rw [addExclusionRoute_of_mem hmem]
    exact ⟨rfl, fun hnew => absurd hmem hnew⟩

/-- Every failed addition can be tried again if none fails at the socket. -/
theorem addExclusionRoute_retryable_iff (events : List Event) (m : MacosRouteMonitor) :
    (∀ before range after, events = before ++ .add range :: after → Retryable range (run before m)) ↔
      ∀ before range after, events = before ++ .add range :: after →
        ¬ SendFails range (run before m) := by
  simp only [retryable_iff]

def firstWriteFails : MacosRouteMonitor where
  m_ifindex := 7
  writes k := ⟨k ≠ 0, .other⟩

def defaultRouteMessage : RtMsghdr where
  rtm_type := .RTM_ADD
  rtm_index := 4
  rtm_addrs := 7
  addrlist := [⟨.AF_INET, [], 0⟩, ⟨.AF_INET, [192, 168, 0, 1], 0⟩, ⟨.AF_INET, [0, 0, 0, 0], 0⟩]

def resolver : IPAddress := ⟨.ipv4 0x08080808, 32⟩

/-- The next addition is refused although the socket works again. -/
theorem not_retryable_firstWriteFails :
    let m := run [.messages .UnknownNetworkLayerProtocol [defaultRouteMessage]] firstWriteFails
    let failed := addExclusionRoute resolver m
    let again := addExclusionRoute resolver failed.2
    ¬ Retryable resolver m ∧ m.m_exclusionRoutes = [] ∧
      failed.1 = false ∧ failed.2.m_exclusionRoutes = [resolver] ∧
      failed.2.next.accepted .RTM_ADD = true ∧ again.1 = false ∧
      again.2.sent = failed.2.sent := by
  refine ⟨?_, ?_⟩
  · rw [retryable_iff, not_not]
    unfold SendFails
    decide
  · decide

end Retry

end MacosRouteMonitor

end AmneziaVpn
