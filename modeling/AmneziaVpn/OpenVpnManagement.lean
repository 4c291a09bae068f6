import AmneziaVpn.LineReaders
import AmneziaVpn.OpenVpnProtocol
import AmneziaVpn.QtStringLists

/-!
# Lines of the OpenVPN management connection

Whenever bytes have arrived the handler reads lines until it gets a blank one.
-/

namespace AmneziaVpn.OpenVpnManagement

open TerminatedLines List OpenVpnProtocol Option
open LineReader (newline)

inductive Event
  | writeCommand (message : String)
  | setConnectionState (state : Vpn.ConnectionState)
  | setBytesChanged (received sent : ℕ)
  | protocolError (adaptersInUse : Bool)
  deriving DecidableEq

structure Handler where
  m_routeGateway : String := ""
  m_vpnLocalAddress : String := ""
  m_vpnGateway : String := ""
  events : List Event := []
  deriving DecidableEq

def Handler.emit (h : Handler) (events : List Event) : Handler := { h with events := h.events ++ events }

/-- `QString::simplified` -/
def simplified (s : String) : String :=
  String.ofList (List.intercalate [' '] ((s.toList.splitOnP QString.isSpace).filter (· ≠ [])))

def afterLast (word : QByteArray) : QByteArray → Option QByteArray
  | [] => none
  | b :: bytes =>
      (afterLast word bytes).or
        (if word <+: b :: bytes then some ((b :: bytes).drop word.length) else none)

/-- A number that is not in the range is read as 0. -/
def toULongLong (bytes : QByteArray) : ℕ :=
  let number :=
    match bytes.map fun b => Char.ofNat b.toNat with
    | '+' :: digits => decimal? digits
    | digits => decimal? digits
  (number.filter (· < 2 ^ 64)).getD 0

variable (line : String)

/-- There is no result if the list of numbers is too short. -/
def byteCount : Option (Option (ℕ × ℕ)) :=
  let data := (QString.toUtf8 line).takeWhile (· ≠ 0)
  match afterLast (QString.toUtf8 ">BYTECOUNT:") data with
  | none => some none
  | some rest =>
      let count := match rest.idxOf? newline with
        | some pos => rest.take (pos + 1)
        | none => rest
      match count.splitOn 0x2c with
      | r :: s :: _ =>
          some (some (toULongLong (QByteArray.trimmed r), toULongLong (QByteArray.trimmed s)))
      | _ => none

/-- Without a result where a list is too short. -/
def updateRouteGateway (h : Handler) : Option Handler :=
  if QString.contains line "net_route_v4_best_gw" then
    let params := QString.split line " "
    some (if params.length = 6 then { h with m_routeGateway := params.getD 3 "" } else h)
  else
    match (QString.splitSkipEmpty line "ROUTE_GATEWAY")[1]? with
    | none => none
    | some line =>
        if QString.contains line "/" = false then some h
        else
          match (QString.splitSkipEmpty line "/").head? with
          | none => none
          | some gateway => some { h with m_routeGateway := QString.replace gateway " " "" }

def updateVpnGateway (h : Handler) : Handler :=
  (QString.split line ",").foldl (fun h l =>
    if QString.contains l "ifconfig" then
      match QString.split l " " with
      | [_, address, gateway] => { h with m_vpnLocalAddress := address, m_vpnGateway := gateway }
      | _ => h
    else h) h

def routed (h : Handler) : Option Handler :=
  if QString.contains line "ROUTE_GATEWAY" || QString.contains line "net_route_v4_best_gw" then
    updateRouteGateway line h
  else some h

/-- The part of the loop behind the states, with whether the loop goes on. -/
def handleMessage (h : Handler) : Option (Handler × Bool) :=
  match routed line h with
  | none => none
  | some h =>
      let h :=
        if QString.contains line "PUSH: Received control message" then updateVpnGateway line h else h
      if QString.contains line "FATAL" then
        let adaptersInUse := QString.contains line
          "tap-windows6 adapters on this system are currently in use or disabled"
        some (h.emit [.protocolError adaptersInUse], false)
      else
        match byteCount line with
        | none => none
        | some none => some (h, true)
        | some (some (r, s)) => some (h.emit [.setBytesChanged r s], true)

def handleLine (h : Handler) : Option (Handler × Bool) :=
  if line = "" then some (h, false)
  else if QString.contains line ">INFO:OpenVPN Management Interface" then
    handleMessage line (h.emit [.writeCommand "state on", .writeCommand "log on"])
  else if QString.startsWith line ">STATE" then
    if QString.contains line "CONNECTED,SUCCESS" then
      some (h.emit [.writeCommand "bytecount 1", .setConnectionState .connected], true)
    else if QString.contains line "EXITING,SIGTER" then
      some (h.emit [.setConnectionState .disconnecting], true)
    else if QString.contains line "RECONNECTING" then
      some (h.emit [.setConnectionState .reconnecting], true)
    else handleMessage line h
  else handleMessage line h

def readLines (unread : QByteArray) : List QByteArray :=
  (lines newline unread).map (· ++ [newline]) ++
    if remainder newline unread = [] then [] else [remainder newline unread]

/-- The handler and the bytes that it has not read. -/
structure Session where
  handler : Handler := {}
  unread : QByteArray := []
  deriving DecidableEq

section Reading

variable (text : QByteArray → String)

def handleLines : List QByteArray → Handler → Option Session
  | [], h => some ⟨h, []⟩
  | line :: rest, h =>
      match handleLine (simplified (text line)) h with
      | none => none
      | some (h, true) => handleLines rest h
      | some (h, false) => some ⟨h, rest.flatten⟩

def onReadyReadDataFromManagementServer (bytes : QByteArray) (s : Session) : Option Session :=
  handleLines text (readLines (s.unread ++ bytes)) s.handler

def receive : List QByteArray → Session → Option Session
  | [], s => some s
  | bytes :: reads, s => (onReadyReadDataFromManagementServer text bytes s).bind (receive reads)

end Reading

section Lines

variable {a b l : QByteArray}

/-- Lines are read from what follows a complete line as if it came alone. -/
theorem readLines_append (h : remainder newline a = []) :
    readLines (a ++ b) = readLines a ++ readLines b := by
  rw [readLines, readLines, readLines, lines_append, remainder_append, h, nil_append, if_pos rfl,
    map_append, append_nil, append_assoc]

theorem readLines_line (h : newline ∉ l) : readLines (l ++ [newline]) = [l ++ [newline]] := by
  rw [readLines, lines_append_cons h, remainder_append_cons h]
  rfl

theorem readLines_of_mem (h : remainder newline a = []) {line : QByteArray}
    (hline : line ∈ readLines a) : readLines line = [line] := by
  rw [readLines, if_pos h, append_nil] at hline
  obtain ⟨l, hl, rfl⟩ := mem_map.mp hline
  exact readLines_line (Pieces.not_mem_of_mem_splitOn (mem_of_mem_dropLast hl))

end Lines

section Range

variable {line : String} {h h' : Handler} {goesOn : Bool}

def newState (line : String) : Bool :=
  QString.startsWith line ">STATE" && !QString.contains line ">INFO:OpenVPN Management Interface" &&
    (QString.contains line "CONNECTED,SUCCESS" || QString.contains line "EXITING,SIGTER" ||
      QString.contains line "RECONNECTING")

/-- The lists that `updateRouteGateway` makes of the line have the elements that it takes. -/
def GatewayInRange (line : String) : Prop :=
  QString.contains line "net_route_v4_best_gw" = true ∨
    QString.contains line "ROUTE_GATEWAY" = false ∨
    ∃ rest, (QString.splitSkipEmpty line "ROUTE_GATEWAY")[1]? = some rest ∧
      (QString.contains rest "/" = true → QString.splitSkipEmpty rest "/" ≠ [])

/-- No list that is made of the line is too short. -/
def InRange (line : String) : Prop :=
  line = "" ∨ newState line = true ∨
    GatewayInRange line ∧ (QString.contains line "FATAL" = true ∨ byteCount line ≠ none)

theorem stopsReading_eq (line : String) : stopsReading line =
    (line = "" || QString.contains line "FATAL" && !newState line) := rfl

theorem isSome_updateRouteGateway_iff (hbest : QString.contains line "net_route_v4_best_gw" = false) :
    (updateRouteGateway line h).isSome = true ↔
      ∃ rest, (QString.splitSkipEmpty line "ROUTE_GATEWAY")[1]? = some rest ∧
        (QString.contains rest "/" = true → QString.splitSkipEmpty rest "/" ≠ []) := by
  unfold updateRouteGateway
  rw [if_neg (by simp [hbest])]
  cases (QString.splitSkipEmpty line "ROUTE_GATEWAY")[1]? with
  | none => simp
  | some rest =>
    simp only [some.injEq, exists_eq_left']
    cases hslash : QString.contains rest "/" with
    | false => simp
    | true =>
      rw [if_neg (by simp)]
      cases QString.splitSkipEmpty rest "/" with
      | nil => simp
      | cons gateway parts => simp

theorem isSome_routed_iff : (routed line h).isSome = true ↔ GatewayInRange line := by
  unfold routed GatewayInRange
  cases hbest : QString.contains line "net_route_v4_best_gw" with
  | true => simp [updateRouteGateway, hbest]
  | false =>
    cases hgateway : QString.contains line "ROUTE_GATEWAY" with
    | false => simp
    | true => simpa using isSome_updateRouteGateway_iff hbest

theorem handleMessage_eq_none (hrouted : routed line h = none) : handleMessage line h = none := by
  rw [handleMessage, hrouted]

theorem handleMessage_of_routed {h₁ : Handler} (hrouted : routed line h = some h₁) :
    (handleMessage line h).map Prod.snd =
      if QString.contains line "FATAL" = true then some false else (byteCount line).map fun _ => true := by
  rw [handleMessage, hrouted]
  dsimp only
  generalize (if QString.contains line "PUSH: Received control message" = true then
    updateVpnGateway line h₁ else h₁) = h₂
  split_ifs
  · rfl
  · cases byteCount line with
    | none => rfl
    | some count =>
      cases count with
      | none => rfl
      | some count => rfl

theorem isSome_handleMessage_iff : (handleMessage line h).isSome = true ↔
    GatewayInRange line ∧ (QString.contains line "FATAL" = true ∨ byteCount line ≠ none) := by
  rw [← @isSome_routed_iff line h]
  cases hrouted : routed line h with
  | none => simp [handleMessage_eq_none hrouted]
  | some h₁ =>
    have hmap := congrArg isSome (handleMessage_of_routed hrouted)
    rw [isSome_map] at hmap
    rw [hmap]
    split_ifs with hfatal
    · simp [hfatal]
    · simp [hfatal, isSome_iff_ne_none]

theorem handleMessage_of_some (hm : handleMessage line h = some (h', goesOn)) :
    goesOn = !QString.contains line "FATAL" := by
  cases hrouted : routed line h with
  | none =>
    rw [handleMessage_eq_none hrouted] at hm
    cases hm
  | some h₁ =>
    have hmap := handleMessage_of_routed hrouted
    rw [hm] at hmap
    cases hfatal : QString.contains line "FATAL" with
    | true => simpa [hfatal] using hmap
    | false =>
      rw [hfatal, if_neg (by simp)] at hmap
      cases hcount : byteCount line with
      | none => simp [hcount] at hmap
      | some count => simpa [hcount] using hmap

theorem handleLine_eq (hne : line ≠ "") (h : Handler) : ∃ h₁ : Handler,
    handleLine line h = if newState line = true then some (h₁, true) else handleMessage line h₁ := by
  unfold handleLine newState
  rw [if_neg hne]
  cases QString.contains line ">INFO:OpenVPN Management Interface" with
  | true => exact ⟨_, by simp; rfl⟩
  | false =>
    cases QString.startsWith line ">STATE" with
    | false => exact ⟨h, by simp⟩
    | true =>
      cases QString.contains line "CONNECTED,SUCCESS" with
      | true => exact ⟨_, by simp; rfl⟩
      | false =>
        cases QString.contains line "EXITING,SIGTER" with
        | true => exact ⟨_, by simp; rfl⟩
        | false =>
          cases QString.contains line "RECONNECTING" with
          | true => exact ⟨_, by simp; rfl⟩
          | false => exact ⟨h, by simp⟩

theorem isSome_handleLine_iff : (handleLine line h).isSome = true ↔ InRange line := by
  unfold InRange
  by_cases hempty : line = ""
  · simp [handleLine, hempty]
  · obtain ⟨h₁, heq⟩ := handleLine_eq hempty h
    rw [heq]
    split_ifs with hstate
    · simp [hstate]
    · rw [isSome_handleMessage_iff]
      simp [hempty, hstate]

theorem handleLine_of_some (hl : handleLine line h = some (h', goesOn)) :
    goesOn = !stopsReading line := by
  rw [stopsReading_eq]
  by_cases hempty : line = ""
  · rw [handleLine, if_pos hempty] at hl
    simp only [some.injEq, Prod.mk.injEq] at hl
    simp [hempty, hl.2.symm]
  · obtain ⟨h₁, heq⟩ := handleLine_eq hempty h
    rw [heq] at hl
    split_ifs at hl with hstate
    · simp only [some.injEq, Prod.mk.injEq] at hl
      simp [hempty, hstate, hl.2.symm]
    · have hfatal := handleMessage_of_some hl
      simp [hempty, hstate, hfatal]

theorem handleLine_of_inRange (hrange : InRange line) (h : Handler) :
    ∃ h', handleLine line h = some (h', !stopsReading line) := by
  obtain ⟨⟨h', goesOn⟩, hl⟩ := isSome_iff_exists.mp ((@isSome_handleLine_iff line h).mpr hrange)
  obtain rfl := handleLine_of_some hl
  exact ⟨h', hl⟩

end Range

section States

variable {line : String} {h h' : Handler} {goesOn : Bool} (p : OpenVpnProtocol)

end States

section Splitting

variable {text : QByteArray → String}

theorem receive_append (reads more : List QByteArray) (s : Session) :
    receive text (reads ++ more) s = (receive text reads s).bind (receive text more) := by
  induction reads generalizing s with
  | nil => rfl
  | cons bytes reads ih =>
    rw [cons_append, receive, receive]
    cases onReadyReadDataFromManagementServer text bytes s with
    | none => rfl
    | some s => exact ih s

theorem onReadyRead_line {line : QByteArray} (hline : readLines line = [line]) (h : Handler) :
    onReadyReadDataFromManagementServer text line ⟨h, []⟩ = handleLines text [line] h := by
  rw [onReadyReadDataFromManagementServer, nil_append, hline]

theorem handleLines_eq_receive {ls : List QByteArray} (hlines : ∀ line ∈ ls, readLines line = [line])
    (hrange : ∀ line ∈ ls, InRange (simplified (text line)))
    (hgo : ∀ line ∈ ls.dropLast, stopsReading (simplified (text line)) = false)
    (h : Handler) : ∃ h', handleLines text ls h = some ⟨h', []⟩ ∧
      receive text ls ⟨h, []⟩ = some ⟨h', []⟩ := by
  induction ls generalizing h with
  | nil => exact ⟨h, rfl, rfl⟩
  | cons line rest ih =>
    obtain ⟨hline, hlines⟩ := forall_mem_cons.mp hlines
    obtain ⟨hfirst, hrange⟩ := forall_mem_cons.mp hrange
    obtain ⟨h₁, hhandled⟩ := handleLine_of_inRange hfirst h
    have halone : handleLines text [line] h = some ⟨h₁, []⟩ := by
      rw [handleLines, hhandled]
      cases stopsReading (simplified (text line)) with
      | true => rfl
      | false => rfl
    rw [receive, onReadyRead_line hline, halone, bind_some]
    cases rest with
    | nil => exact ⟨h₁, halone, rfl⟩
    | cons next rest =>
      rw [dropLast_cons_cons, forall_mem_cons] at hgo
      obtain ⟨h', hrest, hreceive⟩ := ih hlines hrange hgo.2 h₁
      refine ⟨h', ?_, hreceive⟩
      rw [handleLines, hhandled, hgo.1]
      exact hrest

end Splitting

end AmneziaVpn.OpenVpnManagement
