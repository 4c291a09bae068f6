import AmneziaVpn.ServerController
import AmneziaVpn.QtJson

/-!
# The clients in `wg0.conf`

A new WireGuard client is appended to the configuration file of the server as a `[Peer]` section.
-/

namespace AmneziaVpn

open List

namespace WireguardConfigurator

open ServerController Pieces

structure ConnectionData where
  clientPrivKey : String
  clientPubKey : String
  clientIP : String
  serverPubKey : String
  pskKey : String
  host : String
  port : String
  deriving DecidableEq

def next (ip : String) : ℤ :=
  Int.bmod (QString.toInt ((QString.split ip ".").getLastD "") + 1) (2 ^ 32)

def ips (stdOut : String) : List String :=
  let stdOut := QString.replace stdOut "AllowedIPs = " ""
  let stdOut := QString.replace stdOut "/32" ""
  QString.splitSkipEmpty stdOut "\n"

def nextIpNumber : Option String → Except ErrorCode String
  | none => .ok "2"
  | some ip => if next ip > 254 then .error .addressPoolError else .ok (toString (next ip))

def defaultSubnetAddress : String := "10.8.1.0"

variable (containerConfig : QJsonObject)

def clientIP (nextIpNumber : String) : Except ErrorCode String :=
  let subnetIp := (containerConfig.value "subnet_address").toStringOr defaultSubnetAddress
  let l := QString.splitSkipEmpty subnetIp "."
  if l.isEmpty then .error .addressPoolError
  else .ok (QString.join (l.dropLast ++ [nextIpNumber]) ".")

def assigned (last : Option String) : Except ErrorCode String :=
  match nextIpNumber last with
  | .error e => .error e
  | .ok number => clientIP containerConfig number

def configPart (clientPubKey pskKey clientIP : String) : String :=
  "[Peer]\nPublicKey = " ++ clientPubKey ++ "\nPresharedKey = " ++ pskKey ++ "\nAllowedIPs = " ++
    clientIP ++ "/32\n\n"

structure Creation where
  isAwg : Bool
  hostName : String
  containerConfig : QJsonObject
  clientPrivKey : String
  clientPubKey : String
  scriptError : Option ErrorCode
  serverPubKeyFile : Except ErrorCode String
  pskKeyFile : Except ErrorCode String
  upload : Upload
  syncError : Option ErrorCode

/-- The default ports of the two protocols are exchanged in the constructor. -/
def port (isAwg : Bool) (containerConfig : QJsonObject) : String :=
  let protocolName := if isAwg then "awg" else "wireguard"
  let defaultPort := if isAwg then "51820" else "55424"
  ((containerConfig.value protocolName).toObject.value "port").toStringOr defaultPort

/-- The result, and `wg0.conf` afterwards. -/
def prepareWireguardConfig (c : Creation) (stdOut file : String) :
    Except ErrorCode ConnectionData × String :=
  if c.clientPrivKey = "" ∨ c.clientPubKey = "" then (.error .internalError, file)
  else
    match c.scriptError, assigned c.containerConfig (ips stdOut).getLast?, c.serverPubKeyFile,
      c.pskKeyFile with
    | some e, _, _, _ => (.error e, file)
    | none, .error e, _, _ => (.error e, file)
    | none, .ok _, .error e, _ => (.error e, file)
    | none, .ok _, .ok _, .error e => (.error e, file)
    | none, .ok clientIP, .ok serverPubKey, .ok pskKey =>
        let connData : ConnectionData :=
          { clientPrivKey := c.clientPrivKey
            clientPubKey := c.clientPubKey
            clientIP := clientIP
            serverPubKey := QString.replace serverPubKey "\n" ""
            pskKey := QString.replace pskKey "\n" ""
            host := c.hostName
            port := port c.isAwg c.containerConfig }
        let part := configPart connData.clientPubKey connData.pskKey connData.clientIP
        let file := c.upload.stored (file ++ part) file
        match c.upload.error, c.syncError with
        | some e, _ => (.error e, file)
        | none, some e => (.error e, file)
        | none, none => (.ok connData, file)

def stripped (l : List Char) : List Char :=
  QString.replaceFrom "/32".toList [] 0 (QString.replaceFrom "AllowedIPs = ".toList [] 0 l)

theorem stripped_append_cons {c : Char} (hkey : c ∉ "AllowedIPs = ".toList)
    (hmask : c ∉ "/32".toList) (a b : List Char) :
    stripped (a ++ c :: b) = stripped a ++ c :: stripped b := by
  unfold stripped
  rw [QString.replaceFrom_append_cons (by decide) hkey (Nat.zero_le _),
    QString.replaceFrom_append_cons (by decide) hmask (Nat.zero_le _)]

theorem ips_eq (s : String) : ips s = (pieces '\n' (stripped s.toList)).map String.ofList := by
  have hnil : "".toList = [] := rfl
  unfold ips
  rw [QString.splitSkipEmpty_eq (c := '\n') rfl]
  simp only [QString.replace, String.toList_ofList, hnil]
  rfl

theorem ips_append (a b : String) : ips (a ++ "\n" ++ b) = ips a ++ ips b := by
  have htext : (a ++ "\n" ++ b).toList = a.toList ++ '\n' :: b.toList := by simp
  rw [ips_eq, ips_eq, ips_eq, htext, stripped_append_cons (by decide) (by decide),
    pieces_append_cons, map_append]

theorem ips_collected (reads : List String) : ips (collected reads) = reads.flatMap ips := by
  unfold collected
  induction reads with
  | nil => rfl
  | cons read reads ih =>
    rw [map_cons, String.join_cons, ips_append, ih, flatMap_cons]

theorem ips_inOnePiece (output : String) : ips (collected (inOnePiece output)) = ips output := by
  rw [ips_collected]
  unfold inOnePiece
  split_ifs with h
  · rw [h]
    rfl
  · exact flatMap_singleton ..

end WireguardConfigurator

namespace ClientManagementModel

variable (clientId : String)

def remainingSections (configSections : List String) : List String :=
  match configSections.find? (QString.contains · clientId) with
  | some configSection => configSections.erase configSection
  | none => configSections

def newWireGuardConfig (wireguardConfigString : String) : String :=
  let configSections := QString.splitSkipEmpty wireguardConfigString "["
  "[" ++ QString.join (remainingSections clientId configSections) "["

theorem erase_of_find? {parts : List String} {f : String → Bool} {part : String}
    (h : parts.find? f = some part) : parts.erase part = parts.eraseP f := by
  induction parts with
  | nil => cases h
  | cons first parts ih =>
    by_cases hfirst : f first = true
    · rw [find?_cons_of_pos hfirst, Option.some.injEq] at h
      rw [h, erase_cons_head, eraseP_cons_of_pos (h ▸ hfirst)]
    · rw [find?_cons_of_neg hfirst] at h
      have hne : first ≠ part := fun heq => hfirst (heq ▸ find?_some h)
      rw [eraseP_cons_of_neg hfirst, erase_cons_tail (by simpa using hne), ih h]

theorem remainingSections_eq (parts : List String) :
    remainingSections clientId parts = parts.eraseP (QString.contains · clientId) := by
  unfold remainingSections
  split
  case h_1 part h => exact erase_of_find? h
  case h_2 h => exact (eraseP_of_forall_not (find?_eq_none.mp h)).symm

/-- The pieces without the first that has the client id, each with a bracket before it. -/
theorem toList_newWireGuardConfig (file : String) :
    (newWireGuardConfig clientId file).toList =
      Pieces.glue '[' ((Pieces.pieces '[' file.toList).eraseP fun piece =>
        clientId.toList <:+: piece) := by
  have hcontains : (fun piece => QString.contains (String.ofList piece) clientId) =
      fun piece => decide (clientId.toList <:+: piece) := by
    funext piece
    unfold QString.contains
    rw [String.toList_ofList]
  have hid : (String.toList ∘ String.ofList : List Char → List Char) = id := by
    funext piece
    exact String.toList_ofList
  unfold newWireGuardConfig QString.join
  dsimp only
  rw [remainingSections_eq, QString.splitSkipEmpty_eq (c := '[') rfl, eraseP_map,
    String.toList_append, String.toList_intercalate, map_map, hid, map_id]
  exact congrArg (fun f => Pieces.glue '[' ((Pieces.pieces '[' file.toList).eraseP f)) hcontains

end ClientManagementModel

end AmneziaVpn
