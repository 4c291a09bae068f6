import AmneziaVpn.ActivateMessage
import AmneziaVpn.TerminatedLines

/-!
# The configuration file of the Windows tunnel

`toWgConf` writes the configuration of an interface as a text of lines, and the Windows daemon
passes the part before the section of the peer to the tunnel.
-/

namespace AmneziaVpn.WireguardConf

open TerminatedLines List QString

/-- `IPAddress::toString`. The texts that addresses are read from lose their newlines. -/
structure AddressPrinter where
  toString : IPAddress → String
  newline_free : ∀ ip, QString.contains (toString ip) "\n" = false

/-- A text that the code asks to be null is optional. -/
structure InterfaceConfig where
  m_privateKey : String
  m_deviceIpv4Address : Option String
  m_deviceIpv6Address : Option String
  m_serverIpv4Gateway : String := ""
  m_serverIpv6Gateway : String := ""
  m_serverPublicKey : String
  m_serverIpv4AddrIn : Option String
  m_serverIpv6AddrIn : Option String := none
  m_dnsServer : Option String := none
  m_serverPort : ℤ := 0
  m_deviceMTU : ℤ := 1420
  m_allowedIPAddressRanges : List IPAddress := []
  m_junkPacketCount : Option String := none
  m_junkPacketMinSize : Option String := none
  m_junkPacketMaxSize : Option String := none
  m_initPacketJunkSize : Option String := none
  m_responsePacketJunkSize : Option String := none
  m_initPacketMagicHeader : Option String := none
  m_responsePacketMagicHeader : Option String := none
  m_underloadPacketMagicHeader : Option String := none
  m_transportPacketMagicHeader : Option String := none
deriving DecidableEq

namespace InterfaceConfig

variable (printer : AddressPrinter) (config : InterfaceConfig) (extra : List (String × String))

def validated : List String :=
  [config.m_privateKey, config.m_deviceIpv4Address.getD "", config.m_deviceIpv6Address.getD "",
    config.m_serverIpv4Gateway, config.m_serverIpv6Gateway, config.m_serverPublicKey,
    config.m_serverIpv4AddrIn.getD "", config.m_serverIpv6AddrIn.getD ""]

def addresses : List String :=
  config.m_deviceIpv4Address.toList ++ config.m_deviceIpv6Address.toList

def dnsServers (m_dnsServer : String) : List String :=
  if m_dnsServer = config.m_serverIpv4Gateway then [m_dnsServer, config.m_serverIpv6Gateway]
  else [m_dnsServer]

def junkFields : List (String × Option String) :=
  [("Jc", config.m_junkPacketCount), ("JMin", config.m_junkPacketMinSize),
    ("JMax", config.m_junkPacketMaxSize), ("S1", config.m_initPacketJunkSize),
    ("S2", config.m_responsePacketJunkSize), ("H1", config.m_initPacketMagicHeader),
    ("H2", config.m_responsePacketMagicHeader), ("H3", config.m_underloadPacketMagicHeader),
    ("H4", config.m_transportPacketMagicHeader)]

def writeField (out key value : String) : String := out ++ key ++ " = " ++ value ++ "\n"

def writeNonNull (out : String) (field : String × Option String) : String :=
  match field.2 with
  | some value => writeField out field.1 value
  | none => out

def toWgConf : String :=
  if config.validated.any fun x => QString.contains x "\n" then ""
  else
    let out := "[Interface]\n"
    let out := writeField out "PrivateKey" config.m_privateKey
    if config.addresses = [] then ""
    else
      let out := writeField out "Address" (join config.addresses ", ")
      let out := if config.m_deviceMTU ≠ 0 then
        writeField out "MTU" (toString config.m_deviceMTU) else out
      let out := match config.m_dnsServer with
        | some m_dnsServer =>
            writeField out "DNS" (join (config.dnsServers m_dnsServer) ", ")
        | none => out
      let out := config.junkFields.foldl writeNonNull out
      let out := extra.foldl (fun out field => writeField out field.1 field.2) out
      let out := out ++ "\n[Peer]\n"
      let out := writeField out "PublicKey" config.m_serverPublicKey
      let out := writeField out "Endpoint"
        (config.m_serverIpv4AddrIn.getD "" ++ ":" ++ toString config.m_serverPort)
      writeField out "AllowedIPs"
        (join (config.m_allowedIPAddressRanges.map printer.toString) ", ")

def tunnelConfig : Option String :=
  let configString := config.toWgConf printer [("Table", "off")]
  if configString = "" then none
  else some (String.ofList (cutBefore "[Peer]".toList configString.toList))

end InterfaceConfig

section Parsing

variable (qt : QtParser)

/-- `toString()` of a value. What is no text becomes null. -/
def textOf : QJsonValue → Option String
  | .string s => some s
  | _ => none

/-- The conversion of a double to `int`. What is out of range becomes the least number. -/
def intOf (d : ℚ) : ℤ :=
  if -2 ^ 31 - 1 < d ∧ d < 2 ^ 31 then if 0 ≤ d then ⌊d⌋ else ⌈d⌉ else -2 ^ 31

variable (obj : QJsonObject)

def parseDeviceMTU : ℤ :=
  let mtu := QString.toInt ((textOf (obj.value "deviceMTU")).getD "")
  if obj.contains "deviceMTU" = false ∨ mtu = 0 then 1420
  else if mtu < 1280 then 1280 else mtu

def parseDnsServer : Option (Option String) :=
  if obj.contains "dnsServer" then (textOf (obj.value "dnsServer")).map some else some none

def validHopType : Bool :=
  if obj.contains "hopType" then
    match textOf (obj.value "hopType") with
    | some key => key ∈ ["SingleHop", "MultiHopEntry", "MultiHopExit"]
    | none => false
  else true

def validStringList (name : String) : Bool :=
  if obj.contains name then
    match obj.value name with
    | .array items => items.all QJsonValue.isString
    | _ => false
  else true

def junkText (key : String) : Option String :=
  if (obj.value key).isNull then none else textOf (obj.value key)

/-- `Daemon::parseConfig` on Windows. -/
def parseConfig : Option InterfaceConfig :=
  match obj.value "privateKey", obj.value "serverPublicKey", obj.value "serverPort" with
  | .string m_privateKey, .string m_serverPublicKey, .double serverPort =>
    let m_deviceIpv4Address := textOf (obj.value "deviceIpv4Address")
    let m_deviceIpv6Address := textOf (obj.value "deviceIpv6Address")
    let m_serverIpv4AddrIn := textOf (obj.value "serverIpv4AddrIn")
    let m_serverIpv6AddrIn := textOf (obj.value "serverIpv6AddrIn")
    if m_deviceIpv4Address = none ∧ m_deviceIpv6Address = none then none
    else if m_serverIpv4AddrIn = none ∧ m_serverIpv6AddrIn = none then none
    else
      match parseDnsServer obj with
      | none => none
      | some m_dnsServer =>
        if validHopType obj = false then none
        else
          match Daemon.parseAllowedIPAddressRanges qt obj with
          | none => none
          | some m_allowedIPAddressRanges =>
            if validStringList obj "excludedAddresses" = false then none
            else if validStringList obj "vpnDisabledApps" = false then none
            else some
              { m_privateKey, m_serverPublicKey, m_deviceIpv4Address, m_deviceIpv6Address
                m_serverIpv4AddrIn, m_serverIpv6AddrIn, m_dnsServer, m_allowedIPAddressRanges
                m_serverPort := intOf serverPort
                m_deviceMTU := parseDeviceMTU obj
                m_serverIpv4Gateway := (textOf (obj.value "serverIpv4Gateway")).getD ""
                m_serverIpv6Gateway := (textOf (obj.value "serverIpv6Gateway")).getD ""
                m_junkPacketCount := junkText obj "Jc"
                m_junkPacketMinSize := junkText obj "Jmin"
                m_junkPacketMaxSize := junkText obj "Jmax"
                m_initPacketJunkSize := junkText obj "S1"
                m_responsePacketJunkSize := junkText obj "S2"
                m_initPacketMagicHeader := junkText obj "H1"
                m_responsePacketMagicHeader := junkText obj "H2"
                m_underloadPacketMagicHeader := junkText obj "H3"
                m_transportPacketMagicHeader := junkText obj "H4" }
  | _, _, _ => none

end Parsing

structure Entry where
  key : String
  parts : List String

open Entry

def Entry.line (e : Entry) : String := e.key ++ " = " ++ join e.parts ", "

/-- A word that is not made of the characters between the texts of a line lies in one of them. -/
theorem Entry.contains_line_iff {word : String} (hne : word ≠ "")
    (hword : ∀ c ∈ [' ', '=', ','], c ∉ word.toList) (e : Entry) :
    QString.contains e.line word = true ↔ ∃ text ∈ e.key :: e.parts, QString.contains text word = true := by
  have hnil : word.toList ≠ [] := fun h => hne (String.toList_eq_nil_iff.mp h)
  have hline : e.line.toList =
      e.key.toList ++ ([' ', '=', ' '] ++ [',', ' '].intercalate (e.parts.map String.toList)) := by
    rw [line, join, String.toList_append, String.toList_append,
      String.toList_intercalate, append_assoc]
    rfl
  have hequals : [' ', '=', ' '] ⊆ [' ', '=', ','] := by simp
  have hcomma : [',', ' '] ⊆ [' ', '=', ','] := by simp
  rw [exists_mem_cons_iff, contains_iff, hline, infix_append_append_iff (by simp) ?_ hnil,
    infix_intercalate_iff (by simp) ?_ hnil]
  · simp [contains_iff]
  · exact fun c hc => hword c (hcomma hc)
  · exact fun c hc => hword c (hequals hc)

variable (lines : List String)

def textOfLines : String :=
  String.ofList (unlines '\n' (lines.map String.toList))

theorem textOfLines_append (others : List String) :
    textOfLines (lines ++ others) = textOfLines lines ++ textOfLines others := by
  rw [textOfLines, map_append, unlines_append, String.ofList_append]
  rfl

theorem textOfLines_cons (line : String) (lines : List String) :
    textOfLines (line :: lines) = line ++ "\n" ++ textOfLines lines := by
  apply String.toList_inj.mp
  simp [textOfLines, unlines_cons]

theorem textOfLines_nil : textOfLines [] = "" := rfl

theorem contains_newline_iff {s : String} : QString.contains s "\n" = true ↔ '\n' ∈ s.toList := by
  have hnewline : "\n".toList = ['\n'] := rfl
  rw [contains_iff, hnewline, singleton_infix_iff]

theorem contains_newline_toString (n : ℤ) : QString.contains (toString n) "\n" = false := by
  have hdigits : ∀ k : ℕ, '\n' ∉ Nat.toDigits 10 k := fun k h =>
    absurd (Nat.isDigit_of_mem_toDigits (by decide) (by decide) h) (by decide)
  rw [← Bool.not_eq_true, contains_newline_iff]
  cases n with
  | ofNat k => simpa [toString, Int.repr] using hdigits k
  | negSucc k => simpa [toString, Int.repr] using hdigits (k + 1)

theorem split_textOfLines_iff :
    split (textOfLines lines) "\n" = lines ++ [""] ↔
      ∀ line ∈ lines, QString.contains line "\n" = false := by
  have hlines : lines ++ [""] = (lines.map String.toList ++ [[]]).map String.ofList := by simp
  have hnewline : "\n".toList = ['\n'] := rfl
  have hinjective : Function.Injective String.ofList := fun _ _ h => String.ofList_injective h
  rw [split_eq hnewline, textOfLines, String.toList_ofList, hlines,
    (map_injective_iff.mpr hinjective).eq_iff, splitOn_unlines_iff, forall_mem_map]
  simp [← Bool.not_eq_true, contains_newline_iff]

theorem Entry.not_contains_line_iff {word : String} (hne : word ≠ "")
    (hword : ∀ c ∈ [' ', '=', ','], c ∉ word.toList) (e : Entry) :
    QString.contains e.line word = false ↔
      ∀ text ∈ e.key :: e.parts, QString.contains text word = false := by
  simp only [← Bool.not_eq_true, e.contains_line_iff hne hword]
  push Not
  rfl

namespace InterfaceConfig

variable (printer : AddressPrinter) (config : InterfaceConfig) (extra : List (String × String))

def interfaceEntries : List Entry :=
  [⟨"PrivateKey", [config.m_privateKey]⟩, ⟨"Address", config.addresses⟩] ++
    (if config.m_deviceMTU ≠ 0 then [⟨"MTU", [toString config.m_deviceMTU]⟩] else []) ++
    (config.m_dnsServer.toList.map fun m_dnsServer => ⟨"DNS", config.dnsServers m_dnsServer⟩) ++
    (config.junkFields.filterMap fun field => field.2.map fun value => ⟨field.1, [value]⟩) ++
    extra.map fun field => ⟨field.1, [field.2]⟩

def peerEntries : List Entry :=
  [⟨"PublicKey", [config.m_serverPublicKey]⟩,
    ⟨"Endpoint", [config.m_serverIpv4AddrIn.getD "" ++ ":" ++ toString config.m_serverPort]⟩,
    ⟨"AllowedIPs", config.m_allowedIPAddressRanges.map printer.toString⟩]

def interfaceSection : List String :=
  "[Interface]" :: (config.interfaceEntries extra).map line ++ [""]

def peerSection : List String := "[Peer]" :: (config.peerEntries printer).map line

/-- The text is the lines of both sections and nothing else. -/
def NoInjection : Prop :=
  config.toWgConf printer extra = "" ∨
    split (config.toWgConf printer extra) "\n" =
        config.interfaceSection extra ++ config.peerSection printer ++ [""] ∧
      cutBefore "[Peer]".toList (config.toWgConf printer extra).toList =
        (textOfLines (config.interfaceSection extra)).toList

def Rejected : Prop :=
  (config.validated.any fun x => QString.contains x "\n") = true ∨ config.addresses = []

theorem toWgConf_of_rejected (h : config.Rejected) : config.toWgConf printer extra = "" := by
  unfold toWgConf
  rcases h with h | h
  · rw [if_pos h]
  · split_ifs
    · rfl
    · rfl

variable (out : String)

theorem writeField_join (key : String) (parts : List String) :
    writeField out key (join parts ", ") =
      out ++ textOfLines [line ⟨key, parts⟩] := by
  rw [textOfLines_cons, textOfLines_nil, String.append_empty, writeField, line]
  simp [String.append_assoc]

theorem writeField_eq (key value : String) :
    writeField out key value = out ++ textOfLines [line ⟨key, [value]⟩] := by
  rw [← writeField_join]
  rfl

theorem foldl_writeNonNull (fields : List (String × Option String)) (out : String) :
    fields.foldl writeNonNull out = out ++ textOfLines
      ((fields.filterMap fun field => field.2.map fun value => ⟨field.1, [value]⟩).map
        line) := by
  induction fields generalizing out with
  | nil => rw [foldl_nil, filterMap_nil, map_nil, textOfLines_nil, String.append_empty]
  | cons field fields ih =>
    obtain ⟨key, value⟩ := field
    rw [foldl_cons, ih]
    cases value with
    | none => rfl
    | some value =>
      rw [writeNonNull]
      dsimp only
      rw [writeField_eq, String.append_assoc, ← textOfLines_append]
      rfl

theorem foldl_writeField (fields : List (String × String)) (out : String) :
    fields.foldl (fun out field => writeField out field.1 field.2) out =
      out ++ textOfLines
        ((fields.map fun field => (⟨field.1, [field.2]⟩ : Entry)).map line) := by
  induction fields generalizing out with
  | nil => rw [foldl_nil, map_nil, map_nil, textOfLines_nil, String.append_empty]
  | cons field fields ih =>
    rw [foldl_cons, ih, writeField_eq, String.append_assoc, ← textOfLines_append]
    rfl

theorem write_m_deviceMTU :
    (if config.m_deviceMTU ≠ 0 then writeField out "MTU" (toString config.m_deviceMTU) else out) =
      out ++ textOfLines ((if config.m_deviceMTU ≠ 0 then
        [(⟨"MTU", [toString config.m_deviceMTU]⟩ : Entry)] else []).map line) := by
  split_ifs
  · exact writeField_eq out _ _
  · rw [map_nil, textOfLines_nil, String.append_empty]

theorem write_m_dnsServer :
    (match config.m_dnsServer with
      | some m_dnsServer => writeField out "DNS" (join (config.dnsServers m_dnsServer) ", ")
      | none => out) =
      out ++ textOfLines ((config.m_dnsServer.toList.map fun m_dnsServer =>
        (⟨"DNS", config.dnsServers m_dnsServer⟩ : Entry)).map line) := by
  cases config.m_dnsServer with
  | none => exact (String.append_empty).symm
  | some m_dnsServer => exact writeField_join out _ _

theorem toWgConf_of_not_rejected (h : ¬ config.Rejected) :
    config.toWgConf printer extra =
      textOfLines (config.interfaceSection extra ++ config.peerSection printer) := by
  obtain ⟨hvalid, haddresses⟩ := not_or.mp h
  have hstart : "[Interface]\n" = textOfLines ["[Interface]"] := by decide
  have hpeer : "\n[Peer]\n" = textOfLines ["", "[Peer]"] := by decide
  unfold toWgConf
  rw [if_neg hvalid, if_neg haddresses]
  dsimp only
  rw [write_m_deviceMTU, write_m_dnsServer, foldl_writeNonNull, foldl_writeField, writeField_join,
    writeField_join, writeField_eq, writeField_eq, writeField_eq, hstart, hpeer]
  simp only [← textOfLines_append]
  congr 1
  simp [interfaceSection, interfaceEntries, peerSection, peerEntries]

theorem newline_free_endpoint {address : String} (h : QString.contains address "\n" = false)
    (port : ℤ) : QString.contains (address ++ ":" ++ toString port) "\n" = false := by
  have hport := contains_newline_toString port
  rw [← Bool.not_eq_true, contains_newline_iff] at h hport ⊢
  rw [String.toList_append, String.toList_append, mem_append, mem_append]
  rintro ((haddress | hcolon) | hdigit)
  · exact h haddress
  · exact absurd hcolon (by decide)
  · exact hport hdigit

theorem newline_free_peerSection (h : ¬ config.Rejected) :
    ∀ line ∈ config.peerSection printer, QString.contains line "\n" = false := by
  have hvalid : ∀ x ∈ config.validated, QString.contains x "\n" = false := by
    simpa using (not_or.mp h).1
  have hendpoint := newline_free_endpoint
    (hvalid (config.m_serverIpv4AddrIn.getD "") (by simp [validated])) config.m_serverPort
  have hkey := hvalid config.m_serverPublicKey (by simp [validated])
  have hkeys : ∀ key ∈ ["PublicKey", "Endpoint", "AllowedIPs"],
      QString.contains key "\n" = false := by decide
  rw [peerSection, forall_mem_cons, forall_mem_map]
  refine ⟨by decide, fun e he => (e.not_contains_line_iff (by decide) (by simp)).mpr ?_⟩
  rw [forall_mem_cons]
  simp only [peerEntries, mem_cons, not_mem_nil, or_false] at he
  rcases he with rfl | rfl | rfl
  · exact ⟨hkeys _ (by simp), forall_mem_singleton.mpr hkey⟩
  · exact ⟨hkeys _ (by simp), forall_mem_singleton.mpr hendpoint⟩
  · exact ⟨hkeys _ (by simp), forall_mem_map.mpr fun ip _ => printer.newline_free ip⟩

/-- The lines of the text are the intended ones if no text of an entry has a newline. -/
theorem split_toWgConf_iff (h : ¬ config.Rejected) :
    split (config.toWgConf printer extra) "\n" =
        config.interfaceSection extra ++ config.peerSection printer ++ [""] ↔
      ∀ e ∈ config.interfaceEntries extra, ∀ text ∈ e.key :: e.parts,
        QString.contains text "\n" = false := by
  have hheader : QString.contains "[Interface]" "\n" = false := by decide
  have hblank : ∀ line ∈ [""], QString.contains line "\n" = false := by decide
  rw [config.toWgConf_of_not_rejected printer extra h, split_textOfLines_iff, forall_mem_append,
    and_iff_left (config.newline_free_peerSection printer h), interfaceSection,
    forall_mem_append, and_iff_left hblank, forall_mem_cons, and_iff_right hheader,
    forall_mem_map]
  exact forall₂_congr fun e _ => e.not_contains_line_iff (by decide) (by simp)

theorem cutBefore_toWgConf_iff (h : ¬ config.Rejected) :
    cutBefore "[Peer]".toList (config.toWgConf printer extra).toList =
        (textOfLines (config.interfaceSection extra)).toList ↔
      ∀ e ∈ config.interfaceEntries extra, ∀ text ∈ e.key :: e.parts,
        QString.contains text "[Peer]" = false := by
  have hheader : QString.contains "[Interface]" "[Peer]" = false := by decide
  have hinterface : (textOfLines (config.interfaceSection extra)).toList =
      unlines '\n' (("[Interface]" :: (config.interfaceEntries extra).map line).map
        String.toList) ++ ['\n'] := by
    rw [interfaceSection, textOfLines, String.toList_ofList, map_append, unlines_append]
    rfl
  have hpeer : (textOfLines (config.peerSection printer)).toList =
      "[Peer]".toList ++ '\n' :: (textOfLines ((config.peerEntries printer).map
        line)).toList := by
    rw [peerSection, textOfLines_cons, String.toList_append, String.toList_append,
      append_assoc]
    rfl
  rw [config.toWgConf_of_not_rejected printer extra h, textOfLines_append, String.toList_append,
    hinterface, hpeer, append_assoc, singleton_append,
    cutBefore_append_iff (by decide) (by decide), infix_unlines_iff (by decide) (by decide)]
  simp only [not_exists, not_and]
  rw [forall_mem_map, forall_mem_cons, forall_mem_map]
  simp only [← contains_iff, Bool.not_eq_true]
  rw [and_iff_right hheader]
  exact forall₂_congr fun e _ => e.not_contains_line_iff (by decide) (by simp)

theorem noInjection_iff_of_not_rejected (h : ¬ config.Rejected) :
    config.NoInjection printer extra ↔
      ∀ e ∈ config.interfaceEntries extra, ∀ text ∈ e.key :: e.parts,
        QString.contains text "\n" = false ∧ QString.contains text "[Peer]" = false := by
  have hne : config.toWgConf printer extra ≠ "" := by
    rw [config.toWgConf_of_not_rejected printer extra h, interfaceSection, cons_append,
      cons_append, textOfLines_cons]
    intro hempty
    simp at hempty
  rw [NoInjection, or_iff_right hne, config.split_toWgConf_iff printer extra h,
    config.cutBefore_toWgConf_iff printer extra h]
  simp only [← forall_and]

/-- No field injects a line if no text has a newline or the header of the peer. -/
theorem noInjection_iff (printer : AddressPrinter) (config : InterfaceConfig)
    (extra : List (String × String)) :
    config.NoInjection printer extra ↔
      config.Rejected ∨ ∀ e ∈ config.interfaceEntries extra, ∀ text ∈ e.key :: e.parts,
        QString.contains text "\n" = false ∧ QString.contains text "[Peer]" = false := by
  by_cases h : config.Rejected
  · exact iff_of_true (.inl (config.toWgConf_of_rejected printer extra h)) (.inl h)
  · rw [or_iff_right h]
    exact config.noInjection_iff_of_not_rejected printer extra h

end InterfaceConfig

def noRanges : AddressPrinter := ⟨fun _ => "", fun _ => by decide⟩

def noAddresses : QtParser := ⟨fun _ => .null, fun _ => (.null, 0), by simp⟩

variable (privateKey dnsServer : String)

def message : QJsonObject :=
  [("allowedIPAddressRanges", .array []), ("deviceIpv4Address", .string "10.8.1.2/32"),
    ("dnsServer", .string dnsServer), ("privateKey", .string privateKey),
    ("serverIpv4AddrIn", .string "192.0.2.1"), ("serverPort", .double 51820),
    ("serverPublicKey", .string "key")]

def received : InterfaceConfig where
  m_privateKey := privateKey
  m_deviceIpv4Address := some "10.8.1.2/32"
  m_deviceIpv6Address := none
  m_serverPublicKey := "key"
  m_serverIpv4AddrIn := some "192.0.2.1"
  m_serverPort := 51820
  m_dnsServer := some dnsServer

/-- The server for names adds a line, and a key hides the lines after it. -/
theorem not_noInjection_received :
    (parseConfig noAddresses (message "key" "1.1.1.1\nPostUp = calc") =
        some (received "key" "1.1.1.1\nPostUp = calc") ∧
      (received "key" "1.1.1.1\nPostUp = calc").toWgConf noRanges [("Table", "off")] =
        "[Interface]\nPrivateKey = key\nAddress = 10.8.1.2/32\nMTU = 1420\nDNS = 1.1.1.1\n" ++
          "PostUp = calc\nTable = off\n\n[Peer]\nPublicKey = key\n" ++
          "Endpoint = 192.0.2.1:51820\nAllowedIPs = \n" ∧
      ¬ (received "key" "1.1.1.1\nPostUp = calc").NoInjection noRanges [("Table", "off")]) ∧
    parseConfig noAddresses (message "key[Peer]" "1.1.1.1") =
        some (received "key[Peer]" "1.1.1.1") ∧
      (received "key[Peer]" "1.1.1.1").tunnelConfig noRanges =
        some "[Interface]\nPrivateKey = key" ∧
      ¬ (received "key[Peer]" "1.1.1.1").NoInjection noRanges [("Table", "off")] := by
  have hdns : ¬ (received "key" "1.1.1.1\nPostUp = calc").Rejected := by
    unfold InterfaceConfig.Rejected
    decide +kernel
  have hkey : ¬ (received "key[Peer]" "1.1.1.1").Rejected := by
    unfold InterfaceConfig.Rejected
    decide +kernel
  rw [InterfaceConfig.noInjection_iff_of_not_rejected _ _ _ hdns,
    InterfaceConfig.noInjection_iff_of_not_rejected _ _ _ hkey]
  decide +kernel

end AmneziaVpn.WireguardConf
