import AmneziaVpn.LineReaders
import AmneziaVpn.QtRuntime
import AmneziaVpn.WireguardConf

/-!
# What the daemon gets from the client

Both sides write a document in its compact form, which has no newline, and a newline after it. The
daemon reads a configuration out of the document that the client makes of its own.
-/

namespace AmneziaVpn

open List TerminatedLines

namespace JsonWriter

theorem newline_not_mem_escapedChar (c : Char) : '\n' ∉ escapedChar c := by
  have hhex : ∀ n < 32, hexDigit (n / 16) ≠ '\n' ∧ hexDigit (n % 16) ≠ '\n' := by decide
  unfold escapedChar
  split_ifs with h₁ h₂ h₃ h₄ h₅ h₆ h₇ h₈
  any_goals decide
  · have h := hhex c.toNat h₈
    simp [h.1.symm, h.2.symm]
  · intro hc
    obtain rfl := mem_singleton.mp hc
    exact h₅ rfl

theorem newline_not_mem_quoted (s : String) : '\n' ∉ quoted s := by
  simp [quoted, escapedString, newline_not_mem_escapedChar]

/-- How the writer prints a number. -/
structure NumberFormat where
  number : ℚ → String
  newline_free : ∀ d, '\n' ∉ (number d).toList

variable (format : NumberFormat)

mutual

theorem newline_not_mem_value (indent : ℕ) :
    (v : QJsonValue) → '\n' ∉ valueToJson format.number true indent v
  | .bool b => by cases b <;> simp [valueToJson]
  | .double d => format.newline_free d
  | .string s => newline_not_mem_quoted s
  | .array items => by
      simp [valueToJson, newline, spaces, newline_not_mem_array (indent + 1) items]
  | .object members => by
      simp [valueToJson, newline, spaces, newline_not_mem_object (indent + 1) members]
  | .null | .undefined => by simp [valueToJson]

theorem newline_not_mem_array (indent : ℕ) :
    (items : List QJsonValue) → '\n' ∉ arrayContentToJson format.number true indent items
  | [] => not_mem_nil
  | [v] => by simp [arrayContentToJson, newline, spaces, newline_not_mem_value indent v]
  | v :: w :: rest => by
      simp [arrayContentToJson, newline, spaces, newline_not_mem_value indent v,
        newline_not_mem_array indent (w :: rest)]

theorem newline_not_mem_object (indent : ℕ) : (members : List (String × QJsonValue)) →
    '\n' ∉ objectContentToJson format.number true indent members
  | [] => not_mem_nil
  | [(key, v)] => by
      simp [objectContentToJson, newline, spaces, newline_not_mem_quoted,
        newline_not_mem_value indent v]
  | (key, v) :: m :: rest => by
      simp [objectContentToJson, newline, spaces, newline_not_mem_quoted,
        newline_not_mem_value indent v, newline_not_mem_object indent (m :: rest)]

end

end JsonWriter

/-- No character but the newline has its byte in the encoding. -/
theorem QString.newline_mem_toUtf8 {cs : List Char}
    (h : LineReader.newline ∈ toUtf8 (String.ofList cs)) : '\n' ∈ cs := by
  have hbytes : toUtf8 (String.ofList cs) = cs.flatMap String.utf8EncodeChar := by
    simp [toUtf8, String.toByteArray_ofList, List.utf8Encode]
  rw [hbytes] at h
  obtain ⟨c, hc, hbyte⟩ := mem_flatMap.mp h
  have hnumber : 10 ∈ (String.utf8EncodeChar c).map UInt8.toNat := mem_map.mpr ⟨_, hbyte, rfl⟩
  have hval : c.val.toNat = c.toNat := rfl
  have hten : c.toNat = 10 := by
    unfold String.utf8EncodeChar at hnumber
    dsimp only at hnumber
    split_ifs at hnumber <;> simp at hnumber <;> omega
  obtain rfl : c = '\n' := Char.ext (UInt32.toNat_inj.mp hten)
  exact hc

namespace LineReader

open QString
open JsonWriter hiding newline
open DaemonLocalServerConnection (Input)

variable (format : NumberFormat) (json : QJsonObject) (sent : List QJsonObject)

def compact : QByteArray := toUtf8 (toJson format.number true (.object json))

/-- What `write` hands to the socket, call after call. -/
def written : QByteArray := unlines newline (sent.map (compact format))

theorem commands_compact : commands (sent.map (compact format)) = sent.map (compact format) := by
  have hopen : toUtf8 (String.ofList ['\x7b']) = [0x7b] := by decide
  have hclose : toUtf8 (String.ofList ['\x7d']) = [0x7d] := by decide
  have hbraces : ∀ json, compact format json = [0x7b] ++ toUtf8 (String.ofList
      (objectContentToJson format.number true 1 json)) ++ [0x7d] := by
    intro json
    rw [← hopen, ← hclose, ← toUtf8_append, ← toUtf8_append,
      ← String.ofList_append, ← String.ofList_append, compact, toJson]
    simp [JsonWriter.newline, spaces, valueToJson]
  have htrimmed : QByteArray.trimmed ∘ compact format = compact format := by
    funext json
    simp [hbraces, QByteArray.trimmed, QByteArray.trimmed.space]
  simp [commands, htrimmed, hbraces]

theorem commands_lines_of_written {bytes : QByteArray} (h : bytes <+: written format sent) :
    commands (lines newline bytes) = (sent.take (bytes.count newline)).map (compact format) := by
  have hfree : ∀ line ∈ sent.map (compact format), newline ∉ line := by
    refine forall_mem_map.mpr fun json _ hmem => ?_
    simpa [JsonWriter.newline, newline_not_mem_value] using newline_mem_toUtf8 hmem
  rw [lines_of_prefix_unlines hfree h, ← map_take, commands_compact]

/-- What has arrived of a stream, in the parts that `readData` reads. -/
structure Delivery (stream : QByteArray) where
  calls : List (List Input)
  initial : calls.flatMap (flatMap Input.bytes) <+: stream

end LineReader

namespace LocalSocketController

open QJsonObject QJsonValue WireguardConf

variable (qt : QtParser) (raw : QJsonObject)

def wgConfig : QJsonObject :=
  (raw.value ((raw.value "protocol").toString ++ "_config_data")).toObject

def junk (key : String) : Option String :=
  if (raw.value "protocol").toString = "awg" ∨
      junkKeys.all fun key => !((wgConfig raw).value key).isUndefined then
    textOf ((wgConfig raw).value key)
  else none

/-- What the daemon insists on. -/
def sendable : Bool :=
  ["client_priv_key", "server_pub_key", "hostName"].all
      (fun key => ((wgConfig raw).value key).isString) &&
    ((raw.value "dns1").isUndefined || (raw.value "dns1").isString) &&
    (raw.value "splitTunnelApps").toArray.all isString

/-- The configuration that the daemon is to apply. -/
def requested : WireguardConf.InterfaceConfig where
  m_privateKey := ((wgConfig raw).value "client_priv_key").toString
  m_deviceIpv4Address := textOf ((wgConfig raw).value "client_ip")
  m_deviceIpv6Address := some "fd58:baa6:dead::1"
  m_serverIpv4Gateway := ((wgConfig raw).value "hostName").toString
  m_serverPublicKey := ((wgConfig raw).value "server_pub_key").toString
  m_serverIpv4AddrIn := some ((wgConfig raw).value "hostName").toString
  m_dnsServer := textOf (raw.value "dns1")
  m_serverPort := ((wgConfig raw).value "port").toInt
  m_deviceMTU :=
    let mtu := QString.toInt ((wgConfig raw).value "mtu").toString
    if mtu = 0 then 1420 else max 1280 mtu
  m_allowedIPAddressRanges :=
    ((allowedIPAddresses raw (wgConfig raw)).map (AddressRange.toIPAddress qt)).mergeSort
      fun a b => decide (a.m_prefixLength ≥ b.m_prefixLength)
  m_junkPacketCount := junk raw "Jc"
  m_junkPacketMinSize := junk raw "Jmin"
  m_junkPacketMaxSize := junk raw "Jmax"
  m_initPacketJunkSize := junk raw "S1"
  m_responsePacketJunkSize := junk raw "S2"
  m_initPacketMagicHeader := junk raw "H1"
  m_responsePacketMagicHeader := junk raw "H2"
  m_underloadPacketMagicHeader := junk raw "H3"
  m_transportPacketMagicHeader := junk raw "H4"

theorem contains_insert {o : QJsonObject} {key other : String} {v : QJsonValue} :
    (o.insert key v).contains other =
      if other = key then !v.isUndefined else o.contains other := by
  unfold QJsonObject.insert QJsonObject.contains
  split_ifs with hv hkey hkey
  · simp [hkey, lookup_remove_self, hv]
  · rw [lookup_remove_of_ne hkey]
  · simp [hkey, lookup_place_self, hv]
  · rw [lookup_place_of_ne hkey]

theorem members_activate :
    let o := activate raw
    let wg := wgConfig raw
    o.value "privateKey" = wg.value "client_priv_key" ∧
      o.value "deviceIpv4Address" = wg.value "client_ip" ∧
      o.value "deviceIpv6Address" = .string "fd58:baa6:dead::1" ∧
      o.value "serverPublicKey" = wg.value "server_pub_key" ∧
      o.value "serverIpv4AddrIn" = wg.value "hostName" ∧
      o.value "serverIpv6AddrIn" = .undefined ∧
      o.value "deviceMTU" = wg.value "mtu" ∧
      o.contains "deviceMTU" = !(wg.value "mtu").isUndefined ∧
      o.value "serverPort" = .double (wg.value "port").toInt ∧
      o.value "serverIpv4Gateway" = wg.value "hostName" ∧
      o.value "serverIpv6Gateway" = .undefined ∧
      o.value "dnsServer" = raw.value "dns1" ∧
      o.contains "dnsServer" = !(raw.value "dns1").isUndefined ∧
      o.contains "hopType" = false ∧
      o.value "excludedAddresses" = .array (element (wg.value "hostName") ::
        if (raw.value "splitTunnelType").toInt = 2 then
          (raw.value "splitTunnelSites").toArray.map fun v => .string v.toString else []) ∧
      o.contains "excludedAddresses" = true ∧
      o.value "vpnDisabledApps" = .array (raw.value "splitTunnelApps").toArray ∧
      o.contains "vpnDisabledApps" = true := by
  have hnil : QJsonObject.contains [] "hopType" = false := rfl
  unfold activate wgConfig
  dsimp only
  split <;> simp [junkKeys, contains_insert, isUndefined, hnil]

theorem validStringList_activate :
    validStringList (activate raw) "excludedAddresses" =
        ((wgConfig raw).value "hostName").isString ∧
      validStringList (activate raw) "vpnDisabledApps" =
        (raw.value "splitTunnelApps").toArray.all isString := by
  have helement (v : QJsonValue) : (element v).isString = v.isString := by cases v <;> rfl
  constructor
  · simp only [validStringList, members_activate, if_true, all_cons, helement]
    split_ifs <;> simp [isString]
  · simp [validStringList, members_activate]

theorem parseDeviceMTU_activate :
    parseDeviceMTU (activate raw) = (requested qt raw).m_deviceMTU := by
  have hempty : QString.toInt "" = 0 := by decide
  unfold parseDeviceMTU requested
  simp only [members_activate]
  cases (wgConfig raw).value "mtu" <;>
    simp [textOf, QJsonValue.toString, isUndefined, hempty, max_def]
  grind

theorem junkText_activate {key : String} (hkey : key ∈ junkKeys) :
    junkText (activate raw) key = junk raw key := by
  have htext (v : QJsonValue) : (if v.isNull then none else textOf v) = textOf v := by
    cases v <;> rfl
  rw [junkText, htext, junk, wgConfig, activate]
  split
  · rw [value_foldl_insert, if_pos hkey]
  · simp only [junkKeys, mem_cons, not_mem_nil, or_false] at hkey
    rcases hkey with rfl | rfl | rfl | rfl | rfl | rfl | rfl | rfl | rfl <;> simp [textOf]

theorem intOf_toInt (v : QJsonValue) : intOf v.toInt = v.toInt := by
  have hrange : -2 ^ 31 ≤ v.toInt ∧ v.toInt < 2 ^ 31 := by
    cases v <;> grind [QJsonValue.toInt]
  have hbounds : (-2 ^ 31 - 1 : ℚ) < v.toInt ∧ (v.toInt : ℚ) < 2 ^ 31 := by
    norm_cast
  rw [intOf, if_pos hbounds, Int.floor_intCast, Int.ceil_intCast, ite_self]

/-- The daemon accepts the message exactly when it can be sent, and reads what was requested. -/
theorem parseConfig_activate (qt : QtParser) (raw : QJsonObject) :
    parseConfig qt (activate raw) =
      if sendable raw then some (requested qt raw) else none := by
  have hranges : Daemon.parseAllowedIPAddressRanges qt (activate raw) =
      some (requested qt raw).m_allowedIPAddressRanges := by
    rw [Daemon.parseAllowedIPAddressRanges, value_activate]
    dsimp only
    rw [mapM_map, Function.comp_def, mapM_eq_some_map fun r _ => parseRange_toJson qt r]
    rfl
  unfold parseConfig parseDnsServer validHopType
  simp only [members_activate, hranges, validStringList_activate, parseDeviceMTU_activate qt]
  cases hkey : (wgConfig raw).value "client_priv_key" with
  | string privateKey =>
    cases hpublic : (wgConfig raw).value "server_pub_key" with
    | string serverPublicKey =>
      cases hhost : (wgConfig raw).value "hostName" with
      | string hostName =>
        by_cases happs : (raw.value "splitTunnelApps").toArray.all isString
        · cases hdns : raw.value "dns1" <;>
            simp [sendable, requested, textOf, hkey, hpublic, hhost, hdns, happs,
              isString, isUndefined, QJsonValue.toString, intOf_toInt]
          all_goals simpa [junkKeys] using fun key => @junkText_activate raw key
        · cases hdns : raw.value "dns1" <;>
            simp [sendable, textOf, hdns, happs, isUndefined]
      | _ => simp [sendable, textOf, hhost, isString]
    | _ => simp [sendable, hpublic, isString]
  | _ => simp [sendable, hkey, isString]

end LocalSocketController

end AmneziaVpn
