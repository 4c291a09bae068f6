import AmneziaVpn.QtStringLists
import AmneziaVpn.ShadowsocksLinks

/-!
# The export of Shadowsocks links

A Shadowsocks configuration is exported as a link of the old scheme, in Base64 as a whole.
-/

namespace AmneziaVpn

open List QString Utils

/-- `QByteArray::toBase64()` -/
def Utils.toBase64 (bytes : QByteArray) : String :=
  String.ofList (Base64.encode Base64.standard bytes ++
    List.replicate ((3 - bytes.length % 3) % 3) '=')

namespace ExportController

def shadowSocksText (nativeConfig : QJsonObject) : String :=
  let part (key : String) : String := (nativeConfig.value key).toString
  part "method" ++ ":" ++ part "password" ++ "@" ++ part "server" ++ ":" ++ part "server_port"

def generateShadowSocksConfig (nativeConfig : QJsonObject) : String :=
  "ss://" ++ toBase64 (toUtf8 (shadowSocksText nativeConfig))

end ExportController

namespace Ss

open ExportController

theorem fromBase64_toBase64 (bytes : QByteArray) :
    fromBase64 (toBase64 bytes) = bytes := by
  rw [fromBase64, toBase64, String.toList_ofList, Base64.decode,
    Base64.decodeFrom_append_skipped]
  · exact Base64.decode_encode bytes
  · intro c hc
    rw [eq_of_mem_replicate hc]
    rfl

theorem not_mem_toBase64 {x : Char} (hx : ∀ n < 64, Base64.standard.digit n ≠ x) (hpad : x ≠ '=')
    (bytes : QByteArray) : x ∉ (toBase64 bytes).toList := by
  rw [toBase64, String.toList_ofList, mem_append, not_or]
  constructor
  · intro h
    obtain ⟨n, hn, rfl⟩ := Base64.exists_digit_of_mem_encode h
    exact hx n hn rfl
  · exact fun h => hpad (eq_of_mem_replicate h)

variable {c : Char} {separator l r : String}

theorem aroundFirst_append (hc : separator.toList = [c]) (h : c ∉ l.toList) :
    aroundFirst c (l ++ separator ++ r) = (l, r) := by
  unfold aroundFirst
  rw [String.toList_append, String.toList_append, hc, append_assoc, singleton_append,
    cutFirst_append_cons h]
  simp

theorem aroundLast_append (hc : separator.toList = [c]) (h : c ∉ r.toList) :
    aroundLast c (l ++ separator ++ r) = (l, r) := by
  have hlist : l ++ separator ++ r = String.ofList (l.toList ++ c :: r.toList) := by
    apply String.toList_inj.mp
    simp [hc]
  rw [hlist, aroundLast_append_cons h]
  simp

theorem contains_append (hc : separator.toList = [c]) :
    (l ++ separator ++ r).toList.contains c = true := by
  simp [hc]

theorem oldScheme_parts {method password host : String} (hmethod : ':' ∉ method.toList)
    (hhost : '@' ∉ host.toList) (port : UInt16) (report : LinkReport) :
    oldScheme (method ++ ":" ++ (password ++ "@" ++ (host ++ ":" ++ toString (port.toNat : ℤ))))
      report = (⟨host, method, password, port.toNat⟩, report) := by
  have hdigit {x : Char} (hx : x.isDigit = false) : x ∉ (toString (port.toNat : ℤ)).toList := by
    intro hmem
    rw [isDigit_of_mem_toString hmem] at hx
    cases hx
  have hat : '@' ∉ (host ++ ":" ++ toString (port.toNat : ℤ)).toList := by
    simp only [String.toList_append, mem_append, not_or]
    exact ⟨⟨hhost, by decide⟩, hdigit rfl⟩
  have hcolon : ":".toList = [':'] := rfl
  have hatSign : "@".toList = ['@'] := rfl
  have hport : ':' ∉ (toString (port.toNat : ℤ)).toList := hdigit rfl
  unfold oldScheme
  simp only [aroundFirst_append hcolon hmethod, aroundLast_append hatSign hat,
    aroundLast_append hcolon hport, contains_append hcolon, contains_append hatSign, reportUnless,
    if_true]
  rw [toInt_toString (port.toNat_lt.trans (by decide))]

/-- A link that is in Base64 as a whole has no name and is read by the old scheme. -/
theorem deserialize_toBase64 (qt : QtRuntime) (text : String) (report : LinkReport) :
    (deserialize qt ("ss://" ++ toBase64 (toUtf8 text)) report).1 =
      Outbounds.shadowSocksRoot (oldScheme text report).1 := by
  have huri : mid ("ss://" ++ toBase64 (toUtf8 text)) 5 =
      toBase64 (toUtf8 text) := by
    unfold mid
    rw [String.toList_append]
    exact String.ofList_toList
  have hname : '#' ∉ (toBase64 (toUtf8 text)).toList :=
    not_mem_toBase64 (by decide) (by decide) _
  have hat : '@' ∉ (toBase64 (toUtf8 text)).toList :=
    not_mem_toBase64 (by decide) (by decide) _
  have hlength : 5 ≤ ("ss://" ++ toBase64 (toUtf8 text)).length := by
    rw [String.length_append]
    exact Nat.le_add_right 5 _
  unfold deserialize withoutName reportUnless
  rw [huri, decide_eq_true hlength, if_pos rfl]
  simp [contains_eq_mem, hname, hat, decide_false, Bool.false_eq_true, fromBase64_toBase64, QtRuntime.text, fromUtf8_toUtf8]

/-- The exported link is read with the same method, password, host and port. -/
theorem deserialize_generateShadowSocksConfig (qt : QtRuntime) (nativeConfig : QJsonObject)
    (method password host : String) (port : UInt16) (report : LinkReport)
    (hmethod : ':' ∉ method.toList) (hhost : '@' ∉ host.toList)
    (hconfig : nativeConfig.value "method" = .string method ∧
      nativeConfig.value "password" = .string password ∧
      nativeConfig.value "server" = .string host ∧
      nativeConfig.value "server_port" = .string (toString (port.toNat : ℤ))) :
    (deserialize qt (generateShadowSocksConfig nativeConfig) report).1 =
      Outbounds.shadowSocksRoot ⟨host, method, password, port.toNat⟩ := by
  have htext : shadowSocksText nativeConfig =
      method ++ ":" ++ (password ++ "@" ++ (host ++ ":" ++ toString (port.toNat : ℤ))) := by
    obtain ⟨hm, hp, hh, hport⟩ := hconfig
    unfold shadowSocksText
    simp [hm, hp, hh, hport, QJsonValue.toString, String.append_assoc]
  rw [generateShadowSocksConfig, deserialize_toBase64, htext, oldScheme_parts hmethod hhost]

/-- The password has both separators and the host is an IPv6 address. -/
theorem deserialize_generateShadowSocksConfig_separators :
    (deserialize (.plain QtRuntime.noUrl [])
      (generateShadowSocksConfig [("method", .string "aes-256-gcm"), ("password", .string "p@s:s@"),
        ("server", .string "2001:db8::1"), ("server_port", .string "6789")]) {}).1 =
      Outbounds.shadowSocksRoot ⟨"2001:db8::1", "aes-256-gcm", "p@s:s@", 6789⟩ :=
  deserialize_generateShadowSocksConfig _ _ "aes-256-gcm" "p@s:s@" "2001:db8::1" 6789 {} (by decide)
    (by decide) ⟨rfl, rfl, rfl, rfl⟩

end Ss

end AmneziaVpn
