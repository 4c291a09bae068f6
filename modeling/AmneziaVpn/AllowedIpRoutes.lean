import Mathlib.Data.List.DropRight
import AmneziaVpn.ActivateMessage
import AmneziaVpn.MozillaIpAddress

/-!
# The configured addresses and the routed ones

The allowed addresses of a configuration are a text with commas or an array, and all addresses if
there is none.
-/

namespace AmneziaVpn

open List QString

/-- How `QHostAddress` reads a text. Spaces around it do not matter. -/
structure HostAddressParser extends QtParser where
  parse_trimmed : ∀ text, parse (trimmed text) = parse text
  parse_empty : parse "" = .null
  parse_any : parse "0.0.0.0" = .ipv4 0
  parse_anyIPv6 : parse "::" = .ipv6 .zero

namespace AllowedIps

def maxLength : QHostAddress → ℤ
  | .ipv6 _ => 128
  | _ => 32

/-- The network of an entry, with or without a length. -/
def network (qt : HostAddressParser) (entry : String) : Option IPAddress :=
  match split entry "/" with
  | [_] =>
      let address := qt.parse (trimmed entry)
      if address = .null then none else some ⟨address, maxLength address⟩
  | [address, length] =>
      let address := qt.parse (trimmed address)
      match toInt? length with
      | some n => if address ≠ .null ∧ 0 ≤ n ∧ n ≤ maxLength address then some ⟨address, n⟩ else none
      | none => none
  | _ => none

def entries? : QJsonValue → Option (List String)
  | .undefined => none
  | .string text => some (split text ",")
  | .array items => some (items.map QJsonValue.toString)
  | _ => some []

def Configured (qt : HostAddressParser) (v : QJsonValue) (x : QHostAddress) : Prop :=
  match entries? v with
  | none => x ≠ .null
  | some entries => ∃ entry ∈ entries, ∃ ip, network qt entry = some ip ∧ ip.contains x = true

def Routed (ranges : List IPAddress) (x : QHostAddress) : Prop := ∃ ip ∈ ranges, ip.contains x = true

variable {qt : HostAddressParser} {x : QHostAddress}

theorem ne_null_of_contains {ip : IPAddress} (haddress : ip.m_address ≠ .null)
    (h : ip.contains x = true) : x ≠ .null := by
  rintro rfl
  have hprotocol : QHostAddress.null.protocol = ip.m_address.protocol := by
    by_contra hne
    unfold IPAddress.contains at h
    rw [if_pos hne] at h
    cases h
  cases haddr : ip.m_address with
  | null => exact haddress haddr
  | ipv4 a =>
    rw [haddr] at hprotocol
    cases hprotocol
  | ipv6 a =>
    rw [haddr] at hprotocol
    cases hprotocol

variable {address : QHostAddress} {n : ℤ}

theorem inRange_of_le (hlo : 0 ≤ n) (hhi : n ≤ maxLength address) :
    IPAddress.InRange ⟨address, n⟩ := by
  cases address with
  | null => trivial
  | ipv4 a => exact ⟨hlo, hhi⟩
  | ipv6 a => exact ⟨hlo, hhi⟩

theorem contains_of_le {m : ℤ} (haddress : address ≠ .null) (hm : 0 ≤ m) (hmn : m ≤ n)
    (hn : n ≤ maxLength address) (h : IPAddress.contains ⟨address, n⟩ x = true) :
    IPAddress.contains ⟨address, m⟩ x = true := by
  have hx := @ne_null_of_contains x ⟨address, n⟩ haddress h
  rw [IPAddress.contains_iff (inRange_of_le (hm.trans hmn) hn) hx] at h
  rw [IPAddress.contains_iff (inRange_of_le hm (hmn.trans hn)) hx]
  refine ⟨h.1, PrefixMasks.div_eq_of_le ?_ h.2⟩
  cases address with
  | null => exact absurd rfl haddress
  | ipv4 a =>
    simp only [IPAddress.hostBits, IPAddress.bits]
    omega
  | ipv6 a =>
    simp only [IPAddress.hostBits, IPAddress.bits]
    omega

variable {c : Char}

theorem isSpace_of_isSpaceC (h : isSpaceC c = true) : QString.isSpace c = true := by
  unfold isSpaceC at h
  unfold QString.isSpace
  rw [h]
  rfl

theorem dropWhile_isSpaceC (cs : List Char) :
    cs.dropWhile isSpaceC = cs.dropWhile QString.isSpace ∨
      ∃ c rest, cs.dropWhile isSpaceC = c :: rest ∧ QString.isSpace c = true := by
  induction cs with
  | nil => exact Or.inl rfl
  | cons c cs ih =>
    by_cases hc : isSpaceC c = true
    · rw [dropWhile_cons_of_pos hc, dropWhile_cons_of_pos (isSpace_of_isSpaceC hc)]
      exact ih
    · rw [dropWhile_cons_of_neg hc]
      by_cases hspace : QString.isSpace c = true
      · exact Or.inr ⟨c, cs, rfl, hspace⟩
      · exact Or.inl (dropWhile_cons_of_neg hspace).symm

theorem not_isDigit_of_isSpace (h : QString.isSpace c = true) : c.isDigit = false := by
  by_contra hdigit
  rw [isSpace_of_isDigit (by simpa using hdigit)] at h
  cases h

variable {spaces : List Char}

theorem leadingNumber_append {digits : List Char} {n : ℕ} (h : decimal? digits = some n)
    (hspaces : ∀ c ∈ spaces, QString.isSpace c = true) : leadingNumber (digits ++ spaces) = n := by
  have hall : digits.all Char.isDigit = true ∧ Nat.ofDigitChars 10 digits 0 = n := by
    unfold decimal? at h
    split at h
    · cases h
    · split_ifs at h with hall
      exact ⟨hall, Option.some.inj h⟩
  have htake : spaces.takeWhile Char.isDigit = [] := by
    cases spaces with
    | nil => rfl
    | cons c spaces =>
      apply takeWhile_cons_of_neg
      rw [not_isDigit_of_isSpace (hspaces c mem_cons_self)]
      exact Bool.false_ne_true
  rw [leadingNumber, takeWhile_append_of_pos (all_eq_true.mp hall.1), htake,
    append_nil, hall.2]

theorem decimal?_of_cast {cs : List Char} {m : ℤ}
    (h : (do let a ← decimal? cs; pure (a : ℤ)) = some m) : ∃ k : ℕ, decimal? cs = some k ∧ k = m := by
  obtain ⟨k, hk, hm⟩ := Option.bind_eq_some_iff.mp h
  exact ⟨k, hk, Option.some.inj hm⟩

theorem signedNumber_append {cs : List Char}
    (h : (match cs with | '-' :: cs => (decimal? cs).map fun n => -(n : ℤ) | '+' :: cs => (decimal? cs).map fun n => (n : ℤ) | cs => (decimal? cs).map fun n => (n : ℤ)) = some n)
    (hspaces : ∀ c ∈ spaces, QString.isSpace c = true) : signedNumber (cs ++ spaces) = n := by
  split at h
  · obtain ⟨m, hm, rfl⟩ := Option.map_eq_some_iff.mp h
    obtain ⟨k, hk, rfl⟩ := decimal?_of_cast hm
    exact congrArg Neg.neg (leadingNumber_append hk hspaces)
  · obtain ⟨m, hm, rfl⟩ := Option.map_eq_some_iff.mp h
    obtain ⟨k, hk, rfl⟩ := decimal?_of_cast hm
    exact leadingNumber_append hk hspaces
  · rename_i hminus hplus
    obtain ⟨m, hm, rfl⟩ := Option.map_eq_some_iff.mp h
    obtain ⟨k, hk, rfl⟩ := decimal?_of_cast hm
    rw [← leadingNumber_append hk hspaces]
    cases cs with
    | nil => cases hk
    | cons c cs =>
      unfold signedNumber
      split
      · rename_i heq
        exact absurd (by rw [(List.cons.inj heq).1]) (hminus cs)
      · rename_i heq
        exact absurd (by rw [(List.cons.inj heq).1]) (hplus cs)
      · rfl

theorem signedNumber_of_isSpace {rest : List Char} (h : QString.isSpace c = true) :
    signedNumber (c :: rest) = 0 := by
  have hnumber : leadingNumber (c :: rest) = 0 := by
    rw [leadingNumber, takeWhile_cons_of_neg (by simp [not_isDigit_of_isSpace h])]
    rfl
  unfold signedNumber
  split
  · rename_i heq
    rw [(List.cons.inj heq).1] at h
    exact absurd h (by decide)
  · rename_i heq
    rw [(List.cons.inj heq).1] at h
    exact absurd h (by decide)
  · exact hnumber

theorem atoi_of_toInt? {text : String} (h : toInt? text = some n) :
    atoi text = n ∨ atoi text = 0 := by
  unfold toInt? at h
  obtain ⟨hsigned, hrange⟩ := Option.filter_eq_some_iff.mp h
  have hrange : -2 ^ 31 ≤ n ∧ n < 2 ^ 31 := by simpa using hrange
  rcases dropWhile_isSpaceC text.toList with hdrop | ⟨c, rest, hdrop, hspace⟩
  · left
    have hparts := @rdropWhile_append_rtakeWhile _ QString.isSpace
      (text.toList.dropWhile QString.isSpace)
    have htrimmed : (trimmed text).toList =
        (text.toList.dropWhile QString.isSpace).rdropWhile QString.isSpace := String.toList_ofList
    rw [htrimmed] at hsigned
    have hnumber : signedNumber (text.toList.dropWhile isSpaceC) = n := by
      rw [hdrop, ← hparts]
      exact signedNumber_append hsigned fun c hc => mem_rtakeWhile_imp hc
    rw [atoi, hnumber, min_eq_left (by omega), max_eq_right (by omega)]
    exact Int.bmod_eq_of_le (by omega) (by omega)
  · right
    rw [atoi, hdrop, signedNumber_of_isSpace hspace]
    rfl

open LocalSocketController VpnConnection

/-- What is sent for an entry covers the network that the entry stands for. -/
theorem contains_rangeOf {entry : String} {ip : IPAddress} (h : network qt entry = some ip)
    (hx : ip.contains x = true) :
    ((rangeOf entry).toIPAddress qt.toQtParser).contains x = true := by
  unfold network at h
  unfold rangeOf
  split at h
  · rename_i hsplit
    rw [hsplit]
    dsimp only at h ⊢
    rw [qt.parse_trimmed] at h
    split_ifs at h with hnull
    obtain rfl := Option.some.inj h
    have hlength : 32 ≤ maxLength (qt.parse entry) := by
      cases qt.parse entry <;> simp [maxLength]
    exact contains_of_le hnull (by norm_num) hlength le_rfl hx
  · rename_i address length hsplit
    rw [hsplit]
    dsimp only at h ⊢
    rw [qt.parse_trimmed] at h
    split at h
    · rename_i n hn
      split_ifs at h with hlength
      obtain rfl := Option.some.inj h
      rcases atoi_of_toInt? hn with hatoi | hatoi
      · exact contains_of_le hlength.1 (hatoi ▸ hlength.2.1) hatoi.le hlength.2.2 hx
      · exact contains_of_le hlength.1 hatoi.ge (hatoi.le.trans hlength.2.1) hlength.2.2 hx
    · cases h
  · cases h

/-- All addresses are covered if both families are sent with no length. -/
theorem contains_allAddresses (hx : x ≠ .null) :
    ∃ r ∈ allAddresses, (r.toIPAddress qt.toQtParser).contains x = true := by
  cases x with
  | null => exact absurd rfl hx
  | ipv4 a =>
    refine ⟨⟨"0.0.0.0", 0, false, by decide⟩, by simp [allAddresses], ?_⟩
    simp [AddressRange.toIPAddress, qt.parse_any, IPAddress.contains, QHostAddress.protocol]
  | ipv6 a =>
    refine ⟨⟨"::", 0, true, by decide⟩, by simp [allAddresses], ?_⟩
    simp [AddressRange.toIPAddress, qt.parse_anyIPv6, IPAddress.contains, QHostAddress.protocol]

def RoutedByDns (qt : HostAddressParser) (dns : String × String) : Prop :=
  ∀ x, x ≠ .null → ∃ text ∈ [dns.1, dns.2],
    ((rangeOf text).toIPAddress qt.toQtParser).contains x = true

def Understood (v : QJsonValue) : Prop :=
  v ≠ .undefined ∧ v ≠ .array (defaultAllowedIP.map .string)

theorem not_contains_rangeOf_empty (hx : x ≠ .null) :
    ((rangeOf "").toIPAddress qt.toQtParser).contains x = false := by
  have hrange : rangeOf "" = ⟨"", 32, false, by decide⟩ := rfl
  rw [hrange, AddressRange.toIPAddress]
  dsimp only
  rw [qt.parse_empty]
  cases x with
  | null => exact absurd rfl hx
  | _ => rfl

theorem routed_empty_iff {dns : String × String} :
    (∀ x, x ≠ .null → ∃ r ∈ (split "" "," ++ [dns.1, dns.2]).map rangeOf,
      (r.toIPAddress qt.toQtParser).contains x = true) ↔ RoutedByDns qt dns := by
  have hsplit : split "" "," = [""] := rfl
  rw [hsplit]
  constructor
  · intro h x hx
    obtain ⟨r, hr, hcontains⟩ := h x hx
    obtain ⟨text, htext, rfl⟩ := mem_map.mp hr
    rcases mem_cons.mp htext with rfl | htext
    · rw [not_contains_rangeOf_empty hx] at hcontains
      cases hcontains
    · exact ⟨text, htext, hcontains⟩
  · intro h x hx
    obtain ⟨text, htext, hcontains⟩ := h x hx
    exact ⟨rangeOf text, mem_map_of_mem (mem_cons_of_mem _ htext), hcontains⟩

theorem network_any : network qt "0.0.0.0/0" = some ⟨.ipv4 0, 0⟩ := by
  have hsplit : split "0.0.0.0/0" "/" = ["0.0.0.0", "0"] := by decide
  have hzero : toInt? "0" = some 0 := by decide
  have hany : qt.parse (trimmed "0.0.0.0") = .ipv4 0 := by
    rw [qt.parse_trimmed, qt.parse_any]
  simp [network, hsplit, hzero, hany, maxLength]

theorem network_anyIPv6 : network qt " ::/0" = some ⟨.ipv6 .zero, 0⟩ := by
  have hsplit : split " ::/0" "/" = [" ::", "0"] := by decide
  have hzero : toInt? "0" = some 0 := by decide
  have hany : qt.parse (trimmed " ::") = .ipv6 .zero := qt.parse_anyIPv6
  simp [network, hsplit, hzero, hany, maxLength]

theorem configured_default (hx : x ≠ .null) :
    Configured qt (.array (defaultAllowedIP.map .string)) x := by
  have hentries : entries? (.array (defaultAllowedIP.map .string)) =
      some ["0.0.0.0/0", " ::/0"] := by decide
  rw [Configured, hentries]
  cases x with
  | null => exact absurd rfl hx
  | ipv4 a => exact ⟨"0.0.0.0/0", by simp, _, network_any, by simp [IPAddress.contains,
      QHostAddress.protocol]⟩
  | ipv6 a => exact ⟨" ::/0", by simp, _, network_anyIPv6, by simp [IPAddress.contains,
      QHostAddress.protocol]⟩

theorem ne_null_of_network {entry : String} {ip : IPAddress} (h : network qt entry = some ip) :
    ip.m_address ≠ .null := by
  unfold network at h
  split at h
  · dsimp only at h
    split_ifs at h with hnull
    obtain rfl := Option.some.inj h
    exact hnull
  · dsimp only at h
    split at h
    · split_ifs at h with hlength
      obtain rfl := Option.some.inj h
      exact hlength.1
    · cases h
  · cases h

theorem ne_null_of_configured {v : QJsonValue} (h : Configured qt v x) : x ≠ .null := by
  unfold Configured at h
  split at h
  · exact h
  · obtain ⟨entry, -, ip, hip, hx⟩ := h
    exact ne_null_of_contains (ne_null_of_network hip) hx

theorem exists_rangeOf {texts : List String}
    (h : ∃ entry ∈ texts, ∃ ip, network qt entry = some ip ∧ ip.contains x = true) :
    ∃ r ∈ texts.map rangeOf, (r.toIPAddress qt.toQtParser).contains x = true := by
  obtain ⟨entry, hentry, ip, hip, hx⟩ := h
  exact ⟨rangeOf entry, mem_map_of_mem hentry, contains_rangeOf hip hx⟩

theorem apiRanges_of_isEmpty {v : QJsonValue} {dns : String × String} (harray : v.toArray = [])
    (hne : split v.toString "," ≠ defaultAllowedIP) :
    apiRanges v dns = (split v.toString "," ++ [dns.1, dns.2]).map rangeOf := by
  rw [apiRanges, harray, if_neg (by simp), if_neg hne]

theorem configured_apiRanges_iff (v : QJsonValue) (dns : String × String) :
    (∀ x, Configured qt v x → ∃ r ∈ apiRanges v dns,
      (r.toIPAddress qt.toQtParser).contains x = true) ↔ Understood v ∨ RoutedByDns qt dns := by
  have hnone : split "" "," ≠ defaultAllowedIP := by decide
  cases v with
  | undefined =>
    have hsent : apiRanges .undefined dns = (split "" "," ++ [dns.1, dns.2]).map rangeOf :=
      apiRanges_of_isEmpty rfl hnone
    rw [hsent, or_iff_right fun h : Understood .undefined => h.1 rfl, ← routed_empty_iff]
    rfl
  | string text =>
    refine iff_of_true ?_ (Or.inl ⟨by simp, by simp⟩)
    intro x hx
    by_cases htext : split text "," = defaultAllowedIP
    · have hsent : apiRanges (.string text) dns = allAddresses := by
        rw [apiRanges, if_neg (by simp [QJsonValue.toArray])]
        exact if_pos htext
      rw [hsent]
      exact contains_allAddresses (ne_null_of_configured hx)
    · have hsent : apiRanges (.string text) dns =
          (split text "," ++ [dns.1, dns.2]).map rangeOf := apiRanges_of_isEmpty rfl htext
      obtain ⟨entry, hentry, hip⟩ := hx
      rw [hsent]
      exact exists_rangeOf ⟨entry, mem_append_left _ hentry, hip⟩
  | array items =>
    by_cases hdefault : items = defaultAllowedIP.map .string
    · have hsame : QJsonValue.sameTexts items defaultAllowedIP = true :=
        QJsonValue.sameTexts_iff.mpr hdefault
      have hsent : apiRanges (.array items) dns =
          (split "" "," ++ [dns.1, dns.2]).map rangeOf := by
        rw [apiRanges, if_neg fun h => by simp [QJsonValue.toArray, hsame] at h]
        exact if_neg hnone
      rw [hsent, or_iff_right fun h : Understood (.array items) => h.2 (by rw [hdefault]),
        ← routed_empty_iff, hdefault]
      exact forall_congr' fun x =>
        imp_congr_left ⟨ne_null_of_configured, configured_default⟩
    · refine iff_of_true ?_ (Or.inl ⟨by simp, by simpa using hdefault⟩)
      intro x hx
      obtain ⟨entry, hentry, hip⟩ := hx
      have hsame : QJsonValue.sameTexts items defaultAllowedIP = false := by
        rw [← Bool.not_eq_true, QJsonValue.sameTexts_iff]
        exact hdefault
      have hempty : items.isEmpty = false := by
        cases items with
        | nil => cases hentry
        | cons item items => rfl
      have hsent : apiRanges (.array items) dns = (items.map QJsonValue.toString).map rangeOf := by
        rw [apiRanges, if_pos ⟨hsame, hempty⟩, map_map]
        rfl
      rw [hsent]
      exact exists_rangeOf ⟨entry, hentry, hip⟩
  | _ =>
    refine iff_of_true ?_ (Or.inl ⟨by simp, by simp⟩)
    rintro x ⟨entry, hentry, -⟩
    cases hentry

variable {m_settings : SplitTunneling} {dns : String × String}
  {serverConfig awgConfigData : QJsonObject}

/-- Every configured address is routed if the list is understood, or else if the name servers cover
all. -/
theorem configured_routed_iff (h : (serverConfig.value "config_version").toInt ≠ 0) :
    ∃ ranges, Daemon.parseAllowedIPAddressRanges qt.toQtParser (activate
        (appendSplitTunnelingConfig m_settings
          (createVpnConfiguration dns serverConfig awgConfigData))) = some ranges ∧
      ((∀ x, Configured qt (awgConfigData.value "allowed_ips") x → Routed ranges x) ↔
        Understood (awgConfigData.value "allowed_ips") ∨ RoutedByDns qt dns) := by
  obtain ⟨ranges, hranges, hmem⟩ := mem_parseAllowedIPAddressRanges qt.toQtParser
    (appendSplitTunnelingConfig m_settings (createVpnConfiguration dns serverConfig awgConfigData))
  obtain ⟨hdata, hsent⟩ := @allowedIPAddresses_api m_settings dns serverConfig awgConfigData h
  rw [hdata, hsent] at hmem
  refine ⟨ranges, hranges, ?_⟩
  have hrouted : ∀ x, Routed ranges x ↔ ∃ r ∈ apiRanges (awgConfigData.value "allowed_ips") dns,
      (r.toIPAddress qt.toQtParser).contains x = true := by
    intro x
    simp only [Routed, hmem]
    constructor
    · rintro ⟨ip, ⟨r, hr, rfl⟩, hx⟩
      exact ⟨r, hr, hx⟩
    · rintro ⟨r, hr, hx⟩
      exact ⟨_, ⟨r, hr, rfl⟩, hx⟩
  simp only [hrouted]
  exact configured_apiRanges_iff _ dns

theorem trimmed_trimmed (text : String) :
    trimmed (trimmed text) = trimmed text := by
  let start := text.toList.dropWhile QString.isSpace
  have hlist : (trimmed text).toList = start.rdropWhile QString.isSpace :=
    String.toList_ofList
  apply trimmed_eq_self
  · intro c hc
    obtain ⟨rest, hrest⟩ := rdropWhile_prefix QString.isSpace start
    have hhead : start.head? = some c := by
      rw [← hrest, head?_append, ← hlist, hc, Option.some_or]
    have hnot := head?_dropWhile_not QString.isSpace text.toList
    rwa [hhead] at hnot
  · intro c hc
    rw [hlist] at hc
    have hne := ne_nil_of_mem (mem_of_getLast? hc)
    rw [getLast?_eq_some_getLast hne, Option.mem_some_iff] at hc
    simpa [← hc] using rdropWhile_last_not QString.isSpace start hne

def fewAddresses : HostAddressParser where
  parse text :=
    if trimmed text = "0.0.0.0" then .ipv4 0
    else if trimmed text = "::" then .ipv6 .zero
    else if trimmed text = "1.1.1.1" then .ipv4 0x01010101
    else if trimmed text = "1.0.0.1" then .ipv4 0x01000001
    else .null
  parseSubnet _ := (.null, -1)
  parseSubnet_nonneg _ h := absurd rfl h
  parse_trimmed text := by simp only [trimmed_trimmed]
  parse_empty := by decide
  parse_any := by decide
  parse_anyIPv6 := by decide

def noSplitTunneling : SplitTunneling where
  isSitesSplitTunnelingEnabled := false
  routeMode := .vpnAllSites
  getVpnIps _ := []
  isAppsSplitTunnelingEnabled := false
  getAppsRouteMode := .vpnAllApps
  getVpnApps _ := []

def apiServer : QJsonObject := [("config_version", .double 2)]

theorem configured_routed_array :
    (apiServer.value "config_version").toInt ≠ 0 ∧
    ∃ ranges, Daemon.parseAllowedIPAddressRanges fewAddresses.toQtParser (activate
        (appendSplitTunnelingConfig noSplitTunneling (createVpnConfiguration ("1.1.1.1", "1.0.0.1")
          apiServer [("allowed_ips", .array [.string "0.0.0.0/0", .string "::/0"])]))) = some ranges ∧
      ∀ x, Configured fewAddresses (.array [.string "0.0.0.0/0", .string "::/0"]) x →
        Routed ranges x := by
  have hversion : (apiServer.value "config_version").toInt ≠ 0 := by decide
  refine ⟨hversion, ?_⟩
  obtain ⟨ranges, hranges, hiff⟩ := configured_routed_iff hversion
  refine ⟨ranges, hranges, hiff.mpr (Or.inl ⟨by simp [QJsonObject.value], ?_⟩)⟩
  have htexts : defaultAllowedIP = ["0.0.0.0/0", " ::/0"] := by decide
  simp [QJsonObject.value, htexts]

/-- Without `allowed_ips`, `8.8.8.8` is a configured address, and it is not routed. -/
theorem configured_routed_absent :
    Configured fewAddresses (QJsonObject.value [] "allowed_ips") (.ipv4 0x08080808) ∧
    ∃ ranges, Daemon.parseAllowedIPAddressRanges fewAddresses.toQtParser (activate
        (appendSplitTunnelingConfig noSplitTunneling
          (createVpnConfiguration ("1.1.1.1", "1.0.0.1") apiServer []))) = some ranges ∧
      ¬ Routed ranges (.ipv4 0x08080808) := by
  refine ⟨by simp [Configured, entries?], ?_⟩
  obtain ⟨ranges, hranges, hmem⟩ := mem_parseAllowedIPAddressRanges fewAddresses.toQtParser
    (appendSplitTunnelingConfig noSplitTunneling
      (createVpnConfiguration ("1.1.1.1", "1.0.0.1") apiServer []))
  obtain ⟨hdata, hsent⟩ := @allowedIPAddresses_api noSplitTunneling ("1.1.1.1", "1.0.0.1") apiServer
    [] (by decide)
  rw [hdata, hsent] at hmem
  refine ⟨ranges, hranges, ?_⟩
  rintro ⟨ip, hip, hx⟩
  obtain ⟨r, hr, rfl⟩ := (hmem ip).mp hip
  have hother : ∀ r ∈ apiRanges (QJsonObject.value [] "allowed_ips") ("1.1.1.1", "1.0.0.1"),
      (r.toIPAddress fewAddresses.toQtParser).contains (.ipv4 0x08080808) = false := by
    decide +kernel
  rw [hother r hr] at hx
  cases hx

end AllowedIps

end AmneziaVpn
