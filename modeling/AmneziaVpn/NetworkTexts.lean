import AmneziaVpn.AllowedIpRoutes
import AmneziaVpn.InetNetwork

/-!
# Networks on the desktop and on Android

On the desktop the client cuts a text at the slash and sends the address and the length, and the
daemon reads the address.
-/

namespace AmneziaVpn.NetworkTexts

open List InetAddress InetNetwork Option

section Addresses

def bytesOf (text : String) : Option (List UInt8) :=
  if ':' ∈ text.toList then parseIpv6 text.toList else parseDottedDecimal text.toList

variable {c : Char} {cs : List Char}

/-- A character that the text of no address has. -/
structure Strange (c : Char) : Prop where
  colon : c ≠ ':'
  dot : c ≠ '.'
  digit : c.isDigit = false
  hexDigit : hexDigit? c = none

theorem decimal?_eq_none (hc : c.isDigit = false) (h : c ∈ cs) : decimal? cs = none := by
  cases cs with
  | nil => cases h
  | cons x xs =>
    have hall : (x :: xs).all Char.isDigit = false :=
      all_eq_false.mpr ⟨c, h, by simp [hc]⟩
    rw [decimal?, hall]
    · rfl
    · simp

theorem mapM_eq_none {α β : Type} {f : α → Option β} {l : List α} {x : α} (hx : x ∈ l)
    (h : f x = none) : l.mapM f = none := by
  induction l with
  | nil => cases hx
  | cons y l ih =>
    rw [mapM_cons]
    rcases mem_cons.mp hx with rfl | hx
    · rw [h]
      rfl
    · rw [ih hx]
      cases f y <;> rfl

theorem length_of_mapM {α β : Type} {f : α → Option β} {l : List α} {l' : List β}
    (h : l.mapM f = some l') : l'.length = l.length := by
  induction l generalizing l' with
  | nil =>
    obtain rfl := some.inj h
    rfl
  | cons x l ih =>
    rw [mapM_cons] at h
    obtain ⟨y, -, h⟩ := bind_eq_some_iff.mp h
    obtain ⟨ys, hys, h⟩ := bind_eq_some_iff.mp h
    obtain rfl := some.inj h
    rw [length_cons, length_cons, ih hys]

theorem exists_mem_splitOn {d : Char} (hd : c ≠ d) (h : c ∈ cs) : ∃ part ∈ cs.splitOn d, c ∈ part := by
  have hinfix : [c] <:+: cs := (singleton_infix_iff c cs).mpr h
  obtain ⟨part, hpart, hc⟩ :=
    (Pieces.exists_infix_splitOn_iff (by simpa using hd.symm)).mp hinfix
  exact ⟨part, hpart, (singleton_infix_iff c part).mp hc⟩

theorem parseDottedDecimal_eq_none (hc : Strange c) (h : c ∈ cs) :
    parseDottedDecimal cs = none := by
  obtain ⟨part, hpart, hmem⟩ := exists_mem_splitOn hc.dot h
  have hbyte : parseDecimalByte part = none := by
    rw [parseDecimalByte, decimal?_eq_none hc.digit hmem]
    split_ifs <;> rfl
  rw [parseDottedDecimal, mapM_eq_none hpart hbyte, ite_self]

theorem length_parseDottedDecimal {bytes : List UInt8} (h : parseDottedDecimal cs = some bytes) :
    bytes.length = 4 := by
  unfold parseDottedDecimal at h
  dsimp only at h
  split_ifs at h with hparts
  rw [length_of_mapM h, hparts]

theorem hexNumber_eq_none (hc : Strange c) (h : c ∈ cs) : hexNumber cs = none := by
  have hfold : ∀ n, cs.foldlM (fun n c => (hexDigit? c).map (16 * n + ·)) n = none := by
    induction cs with
    | nil => cases h
    | cons x cs ih =>
      intro n
      rw [foldlM_cons]
      rcases mem_cons.mp h with rfl | h
      · rw [hc.hexDigit]
        rfl
      · cases hexDigit? x with
        | none => rfl
        | some d => exact ih h (16 * n + d)
  exact hfold 0

theorem parseHexBlock_eq_none (hc : Strange c) (h : c ∈ cs) : parseHexBlock cs = none := by
  rw [parseHexBlock, hexNumber_eq_none hc h, ite_self]

theorem parseBlocks_eq_none (hc : Strange c) {blocks : List (List Char)} {block : List Char}
    (hblock : block ∈ blocks) (h : c ∈ block) : parseBlocks blocks = none := by
  fun_induction parseBlocks blocks with
  | case1 => cases hblock
  | case2 tail hmem =>
    obtain rfl := mem_singleton.mp hblock
    exact parseDottedDecimal_eq_none hc h
  | case3 tail hmem =>
    obtain rfl := mem_singleton.mp hblock
    rw [parseHexBlock_eq_none hc h]
    rfl
  | case4 first rest hrest ih =>
    rcases mem_cons.mp hblock with rfl | hblock
    · rw [parseHexBlock_eq_none hc h]
      rfl
    · rw [ih hblock]
      cases parseHexBlock first <;> rfl

theorem parseColonBlocks_eq_none (hc : Strange c) (h : c ∈ cs) : parseColonBlocks cs = none := by
  obtain ⟨block, hblock, hmem⟩ := exists_mem_splitOn hc.colon h
  rw [parseColonBlocks, if_neg (ne_nil_of_mem h)]
  exact parseBlocks_eq_none hc hblock hmem

theorem cutAtDoubleColon_eq_some {left right : List Char}
    (h : cutAtDoubleColon cs = some (left, right)) : cs = left ++ ':' :: ':' :: right := by
  fun_induction cutAtDoubleColon cs generalizing left with
  | case1 rest =>
    obtain ⟨rfl, rfl⟩ := Prod.mk.inj (some.inj h)
    rfl
  | case2 x rest hx ih =>
    obtain ⟨⟨left', right'⟩, hcut, heq⟩ := map_eq_some_iff.mp h
    obtain ⟨rfl, rfl⟩ := Prod.mk.inj heq
    rw [ih hcut, cons_append]
  | case3 => cases h

theorem parseIpv6_eq_none (hc : Strange c) (h : c ∈ cs) : parseIpv6 cs = none := by
  unfold parseIpv6
  split
  · rw [parseColonBlocks_eq_none hc h]
    rfl
  · rename_i left right hcut
    rw [cutAtDoubleColon_eq_some hcut, mem_append, mem_cons, mem_cons] at h
    rcases h with h | h | h | h
    · rw [parseColonBlocks_eq_none hc h]
      rfl
    · exact absurd h hc.colon
    · exact absurd h hc.colon
    · rw [parseColonBlocks_eq_none hc h]
      cases parseColonBlocks left <;> rfl

theorem length_parseIpv6 {bytes : List UInt8} (h : parseIpv6 cs = some bytes) :
    bytes.length = 16 := by
  unfold parseIpv6 at h
  split at h
  · obtain ⟨blocks, -, h⟩ := bind_eq_some_iff.mp h
    split_ifs at h with hlength
    obtain rfl := some.inj h
    exact hlength
  · obtain ⟨before, -, h⟩ := bind_eq_some_iff.mp h
    obtain ⟨after, -, h⟩ := bind_eq_some_iff.mp h
    split_ifs at h with hlength
    obtain rfl := some.inj h
    rw [length_append, length_append, length_replicate]
    omega

variable {text : String} {bytes : List UInt8}

theorem slash_not_mem (h : bytesOf text = some bytes) : '/' ∉ text.toList := by
  intro hmem
  have hslash : Strange '/' := ⟨by decide, by decide, by decide, by decide⟩
  unfold bytesOf at h
  split_ifs at h
  · rw [parseIpv6_eq_none hslash hmem] at h
    cases h
  · rw [parseDottedDecimal_eq_none hslash hmem] at h
    cases h

theorem length_bytesOf (h : bytesOf text = some bytes) : bytes.length = 4 ∨ bytes.length = 16 := by
  unfold bytesOf at h
  split_ifs at h
  · exact .inr (length_parseIpv6 h)
  · exact .inl (length_parseDottedDecimal h)

end Addresses

section Networks

def hostAddress (bytes : List UInt8) : QHostAddress :=
  if h : bytes.length = 16 then .ipv6 ⟨bytes, h⟩
  else if bytes.length = 4 then .ipv4 (UInt32.ofNat (ByteOrder.beValue bytes))
  else .null

/-- Qt reads the address that a text stands for. -/
structure NumericParser extends QtParser where
  parse_numeric : ∀ {text bytes}, bytesOf text = some bytes → parse text = hostAddress bytes

/-- The text of an address, with or without a length of its family in decimal digits. -/
structure NetworkText where
  address : String
  bytes : List UInt8
  bytesOf_address : bytesOf address = some bytes
  digits : Option (List Char)
  length_le : ∀ ds ∈ digits, ∃ n, decimal? ds = some n ∧ n ≤ 8 * bytes.length

def NetworkText.text (t : NetworkText) : String :=
  match t.digits with
  | none => t.address
  | some ds => t.address ++ "/" ++ String.ofList ds

def desktopNetwork (qt : QtParser) (text : String) : Option IPAddress :=
  Daemon.parseRange qt (.object (LocalSocketController.rangeOf text).toJson)

def SameNetwork (ip : IPAddress) (n : InetNetwork) : Prop :=
  ip.m_address = hostAddress n.address.address ∧ ip.m_prefixLength = n.mask

/-- Both sides read a network, and it is the same one. -/
def Agree (qt : QtParser) (text : String) : Prop :=
  ∃ ip n, desktopNetwork qt text = some ip ∧ parse text = .ok n ∧ SameNetwork ip n

variable {ds : List Char} {k : ℕ}

theorem isDigit_of_decimal? (h : decimal? ds = some k) : ∀ c ∈ ds, c.isDigit = true := by
  intro c hc
  by_contra hdigit
  rw [decimal?_eq_none (by simpa using hdigit) hc] at h
  cases h

theorem slash_not_mem_digits (h : decimal? ds = some k) : '/' ∉ ds := fun hslash =>
  absurd (isDigit_of_decimal? h '/' hslash) (by decide)

theorem signedNumber_of_decimal? (h : decimal? ds = some k) : signedNumber ds = k := by
  have hnumber : leadingNumber (ds ++ []) = k :=
    AllowedIps.leadingNumber_append h fun c hc => absurd hc not_mem_nil
  rw [append_nil] at hnumber
  unfold signedNumber
  split
  · exact absurd (isDigit_of_decimal? h '-' mem_cons_self) (by decide)
  · exact absurd (isDigit_of_decimal? h '+' mem_cons_self) (by decide)
  · exact hnumber

theorem atoi_of_decimal? (h : decimal? ds = some k) (hk : k ≤ 128) :
    atoi (String.ofList ds) = k := by
  have hspace : ds.dropWhile isSpaceC = ds := by
    cases ds with
    | nil => rfl
    | cons c cs =>
      have hdigit := isDigit_of_decimal? h c mem_cons_self
      apply dropWhile_cons_of_neg
      intro hc
      rw [AllowedIps.not_isDigit_of_isSpace (AllowedIps.isSpace_of_isSpaceC hc)] at hdigit
      cases hdigit
  rw [atoi, String.toList_ofList, hspace, signedNumber_of_decimal? h, min_eq_left (by omega),
    max_eq_right (by omega)]
  exact Int.bmod_eq_of_le (by omega) (by omega)

theorem toInt_eq (s : String) :
    toInt s = match QString.signed? s.toList with
      | some n => if -2 ^ 31 ≤ n ∧ n < 2 ^ 31 then .ok n else .error (.numberFormatException s)
      | none => .error (.numberFormatException s) := by
  unfold toInt QString.signed?
  generalize s.toList = l
  rfl

theorem toInt_of_decimal? (h : decimal? ds = some k) (hk : k ≤ 128) :
    toInt (String.ofList ds) = .ok (k : ℤ) := by
  rw [toInt_eq, String.toList_ofList, QString.signed?_of_decimal? h]
  exact if_pos ⟨by omega, by omega⟩

variable (qt : NumericParser) (t : NetworkText)

theorem splitOn_text : t.text.toList.splitOn '/' = t.address.toList :: t.digits.toList := by
  have hslash := slash_not_mem t.bytesOf_address
  unfold NetworkText.text
  cases hdigits : t.digits with
  | none => exact splitOn_eq_singleton hslash
  | some ds =>
    obtain ⟨k, hk, -⟩ := t.length_le ds hdigits
    have htext : (t.address ++ "/" ++ String.ofList ds).toList = t.address.toList ++ '/' :: ds := by
      simp
    dsimp only
    rw [htext, splitOn_append_cons_self, splitOn_eq_singleton hslash,
      splitOn_eq_singleton (slash_not_mem_digits hk)]
    rfl

theorem split_text :
    QString.split t.text "/" = t.address :: t.digits.toList.map String.ofList := by
  have hsep : "/".toList = ['/'] := rfl
  rw [QString.split_eq hsep, splitOn_text, map_cons, String.ofList_toList]

theorem NetworkText.le_128 {ds : List Char} (h : ds ∈ t.digits) :
    ∃ k : ℕ, decimal? ds = some k ∧ k ≤ 128 := by
  obtain ⟨k, hk, hle⟩ := t.length_le ds h
  rcases length_bytesOf t.bytesOf_address with hlength | hlength
  · exact ⟨k, hk, by omega⟩
  · exact ⟨k, hk, by omega⟩

def NetworkText.lengthOr (defaultLength : ℤ) : ℤ :=
  match t.digits with
  | none => defaultLength
  | some ds => ((decimal? ds).getD 0 : ℕ)

/-- The client sends the length of IPv4 for any address without a length. -/
theorem desktopNetwork_text :
    desktopNetwork qt.toQtParser t.text = some ⟨hostAddress t.bytes, t.lengthOr 32⟩ := by
  have haddress := qt.parse_numeric t.bytesOf_address
  rw [desktopNetwork, LocalSocketController.parseRange_toJson, LocalSocketController.rangeOf]
  unfold LocalSocketController.AddressRange.toIPAddress NetworkText.lengthOr
  cases hdigits : t.digits with
  | none =>
    have htext : t.text = t.address := by rw [NetworkText.text, hdigits]
    have hsplit : QString.split t.text "/" = [t.address] := by
      rw [split_text, hdigits]
      rfl
    rw [hsplit]
    dsimp only
    rw [htext, haddress]
  | some ds =>
    obtain ⟨k, hk, hle⟩ := t.le_128 hdigits
    have hsplit : QString.split t.text "/" = [t.address, String.ofList ds] := by
      rw [split_text, hdigits]
      rfl
    rw [hsplit]
    dsimp only
    rw [haddress, atoi_of_decimal? hk hle, hk]
    rfl

theorem parseInetAddress_address {a : InetAddress}
    (ha : getByAddress t.bytes = some a) : parseInetAddress t.address = .ok a := by
  have hbytes : (if ':' ∈ t.address.toList then parseIpv6 t.address.toList
      else parseDottedDecimal t.address.toList) = some t.bytes := t.bytesOf_address
  unfold parseInetAddress
  dsimp only
  rw [hbytes, bind_some, ha]

theorem parse_text {a : InetAddress} (ha : getByAddress t.bytes = some a) :
    parse t.text = .ok ⟨a, t.lengthOr a.maxPrefixLength⟩ := by
  have haddress := parseInetAddress_address t ha
  unfold parse NetworkText.lengthOr
  dsimp only
  rw [splitOn_text, headD_cons, String.ofList_toList, haddress]
  cases hdigits : t.digits with
  | none => rfl
  | some ds =>
    obtain ⟨k, hk, hle⟩ := t.le_128 hdigits
    have hlast : (t.address.toList :: (some ds).toList).getLastD [] = ds := rfl
    have hlength : ¬ (t.address.toList :: (some ds).toList).length = 1 := by simp
    rw [hlast, toInt_of_decimal? hk hle]
    dsimp only [bind, Except.bind]
    rw [if_neg hlength, hk]
    rfl

theorem getByAddress_bytes (hmapped : ¬ ipv4MappedPrefix <+: t.bytes) :
    ∃ a, getByAddress t.bytes = some a ∧ a.address = t.bytes := by
  unfold getByAddress
  rcases length_bytesOf t.bytesOf_address with hlength | hlength
  · rw [dif_pos hlength]
    exact ⟨_, rfl, rfl⟩
  · rw [dif_neg (by omega), dif_pos hlength, if_neg hmapped]
    exact ⟨_, rfl, rfl⟩

theorem getByAddress_mapped (hmapped : ipv4MappedPrefix <+: t.bytes) :
    t.bytes.length = 16 ∧
      ∃ a, getByAddress t.bytes = some a ∧ a.address.length = 4 := by
  have hle := hmapped.length_le
  have hprefix : ipv4MappedPrefix.length = 12 := rfl
  have hlength : t.bytes.length = 16 := by
    have := length_bytesOf t.bytesOf_address
    omega
  refine ⟨hlength, ?_⟩
  unfold getByAddress
  rw [dif_neg (by omega), dif_pos hlength, if_pos hmapped]
  exact ⟨_, rfl, by simp [hlength]⟩

theorem lengthOr_eq_iff {m n : ℤ} : t.lengthOr m = t.lengthOr n ↔ t.digits = none → m = n := by
  unfold NetworkText.lengthOr
  cases t.digits <;> simp

def numericOnly : NumericParser where
  parse text := ((bytesOf text).map hostAddress).getD .null
  parseSubnet _ := (.null, 0)
  parseSubnet_nonneg _ h := absurd rfl h
  parse_numeric h := by rw [h, map_some, getD_some]

def documentationAddress : NetworkText where
  address := "2001:db8::1"
  bytes := [0x20, 0x01, 0x0d, 0xb8, 0, 0, 0, 0, 0, 0, 0, 0, 0, 0, 0, 1]
  bytesOf_address := by decide
  digits := none
  length_le := by simp

end Networks

end AmneziaVpn.NetworkTexts
