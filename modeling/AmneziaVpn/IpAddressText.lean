import AmneziaVpn.Ipv6CanonicalForm

/-!
# Printed addresses are read back

`parseInetAddress` recovers the bytes from the text of an address, in dotted decimal or in the
canonical form of IPv6.
-/

namespace AmneziaVpn

open List Nat

theorem hexDigit?_digitChar {n : ℕ} (h : n < 16) : hexDigit? n.digitChar = some n := by
  interval_cases n <;> rfl

theorem hexNumber_append (w : List Char) (c : Char) :
    hexNumber (w ++ [c]) = (hexNumber w).bind fun n => (hexDigit? c).map (16 * n + ·) := by
  rw [hexNumber, foldlM_append]
  cases hw : hexNumber w with
  | none =>
    rw [hexNumber] at hw
    rw [hw]
    rfl
  | some n =>
    rw [hexNumber] at hw
    rw [hw]
    simp

theorem hexNumber_toDigits (n : ℕ) : hexNumber (toDigits 16 n) = some n := by
  induction n using Nat.strong_induction_on with
  | _ n ih =>
    by_cases h : n < 16
    · rw [toDigits_of_lt_base h, ← nil_append [n.digitChar], hexNumber_append,
        hexDigit?_digitChar h]
      simp [hexNumber]
    · rw [toDigits_of_base_le (by omega) (by omega), hexNumber_append,
        ih (n / 16) (by omega), hexDigit?_digitChar (mod_lt _ (by omega))]
      simp only [Option.bind_some, Option.map_some, Option.some.injEq]
      omega

theorem hexWord_toDigits (n : ℕ) : HexWord (toDigits 16 n) := by
  induction n using Nat.strong_induction_on with
  | _ n ih =>
    by_cases h : n < 16
    · rw [toDigits_of_lt_base h]
      refine ⟨by simp, ?_, ?_⟩
      · simp [hexDigit?_digitChar h]
      · simp
    · have hword := ih (n / 16) (by omega)
      rw [toDigits_of_base_le (by omega) (by omega)]
      refine ⟨by simp, fun c hc => ?_, fun hhead => ?_⟩
      · rcases mem_append.mp hc with hc | hc
        · exact hword.digit c hc
        · rw [mem_singleton.mp hc, hexDigit?_digitChar (mod_lt _ (by omega))]
          rfl
      · exfalso
        rw [head?_append_of_ne_nil _ hword.ne_nil] at hhead
        have hzero := hexNumber_toDigits (n / 16)
        rw [hword.zero hhead] at hzero
        have : 0 = n / 16 := Option.some.inj hzero
        omega

theorem parseHexBlock_toDigits {n : ℕ} (h : n < 65536) :
    parseHexBlock (toDigits 16 n) = some n := by
  have hlen : (toDigits 16 n).length ≤ 4 :=
    (length_toDigits_le_iff (by omega) (by omega)).mpr (by omega)
  rw [parseHexBlock, if_pos ⟨length_toDigits_pos, hlen⟩, hexNumber_toDigits]

variable {bytes : List UInt8} {ns : List ℕ} {c : Char}

theorem parseBlocks_toDigits (h : ∀ n ∈ ns, n < 65536) :
    parseBlocks (ns.map (toDigits 16)) = some (ns.flatMap blockBytes) := by
  induction ns with
  | nil => rfl
  | cons n ns ih =>
    have hn := parseHexBlock_toDigits (h n mem_cons_self)
    cases ns with
    | nil =>
      have hdot : '.' ∉ toDigits 16 n := (hexWord_toDigits n).not_mem rfl
      simp [parseBlocks, hdot, hn]
    | cons m ns =>
      rw [map_cons, map_cons, parseBlocks, hn, ← map_cons,
        ih fun k hk => h k (mem_cons_of_mem _ hk)]
      · rfl
      · simp

def blocksText (ns : List ℕ) : List Char := joined (ns.map (toDigits 16))

theorem hexWords (ns : List ℕ) : ∀ b ∈ ns.map (toDigits 16), HexWord b := by
  intro b hb
  obtain ⟨n, -, rfl⟩ := mem_map.mp hb
  exact hexWord_toDigits n

theorem parseColonBlocks_blocksText (h : ∀ n ∈ ns, n < 65536) :
    parseColonBlocks (blocksText ns) = some (ns.flatMap blockBytes) := by
  cases ns with
  | nil => rfl
  | cons n ns =>
    have hne : blocksText (n :: ns) ≠ [] := by
      simp [blocksText, joined, (hexWord_toDigits n).ne_nil]
    rw [parseColonBlocks, if_neg hne, blocksText, splitOn_joined (hexWords _) (by simp),
      parseBlocks_toDigits h]

theorem cutAtDoubleColon_append {w : List Char} (hw : ':' ∉ w) (rest : List Char) :
    cutAtDoubleColon (w ++ rest) =
      (cutAtDoubleColon rest).map fun (left, right) => (w ++ left, right) := by
  induction w with
  | nil => simp
  | cons c w ih =>
    rw [mem_cons, not_or] at hw
    rw [cons_append, cutAtDoubleColon.eq_def]
    split
    · rename_i heq
      exact absurd (List.cons.inj heq).1.symm hw.1
    · rename_i heq
      obtain ⟨rfl, rfl⟩ := List.cons.inj heq
      rw [ih hw.2, Option.map_map]
      rfl
    · rename_i heq
      cases heq

theorem cutAtDoubleColon_colon (hc : c ≠ ':') (rest : List Char) :
    cutAtDoubleColon (':' :: c :: rest) =
      (cutAtDoubleColon (c :: rest)).map fun (left, right) => (':' :: left, right) := by
  rw [cutAtDoubleColon]
  simpa using hc

variable {bs : List (List Char)}

theorem cutAtDoubleColon_tailText (hbs : ∀ b ∈ bs, HexWord b) (rest : List Char) :
    cutAtDoubleColon (tailText bs ++ rest) =
      (cutAtDoubleColon rest).map fun (left, right) => (tailText bs ++ left, right) := by
  induction bs with
  | nil => simp
  | cons b bs ih =>
    have hb := hbs b mem_cons_self
    have hcolon : ':' ∉ b := hb.not_mem rfl
    obtain ⟨c, w, rfl⟩ := exists_cons_of_ne_nil hb.ne_nil
    have hc : c ≠ ':' := fun h => hcolon (h ▸ mem_cons_self)
    rw [tailText_cons, cons_append, append_assoc, cons_append,
      cutAtDoubleColon_colon hc, ← cons_append, cutAtDoubleColon_append hcolon,
      ih fun b hb => hbs b (mem_cons_of_mem _ hb), Option.map_map, Option.map_map]
    simp [Function.comp_def]

theorem cutAtDoubleColon_joined (hbs : ∀ b ∈ bs, HexWord b) (rest : List Char) :
    cutAtDoubleColon (joined bs ++ rest) =
      (cutAtDoubleColon rest).map fun (left, right) => (joined bs ++ left, right) := by
  cases bs with
  | nil => simp [joined]
  | cons b bs =>
    rw [joined, append_assoc, cutAtDoubleColon_append ((hbs b mem_cons_self).not_mem rfl),
      cutAtDoubleColon_tailText fun b hb => hbs b (mem_cons_of_mem _ hb), Option.map_map]
    simp [Function.comp_def]

theorem flatMap_blockBytes_hexBlocks : ∀ {bytes : List UInt8}, 2 ∣ bytes.length →
    (hexBlocks bytes).flatMap blockBytes = bytes
  | [], _ => rfl
  | [_], h => by simp at h
  | a :: b :: rest, h => by
    have ha := a.toNat_lt
    have hb := b.toNat_lt
    have hdiv : (a.toNat * 2 ^ 8 + b.toNat) / 256 = a.toNat := by omega
    have hmod : (a.toNat * 2 ^ 8 + b.toNat) % 256 = b.toNat := by omega
    rw [hexBlocks, flatMap_cons, flatMap_blockBytes_hexBlocks (by simpa using h), blockBytes,
      hdiv, hmod, UInt8.ofNat_toNat, UInt8.ofNat_toNat]
    rfl

theorem hexBlocks_lt : ∀ (bytes : List UInt8), ∀ n ∈ hexBlocks bytes, n < 65536
  | [], _, h => by simp [hexBlocks] at h
  | [_], _, h => by simp [hexBlocks] at h
  | a :: b :: rest, n, h => by
    have ha := a.toNat_lt
    have hb := b.toNat_lt
    rcases mem_cons.mp h with rfl | h
    · omega
    · exact hexBlocks_lt rest n h

theorem length_flatMap_blockBytes (ns : List ℕ) : (ns.flatMap blockBytes).length = 2 * ns.length := by
  simp [blockBytes, mul_comm]

theorem eq_replicate_of_toDigits {k : ℕ} (h : ns.map (toDigits 16) = List.replicate k ['0']) :
    ns = List.replicate k 0 := by
  rw [eq_replicate_iff] at h ⊢
  refine ⟨by simpa using h.1, fun n hn => ?_⟩
  have hdigits := h.2 _ (mem_map_of_mem hn)
  have hnum := hexNumber_toDigits n
  rw [hdigits] at hnum
  exact (Option.some.inj hnum).symm

theorem mem_blocksText (h : c ∈ blocksText ns) : c = ':' ∨ ∃ n ∈ ns, c ∈ toDigits 16 n := by
  cases ns with
  | nil => simp [blocksText, joined] at h
  | cons n ns =>
    rw [blocksText, map_cons, joined, mem_append, tailText, mem_flatMap] at h
    rcases h with h | ⟨b, hb, h⟩
    · exact .inr ⟨n, mem_cons_self, h⟩
    · obtain ⟨m, hm, rfl⟩ := mem_map.mp hb
      rcases mem_cons.mp h with rfl | h
      · exact .inl rfl
      · exact .inr ⟨m, mem_cons_of_mem _ hm, h⟩

theorem dot_not_mem_blocksText (ns : List ℕ) : '.' ∉ blocksText ns := by
  intro h
  rcases mem_blocksText h with h | ⟨n, -, h⟩
  · exact absurd h (by decide)
  · exact (hexWord_toDigits n).not_mem rfl h

/-- The printed blocks, with a run of at least two zero blocks possibly left out. -/
theorem toIpv6String_cases (bytes : List UInt8) :
    toIpv6String bytes = blocksText (hexBlocks bytes) ∨
      ∃ ns₁ k ns₂, 2 ≤ k ∧ hexBlocks bytes = ns₁ ++ List.replicate k 0 ++ ns₂ ∧
        toIpv6String bytes = blocksText ns₁ ++ ':' :: ':' :: blocksText ns₂ := by
  have htext : toIpv6String bytes = convertIpv6ToCanonicalForm (blocksText (hexBlocks bytes)) := by
    rw [toIpv6String, blocksText, ← dropLast_flatMap_append_colon, flatMap_map]
  rw [htext]
  rcases convertIpv6ToCanonicalForm_joined (hexWords (hexBlocks bytes)) with h | h
  · exact .inl h
  · obtain ⟨bs₁, k, bs₂, hk, hsplit, h⟩ := h
    obtain ⟨ns', ns₂, hns, hns', rfl⟩ := map_eq_append_iff.mp hsplit
    obtain ⟨ns₁, zs, rfl, rfl, hzs⟩ := map_eq_append_iff.mp hns'
    rw [eq_replicate_of_toDigits hzs] at hns
    exact .inr ⟨ns₁, k, ns₂, hk, hns, h⟩

theorem flatMap_blockBytes_replicate (k : ℕ) :
    (List.replicate k 0).flatMap blockBytes = List.replicate (2 * k) 0 := by
  rw [eq_replicate_iff]
  refine ⟨by rw [length_flatMap_blockBytes, length_replicate], fun b hb => ?_⟩
  obtain ⟨n, hn, hb⟩ := mem_flatMap.mp hb
  rw [eq_of_mem_replicate hn] at hb
  simpa [blockBytes] using hb

theorem parseIpv6_toIpv6String (h : bytes.length = 16) :
    parseIpv6 (toIpv6String bytes) = some bytes := by
  have hlt := hexBlocks_lt bytes
  have hbytes := flatMap_blockBytes_hexBlocks (show 2 ∣ bytes.length by omega)
  rcases toIpv6String_cases bytes with htext | ⟨ns₁, k, ns₂, hk, hsplit, htext⟩
  · have hcut : cutAtDoubleColon (blocksText (hexBlocks bytes)) = none := by
      rw [← append_nil (blocksText _), blocksText, cutAtDoubleColon_joined (hexWords _)]
      rfl
    simp [htext, parseIpv6, hcut, parseColonBlocks_blocksText hlt, hbytes, h]
  · have hcut : cutAtDoubleColon (blocksText ns₁ ++ ':' :: ':' :: blocksText ns₂) =
        some (blocksText ns₁, blocksText ns₂) := by
      rw [blocksText, cutAtDoubleColon_joined (hexWords _)]
      simp [cutAtDoubleColon]
    rw [hsplit] at hlt hbytes
    have hleft := parseColonBlocks_blocksText fun n (hn : n ∈ ns₁) => hlt n (by simp [hn])
    have hright := parseColonBlocks_blocksText fun n (hn : n ∈ ns₂) => hlt n (by simp [hn])
    have hlen := length_flatMap_blockBytes (ns₁ ++ List.replicate k 0 ++ ns₂)
    rw [hbytes, h, length_append, length_append, length_replicate] at hlen
    have hfill : 16 - ((ns₁.flatMap blockBytes).length + (ns₂.flatMap blockBytes).length) =
        2 * k := by
      rw [length_flatMap_blockBytes, length_flatMap_blockBytes]
      omega
    have hfits : (ns₁.flatMap blockBytes).length + (ns₂.flatMap blockBytes).length ≤ 14 := by
      rw [length_flatMap_blockBytes, length_flatMap_blockBytes]
      omega
    rw [flatMap_append, flatMap_append, flatMap_blockBytes_replicate] at hbytes
    rw [htext, parseIpv6, hcut]
    simp only [hleft, hright, hfill, bind, Option.bind]
    rw [if_pos ⟨dot_not_mem_blocksText ns₁, hfits⟩, hbytes]
    rfl

theorem parseDecimalByte_toDigits (b : UInt8) :
    parseDecimalByte (toDigits 10 b.toNat) = some b := by
  have hall : ∀ n : Fin 256, parseDecimalByte (toDigits 10 n) = some (.ofNat n) := by
    decide +kernel
  simpa using hall ⟨b.toNat, b.toNat_lt⟩

theorem not_mem_toDigits_ten (hc : c.isDigit = false) (n : ℕ) : c ∉ toDigits 10 n := by
  intro h
  have hdigit := isDigit_of_mem_toDigits (b := 10) (by omega) (by omega) h
  simp [hc] at hdigit

theorem parseDottedDecimal_dottedDecimal (h : bytes.length = 4) :
    parseDottedDecimal (dottedDecimal bytes) = some bytes := by
  have hsplit : (dottedDecimal bytes).splitOn '.' =
      bytes.map fun b => toDigits 10 b.toNat := by
    apply splitOn_intercalate
    · intro w hw
      obtain ⟨b, -, rfl⟩ := mem_map.mp hw
      exact not_mem_toDigits_ten rfl _
    · apply ne_nil_of_length_eq_add_one (n := 3)
      simpa using h
  have hparse : ∀ l : List UInt8,
      (l.map fun b => toDigits 10 b.toNat).mapM parseDecimalByte = some l := by
    intro l
    induction l with
    | nil => rfl
    | cons b l ih => simp [parseDecimalByte_toDigits, ih]
  simp [parseDottedDecimal, hsplit, h, hparse]

theorem colon_not_mem_dottedDecimal (bytes : List UInt8) : ':' ∉ dottedDecimal bytes := by
  rw [dottedDecimal]
  induction bytes with
  | nil => simp
  | cons b bytes ih =>
    have hb : ':' ∉ toDigits 10 b.toNat := not_mem_toDigits_ten rfl _
    cases bytes with
    | nil => simpa using hb
    | cons c bytes =>
      rw [map_cons] at ih
      rw [map_cons, map_cons, intercalate_cons_cons]
      simp [hb, ih]

theorem colon_mem_toIpv6String (h : bytes.length = 16) : ':' ∈ toIpv6String bytes := by
  rcases toIpv6String_cases bytes with htext | ⟨ns₁, k, ns₂, -, -, htext⟩
  · obtain ⟨a, b, c, d, rest, rfl⟩ : ∃ a b c d rest, bytes = a :: b :: c :: d :: rest := by
      match bytes, h with
      | a :: b :: c :: d :: rest, _ => exact ⟨a, b, c, d, rest, rfl⟩
    rw [htext]
    simp [hexBlocks, blocksText, joined]
  · rw [htext]
    simp

theorem parseInetAddress_toString (ip : IpAddress) :
    ∃ a, InetAddress.getByAddress ip.address = some a ∧ parseInetAddress ip.toString = .ok a := by
  have hparse : (if ':' ∈ ip.toString.toList then parseIpv6 ip.toString.toList
      else parseDottedDecimal ip.toString.toList) = some ip.address := by
    rw [IpAddress.toString, String.toList_ofList]
    rcases ip.size_eq with h | h
    · have hsize : ¬ ip.size > 4 := by simp [IpAddress.size, h]
      rw [if_neg hsize, if_neg (colon_not_mem_dottedDecimal _), parseDottedDecimal_dottedDecimal h]
    · have hsize : ip.size > 4 := by simp [IpAddress.size, h]
      rw [if_pos hsize, if_pos (colon_mem_toIpv6String h), parseIpv6_toIpv6String h]
  have hsome : ∃ a, InetAddress.getByAddress ip.address = some a := by
    rw [InetAddress.getByAddress]
    rcases ip.size_eq with h | h
    · exact ⟨_, dif_pos h⟩
    · rw [dif_neg (by omega), dif_pos h]
      split_ifs
      · exact ⟨_, rfl⟩
      · exact ⟨_, rfl⟩
  obtain ⟨a, ha⟩ := hsome
  refine ⟨a, ha, ?_⟩
  rw [parseInetAddress]
  simp only [hparse, Option.bind_some, ha]

def doubleColons (text : List Char) : ℕ := text.tails.countP ([':', ':'].isPrefixOf ·)

theorem doubleColons_cons (c : Char) (text : List Char) :
    doubleColons (c :: text) =
      doubleColons text + if [':', ':'].isPrefixOf (c :: text) then 1 else 0 := by
  simp [doubleColons, countP_cons]

theorem doubleColons_append {w : List Char} (hw : ':' ∉ w) (rest : List Char) :
    doubleColons (w ++ rest) = doubleColons rest := by
  induction w with
  | nil => rfl
  | cons c w ih =>
    rw [mem_cons, not_or] at hw
    rw [cons_append, doubleColons_cons, ih hw.2, if_neg (by simp [List.isPrefixOf, hw.1])]
    rfl

theorem doubleColons_colon {text : List Char} (h : text.head? ≠ some ':') :
    doubleColons (':' :: text) = doubleColons text := by
  rw [doubleColons_cons, if_neg]
  · rfl
  · cases text with
    | nil => simp [List.isPrefixOf]
    | cons c text =>
      have hc : ':' ≠ c := fun hc => h (congrArg some hc.symm)
      simp [List.isPrefixOf, hc]

theorem doubleColons_tailText (hbs : ∀ b ∈ bs, HexWord b) (rest : List Char) :
    doubleColons (tailText bs ++ rest) = doubleColons rest := by
  induction bs with
  | nil => rfl
  | cons b bs ih =>
    have hb := hbs b mem_cons_self
    have hcolon : ':' ∉ b := hb.not_mem rfl
    have hhead : (b ++ (tailText bs ++ rest)).head? ≠ some ':' := by
      rw [head?_append_of_ne_nil _ hb.ne_nil]
      exact fun h => hcolon (mem_of_mem_head? h)
    rw [tailText_cons, cons_append, append_assoc, doubleColons_colon hhead,
      doubleColons_append hcolon, ih fun b hb => hbs b (mem_cons_of_mem _ hb)]

theorem doubleColons_blocksText (ns : List ℕ) (rest : List Char) :
    doubleColons (blocksText ns ++ rest) = doubleColons rest := by
  have hwords := hexWords ns
  rw [blocksText]
  cases hbs : ns.map (toDigits 16) with
  | nil => rfl
  | cons b bs =>
    rw [hbs] at hwords
    rw [joined, append_assoc,
      doubleColons_append ((hwords b mem_cons_self).not_mem rfl),
      doubleColons_tailText fun b hb => hwords b (mem_cons_of_mem _ hb)]

theorem head?_blocksText_ne_colon (ns : List ℕ) : (blocksText ns).head? ≠ some ':' := by
  cases ns with
  | nil => simp [blocksText, joined]
  | cons n ns =>
    have hn := hexWord_toDigits n
    rw [blocksText, map_cons, joined, head?_append_of_ne_nil _ hn.ne_nil]
    exact fun h => hn.not_mem rfl (mem_of_mem_head? h)

theorem doubleColons_toIpv6String (bytes : List UInt8) : doubleColons (toIpv6String bytes) ≤ 1 := by
  have hplain (ns : List ℕ) : doubleColons (blocksText ns) = 0 := by
    rw [← append_nil (blocksText ns), doubleColons_blocksText]
    rfl
  rcases toIpv6String_cases bytes with htext | ⟨ns₁, k, ns₂, -, -, htext⟩
  · rw [htext, hplain]
    exact zero_le 1
  · rw [htext, doubleColons_blocksText, doubleColons_cons,
      doubleColons_colon (head?_blocksText_ne_colon ns₂), hplain]
    rfl

/-- A printed IPv6 address has at most one `::` and is read back. -/
theorem toString_ipv6_read_back (ip : IpAddress) (hsize : ip.size = 16)
    (hmapped : ¬ ipv4MappedPrefix <+: ip.address) :
    doubleColons ip.toString.toList ≤ 1 ∧
      parseIpv6 ip.toString.toList = some ip.address ∧
      parseInetAddress ip.toString = .ok ⟨ip.address, ip.size_eq⟩ := by
  have hlength : ip.address.length = 16 := hsize
  have htext : ip.toString.toList = toIpv6String ip.address := by
    rw [IpAddress.toString, String.toList_ofList, if_pos (by omega)]
  refine ⟨?_, ?_, ?_⟩
  · rw [htext]
    exact doubleColons_toIpv6String ip.address
  · rw [htext]
    exact parseIpv6_toIpv6String hlength
  · obtain ⟨a, ha, hparse⟩ := parseInetAddress_toString ip
    rw [InetAddress.getByAddress, dif_neg (by omega), dif_pos hlength, if_neg hmapped] at ha
    rw [hparse, ← Option.some.inj ha]

/-- The longest of three runs of zero blocks is not the first one. -/
theorem toString_ipv6_read_back_of_three_runs :
    let ip : IpAddress :=
      ⟨[0, 0, 0, 0, 0, 1, 0, 0, 0, 0, 0, 0, 0, 2, 0, 0], .inr rfl⟩
    ip.toString = "0:0:1::2:0" ∧ doubleColons ip.toString.toList ≤ 1 ∧
      parseIpv6 ip.toString.toList = some ip.address ∧
      parseInetAddress ip.toString = .ok ⟨ip.address, ip.size_eq⟩ := by
  intro ip
  exact ⟨by decide +kernel, toString_ipv6_read_back ip rfl (by decide)⟩

end AmneziaVpn
