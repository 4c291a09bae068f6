import AmneziaVpn.WireguardServerConfig

/-!
# The sections of WireGuard clients

A section of `wg0.conf` by the texts that it is made of. The addresses that are read line by line in
a text with sections at its end are those of the sections, and the address that the configurator
reads back from the output of `grep` is that of the last one.
-/

namespace AmneziaVpn.WireguardConfigurator

open Pieces List QString
open ServerController ClientManagementModel

def allowedIPs (file : String) : List String :=
  (QString.split file "\n").filter (startsWith · "AllowedIPs = ")

def lastOctet (line : String) : ℤ :=
  let ip := (QString.aroundLast '/' (mid line 13)).1
  QString.toInt (QString.aroundLast '.' ip).2

def clientOctets (file : String) : List ℤ := (allowedIPs file).map lastOctet

/-- A section of the file, by the texts that it is made of. -/
structure PeerText where
  key : List Char
  psk : List Char
  start : List Char
  octet : ℕ
  key_plain : '[' ∉ key ∧ '\n' ∉ key
  psk_plain : '[' ∉ psk ∧ '\n' ∉ psk
  start_plain : '[' ∉ start ∧ '\n' ∉ start
  start_dotted : start = [] ∨ ∃ parts, start = parts ++ ['.']
  octet_ge : 2 ≤ octet
  octet_le : octet ≤ 254

namespace PeerText

def digits (p : PeerText) : List Char := (toString (p.octet : ℤ)).toList

def ipLine (p : PeerText) : List Char :=
  "AllowedIPs = ".toList ++ (p.start ++ (p.digits ++ "/32".toList))

def part (p : PeerText) : List Char :=
  "Peer]".toList ++ '\n' :: (("PublicKey = ".toList ++ p.key) ++ '\n' ::
    (("PresharedKey = ".toList ++ p.psk) ++ '\n' :: (p.ipLine ++ '\n' :: ['\n'])))

def sections (ps : List PeerText) : List Char := ps.flatMap fun p => '[' :: p.part

variable {p : PeerText} {ps : List PeerText} {header : List Char} {c : Char}

theorem toInt_digits (p : PeerText) : QString.toInt (String.ofList p.digits) = p.octet := by
  unfold digits
  rw [String.ofList_toList]
  exact toInt_toString (p.octet_le.trans_lt (by decide))

theorem not_mem_digits (p : PeerText) (hc : c.isDigit = false) : c ∉ p.digits := by
  intro h
  rw [isDigit_of_mem_toString h] at hc
  cases hc

theorem not_mem_ipLine (hc : c = '[' ∨ c = '\n') : c ∉ p.ipLine := by
  have hdigits : c ∉ p.digits := p.not_mem_digits (by rcases hc with rfl | rfl <;> decide)
  have hstart : c ∉ p.start := by
    rcases hc with rfl | rfl
    · exact p.start_plain.1
    · exact p.start_plain.2
  unfold ipLine
  simp only [mem_append, not_or]
  refine ⟨?_, hstart, hdigits, ?_⟩ <;> rcases hc with rfl | rfl <;> decide

theorem bracket_not_mem_part : '[' ∉ p.part := by
  have hip : '[' ∉ p.ipLine := not_mem_ipLine (.inl rfl)
  unfold part
  simp only [mem_append, mem_cons, not_or]
  refine ⟨by decide, by decide, ⟨by decide, p.key_plain.1⟩, by decide, ⟨by decide, p.psk_plain.1⟩,
    by decide, hip, by decide, by decide, by simp⟩

def addressLines (l : List Char) : List (List Char) :=
  (l.splitOn '\n').filter ("AllowedIPs = ".toList <+: ·)

variable {l : List Char}

theorem addressLines_append_cons {r : List Char} :
    addressLines (l ++ '\n' :: r) = addressLines l ++ addressLines r := by
  unfold addressLines
  rw [splitOn_append_cons_self, filter_append]

theorem addressLines_eq_nil (h : ¬ "AllowedIPs".toList <:+: l) : addressLines l = [] := by
  apply filter_eq_nil_iff.mpr
  intro line hline hstart
  rw [decide_eq_true_iff] at hstart
  apply h
  rw [exists_infix_splitOn_iff (c := '\n') (by decide)]
  refine ⟨line, hline, List.IsPrefix.isInfix ?_⟩
  exact List.IsPrefix.trans ⟨" = ".toList, by decide⟩ hstart

theorem addressLines_of_line (hl : '\n' ∉ l) :
    addressLines l = [l].filter ("AllowedIPs = ".toList <+: ·) := by
  unfold addressLines
  rw [splitOn_eq_singleton hl]

theorem addressLines_of_key (hl : '\n' ∉ l) (hhead : l.head? = some 'P') : addressLines l = [] := by
  rw [addressLines_of_line hl]
  apply filter_cons_of_neg
  rw [decide_eq_true_iff]
  rintro ⟨t, rfl⟩
  have hA : some 'A' = some 'P' := hhead
  exact absurd hA (by decide)

theorem addressLines_section (hheader : ¬ "AllowedIPs".toList <:+: header) (rest : List Char) :
    addressLines (header ++ ('[' :: p.part ++ rest)) = p.ipLine :: addressLines rest := by
  have hfirst : addressLines (header ++ '[' :: "Peer]".toList) = [] := by
    apply addressLines_eq_nil
    rw [infix_append_cons_iff (by decide), not_or]
    exact ⟨hheader, by decide⟩
  have hkey : addressLines ("PublicKey = ".toList ++ p.key) = [] :=
    addressLines_of_key (not_mem_append (by decide) p.key_plain.2) rfl
  have hpsk : addressLines ("PresharedKey = ".toList ++ p.psk) = [] :=
    addressLines_of_key (not_mem_append (by decide) p.psk_plain.2) rfl
  have hip : addressLines p.ipLine = [p.ipLine] := by
    rw [addressLines_of_line (not_mem_ipLine (.inr rfl))]
    exact filter_cons_of_pos (decide_eq_true (prefix_append _ _))
  have htext : ∀ peer key psk : List Char,
      header ++ ('[' :: (peer ++ '\n' :: (key ++ '\n' :: (psk ++ '\n' ::
        (p.ipLine ++ '\n' :: ['\n'])))) ++ rest) =
      (header ++ '[' :: peer) ++ '\n' :: (key ++ '\n' :: (psk ++ '\n' :: (p.ipLine ++ '\n' ::
        ([] ++ '\n' :: rest)))) := by
    intro peer key psk
    simp
  unfold part
  rw [htext]
  rw [addressLines_append_cons, hfirst, addressLines_append_cons, hkey, addressLines_append_cons,
    hpsk, addressLines_append_cons, hip, addressLines_append_cons]
  rfl

theorem addressLines_sections (hheader : ¬ "AllowedIPs".toList <:+: header) :
    addressLines (header ++ sections ps) = ps.map ipLine := by
  induction ps generalizing header with
  | nil =>
    rw [sections, flatMap_nil, append_nil]
    exact addressLines_eq_nil hheader
  | cons p ps ih =>
    have hrest : addressLines ([] ++ sections ps) = ps.map ipLine := ih (by decide)
    rw [sections, flatMap_cons, addressLines_section hheader, map_cons]
    exact congrArg _ hrest

theorem lastOctet_ipLine (p : PeerText) : lastOctet (String.ofList p.ipLine) = p.octet := by
  have hmid : mid (String.ofList p.ipLine) 13 =
      String.ofList ((p.start ++ p.digits) ++ '/' :: ['3', '2']) := by
    unfold mid
    rw [String.toList_ofList, append_assoc]
    rfl
  have hlast : (QString.aroundLast '.' (String.ofList (p.start ++ p.digits))).2 =
      String.ofList p.digits := by
    rcases p.start_dotted with hstart | ⟨parts, hstart⟩
    · rw [hstart, nil_append, aroundLast_of_not_mem (p.not_mem_digits (by decide))]
    · have htext : p.start ++ p.digits = parts ++ '.' :: p.digits := by
        rw [hstart, append_assoc, singleton_append]
      rw [htext, aroundLast_append_cons (p.not_mem_digits (by decide))]
  unfold lastOctet
  rw [hmid, aroundLast_append_cons (by decide)]
  dsimp only
  rw [hlast, toInt_digits]

theorem allowedIPs_eq (file : String) :
    allowedIPs file = (addressLines file.toList).map String.ofList := by
  unfold allowedIPs addressLines
  rw [QString.split_eq (c := '\n') rfl, filter_map]
  congr 1
  apply filter_congr
  intro line _
  rw [Function.comp_apply, Bool.eq_iff_iff, startsWith_iff,
    String.toList_ofList (l := line), decide_eq_true_iff]

variable {file : String}

theorem clientOctets_of_sections (hheader : ¬ "AllowedIPs".toList <:+: header)
    (hfile : file.toList = header ++ sections ps) :
    clientOctets file = ps.map fun p => (p.octet : ℤ) := by
  have hlines : addressLines file.toList = ps.map ipLine := by
    rw [hfile, addressLines_sections hheader]
  have hoctets : (lastOctet ∘ String.ofList) ∘ ipLine = fun p => (p.octet : ℤ) := by
    funext p
    rw [Function.comp_apply, Function.comp_apply, lastOctet_ipLine]
  unfold clientOctets
  rw [allowedIPs_eq, hlines, map_map, map_map, hoctets]

theorem stripped_digits (p : PeerText) : stripped (p.digits ++ "/32".toList) = p.digits := by
  have hkey : 'A' ∉ p.digits ++ "/32".toList :=
    not_mem_append (p.not_mem_digits (by decide)) (by decide)
  unfold stripped
  rw [replaceFrom_of_not_mem (x := 'A') (by decide) hkey]
  exact replaceFrom_append_right (p.not_mem_digits (by decide))

theorem stripped_key (l : List Char) : stripped ("AllowedIPs = ".toList ++ l) = stripped l :=
  congrArg (replaceFrom "/32".toList [] 0)
    (replaceFrom_append_left 'A' "llowedIPs = ".toList [] l)

theorem stripped_ipLine (p : PeerText) :
    stripped p.ipLine = p.digits ∨ ∃ l, stripped p.ipLine = l ++ '.' :: p.digits := by
  unfold ipLine
  rw [stripped_key]
  rcases p.start_dotted with hstart | ⟨parts, hstart⟩
  · left
    rw [hstart, nil_append, stripped_digits]
  · right
    refine ⟨stripped parts, ?_⟩
    rw [hstart, append_assoc, singleton_append,
      stripped_append_cons (by decide) (by decide), stripped_digits]

theorem next_of_digits (p : PeerText) (h : l = p.digits ∨ ∃ r, l = r ++ '.' :: p.digits) :
    next (String.ofList l) = p.octet + 1 := by
  have hdigits : '.' ∉ p.digits := p.not_mem_digits (by decide)
  have hlast : (l.splitOn '.').getLast? = some p.digits := by
    rcases h with rfl | ⟨r, rfl⟩
    · rw [splitOn_eq_singleton hdigits, getLast?_singleton]
    · rw [splitOn_append_cons_self, splitOn_eq_singleton hdigits, getLast?_append,
        getLast?_singleton]
      rfl
  have hoctet := p.octet_le
  unfold next
  rw [QString.split_eq (c := '.') rfl, String.toList_ofList, getLastD_eq_getLast?,
    getLast?_map, hlast, Option.map_some, Option.getD_some, toInt_digits]
  apply Int.bmod_eq_of_le <;> omega

theorem ips_ipLine (p : PeerText) :
    ips (String.ofList p.ipLine) = [String.ofList (stripped p.ipLine)] := by
  have hend : '\n' ∉ stripped p.ipLine :=
    not_mem_replaceFrom (by decide)
      (not_mem_replaceFrom (by decide) (not_mem_ipLine (.inr rfl)) 0) 0
  have hdigits : p.digits ≠ [] := by
    unfold digits
    rw [toList_toString]
    exact Nat.toDigits_ne_nil
  have hne : stripped p.ipLine ≠ [] := by
    rcases stripped_ipLine p with h | ⟨l, h⟩
    · rw [h]
      exact hdigits
    · rw [h]
      exact append_ne_nil_of_right_ne_nil _ (cons_ne_nil _ _)
  rw [ips_eq, String.toList_ofList, pieces_of_not_mem hend hne, map_singleton]

theorem contains_ipLine (p : PeerText) :
    QString.contains (String.ofList p.ipLine) "AllowedIPs" = true := by
  rw [contains_iff, String.toList_ofList (l := p.ipLine)]
  exact ⟨[], " = ".toList ++ (p.start ++ (p.digits ++ "/32".toList)), rfl⟩

theorem exists_sections_concat (header : List Char) (ps : List PeerText) (p : PeerText) :
    ∃ before, header ++ sections (ps ++ [p]) = before ++ '\n' :: (p.ipLine ++ '\n' :: ['\n']) := by
  have htext : ∀ start peer key psk : List Char,
      start ++ '[' :: (peer ++ '\n' :: (key ++ '\n' :: (psk ++ '\n' ::
        (p.ipLine ++ '\n' :: ['\n'])))) =
      (start ++ '[' :: (peer ++ '\n' :: (key ++ '\n' :: psk))) ++ '\n' ::
        (p.ipLine ++ '\n' :: ['\n']) := by
    intro start peer key psk
    simp
  have hsections : header ++ sections (ps ++ [p]) = (header ++ sections ps) ++ '[' :: p.part := by
    simp [sections]
  exact ⟨_, hsections.trans (htext _ _ _ _)⟩

theorem exists_grepped_lines (hfile : file.toList = header ++ sections (ps ++ [p])) :
    ∃ lines, (QString.split file "\n").filter (QString.contains · "AllowedIPs") =
      lines ++ [String.ofList p.ipLine] := by
  obtain ⟨before, hbefore⟩ := exists_sections_concat header ps p
  have hlines : file.toList.splitOn '\n' = before.splitOn '\n' ++ [p.ipLine, [], []] := by
    rw [hfile, hbefore, splitOn_append_cons_self, splitOn_append_cons_self,
      splitOn_eq_singleton (not_mem_ipLine (.inr rfl))]
    rfl
  have hempty : QString.contains (String.ofList []) "AllowedIPs" = false := by decide
  have hfilter : [String.ofList p.ipLine, String.ofList [], String.ofList []].filter
      (QString.contains · "AllowedIPs") = [String.ofList p.ipLine] := by
    simp [contains_ipLine p, hempty]
  rw [QString.split_eq (c := '\n') rfl, hlines, map_append, filter_append]
  simp only [map_cons, map_nil, hfilter]
  exact ⟨_, rfl⟩

/-- The address that is read back from the output of `grep` is that of the last section. -/
theorem getLast?_ips_grep (hheader : ¬ "AllowedIPs".toList <:+: header)
    (hfile : file.toList = header ++ sections ps) :
    (ips (grep "AllowedIPs" file)).getLast? =
      ps.getLast?.map fun p => String.ofList (stripped p.ipLine) := by
  have hgrep : ips (grep "AllowedIPs" file) =
      ((QString.split file "\n").filter (QString.contains · "AllowedIPs")).flatMap ips :=
    ips_collected _
  rcases ps.eq_nil_or_concat with hps | ⟨qs, p, hps⟩
  · have hnone : (QString.split file "\n").filter (QString.contains · "AllowedIPs") = [] := by
      apply filter_eq_nil_iff.mpr
      intro line hline hcontains
      rw [QString.split_eq (c := '\n') rfl, mem_map] at hline
      obtain ⟨l, hl, rfl⟩ := hline
      rw [contains_iff, String.toList_ofList (l := l)] at hcontains
      apply hheader
      rw [hfile, hps, sections, flatMap_nil, append_nil] at hl
      exact (exists_infix_splitOn_iff (by decide)).mpr ⟨l, hl, hcontains⟩
    rw [hgrep, hnone, hps]
    rfl
  · rw [concat_eq_append] at hps
    rw [hps] at hfile
    obtain ⟨lines, hlines⟩ := exists_grepped_lines hfile
    rw [hgrep, hlines, hps]
    simp [flatMap_append, ips_ipLine, getLast?_append, getLast?_singleton, Option.some_or, Option.map_some]

theorem toList_configPart (p : PeerText) {key psk ip : String} (hkey : key.toList = p.key)
    (hpsk : psk.toList = p.psk) (hip : ip.toList = p.start ++ p.digits) :
    (configPart key psk ip).toList = '[' :: p.part := by
  have hpeer : "[Peer]\nPublicKey = ".toList =
      '[' :: ("Peer]".toList ++ '\n' :: "PublicKey = ".toList) := by decide
  have hpreshared : "\nPresharedKey = ".toList = '\n' :: "PresharedKey = ".toList := by decide
  have hallowed : "\nAllowedIPs = ".toList = '\n' :: "AllowedIPs = ".toList := by decide
  have hmask : "/32\n\n".toList = "/32".toList ++ '\n' :: ['\n'] := by decide
  have htext : ∀ peer keyed shared allowed mask : List Char,
      '[' :: (peer ++ '\n' :: keyed) ++ p.key ++ '\n' :: shared ++ p.psk ++
        '\n' :: allowed ++ (p.start ++ p.digits) ++ (mask ++ '\n' :: ['\n']) =
      '[' :: (peer ++ '\n' :: ((keyed ++ p.key) ++ '\n' :: ((shared ++ p.psk) ++ '\n' ::
        ((allowed ++ (p.start ++ (p.digits ++ mask))) ++ '\n' :: ['\n'])))) := by
    intro peer keyed shared allowed mask
    simp
  unfold configPart part ipLine
  rw [String.toList_append, String.toList_append, String.toList_append, String.toList_append,
    String.toList_append, String.toList_append, hpeer, hpreshared, hallowed, hmask, hkey, hpsk, hip,
    htext]

end PeerText

end AmneziaVpn.WireguardConfigurator
