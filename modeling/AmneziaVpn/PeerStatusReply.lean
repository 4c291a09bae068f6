import AmneziaVpn.Binary64
import AmneziaVpn.LocalSocketController
import AmneziaVpn.QtBytes
import AmneziaVpn.QtStringLists

/-!
# The status of the peers

WireGuard answers a request for its state with the lines of the interface and, for every peer, the
line of its key and its other lines.
-/

namespace AmneziaVpn

open List QString QByteArray

deriving instance DecidableEq for PeerStatus

attribute [ext] PeerStatus

/-- `QString::toDouble`, of which only what it makes of decimal digits is known. -/
structure QtNumbers where
  toDouble : String → ℚ
  toDouble_toString : ∀ n : ℕ, n < 2 ^ 64 → toDouble (toString (n : ℤ)) = (Binary64.nearest n : ℚ)

/-- What is out of range becomes the least number. -/
def toQint64 (x : ℚ) : ℤ :=
  if -2 ^ 63 ≤ x ∧ x < 2 ^ 63 then if 0 ≤ x then ⌊x⌋ else ⌈x⌉ else -2 ^ 63

def wrapQint64 (x : ℤ) : ℤ := x.bmod (2 ^ 64)

namespace WireguardUtils

section Code

variable (num : QtNumbers)

variable (state : PeerStatus × List PeerStatus)

def flush : List PeerStatus :=
  if state.1.m_pubkey ≠ "" then state.2 ++ [state.1] else state.2

def readField (name value : String) (status : PeerStatus) : PeerStatus :=
  let status := if name = "tx_bytes" then
    { status with m_txBytes := toQint64 (num.toDouble value) } else status
  let status := if name = "rx_bytes" then
    { status with m_rxBytes := toQint64 (num.toDouble value) } else status
  let status := if name = "last_handshake_time_sec" then
    { status with m_handshake :=
        wrapQint64 (status.m_handshake + wrapQint64 (toLongLong value * 1000)) } else status
  if name = "last_handshake_time_nsec" then
    { status with m_handshake :=
        wrapQint64 (status.m_handshake + (toLongLong value).tdiv 1000000) } else status

def readEntry (name value : String) (state : PeerStatus × List PeerStatus) :
    PeerStatus × List PeerStatus :=
  let state := if name = "public_key" then
    ({ m_pubkey := toBase64 (fromHex (toUtf8 value)) }, flush state)
    else state
  (readField num name value state.1, state.2)

def readLine (line : String) : PeerStatus × List PeerStatus :=
  match cutFirst '=' line.toList with
  | none | some ([], _) => state
  | some (name, value) => readEntry num (String.ofList name) (String.ofList value) state

/-- What is made of the reply to `get=1`, on Linux as on macOS. -/
def getPeerStatus (reply : String) : List PeerStatus :=
  flush ((split reply "\n").foldl (readLine num) ({ m_pubkey := "" }, []))

end Code

inductive Field where
  | tx_bytes
  | rx_bytes
  | last_handshake_time_sec
  | last_handshake_time_nsec
  deriving DecidableEq

def Field.name : Field → String
  | tx_bytes => "tx_bytes"
  | rx_bytes => "rx_bytes"
  | last_handshake_time_sec => "last_handshake_time_sec"
  | last_handshake_time_nsec => "last_handshake_time_nsec"

structure InterfaceLine where
  text : String
  newline_free : '\n' ∉ text.toList
  no_key : startsWith text "public_key=" = false

structure OtherLine extends InterfaceLine where
  no_field : ∀ f : Field, startsWith text (f.name ++ "=") = false

def counter (num : QtNumbers) (n : ℕ) : ℤ := toQint64 (num.toDouble (toString (n : ℤ)))

def longLong (n : ℕ) : ℤ := toLongLong (toString (n : ℤ))

inductive PeerLine where
  | field (f : Field) (n : ℕ)
  | other (line : OtherLine)

open PeerLine

def PeerLine.text : PeerLine → String
  | field f n => f.name ++ "=" ++ toString (n : ℤ)
  | other line => line.text

def PeerLine.value? (f : Field) : PeerLine → Option ℕ
  | field g n => if g = f then some n else none
  | other _ => none

/-- The lines of a peer. No field is given twice. -/
structure Stanza where
  key : QByteArray
  key_ne_nil : key ≠ []
  lines : List PeerLine
  once : ∀ f, (lines.filterMap (value? f)).length ≤ 1

def Stanza.value (s : Stanza) (f : Field) : ℕ :=
  ((s.lines.filterMap (value? f)).head?).getD 0

def Stanza.texts (s : Stanza) : List String :=
  ("public_key=" ++ toHex s.key) :: s.lines.map text

def Stanza.status (s : Stanza) : PeerStatus where
  m_pubkey := toBase64 s.key
  m_handshake := s.value .last_handshake_time_sec * 1000 + s.value .last_handshake_time_nsec / 1000000
  m_rxBytes := s.value .rx_bytes
  m_txBytes := s.value .tx_bytes

structure Reply where
  head : List InterfaceLine
  stanzas : List Stanza

def Reply.texts (r : Reply) : List String :=
  r.head.map InterfaceLine.text ++ r.stanzas.flatMap Stanza.texts

def Reply.text (r : Reply) : String := "\n".intercalate r.texts

section Lines

variable {num : QtNumbers} {state : PeerStatus × List PeerStatus}

variable {name : String}

theorem startsWith_of_cutFirst {line : String} {l value : List Char}
    (h : cutFirst '=' line.toList = some (l, value)) (hl : String.ofList l = name) :
    startsWith line (name ++ "=") = true := by
  have hname : name.toList = l := by rw [← hl, String.toList_ofList]
  rw [startsWith_iff, String.toList_append, hname, cutFirst_eq_some h]
  exact ⟨value, by simp⟩

theorem readLine_append {value : String} (hne : name ≠ "") (hname : '=' ∉ name.toList) :
    readLine num state (name ++ "=" ++ value) = readEntry num name value state := by
  have hcut : cutFirst '=' (name ++ "=" ++ value).toList =
      some (name.toList, value.toList) := by
    have hlist : (name ++ "=" ++ value).toList = name.toList ++ '=' :: value.toList := by simp
    rw [hlist, cutFirst_append_cons hname]
  have hnil : name.toList ≠ [] := fun h => hne (String.toList_eq_nil_iff.mp h)
  unfold readLine
  rw [hcut]
  cases hcases : name.toList with
  | nil => exact absurd hcases hnil
  | cons c cs =>
    dsimp only
    rw [← hcases, String.ofList_toList, String.ofList_toList]

theorem readLine_cases (line : String) :
    readLine num state line = state ∨
      ∃ name value, readLine num state line = readEntry num name value state ∧
        startsWith line (name ++ "=") = true := by
  unfold readLine
  split
  · exact .inl rfl
  · exact .inl rfl
  · rename_i name value _ hcut
    exact .inr ⟨_, _, rfl, startsWith_of_cutFirst hcut rfl⟩

def takeField (num : QtNumbers) (status : PeerStatus) (n : ℕ) : Field → PeerStatus
  | .tx_bytes => { status with m_txBytes := counter num n }
  | .rx_bytes => { status with m_rxBytes := counter num n }
  | .last_handshake_time_sec =>
      { status with m_handshake :=
          wrapQint64 (status.m_handshake + wrapQint64 (longLong n * 1000)) }
  | .last_handshake_time_nsec =>
      { status with m_handshake := wrapQint64 (status.m_handshake + (longLong n).tdiv 1000000) }

theorem readEntry_public_key (value : String) :
    readEntry num "public_key" value state =
      ({ m_pubkey := toBase64 (fromHex (toUtf8 value)) },
        flush state) := by
  simp [readEntry, readField]

theorem readEntry_name (f : Field) (n : ℕ) :
    readEntry num f.name (toString (n : ℤ)) state = (takeField num state.1 n f, state.2) := by
  cases f <;> simp [readEntry, readField, Field.name, takeField, counter, longLong]

theorem readEntry_of_ne (hkey : name ≠ "public_key") (hfield : ∀ f : Field, name ≠ f.name)
    (value : String) : readEntry num name value state = state := by
  have htx : name ≠ "tx_bytes" := hfield .tx_bytes
  have hrx : name ≠ "rx_bytes" := hfield .rx_bytes
  have hsec : name ≠ "last_handshake_time_sec" := hfield .last_handshake_time_sec
  have hnsec : name ≠ "last_handshake_time_nsec" := hfield .last_handshake_time_nsec
  unfold readEntry readField
  simp [if_neg hkey, if_neg htx, if_neg hrx, if_neg hsec, if_neg hnsec]

theorem m_pubkey_readField (name value : String) (status : PeerStatus) :
    (readField num name value status).m_pubkey = status.m_pubkey := by
  unfold readField
  dsimp only
  split_ifs <;> rfl

theorem readLine_interfaceLine (num : QtNumbers) (state : PeerStatus × List PeerStatus)
    (line : InterfaceLine) :
    (readLine num state line.text).1.m_pubkey = state.1.m_pubkey ∧
      (readLine num state line.text).2 = state.2 := by
  rcases readLine_cases line.text with h | ⟨name, value, h, hstart⟩
  · rw [h]
    exact ⟨rfl, rfl⟩
  · have hkey : name ≠ "public_key" := by
      rintro rfl
      exact Bool.false_ne_true (line.no_key.symm.trans hstart)
    rw [h, readEntry, if_neg hkey]
    exact ⟨m_pubkey_readField name value state.1, rfl⟩

theorem readLine_otherLine (line : OtherLine) : readLine num state line.text = state := by
  rcases readLine_cases line.text with h | ⟨name, value, h, hstart⟩
  · exact h
  · rw [h]
    apply readEntry_of_ne
    · rintro rfl
      exact Bool.false_ne_true (line.no_key.symm.trans hstart)
    · rintro f rfl
      exact Bool.false_ne_true ((line.no_field f).symm.trans hstart)

theorem readLine_field (f : Field) (n : ℕ) :
    readLine num state (field f n).text = (takeField num state.1 n f, state.2) := by
  have hne : f.name ≠ "" := by cases f <;> decide
  have hname : '=' ∉ f.name.toList := by cases f <;> decide
  rw [text, readLine_append hne hname, readEntry_name]

theorem readLine_key (key : QByteArray) :
    readLine num state ("public_key=" ++ toHex key) =
      ({ m_pubkey := toBase64 key }, flush state) := by
  have hsplit : "public_key=" = "public_key" ++ "=" := by decide
  rw [hsplit, readLine_append (by decide) (by decide), readEntry_public_key,
    fromHex_toHex]

end Lines

section Stanzas

variable {num : QtNumbers}

def takeLine (num : QtNumbers) (status : PeerStatus) : PeerLine → PeerStatus
  | .field f n => takeField num status n f
  | .other _ => status

variable (lines : List PeerLine)

variable (state : PeerStatus × List PeerStatus)

theorem foldl_readLine :
    (lines.map text).foldl (readLine num) state =
      (lines.foldl (takeLine num) state.1, state.2) := by
  induction lines generalizing state with
  | nil => rfl
  | cons line lines ih =>
    rw [map_cons, foldl_cons, foldl_cons, ih]
    cases line with
    | field f n => rw [readLine_field, takeLine]
    | other line => rw [text, readLine_otherLine, takeLine]

theorem m_pubkey_foldl (status : PeerStatus) :
    (lines.foldl (takeLine num) status).m_pubkey = status.m_pubkey := by
  induction lines generalizing status with
  | nil => rfl
  | cons line lines ih =>
    rw [foldl_cons, ih]
    cases line with
    | field f n => cases f <;> rfl
    | other line => rfl

/-- A number that one field sets and the others keep is the last one that is given. -/
theorem foldl_takeLine_of_set {part : PeerStatus → ℤ} {f : Field} {value : ℕ → ℤ}
    (hset : ∀ status n, part (takeField num status n f) = value n)
    (hkeep : ∀ status n g, g ≠ f → part (takeField num status n g) = part status)
    (lines : List PeerLine) (status : PeerStatus) :
    part (lines.foldl (takeLine num) status) =
      ((lines.filterMap (value? f)).getLast?.map value).getD (part status) := by
  induction lines using List.reverseRecOn with
  | nil => rfl
  | append_singleton lines line ih =>
    rw [foldl_append, foldl_cons, foldl_nil, filterMap_append]
    cases line with
    | other line => simpa [value?, takeLine] using ih
    | field g n =>
      by_cases hg : g = f
      · subst hg
        simp [value?, takeLine, hset]
      · simpa [value?, takeLine, hg, hkeep _ _ _ hg] using ih

def PeerLine.time : PeerLine → ℤ
  | .field .last_handshake_time_sec n => longLong n * 1000
  | .field .last_handshake_time_nsec n => (longLong n).tdiv 1000000
  | .field .tx_bytes _ | .field .rx_bytes _ | .other _ => 0

variable (line : PeerLine)

theorem m_handshake_takeLine {status : PeerStatus}
    (h : wrapQint64 status.m_handshake = status.m_handshake) :
    (takeLine num status line).m_handshake = wrapQint64 (status.m_handshake + line.time) := by
  cases line with
  | other line => rw [time, add_zero, h, takeLine]
  | field f n =>
    cases f with
    | tx_bytes => rw [time, add_zero, h, takeLine, takeField]
    | rx_bytes => rw [time, add_zero, h, takeLine, takeField]
    | last_handshake_time_sec => exact Int.add_bmod_bmod
    | last_handshake_time_nsec => rfl

theorem m_handshake_foldl {status : PeerStatus}
    (h : wrapQint64 status.m_handshake = status.m_handshake) :
    (lines.foldl (takeLine num) status).m_handshake =
      wrapQint64 (status.m_handshake + (lines.map time).sum) := by
  induction lines generalizing status with
  | nil => rw [foldl_nil, map_nil, sum_nil, add_zero, h]
  | cons line lines ih =>
    have hline : (takeLine num status line).m_handshake =
        wrapQint64 (status.m_handshake + line.time) := m_handshake_takeLine line h
    have hwrap : wrapQint64 (takeLine num status line).m_handshake =
        (takeLine num status line).m_handshake := by
      rw [hline]
      exact Int.bmod_bmod
    rw [foldl_cons, ih hwrap, hline, map_cons, sum_cons, ← add_assoc]
    exact Int.bmod_add_bmod

theorem sum_time :
    (lines.map time).sum =
      ((lines.filterMap (value? .last_handshake_time_sec)).map
          fun n => longLong n * 1000).sum +
        ((lines.filterMap (value? .last_handshake_time_nsec)).map
          fun n => (longLong n).tdiv 1000000).sum := by
  induction lines with
  | nil => rfl
  | cons line lines ih =>
    rw [map_cons, sum_cons, ih, filterMap_cons, filterMap_cons]
    cases line with
    | other line => simp [time, value?]
    | field f n => cases f <;> simp [time, value?] <;> ring

theorem counter_zero : counter num 0 = 0 := by
  rw [counter, num.toDouble_toString 0 (by positivity)]
  decide

theorem longLong_zero : longLong 0 = 0 := by decide

variable (s : Stanza)

variable (f : Field)

theorem Stanza.values_cases :
    s.lines.filterMap (value? f) = [] ∧ s.value f = 0 ∨
      s.lines.filterMap (value? f) = [s.value f] := by
  have honce := s.once f
  unfold Stanza.value
  match h : s.lines.filterMap (value? f), honce with
  | [], _ => exact .inl ⟨rfl, rfl⟩
  | [n], _ => exact .inr rfl

def Stanza.read (num : QtNumbers) (s : Stanza) : PeerStatus where
  m_pubkey := toBase64 s.key
  m_handshake := wrapQint64 (longLong (s.value .last_handshake_time_sec) * 1000 +
    (longLong (s.value .last_handshake_time_nsec)).tdiv 1000000)
  m_rxBytes := counter num (s.value .rx_bytes)
  m_txBytes := counter num (s.value .tx_bytes)

theorem Stanza.getLast?_values :
    ((s.lines.filterMap (value? f)).getLast?.map (counter num)).getD 0 =
      counter num (s.value f) := by
  rcases s.values_cases f with ⟨hnil, hzero⟩ | hone
  · rw [hnil, hzero, counter_zero]
    rfl
  · rw [hone]
    rfl

theorem Stanza.sum_values (amount : ℕ → ℤ) (h : amount 0 = 0) :
    ((s.lines.filterMap (value? f)).map amount).sum = amount (s.value f) := by
  rcases s.values_cases f with ⟨hnil, hzero⟩ | hone
  · rw [hnil, hzero, h]
    rfl
  · rw [hone, map_singleton, sum_singleton]

theorem Stanza.foldl_lines :
    s.lines.foldl (takeLine num) { m_pubkey := toBase64 s.key } = s.read num := by
  apply PeerStatus.ext
  · exact m_pubkey_foldl s.lines _
  · have hsec := s.sum_values .last_handshake_time_sec (fun n => longLong n * 1000)
      (by rw [longLong_zero, zero_mul])
    have hnsec := s.sum_values .last_handshake_time_nsec
      (fun n => (longLong n).tdiv 1000000) (by rw [longLong_zero, Int.zero_tdiv])
    rw [m_handshake_foldl s.lines rfl, sum_time, hsec, hnsec, zero_add, Stanza.read]
  · refine (foldl_takeLine_of_set (fun _ _ => rfl) (fun _ _ g hg => ?_) s.lines _).trans
      (s.getLast?_values .rx_bytes)
    cases g with
    | rx_bytes => exact absurd rfl hg
    | _ => rfl
  · refine (foldl_takeLine_of_set (fun _ _ => rfl) (fun _ _ g hg => ?_) s.lines _).trans
      (s.getLast?_values .tx_bytes)
    cases g with
    | tx_bytes => exact absurd rfl hg
    | _ => rfl

theorem flush_foldl_stanza :
    flush (s.texts.foldl (readLine num) state) = flush state ++ [s.read num] := by
  have hkey : (s.read num).m_pubkey ≠ "" := toBase64_ne_empty s.key_ne_nil
  rw [Stanza.texts, foldl_cons, readLine_key, foldl_readLine, s.foldl_lines, flush,
    if_pos hkey]

theorem flush_foldl_stanzas (stanzas : List Stanza) (state : PeerStatus × List PeerStatus) :
    flush ((stanzas.flatMap Stanza.texts).foldl (readLine num) state) =
      flush state ++ stanzas.map (Stanza.read num) := by
  induction stanzas generalizing state with
  | nil => rw [flatMap_nil, foldl_nil, map_nil, append_nil]
  | cons s stanzas ih =>
    rw [flatMap_cons, foldl_append, ih, flush_foldl_stanza, append_assoc,
      map_cons, singleton_append]

theorem foldl_interfaceLines (num : QtNumbers) (lines : List InterfaceLine)
    (state : PeerStatus × List PeerStatus) :
    ((lines.map InterfaceLine.text).foldl (readLine num) state).1.m_pubkey = state.1.m_pubkey ∧
      ((lines.map InterfaceLine.text).foldl (readLine num) state).2 = state.2 := by
  induction lines generalizing state with
  | nil => exact ⟨rfl, rfl⟩
  | cons line lines ih =>
    obtain ⟨hkey, hlist⟩ := ih (readLine num state line.text)
    obtain ⟨hkey', hlist'⟩ := readLine_interfaceLine num state line
    rw [map_cons, foldl_cons]
    exact ⟨hkey.trans hkey', hlist.trans hlist'⟩

theorem PeerLine.newline_free : '\n' ∉ line.text.toList := by
  cases line with
  | other line => exact line.newline_free
  | field f n =>
    have hname : '\n' ∉ (f.name ++ "=").toList := by cases f <;> decide
    rw [text, String.toList_append, mem_append, not_or]
    refine ⟨hname, fun h => ?_⟩
    exact absurd (isDigit_of_mem_toString h) (by decide)

theorem Stanza.newline_free : ∀ text ∈ s.texts, '\n' ∉ text.toList := by
  unfold Stanza.texts
  rw [forall_mem_cons]
  constructor
  · rw [String.toList_append, mem_append, not_or]
    exact ⟨by decide, not_mem_toHex (by decide) s.key⟩
  · rw [forall_mem_map]
    exact fun line _ => line.newline_free

variable (r : Reply)

theorem Reply.newline_free : ∀ text ∈ r.texts, '\n' ∉ text.toList := by
  intro text htext
  rcases mem_append.mp htext with hhead | hstanza
  · obtain ⟨line, -, rfl⟩ := mem_map.mp hhead
    exact line.newline_free
  · obtain ⟨s, -, hs⟩ := mem_flatMap.mp hstanza
    exact s.newline_free text hs

theorem foldl_split_text (state : PeerStatus × List PeerStatus) :
    (split r.text "\n").foldl (readLine num) state = r.texts.foldl (readLine num) state := by
  have hsplit : split r.text "\n" =
      ((['\n'].intercalate (r.texts.map String.toList)).splitOn '\n').map String.ofList := by
    rw [split_eq (c := '\n') rfl, Reply.text, String.toList_intercalate]
    rfl
  by_cases hnil : r.texts = []
  · rw [hsplit, hnil]
    rfl
  · have hfree : ∀ l ∈ r.texts.map String.toList, '\n' ∉ l := by
      rw [forall_mem_map]
      exact r.newline_free
    rw [hsplit, splitOn_intercalate '\n' hfree (by simpa using hnil), map_map]
    simp

theorem getPeerStatus_text : getPeerStatus num r.text = r.stanzas.map (Stanza.read num) := by
  obtain ⟨hkey, hlist⟩ := foldl_interfaceLines num r.head ({ m_pubkey := "" }, [])
  rw [getPeerStatus, foldl_split_text, Reply.texts, foldl_append, flush_foldl_stanzas, flush,
    if_neg (not_not.mpr hkey), hlist, nil_append]

end Stanzas

section Exact

variable {num : QtNumbers}

variable {n : ℕ}

theorem toQint64_natCast (h : n < 2 ^ 63) : toQint64 (n : ℚ) = n := by
  have hn : (n : ℚ) < 2 ^ 63 := by exact_mod_cast h
  have hnonneg : (0 : ℚ) ≤ n := n.cast_nonneg
  rw [toQint64, if_pos ⟨by linarith, hn⟩, if_pos hnonneg, Int.floor_natCast]

theorem toQint64_natCast_of_le (h : 2 ^ 63 ≤ n) : toQint64 (n : ℚ) = -2 ^ 63 := by
  have hn : ¬(n : ℚ) < 2 ^ 63 := by
    rw [not_lt]
    exact_mod_cast h
  rw [toQint64, if_neg fun hrange => hn hrange.2]

theorem toQint64_lt (x : ℚ) : toQint64 x < 2 ^ 63 := by
  unfold toQint64
  split_ifs with hrange hx
  · rw [Int.floor_lt]
    exact_mod_cast hrange.2
  · have hceil : ⌈x⌉ ≤ 0 := Int.ceil_le.mpr (by exact_mod_cast (not_le.mp hx).le)
    omega
  · omega

theorem counter_eq_iff (n : ℕ) : counter num n = n ↔ Binary64.unit n ∣ n ∧ n < 2 ^ 63 := by
  unfold counter
  by_cases hn : n < 2 ^ 63
  · rw [num.toDouble_toString n (by omega), ← Binary64.nearest_eq_self_iff, and_iff_left hn]
    by_cases hnearest : Binary64.nearest n < 2 ^ 63
    · rw [toQint64_natCast hnearest, Nat.cast_inj]
    · rw [toQint64_natCast_of_le (not_lt.mp hnearest)]
      omega
  · have hlt := toQint64_lt (num.toDouble (toString (n : ℤ)))
    refine ⟨fun h => absurd ?_ hn, fun h => absurd h.2 hn⟩
    rw [h] at hlt
    exact_mod_cast hlt

theorem wrapQint64_lt (x : ℤ) : wrapQint64 x < 2 ^ 63 := by
  have h : x.bmod (2 ^ 64) < (((2 ^ 64 : ℕ) : ℤ) + 1) / 2 := Int.bmod_lt (by omega)
  unfold wrapQint64
  omega

theorem wrapQint64_of_lt {x : ℤ} (hx : 0 ≤ x) (h : x < 2 ^ 63) : wrapQint64 x = x := by
  apply Int.bmod_eq_of_le
  · omega
  · omega

theorem longLong_of_lt (h : n < 2 ^ 63) : longLong n = n := toLongLong_toString h

theorem handshake_eq_iff (sec nsec : ℕ) :
    wrapQint64 (longLong sec * 1000 + (longLong nsec).tdiv 1000000) =
      (sec : ℤ) * 1000 + (nsec : ℤ) / 1000000 ↔
      nsec < 2 ^ 63 ∧ sec * 1000 + nsec / 1000000 < 2 ^ 63 := by
  constructor
  · intro h
    have hlt := wrapQint64_lt (longLong sec * 1000 + (longLong nsec).tdiv 1000000)
    rw [h] at hlt
    refine ⟨?_, by omega⟩
    by_contra hnsec
    have hzero : longLong nsec = 0 := toLongLong_toString_of_le (not_lt.mp hnsec)
    rw [longLong_of_lt (by omega), hzero, Int.zero_tdiv, add_zero,
      wrapQint64_of_lt (by omega) (by omega)] at h
    omega
  · rintro ⟨hnsec, htime⟩
    have hdiv : (nsec : ℤ).tdiv 1000000 = (nsec : ℤ) / 1000000 :=
      Int.tdiv_eq_ediv_of_nonneg (by omega)
    rw [longLong_of_lt hnsec, longLong_of_lt (by omega), hdiv]
    exact wrapQint64_of_lt (by omega) (by omega)

/-- The counters of the peer are doubles, and the numbers stay in the range of their types. -/
structure Stanza.Exact (s : Stanza) : Prop where
  tx : Binary64.unit (s.value .tx_bytes) ∣ s.value .tx_bytes ∧ s.value .tx_bytes < 2 ^ 63
  rx : Binary64.unit (s.value .rx_bytes) ∣ s.value .rx_bytes ∧ s.value .rx_bytes < 2 ^ 63
  nsec : s.value .last_handshake_time_nsec < 2 ^ 63
  time : s.value .last_handshake_time_sec * 1000 + s.value .last_handshake_time_nsec / 1000000 <
    2 ^ 63

theorem Stanza.read_eq_status_iff (s : Stanza) : s.read num = s.status ↔ s.Exact := by
  have htime : (s.read num).m_handshake = s.status.m_handshake ↔
      s.value .last_handshake_time_nsec < 2 ^ 63 ∧
        s.value .last_handshake_time_sec * 1000 +
          s.value .last_handshake_time_nsec / 1000000 < 2 ^ 63 := by
    unfold Stanza.read Stanza.status
    dsimp only
    exact handshake_eq_iff _ _
  have hrx : (s.read num).m_rxBytes = s.status.m_rxBytes ↔ _ := counter_eq_iff _
  have htx : (s.read num).m_txBytes = s.status.m_txBytes ↔ _ := counter_eq_iff _
  constructor
  · intro h
    rw [h] at htime hrx htx
    obtain ⟨hnsec, htime⟩ := htime.mp rfl
    exact ⟨htx.mp rfl, hrx.mp rfl, hnsec, htime⟩
  · rintro ⟨htx', hrx', hnsec, htime'⟩
    exact PeerStatus.ext rfl (htime.mpr ⟨hnsec, htime'⟩) (hrx.mpr hrx') (htx.mpr htx')

/-- The entries are the peers if the counters are doubles in range. -/
theorem getPeerStatus_eq_iff (num : QtNumbers) (r : Reply) :
    getPeerStatus num r.text = r.stanzas.map Stanza.status ↔ ∀ s ∈ r.stanzas, s.Exact := by
  rw [getPeerStatus_text, map_inj_left]
  exact forall₂_congr fun s _ => s.read_eq_status_iff

def decimalDoubles : QtNumbers where
  toDouble s := ((decimal? s.toList).map fun n => (Binary64.nearest n : ℚ)).getD 0
  toDouble_toString n _ := by
    rw [toList_toString, decimal?_toDigits]
    rfl

def largeCounter : Reply where
  head := [⟨"listen_port=51820", by decide, by decide⟩]
  stanzas := [{
    key := List.replicate 32 0x11
    key_ne_nil := by decide
    lines := [.field .last_handshake_time_sec 1700000000,
      .field .last_handshake_time_nsec 250000000, .field .tx_bytes 9007199254740993,
      .field .rx_bytes 148]
    once := by
      intro f
      cases f <;> decide }]

theorem getPeerStatus_largeCounter :
    largeCounter.text = "listen_port=51820\npublic_key=" ++
        "1111111111111111111111111111111111111111111111111111111111111111" ++
        "\nlast_handshake_time_sec=1700000000\nlast_handshake_time_nsec=250000000" ++
        "\ntx_bytes=9007199254740993\nrx_bytes=148" ∧
      getPeerStatus decimalDoubles largeCounter.text =
        [{ m_pubkey := "ERERERERERERERERERERERERERERERERERERERERERE="
           m_handshake := 1700000000250
           m_rxBytes := 148
           m_txBytes := 9007199254740992 }] ∧
      largeCounter.stanzas.map Stanza.status =
        [{ m_pubkey := "ERERERERERERERERERERERERERERERERERERERERERE="
           m_handshake := 1700000000250
           m_rxBytes := 148
           m_txBytes := 9007199254740993 }] := by
  refine ⟨by decide +kernel, ?_, by decide +kernel⟩
  rw [getPeerStatus_text]
  decide +kernel

end Exact

end WireguardUtils

end AmneziaVpn
