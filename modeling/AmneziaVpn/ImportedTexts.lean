import AmneziaVpn.ImportController
import AmneziaVpn.QtStringLists

/-!
# Imported texts

The import of WireGuard and OpenVPN texts finds the server with a regular expression, in the first
line that it matches, and the other values of WireGuard as the last assignments of their keys.
-/

namespace AmneziaVpn.ImportedText

open BacktrackingRegex List QString

def lines (data : String) : List String := split data "\n"

def found (r : Regex) (i : ℕ) (lines : List String) : Option String :=
  (lines.findSome? fun line => firstCaptures r line.toList).bind fun f => (f i).map String.ofList

variable {r : Regex}

theorem captured_eq (hr : r.Avoids '\n') (i : ℕ) (data : String) :
    captured r i data = found r i (lines data) := by
  have hparts : data.toList.splitOn '\n' ≠ [] := splitOn_ne_nil _ _
  have hfind := firstCaptures_intercalate hr hparts
  have hlines : (lines data).findSome? (fun line => firstCaptures r line.toList) =
      (data.toList.splitOn '\n').findSome? (firstCaptures r) := by
    unfold lines
    rw [split_eq (c := '\n') rfl, findSome?_map]
    simp only [Function.comp_def, String.toList_ofList]
  unfold found
  rw [hlines, ← hfind, intercalate_splitOn]
  unfold captured firstCaptures
  cases firstMatch r [] data.toList <;> rfl

variable {x : Char}

theorem avoids_chars {s : List Char} (hs : x ∉ s) (hr : r.Avoids x) : (chars s r).Avoids x := by
  induction s with
  | nil => exact hr
  | cons c s ih =>
    rw [mem_cons, not_or] at hs
    exact ⟨beq_false_of_ne hs.1, ih hs.2⟩

theorem openVpnHostName_avoids : openVpnHostName.Avoids '\n' := by
  apply avoids_chars (by decide)
  refine ⟨rfl, avoids_chars (by decide) rfl⟩

theorem wireGuardEndpoint_avoids : wireGuardEndpoint.Avoids '\n' := by
  apply avoids_chars (by decide)
  refine ⟨rfl, avoids_chars (by decide) rfl⟩

def isHeader (line : String) : Bool :=
  startsWith (trimmed line) "[" && endsWith (trimmed line) "]"

def assignment (line : String) : Option (String × String) :=
  if isHeader line then none
  else
    match split (trimmed line) " = " with
    | [name, value] => some (trimmed name, trimmed value)
    | _ => none

def assigned (lines : List String) (key : String) : Option String :=
  (lines.filterMap assignment).reverse.lookup key

theorem wireGuardMap_eq (data key : String) :
    wireGuardMap data key = (assigned (lines data) key).getD "" := by
  unfold wireGuardMap assigned lines
  apply congrArg fun entries : List (String × String) => (entries.reverse.lookup key).getD ""
  apply filterMap_congr
  intro line _
  unfold assignment isHeader
  generalize trimmed line = trimmedLine
  change (if _ then none else _) = _
  generalize split trimmedLine " = " = parts
  rfl

theorem assigned_append (l r : List String) (key : String) :
    assigned (l ++ r) key = (assigned r key).or (assigned l key) := by
  unfold assigned
  rw [filterMap_append, reverse_append, lookup_append]

section Assignments

theorem toList_ne_nil {s : String} (h : s ≠ "") : s.toList ≠ [] := by simpa using h

/-- A value that stands in a line as it is. -/
structure Plain (value : String) : Prop where
  nonempty : value ≠ ""
  starts : ∀ c ∈ value.toList.head?, QString.isSpace c = false
  ends : ∀ c ∈ value.toList.getLast?, QString.isSpace c = false
  newline : '\n' ∉ value.toList
  equals : ¬ " = ".toList <:+: value.toList

instance (value : String) : Decidable (Plain value) :=
  decidable_of_iff
    (value ≠ "" ∧ value.toList.head?.all (!QString.isSpace ·) = true ∧
      value.toList.getLast?.all (!QString.isSpace ·) = true ∧ '\n' ∉ value.toList ∧
      ¬ " = ".toList <:+: value.toList)
    (by
      simp only [Option.all_eq_true, Bool.not_eq_true']
      exact ⟨fun ⟨h₁, h₂, h₃, h₄, h₅⟩ => ⟨h₁, h₂, h₃, h₄, h₅⟩,
        fun h => ⟨h.nonempty, h.starts, h.ends, h.newline, h.equals⟩⟩)

theorem Plain.append {value suff : String} (h : Plain value) {x : Char} {xs : List Char}
    (hsuff : suff.toList = x :: xs) (hx : x ∉ " = ".toList) (hxs : ¬ " = ".toList <:+: xs)
    (hends : ∀ c ∈ suff.toList.getLast?, QString.isSpace c = false) (hnewline : '\n' ∉ suff.toList) :
    Plain (value ++ suff) where
  nonempty h' := h.nonempty (String.append_eq_empty_iff.mp h').1
  starts := by
    obtain ⟨y, ys, hy⟩ := exists_cons_of_ne_nil (toList_ne_nil h.nonempty)
    have hstarts := h.starts
    rw [String.toList_append, hy]
    rwa [hy] at hstarts
  ends := by
    rwa [String.toList_append, getLast?_append_of_ne_nil _ (by rw [hsuff]; exact cons_ne_nil _ _)]
  newline := by
    rw [String.toList_append, mem_append, not_or]
    exact ⟨h.newline, hnewline⟩
  equals := by
    rw [String.toList_append, hsuff, Pieces.infix_append_cons_iff hx, not_or]
    exact ⟨h.equals, hxs⟩

/-- A key that is not taken for the start of a section or of an endpoint. -/
def isKey (key : String) : Bool :=
  key ≠ "" && key.toList.all fun c => !QString.isSpace c && c ≠ '[' && c ≠ '$'

variable {key value : String}

theorem of_mem_isKey (h : isKey key = true) {c : Char} (hc : c ∈ key.toList) :
    QString.isSpace c = false ∧ c ≠ '[' ∧ c ≠ '$' := by
  simp only [isKey, Bool.and_eq_true, all_eq_true, decide_eq_true_eq, Bool.not_eq_true',
    and_assoc] at h
  exact h.2 c hc

theorem assignment_eq (hkey : isKey key = true) (hvalue : Plain value) :
    assignment (key ++ " = " ++ value) = some (key, value) := by
  have hmem : ∀ c ∈ key.toList, QString.isSpace c = false := fun c hc => (of_mem_isKey hkey hc).1
  have hne : key ≠ "" := by
    rintro rfl
    cases hkey
  obtain ⟨x, xs, hx⟩ := exists_cons_of_ne_nil (toList_ne_nil hne)
  have hfirst : x ∈ key.toList := by rw [hx]; exact mem_cons_self
  have hline : (key ++ " = " ++ value).toList = key.toList ++ (' ' :: ['=', ' '] ++ value.toList) := by
    simp
  have htrimmed : trimmed (key ++ " = " ++ value) = key ++ " = " ++ value := by
    apply trimmed_eq_self
    · intro c hc
      rw [hline, hx] at hc
      obtain rfl : x = c := Option.some.inj hc
      exact hmem x hfirst
    · intro c hc
      rw [String.toList_append,
        getLast?_append_of_ne_nil _ (toList_ne_nil hvalue.nonempty)] at hc
      exact hvalue.ends c hc
  have hblank : ' ' ∉ key.toList := fun h => absurd (hmem ' ' h) (by decide)
  have hsplit : split (key ++ " = " ++ value) " = " = [key, value] := by
    have hsep : " = ".toList = ' ' :: ['=', ' '] := rfl
    unfold split
    rw [hline, hsep, splitFrom_append _ _ hblank, ← hsep,
      splitFrom_of_not_infix hvalue.equals]
    simp
  have hstart : startsWith (key ++ " = " ++ value) "[" = false := by
    unfold startsWith
    rw [hline, hx]
    simp [List.isPrefixOf, (of_mem_isKey hkey hfirst).2.1.symm]
  unfold assignment isHeader
  rw [htrimmed, hstart, hsplit, Bool.false_and, if_neg (by decide)]
  dsimp only
  rw [trimmed_eq_self (fun c hc => hmem c (mem_of_mem_head? hc))
    (fun c hc => hmem c (mem_of_getLast? hc)),
    trimmed_eq_self hvalue.starts hvalue.ends]

def writtenLines (entries : List (String × String)) : List String :=
  entries.map fun entry => entry.1 ++ " = " ++ entry.2

variable {entries : List (String × String)}

theorem filterMap_written (h : ∀ entry ∈ entries, isKey entry.1 = true ∧ Plain entry.2) :
    (writtenLines entries).filterMap assignment = entries := by
  induction entries with
  | nil => rfl
  | cons entry entries ih =>
    obtain ⟨hentry, hrest⟩ := forall_mem_cons.mp h
    rw [writtenLines, map_cons, filterMap_cons_some (assignment_eq hentry.1 hentry.2)]
    exact congrArg _ (ih hrest)

theorem newline_written (h : ∀ entry ∈ entries, isKey entry.1 = true ∧ Plain entry.2) :
    ∀ line ∈ writtenLines entries, '\n' ∉ line.toList := by
  intro line hline
  obtain ⟨entry, hentry, rfl⟩ := mem_map.mp hline
  obtain ⟨hkey, hvalue⟩ := h entry hentry
  have hnewline : '\n' ∉ entry.1.toList := fun hmem =>
    absurd (of_mem_isKey hkey hmem).1 (by decide)
  rw [String.toList_append, String.toList_append, mem_append, mem_append, not_or, not_or]
  exact ⟨⟨hnewline, by decide⟩, hvalue.newline⟩

theorem lookup_reverse_of_mem (hnodup : (entries.map Prod.fst).Nodup) (hmem : (key, value) ∈ entries) :
    entries.reverse.lookup key = some value := by
  induction entries with
  | nil => cases hmem
  | cons entry entries ih =>
    rw [map_cons, nodup_cons] at hnodup
    rw [reverse_cons, lookup_append]
    rcases mem_cons.mp hmem with rfl | hmem
    · have hnone : entries.reverse.lookup key = none := by
        rw [lookup_eq_none_iff]
        intro entry hentry
        rw [bne_iff_ne]
        rintro rfl
        exact hnodup.1 (mem_map.mpr ⟨entry, mem_reverse.mp hentry, rfl⟩)
      rw [hnone, Option.none_or]
      simp
    · rw [ih hnodup.2 hmem, Option.some_or]

end Assignments

theorem infix_of_infix_append {p a b : List Char} (hx : x ∉ a) (h : x :: p <:+: a ++ b) :
    x :: p <:+: b := by
  induction a with
  | nil => exact h
  | cons y a ih =>
    rw [mem_cons, not_or] at hx
    rw [cons_append, infix_cons_iff, cons_prefix_cons] at h
    exact ih hx.2 (h.resolve_left fun h => hx.1 h.1)

theorem firstCaptures_assignment {key value : String} (hkey : 'E' ∉ key.toList)
    (hvalue : Plain value) :
    firstCaptures wireGuardEndpoint (key ++ " = " ++ value).toList = none := by
  apply firstCaptures_chars_of_not_infix
  intro h
  rw [String.toList_append] at h
  apply hvalue.equals
  have h := infix_of_infix_append (x := 'E') (by simpa using hkey) h
  exact List.IsInfix.trans ⟨"Endpoint".toList, [], rfl⟩ h

theorem firstCaptures_written {entries : List (String × String)}
    (h : ∀ entry ∈ entries, 'E' ∉ entry.1.toList ∧ Plain entry.2) :
    ∀ line ∈ writtenLines entries, firstCaptures wireGuardEndpoint line.toList = none := by
  intro line hline
  obtain ⟨entry, hentry, rfl⟩ := mem_map.mp hline
  exact firstCaptures_assignment (h entry hentry).1 (h entry hentry).2

theorem firstCaptures_greedy {lit a b : List Char} {P : (ℕ → Option (List Char)) → Prop}
    (hx : x ≠ '\n') (ha : '\n' ∉ a) (hb : '\n' ∉ b) (hlast : x ∉ b)
    (hr : ∀ p : Position, p.after = b → p.captures 1 = some a → ∃ q, run r p some = some q ∧ P q.captures)
    :
    ∃ f, firstCaptures (chars lit (.seq (.group 1 (.rep 0 anyChar)) (chars [x] r)))
      (lit ++ (a ++ x :: b)) = some f ∧ P f := by
  have hne : ∀ {l : List Char}, '\n' ∉ l → ∀ y ∈ l, decide (y ≠ '\n') = true := by
    intro l hl y hy
    rw [decide_eq_true_eq]
    rintro rfl
    exact hl hy
  let start := (Position.start [] (lit ++ (a ++ x :: b))).advance lit (a ++ x :: b)
  have hone : ((start.advance a (x :: b)).capture 1 a).captures 1 = some a := by
    simp [Position.capture]
  obtain ⟨q, hq, hP⟩ := hr (((start.advance a (x :: b)).capture 1 a).advance [x] b) rfl hone
  refine ⟨q.captures, firstCaptures_of_run ?_, hP⟩
  rw [run_chars lit (a ++ x :: b) rfl]
  exact run_group_cls_last (decide_eq_true hx) rfl (hne ha) (hne hb) hlast hq

theorem firstCaptures_endpoint {host port : String} (hhost : '\n' ∉ host.toList)
    (hport : ∀ c ∈ port.toList, c.isDigit = true) :
    ∃ f, firstCaptures wireGuardEndpoint ("Endpoint" ++ " = " ++ (host ++ ":" ++ port)).toList = some f ∧
      f 1 = some host.toList ∧ f 2 = some port.toList := by
  have hline : ("Endpoint" ++ " = " ++ (host ++ ":" ++ port)).toList =
      "Endpoint = ".toList ++ (host.toList ++ ':' :: port.toList) := by simp
  have hnot : ∀ {c : Char}, c.isDigit = false → c ∉ port.toList := by
    intro c hc hmem
    rw [hport c hmem] at hc
    cases hc
  rw [hline]
  apply firstCaptures_greedy (P := fun f => f 1 = some host.toList ∧ f 2 = some port.toList)
    (by decide) hhost (hnot (by decide)) (hnot (by decide))
  intro p hp hone
  rw [run, digit, run_rep_cls_all p (by rwa [hp]) rfl]
  refine ⟨_, rfl, ?_, ?_⟩
  · simpa [Position.capture, Position.advance] using hone
  · simp [Position.capture, Position.consumedSince, Position.advance, hp]

theorem run_rep_cls_some (c : Char → Bool) (p : Position) :
    ∃ q, run (.rep 0 (.cls c)) p some = some q ∧ q.captures = p.captures := by
  have hafter : p.after = p.after.takeWhile c ++ ([] ++ p.after.dropWhile c) := by simp
  refine ⟨_, run_rep_cls_last hafter ?_ (by simp) ?_ ?_ rfl, rfl⟩
  · intro x hx
    exact all_eq_true.mp (all_takeWhile (l := p.after)) x hx
  · intro x hx
    have hnot := head?_dropWhile_not c p.after
    rw [hx] at hnot
    exact hnot
  · intro u v huv hu
    exact absurd (append_eq_nil_iff.mp huv.symm).1 hu

theorem firstCaptures_remote {host rest : List Char} (hhost : '\n' ∉ host) (hrest : '\n' ∉ rest)
    (hblank : ' ' ∉ rest) :
    ∃ f, firstCaptures openVpnHostName ("remote ".toList ++ (host ++ ' ' :: rest)) = some f ∧
      f 1 = some host := by
  apply firstCaptures_greedy (P := fun f => f 1 = some host) (by decide) hhost hrest hblank
  intro p _ hone
  obtain ⟨q, hq, hcaptures⟩ := run_rep_cls_some Char.isDigit p
  exact ⟨q, hq, by rw [hcaptures, hone]⟩

section Found

variable {r : Regex} {i : ℕ} {line : String} {rest : List String}

theorem found_append_of_none {before : List String}
    (h : ∀ line ∈ before, firstCaptures r line.toList = none) :
    found r i (before ++ rest) = found r i rest := by
  unfold found
  rw [findSome?_append, findSome?_eq_none_iff.mpr h, Option.none_or]

theorem found_cons_of_some {f : ℕ → Option (List Char)} (h : firstCaptures r line.toList = some f) :
    found r i (line :: rest) = (f i).map String.ofList := by
  unfold found
  rw [findSome?_cons, h]
  rfl

end Found

theorem found_endpoint {host port : String} (hhost : '\n' ∉ host.toList)
    (hport : ∀ c ∈ port.toList, c.isDigit = true) (rest : List String) :
    found wireGuardEndpoint 1 (("Endpoint" ++ " = " ++ (host ++ ":" ++ port)) :: rest) = some host ∧
      found wireGuardEndpoint 2 (("Endpoint" ++ " = " ++ (host ++ ":" ++ port)) :: rest) = some port := by
  obtain ⟨f, hf, hone, htwo⟩ := firstCaptures_endpoint hhost hport
  rw [found_cons_of_some hf, found_cons_of_some hf, hone, htwo]
  simp

section Results

def protocolConfig (config : QJsonObject) (protocolName : String) : QJsonObject :=
  (((config.value "containers").toArray.headD .undefined).toObject.value protocolName).toObject

variable (value : String → String)

/-- The preshared key, under either spelling. -/
def pskKey : QJsonValue :=
  if value "PresharedKey" ≠ "" then .string (value "PresharedKey")
  else if value "PreSharedKey" ≠ "" then .string (value "PreSharedKey")
  else .undefined

def isAwg : Bool := junkKeys.all fun key => value key ≠ ""

def lastConfig (data hostName port : String) : QJsonObject :=
  let value := wireGuardMap data
  let lastConfig : QJsonObject := []
  let lastConfig := lastConfig.insert "config" (.string data)
  let lastConfig := lastConfig.insert "hostName" (.string hostName)
  let lastConfig := lastConfig.insert "port" (.double (QString.toInt port))
  let lastConfig := lastConfig.insert "client_priv_key" (.string (value "PrivateKey"))
  let lastConfig := lastConfig.insert "client_ip" (.string (value "Address"))
  let lastConfig :=
    if value "PresharedKey" ≠ "" then
      lastConfig.insert "psk_key" (.string (value "PresharedKey"))
    else if value "PreSharedKey" ≠ "" then
      lastConfig.insert "psk_key" (.string (value "PreSharedKey"))
    else lastConfig
  let lastConfig := lastConfig.insert "server_pub_key" (.string (value "PublicKey"))
  let lastConfig :=
    if value "MTU" ≠ "" then lastConfig.insert "mtu" (.string (value "MTU")) else lastConfig
  let lastConfig :=
    lastConfig.insert "allowed_ips" (.ofStringList (split (value "AllowedIPs") ","))
  if isAwg value then
    junkKeys.foldl (fun (o : QJsonObject) key => o.insert key (.string (value key))) lastConfig
  else lastConfig

theorem value_ite {o o' : QJsonObject} {key : String} (b : Prop) [Decidable b] :
    QJsonObject.value (if b then o else o') key = if b then o.value key else o'.value key :=
  apply_ite (QJsonObject.value · key) b o o'

variable (data host port : String)

theorem value_lastConfig :
    (lastConfig data host port).value "hostName" = .string host ∧
      (lastConfig data host port).value "port" = .double (QString.toInt port) ∧
      (lastConfig data host port).value "client_priv_key" =
        .string (wireGuardMap data "PrivateKey") ∧
      (lastConfig data host port).value "client_ip" = .string (wireGuardMap data "Address") ∧
      (lastConfig data host port).value "psk_key" = pskKey (wireGuardMap data) ∧
      (lastConfig data host port).value "server_pub_key" =
        .string (wireGuardMap data "PublicKey") := by
  unfold lastConfig pskKey
  refine ⟨?_, ?_, ?_, ?_, ?_, ?_⟩ <;> simp [value_ite, junkKeys]

variable {data host port}

theorem value_lastConfig_junk {key : String} (hkey : key ∈ junkKeys)
    (h : isAwg (wireGuardMap data) = true) :
    (lastConfig data host port).value key = .string (wireGuardMap data key) := by
  unfold lastConfig
  simp [QJsonObject.value_foldl_insert, h, hkey]

theorem extractWireGuardConfig_eq (context : ImportContext) (configType : ConfigTypes)
    {hostName : String}
    (h₁ : captured wireGuardEndpoint 1 data = some hostName)
    (h₂ : captured wireGuardEndpoint 2 data = some port)
    (hkeys : wireGuardMap data "PrivateKey" ≠ "" ∧ wireGuardMap data "Address" ≠ "" ∧
      wireGuardMap data "PublicKey" ≠ "") :
    ∃ config, extractWireGuardConfig context data configType =
        some (config, if isAwg (wireGuardMap data) then .Awg else configType) ∧
      config.value "hostName" = .string hostName ∧
      (protocolConfig config (if isAwg (wireGuardMap data) then "awg" else "wireguard")).value
        "last_config" = .string (context.qt.indented (lastConfig data hostName port)) ∧
      (protocolConfig config (if isAwg (wireGuardMap data) then "awg" else "wireguard")).value
        "port" = .string port := by
  obtain ⟨hpriv, haddress, hpub⟩ := hkeys
  unfold extractWireGuardConfig
  rw [h₁, h₂]
  dsimp only
  rw [if_neg (by simp [hpriv, haddress, hpub])]
  refine ⟨_, rfl, ?_⟩
  cases captured wireGuardDns 1 data <;> cases captured wireGuardDns 2 data <;>
    simp [serverConfig, protocolConfig, QJsonValue.toArray, QJsonValue.toObject, lastConfig, isAwg]

theorem exists_of_extractWireGuardConfig {context : ImportContext} {configType type : ConfigTypes}
    {config : QJsonObject}
    (h : extractWireGuardConfig context data configType = some (config, type)) :
    ∃ host port, captured wireGuardEndpoint 1 data = some host ∧
      captured wireGuardEndpoint 2 data = some port ∧
      (wireGuardMap data "PrivateKey" ≠ "" ∧ wireGuardMap data "Address" ≠ "" ∧
        wireGuardMap data "PublicKey" ≠ "") := by
  unfold extractWireGuardConfig at h
  cases h₁ : captured wireGuardEndpoint 1 data with
  | none => simp [h₁] at h
  | some host =>
    cases h₂ : captured wireGuardEndpoint 2 data with
    | none => simp [h₁, h₂] at h
    | some port =>
      rw [h₁, h₂] at h
      dsimp only at h
      by_cases hkeys : wireGuardMap data "PrivateKey" = "" ∨ wireGuardMap data "Address" = "" ∨
          wireGuardMap data "PublicKey" = ""
      · rw [if_pos hkeys] at h
        cases h
      · push Not at hkeys
        exact ⟨host, port, rfl, rfl, hkeys⟩

end Results

def plainContext : ImportContext where
  qt := .plain QtRuntime.noUrl []
  serversCount := 0
  nextAvailableServerName := "Server 1"
  unsetPort := 0
  captured := none

end AmneziaVpn.ImportedText
