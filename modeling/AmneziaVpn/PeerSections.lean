import AmneziaVpn.ImportedTexts

/-!
# The peers of an imported text

A WireGuard text can have several `[Peer]` sections. The importer takes the server from the first
endpoint of the text and the keys from the last assignments, whichever sections they are in.
-/

namespace AmneziaVpn.ImportedText

open BacktrackingRegex List

variable {data : String}

def peerSections : List String → List (List String)
  | [] => []
  | line :: rest =>
      if QString.trimmed line = "[Peer]" then
        rest.takeWhile (fun line => !isHeader line) :: peerSections rest
      else peerSections rest

def pskKeys : List String := ["PresharedKey", "PreSharedKey"]

/-- One section has the first endpoint and the last keys. -/
structure Decisive (data : String) (before : List String) (header : String)
    (body after : List String) : Prop where
  split : lines data = (before ++ [header]) ++ (body ++ after)
  peer : QString.trimmed header = "[Peer]"
  inside : ∀ line ∈ body, isHeader line = false
  ends : ∀ line ∈ after.head?, isHeader line = true
  first : ∀ line ∈ before ++ [header], firstCaptures wireGuardEndpoint line.toList = none
  endpoint : ∃ line ∈ body, (firstCaptures wireGuardEndpoint line.toList).isSome
  publicKey : (assigned body "PublicKey").isSome
  psk : ∀ key ∈ pskKeys, assigned (before ++ [header]) key = none
  last : ∀ key ∈ "PublicKey" :: pskKeys, assigned after key = none

variable {before body after : List String} {header : String}

theorem takeWhile_mem_peerSections (hpeer : QString.trimmed header = "[Peer]")
    (before rest : List String) :
    rest.takeWhile (fun line => !isHeader line) ∈ peerSections (before ++ header :: rest) := by
  induction before with
  | nil =>
    rw [nil_append, peerSections, if_pos hpeer]
    exact mem_cons_self
  | cons line before ih =>
    rw [cons_append, peerSections]
    split_ifs
    · exact mem_cons_of_mem _ ih
    · exact ih

theorem Decisive.mem_peerSections (h : Decisive data before header body after) :
    body ∈ peerSections (lines data) := by
  have htake : (body ++ after).takeWhile (fun line => !isHeader line) = body := by
    rw [takeWhile_append_of_pos fun line hline => by simp [h.inside line hline]]
    cases hafter : after with
    | nil => simp
    | cons line rest =>
      have hheader := h.ends line (by rw [hafter]; rfl)
      rw [takeWhile_cons_of_neg (by simp [hheader]), append_nil]
  have hmem := takeWhile_mem_peerSections h.peer before (body ++ after)
  rw [htake] at hmem
  rw [h.split, append_assoc]
  exact hmem

theorem Decisive.captured_eq (h : Decisive data before header body after) (i : ℕ) :
    captured wireGuardEndpoint i data = found wireGuardEndpoint i body := by
  have hbody : (body.findSome? fun line => firstCaptures wireGuardEndpoint line.toList).isSome := by
    rw [findSome?_isSome_iff]
    exact h.endpoint
  rw [ImportedText.captured_eq wireGuardEndpoint_avoids, h.split, found_append_of_none h.first, found,
    found, findSome?_append, Option.or_of_isSome hbody]

theorem Decisive.value_eq (h : Decisive data before header body after) {key : String}
    (hafter : assigned after key = none)
    (hbefore : (assigned body key).isSome ∨ assigned (before ++ [header]) key = none) :
    wireGuardMap data key = (assigned body key).getD "" := by
  rw [wireGuardMap_eq, h.split, assigned_append, assigned_append, hafter, Option.none_or]
  rcases hbefore with hbody | hbefore
  · rw [Option.or_of_isSome hbody]
  · rw [hbefore, Option.or_none]

theorem Decisive.pskKey_eq (h : Decisive data before header body after) :
    pskKey (wireGuardMap data) = pskKey fun key => (assigned body key).getD "" := by
  have hvalue : ∀ key ∈ pskKeys, wireGuardMap data key = (assigned body key).getD "" :=
    fun key hkey => h.value_eq (h.last key (mem_cons_of_mem _ hkey)) (Or.inr (h.psk key hkey))
  unfold pskKey
  rw [hvalue _ (by decide), hvalue _ (by decide)]

def TakenFrom (peer : List String) (context : ImportContext) (config : QJsonObject) : Prop :=
  ∃ host port protocolName lastConfig, config.value "hostName" = .string host ∧
    (protocolConfig config protocolName).value "last_config" =
      .string (context.qt.indented lastConfig) ∧
    lastConfig.value "hostName" = .string host ∧
    lastConfig.value "port" = .double (QString.toInt port) ∧
    found wireGuardEndpoint 1 peer = some host ∧ found wireGuardEndpoint 2 peer = some port ∧
    lastConfig.value "server_pub_key" = .string ((assigned peer "PublicKey").getD "") ∧
    lastConfig.value "psk_key" = pskKey fun key => (assigned peer key).getD ""

def interfaceLines : List String :=
  ["[Interface]", "PrivateKey" ++ " = " ++ "own", "Address" ++ " = " ++ "10.8.1.2/32"]

def peerLines (key host : String) : List String :=
  ["PublicKey" ++ " = " ++ key, "Endpoint" ++ " = " ++ (host ++ ":" ++ "51820")]

theorem firstCaptures_interfaceLines :
    ∀ line ∈ interfaceLines ++ ["[Peer]"], firstCaptures wireGuardEndpoint line.toList = none := by
  have hinf : ∀ line ∈ interfaceLines ++ ["[Peer]"],
      ¬ "Endpoint = ".toList <:+: line.toList := by decide
  exact fun line hline => firstCaptures_chars_of_not_infix (hinf line hline)

theorem found_peerLines (key host : String) (hkey : Plain key) (hhost : '\n' ∉ host.toList)
    (rest : List String) :
    found wireGuardEndpoint 1 (peerLines key host ++ rest) = some host ∧
      found wireGuardEndpoint 2 (peerLines key host ++ rest) = some "51820" := by
  have hnone : ∀ line ∈ ["PublicKey" ++ " = " ++ key],
      firstCaptures wireGuardEndpoint line.toList = none := by
    rw [forall_mem_singleton]
    exact firstCaptures_assignment (by decide) hkey
  have hskip : ∀ i, found wireGuardEndpoint i (peerLines key host ++ rest) =
      found wireGuardEndpoint i (("Endpoint" ++ " = " ++ (host ++ ":" ++ "51820")) :: rest) := fun i =>
    found_append_of_none hnone
  have hport : ∀ c ∈ "51820".toList, c.isDigit = true := all_eq_true.mp (by decide)
  obtain ⟨hone, htwo⟩ := found_endpoint hhost hport rest
  exact ⟨(hskip 1).trans hone, (hskip 2).trans htwo⟩

def onePeer : String :=
  QString.join ((interfaceLines ++ ["[Peer]"]) ++ (peerLines "first" "192.0.2.1" ++ [])) "\n"

theorem decisive_onePeer :
    Decisive onePeer interfaceLines "[Peer]" (peerLines "first" "192.0.2.1") [] where
  split := QString.split_join rfl (by simp [interfaceLines]) (by decide)
  peer := by decide
  inside := by decide
  ends := by decide
  first := firstCaptures_interfaceLines
  endpoint := by
    have hhost : '\n' ∉ "192.0.2.1".toList := by decide
    have hport : ∀ c ∈ "51820".toList, c.isDigit = true := all_eq_true.mp (by decide)
    obtain ⟨f, hf, -⟩ := firstCaptures_endpoint hhost hport
    exact ⟨_, mem_cons_of_mem _ mem_cons_self, by rw [hf]; rfl⟩
  publicKey := by decide
  psk := by decide
  last := by decide

def twoPeers : String :=
  QString.join (interfaceLines ++ ["[Peer]"] ++ peerLines "first" "192.0.2.1" ++ ["[Peer]"] ++
    peerLines "second" "192.0.2.2") "\n"

theorem lines_twoPeers : lines twoPeers = interfaceLines ++ ["[Peer]"] ++
    peerLines "first" "192.0.2.1" ++ ["[Peer]"] ++ peerLines "second" "192.0.2.2" :=
  QString.split_join rfl (by simp [interfaceLines]) (by decide)

end AmneziaVpn.ImportedText
