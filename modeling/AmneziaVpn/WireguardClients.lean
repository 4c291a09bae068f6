import AmneziaVpn.WireguardSections

/-!
# The addresses of WireGuard clients

The file is always a text without addresses, followed by the sections of the clients that are left,
in the order in which they were created.
-/

namespace AmneziaVpn.WireguardConfigurator

open Pieces List
open ServerController ClientManagementModel
open PeerText

/-- The file has these sections at its end, no other address, and the numbers increase. -/
def HasClients (file : String) (ps : List PeerText) : Prop :=
  (∃ header, ¬ "AllowedIPs".toList <:+: header ∧ file.toList = header ++ sections ps) ∧
    (ps.map PeerText.octet).Pairwise (· < ·)

/-- Neither a section nor a line ends in the text. -/
def Plain (s : String) : Prop := '[' ∉ s.toList ∧ '\n' ∉ s.toList

/-- The keys and the subnet are no more than a part of a line. -/
structure Creation.WellFormed (c : Creation) : Prop where
  key : Plain c.clientPubKey
  psk : ∀ text, c.pskKeyFile = .ok text → '[' ∉ text.toList
  subnet : Plain ((c.containerConfig.value "subnet_address").toStringOr defaultSubnetAddress)

section Creating

variable {containerConfig : QJsonObject} {ps : List PeerText} {file ip number : String}

theorem clientIP_eq_ok
    (hsubnet : Plain ((containerConfig.value "subnet_address").toStringOr defaultSubnetAddress))
    (h : clientIP containerConfig number = .ok ip) :
    ∃ start, (start = [] ∨ ∃ parts, start = parts ++ ['.']) ∧ ('[' ∉ start ∧ '\n' ∉ start) ∧
      ip.toList = start ++ number.toList := by
  generalize hs : (containerConfig.value "subnet_address").toStringOr defaultSubnetAddress = subnet
    at hsubnet
  unfold clientIP at h
  rw [hs] at h
  dsimp only at h
  rw [QString.splitSkipEmpty_eq (c := '.') rfl] at h
  split_ifs at h
  obtain rfl := Except.ok.inj h
  generalize hqs : (pieces '.' subnet.toList).dropLast = qs
  have htext : (QString.join (((pieces '.' subnet.toList).map String.ofList).dropLast ++ [number])
      ".").toList = ['.'].intercalate (qs ++ [number.toList]) := by
    unfold QString.join
    rw [String.toList_intercalate, ← map_dropLast, hqs, map_append, map_map]
    simp [Function.comp_def]
  have hplain : ∀ c, c ∉ subnet.toList → c ≠ '.' → c ∉ ['.'].intercalate qs := by
    intro c hc hdot hmem
    rcases mem_intercalate hmem with rfl | ⟨q, hq, hcq⟩
    · exact hdot rfl
    · rw [← hqs] at hq
      exact hc ((infix_of_mem_pieces (mem_of_mem_dropLast hq)).subset hcq)
  rw [htext]
  cases qs with
  | nil => exact ⟨[], .inl rfl, by simp, by simp⟩
  | cons q qs =>
    refine ⟨['.'].intercalate (q :: qs) ++ ['.'], .inr ⟨_, rfl⟩, ⟨?_, ?_⟩, ?_⟩
    · exact not_mem_append (hplain _ hsubnet.1 (by decide)) (by decide)
    · exact not_mem_append (hplain _ hsubnet.2 (by decide)) (by decide)
    · rw [intercalate_concat (cons_ne_nil q qs), append_assoc, singleton_append]

def nextOctet (ps : List PeerText) : ℕ := (ps.getLast?.map fun p => p.octet + 1).getD 2

theorem nextIpNumber_eq (ps : List PeerText) :
    nextIpNumber (ps.getLast?.map fun p => String.ofList (stripped p.ipLine)) =
      if nextOctet ps > 254 then .error .addressPoolError
      else .ok (toString (nextOctet ps : ℤ)) := by
  unfold nextOctet
  cases ps.getLast? with
  | none => rfl
  | some p =>
    have hnext : next (String.ofList (stripped p.ipLine)) = p.octet + 1 :=
      next_of_digits p (stripped_ipLine p)
    rw [Option.map_some, Option.map_some, Option.getD_some, nextIpNumber, hnext]
    by_cases h : p.octet + 1 > 254
    · rw [if_pos h, if_pos (by omega)]
    · rw [if_neg h, if_neg (by omega), Nat.cast_add, Nat.cast_one]

variable {last : Option String}

theorem assigned_eq_ok
    (hsubnet : Plain ((containerConfig.value "subnet_address").toStringOr defaultSubnetAddress))
    (hlast : last = ps.getLast?.map fun p => String.ofList (stripped p.ipLine))
    (h : assigned containerConfig last = .ok ip) :
    nextOctet ps ≤ 254 ∧
      ∃ start, (start = [] ∨ ∃ parts, start = parts ++ ['.']) ∧ ('[' ∉ start ∧ '\n' ∉ start) ∧
        ip.toList = start ++ (toString (nextOctet ps : ℤ)).toList := by
  unfold assigned at h
  rw [hlast, nextIpNumber_eq] at h
  split_ifs at h with hoctet
  exact ⟨Nat.le_of_not_lt hoctet, clientIP_eq_ok hsubnet h⟩

theorem assigned_eq_error (hoctet : nextOctet ps > 254)
    (hlast : last = ps.getLast?.map fun p => String.ofList (stripped p.ipLine)) :
    assigned containerConfig last = .error .addressPoolError := by
  unfold assigned
  rw [hlast, nextIpNumber_eq, if_pos hoctet]

theorem two_le_nextOctet (ps : List PeerText) : 2 ≤ nextOctet ps := by
  unfold nextOctet
  cases ps.getLast? with
  | none => exact Nat.le_refl 2
  | some p => exact p.octet_ge.trans (Nat.le_succ _)

variable (c : Creation)

theorem prepareWireguardConfig_cases (stdOut file : String) :
    (∃ e, prepareWireguardConfig c stdOut file = (.error e, file)) ∨
      ∃ ip psk, assigned c.containerConfig (ips stdOut).getLast? = .ok ip ∧
        c.pskKeyFile = .ok psk ∧
        (prepareWireguardConfig c stdOut file).2 =
          c.upload.stored (file ++ configPart c.clientPubKey (QString.replace psk "\n" "") ip)
            file := by
  unfold prepareWireguardConfig
  split_ifs with hkeys
  · exact .inl ⟨_, rfl⟩
  · cases c.scriptError with
    | some e => exact .inl ⟨e, rfl⟩
    | none =>
      cases hassigned : assigned c.containerConfig (ips stdOut).getLast? with
      | error e => exact .inl ⟨e, rfl⟩
      | ok ip =>
        cases c.serverPubKeyFile with
        | error e => exact .inl ⟨e, rfl⟩
        | ok serverPubKey =>
          cases hpsk : c.pskKeyFile with
          | error e => exact .inl ⟨e, rfl⟩
          | ok psk =>
            refine .inr ⟨ip, psk, rfl, rfl, ?_⟩
            dsimp only
            cases c.upload.error with
            | some e => rfl
            | none => cases c.syncError <;> rfl

theorem octet_le_last {p q : PeerText} {ps : List PeerText}
    (hps : ((ps ++ [p]).map PeerText.octet).Pairwise (· < ·)) (hq : q ∈ ps ++ [p]) :
    q.octet ≤ p.octet := by
  rw [map_append, pairwise_append] at hps
  rcases mem_append.mp hq with hq | hq
  · exact (hps.2.2 _ (mem_map_of_mem hq) _ (mem_map_of_mem mem_cons_self)).le
  · rw [mem_singleton.mp hq]

theorem octet_lt_nextOctet {q : PeerText} (hps : (ps.map PeerText.octet).Pairwise (· < ·))
    (hq : q ∈ ps) : q.octet < nextOctet ps := by
  rcases ps.eq_nil_or_concat with rfl | ⟨qs, p, rfl⟩
  · cases hq
  · rw [concat_eq_append] at hps hq ⊢
    unfold nextOctet
    rw [getLast?_append, getLast?_singleton]
    exact Nat.lt_succ_of_le (octet_le_last hps hq)

theorem HasClients.concat {p : PeerText} {part : String} (h : HasClients file ps)
    (hpart : part.toList = '[' :: p.part) (hoctet : p.octet = nextOctet ps) :
    HasClients (file ++ part) (ps ++ [p]) := by
  obtain ⟨⟨header, hheader, hfile⟩, hps⟩ := h
  refine ⟨⟨header, hheader, ?_⟩, ?_⟩
  · rw [String.toList_append, hfile, hpart]
    simp [PeerText.sections]
  · rw [map_append, pairwise_append]
    refine ⟨hps, pairwise_singleton _ _, ?_⟩
    intro a ha b hb
    obtain ⟨q, hq, rfl⟩ := mem_map.mp ha
    obtain rfl := mem_singleton.mp hb
    rw [hoctet]
    exact octet_lt_nextOctet hps hq

def create (file : String) : Except ErrorCode ConnectionData × String :=
  prepareWireguardConfig c (collected (inOnePiece (grep "AllowedIPs" file))) file

theorem HasClients.lastIp (h : HasClients file ps) :
    (ips (collected (inOnePiece (grep "AllowedIPs" file)))).getLast? =
      ps.getLast?.map fun p => String.ofList (stripped p.ipLine) := by
  obtain ⟨⟨header, hheader, hfile⟩, -⟩ := h
  rw [ips_inOnePiece, getLast?_ips_grep hheader hfile]

/-- The section of a new client, with the address after that of the last one. -/
theorem HasClients.configPart {c : Creation} {psk : String} (hc : c.WellFormed)
    (h : HasClients file ps) (hpsk : c.pskKeyFile = .ok psk)
    (hip : assigned c.containerConfig
      (ips (collected (inOnePiece (grep "AllowedIPs" file)))).getLast? = .ok ip) :
    ∃ p : PeerText, p.key = c.clientPubKey.toList ∧ ip.toList = p.start ++ p.digits ∧
      HasClients (file ++ configPart c.clientPubKey (QString.replace psk "\n" "") ip)
        (ps ++ [p]) := by
  obtain ⟨hoctet, start, hdotted, hplain, hstart⟩ := assigned_eq_ok hc.subnet h.lastIp hip
  have hpskPlain : '[' ∉ (QString.replace psk "\n" "").toList ∧
      '\n' ∉ (QString.replace psk "\n" "").toList := by
    unfold QString.replace
    rw [String.toList_ofList]
    exact ⟨QString.not_mem_replaceFrom (by decide) (hc.psk psk hpsk) 0,
      QString.not_mem_replaceFrom_singleton '\n' psk.toList⟩
  generalize QString.replace psk "\n" "" = shared at hpskPlain ⊢
  let p : PeerText :=
    ⟨c.clientPubKey.toList, shared.toList, start, nextOctet ps, hc.key, hpskPlain, hplain, hdotted,
      two_le_nextOctet ps, hoctet⟩
  exact ⟨p, rfl, hstart, h.concat (toList_configPart p rfl rfl hstart) rfl⟩

theorem HasClients.create {c : Creation} (hc : c.WellFormed) (h : HasClients file ps) :
    ∃ qs, HasClients (create c file).2 qs := by
  unfold WireguardConfigurator.create
  rcases prepareWireguardConfig_cases c (collected (inOnePiece (grep "AllowedIPs" file))) file with
    ⟨e, he⟩ | ⟨ip, psk, hip, hpsk, hfile⟩
  · exact ⟨ps, by rwa [he]⟩
  · rw [hfile]
    unfold Upload.stored
    split_ifs
    · obtain ⟨p, -, -, hclients⟩ := h.configPart hc hpsk hip
      exact ⟨ps ++ [p], hclients⟩
    · exact ⟨ps, h⟩

/-- A creation that would leave the range reports an error and appends nothing. -/
theorem HasClients.create_full (h : HasClients file ps) (hoctet : nextOctet ps > 254) :
    (∃ e, (WireguardConfigurator.create c file).1 = .error e) ∧
      (WireguardConfigurator.create c file).2 = file := by
  unfold WireguardConfigurator.create
  rcases prepareWireguardConfig_cases c (collected (inOnePiece (grep "AllowedIPs" file))) file with
    ⟨e, he⟩ | ⟨ip, psk, hip, -, -⟩
  · rw [he]
    exact ⟨⟨e, rfl⟩, rfl⟩
  · rw [assigned_eq_error hoctet h.lastIp] at hip
    cases hip

end Creating

end AmneziaVpn.WireguardConfigurator
