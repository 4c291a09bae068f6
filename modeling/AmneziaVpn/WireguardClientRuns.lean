import AmneziaVpn.WireguardClients

/-!
# Creating and revoking clients one after the other

A revocation removes at most one of the parts between brackets, whichever it is, and keeps the order
of the others.
-/

namespace AmneziaVpn.WireguardConfigurator

open Pieces List
open ServerController ClientManagementModel PeerText

section Revoking

variable {file : String} {ps : List PeerText} {header : List Char}

theorem part_ne_nil (p : PeerText) : p.part ≠ [] := by
  unfold part
  exact append_ne_nil_of_right_ne_nil _ (cons_ne_nil _ _)

theorem pieces_sections (header : List Char) (ps : List PeerText) :
    pieces '[' (header ++ sections ps) = pieces '[' header ++ ps.map part := by
  induction ps generalizing header with
  | nil => simp [PeerText.sections]
  | cons p ps ih =>
    have htext : header ++ sections (p :: ps) = header ++ '[' :: (p.part ++ sections ps) := by
      simp [PeerText.sections]
    rw [htext, pieces_append_cons, ih, pieces_of_not_mem bracket_not_mem_part (part_ne_nil p),
      singleton_append, map_cons]

theorem glue_sections (ps : List PeerText) {hs : List (List Char)}
    (hclean : ∀ h ∈ hs, '[' ∉ h ∧ h ≠ [])
    (hheader : ∀ h ∈ hs, ¬ "AllowedIPs".toList <:+: h) :
    ∃ header, ¬ "AllowedIPs".toList <:+: header ∧
      glue '[' (hs ++ ps.map part) = header ++ sections ps := by
  by_cases hnil : hs ++ ps.map part = []
  · obtain ⟨rfl, hps⟩ := append_eq_nil_iff.mp hnil
    obtain rfl := map_eq_nil_iff.mp hps
    exact ⟨['['], by decide, rfl⟩
  · refine ⟨hs.flatMap ('[' :: ·), ?_, ?_⟩
    · cases hs with
      | nil => decide
      | cons h hs =>
        rw [← glue_of_ne_nil (cons_ne_nil h hs),
          exists_infix_pieces_iff (c := '[') (by decide) (by decide), pieces_glue hclean]
        rintro ⟨h', hh', hinside⟩
        exact hheader h' hh' hinside
    · rw [glue_of_ne_nil hnil, flatMap_append, flatMap_map]
      rfl

theorem HasClients.newWireGuardConfig (h : HasClients file ps) (clientId : String) :
    ∃ qs, HasClients (newWireGuardConfig clientId file) qs ∧
      ∀ p ∈ ps, ¬ clientId.toList <:+: p.part → p ∈ qs := by
  obtain ⟨⟨header, hheader, hfile⟩, hps⟩ := h
  have hclean : ∀ h ∈ pieces '[' header, '[' ∉ h ∧ h ≠ [] := fun h hh =>
    ⟨not_mem_of_mem_pieces hh, ne_nil_of_mem_pieces hh⟩
  have hword : ∀ h ∈ pieces '[' header, ¬ "AllowedIPs".toList <:+: h := fun h hh hinside =>
    hheader (hinside.trans (infix_of_mem_pieces hh))
  have herase : ∃ (hs : List (List Char)) (qs : List PeerText),
      hs.Sublist (pieces '[' header) ∧ qs.Sublist ps ∧
      (∀ p ∈ ps, ¬ clientId.toList <:+: p.part → p ∈ qs) ∧
      ((pieces '[' header ++ ps.map part).eraseP fun piece => clientId.toList <:+: piece) =
        hs ++ qs.map part := by
    rw [eraseP_append]
    split_ifs
    · exact ⟨_, ps, eraseP_sublist, List.Sublist.refl ps, fun p hp _ => hp, rfl⟩
    · rw [eraseP_map]
      refine ⟨_, _, List.Sublist.refl _, eraseP_sublist, fun p hp hid => ?_, rfl⟩
      exact (mem_eraseP_of_neg (by simpa using hid)).mpr hp
  obtain ⟨hs, qs, hhs, hqs, hleft, heq⟩ := herase
  obtain ⟨header', hheader', hglue⟩ := glue_sections qs
    (fun h hh => hclean h (hhs.subset hh)) (fun h hh => hword h (hhs.subset hh))
  refine ⟨qs, ⟨⟨header', hheader', ?_⟩, hps.sublist (hqs.map _)⟩, hleft⟩
  rw [toList_newWireGuardConfig, hfile, pieces_sections, heq, hglue]

end Revoking

/-- A revocation: the client, whether the file could be read, and what the upload does. -/
structure Revocation where
  clientId : String
  readError : Option ErrorCode
  upload : Upload

def Revocation.run (r : Revocation) (file : String) : String :=
  match r.readError with
  | some _ => file
  | none => r.upload.stored (newWireGuardConfig r.clientId file) file

inductive Operation
  | create (c : Creation)
  | revoke (r : Revocation)

namespace Operation

def WellFormed : Operation → Prop
  | create c => c.WellFormed
  | revoke _ => True

def run (file : String) : Operation → String
  | create c => (WireguardConfigurator.create c file).2
  | revoke r => r.run file

theorem hasClients_run {op : Operation} {file : String} {ps : List PeerText} (hop : op.WellFormed)
    (h : HasClients file ps) : ∃ qs, HasClients (run file op) qs := by
  cases op with
  | create c => exact h.create hop
  | revoke r =>
    change ∃ qs, HasClients (r.run file) qs
    unfold Revocation.run Upload.stored
    split
    · exact ⟨ps, h⟩
    · split_ifs
      · obtain ⟨qs, hqs, -⟩ := h.newWireGuardConfig r.clientId
        exact ⟨qs, hqs⟩
      · exact ⟨ps, h⟩

end Operation

theorem hasClients_of_run {ops : List Operation} {file : String} {ps : List PeerText}
    (hops : ∀ op ∈ ops, op.WellFormed) (h : HasClients file ps) :
    ∃ qs, HasClients (ops.foldl Operation.run file) qs := by
  induction ops generalizing file ps with
  | nil => exact ⟨ps, h⟩
  | cons op ops ih =>
    obtain ⟨qs, hqs⟩ := Operation.hasClients_run (hops op mem_cons_self) h
    exact ih (fun op' hop' => hops op' (mem_cons_of_mem op hop')) hqs

def WithoutPeers (file : String) : Prop := QString.contains file "AllowedIPs" = false

/-- The file that `configure_container.sh` writes, with the settings of the interface. -/
def interfaceConfig (settings : List (String × String)) : String :=
  "[Interface]\n" ++ String.join (settings.map fun (key, value) => key ++ " = " ++ value ++ "\n")

theorem withoutPeers_interfaceConfig {settings : List (String × String)}
    (h : ∀ setting ∈ settings, WithoutPeers setting.1 ∧ WithoutPeers setting.2) :
    WithoutPeers (interfaceConfig settings) := by
  have hlines : ¬ "AllowedIPs".toList <:+:
      (String.join (settings.map fun (key, value) => key ++ " = " ++ value ++ "\n")).toList := by
    induction settings with
    | nil => decide
    | cons setting settings ih =>
      obtain ⟨hkey, hvalue⟩ := h setting mem_cons_self
      unfold WithoutPeers at hkey hvalue
      rw [Bool.eq_false_iff, Ne, QString.contains_iff] at hkey hvalue
      have htext : ∀ rest : String,
          (setting.1 ++ " = " ++ setting.2 ++ "\n" ++ rest).toList =
            setting.1.toList ++ ' ' :: (['='] ++ ' ' :: (setting.2.toList ++ '\n' ::
              rest.toList)) := by
        intro rest
        simp
      rw [map_cons, String.join_cons, htext, infix_append_cons_iff (by decide),
        infix_append_cons_iff (by decide), infix_append_cons_iff (by decide)]
      rintro (hinside | hinside | hinside | hinside)
      · exact hkey hinside
      · exact absurd hinside (by decide)
      · exact hvalue hinside
      · exact ih (fun setting hs => h setting (mem_cons_of_mem _ hs)) hinside
  have htext : ∀ rest : String,
      ("[Interface]\n" ++ rest).toList = "[Interface]".toList ++ '\n' :: rest.toList := by
    intro rest
    simp
  unfold WithoutPeers interfaceConfig
  rw [Bool.eq_false_iff, Ne, QString.contains_iff, htext, infix_append_cons_iff (by decide)]
  rintro (hinside | hinside)
  · exact absurd hinside (by decide)
  · exact hlines hinside

theorem HasClients.of_withoutPeers {file : String} (h : WithoutPeers file) :
    HasClients file [] := by
  refine ⟨⟨file.toList, ?_, by simp [PeerText.sections]⟩, List.Pairwise.nil⟩
  rw [← QString.contains_iff, h]
  exact Bool.false_ne_true

/-- Client numbers increase along the file and lie between 2 and 254. -/
theorem client_octets_of_run (start : String) (hstart : WithoutPeers start) (ops : List Operation)
    (hops : ∀ op ∈ ops, op.WellFormed) :
    let file := ops.foldl Operation.run start
    (clientOctets file).Pairwise (· < ·) ∧ (clientOctets file).Nodup ∧
      (∀ octet ∈ clientOctets file, 2 ≤ octet ∧ octet ≤ 254) ∧
      ∀ c octet, (clientOctets file).getLast? = some octet → octet + 1 > 254 →
        (∃ e, (create c file).1 = .error e) ∧ (create c file).2 = file := by
  intro file
  obtain ⟨ps, hps⟩ := hasClients_of_run hops (HasClients.of_withoutPeers hstart)
  have hclients := hps
  obtain ⟨⟨header, hheader, hfile⟩, hincreasing⟩ := hps
  have hoctets : clientOctets file = ps.map fun p => (p.octet : ℤ) :=
    clientOctets_of_sections hheader hfile
  have hpairwise : (clientOctets file).Pairwise (· < ·) := by
    rw [hoctets, pairwise_map]
    rw [pairwise_map] at hincreasing
    exact hincreasing.imp Int.ofNat_lt.mpr
  refine ⟨hpairwise, hpairwise.imp ne_of_lt, ?_, ?_⟩
  · rw [hoctets]
    intro octet hoctet
    obtain ⟨p, -, rfl⟩ := mem_map.mp hoctet
    exact ⟨Int.ofNat_le.mpr p.octet_ge, Int.ofNat_le.mpr p.octet_le⟩
  · intro c octet hlast hrange
    apply hclients.create_full c
    rw [hoctets, getLast?_map] at hlast
    obtain ⟨p, hp, rfl⟩ := Option.map_eq_some_iff.mp hlast
    unfold nextOctet
    rw [hp, Option.map_some, Option.getD_some]
    omega

def plainCreation (clientPubKey : String) : Creation where
  isAwg := false
  hostName := "example.org"
  containerConfig := []
  clientPrivKey := "c2VjcmV0"
  clientPubKey := clientPubKey
  scriptError := none
  serverPubKeyFile := .ok "c2VydmVy\n"
  pskKeyFile := .ok "c2hhcmVk\n"
  upload := ⟨true, none⟩
  syncError := none

def plainRevocation (clientId : String) : Revocation := ⟨clientId, none, ⟨true, none⟩⟩

theorem wellFormed_plainCreation {key : String} (hkey : Plain key) :
    (plainCreation key).WellFormed where
  key := hkey
  psk text h := by
    obtain rfl := Except.ok.inj h
    decide
  subnet := by
    change Plain defaultSubnetAddress
    exact ⟨by decide, by decide⟩

theorem client_octets_of_run_revoked :
    let start := interfaceConfig [("ListenPort", "51820")]
    clientOctets (create (plainCreation "Zmlyc3Q") start).2 = [2] ∧
      (clientOctets ([Operation.create (plainCreation "Zmlyc3Q"),
        .create (plainCreation "c2Vjb25k"), .revoke (plainRevocation "Zmlyc3Q")].foldl
          Operation.run start)).Pairwise (· < ·) := by
  refine ⟨by decide +kernel, (client_octets_of_run _ ?_ _ ?_).1⟩
  · apply withoutPeers_interfaceConfig
    intro setting hsetting
    rw [mem_singleton.mp hsetting]
    exact ⟨rfl, rfl⟩
  · intro op hop
    simp only [mem_cons, not_mem_nil, or_false] at hop
    rcases hop with rfl | rfl | rfl
    · exact wellFormed_plainCreation ⟨by decide, by decide⟩
    · exact wellFormed_plainCreation ⟨by decide, by decide⟩
    · trivial

end AmneziaVpn.WireguardConfigurator
