import AmneziaVpn.WireguardServerConfig
import AmneziaVpn.ListErasure
import Mathlib.Data.List.SplitBy

/-!
# The file after a revocation

The file that a revocation should leave is the file without the `[Peer]` section of the client.
-/

namespace AmneziaVpn.ClientManagementModel

open Pieces List

/-- The text before the first section, if there is any, and the sections. -/
def blocks (file : List Char) : List (List Char) :=
  file.splitBy fun a b => !(a == '\n' && b == '[')

def uncommented (line : List Char) : List Char := line.takeWhile (· ≠ '#')

def setting? (line : List Char) : Option (String × String) :=
  (QString.cutFirst '=' (uncommented line)).map fun (key, value) =>
    (QString.trimmed (String.ofList key), QString.trimmed (String.ofList value))

variable (clientId : String)

/-- A `[Peer]` section with the id as its public key. -/
def isPeerOf (block : List Char) : Bool :=
  block.head? == some '[' &&
    QString.trimmed (String.ofList (uncommented ((block.splitOn '\n').headD []))) == "[Peer]" &&
    (block.splitOn '\n').any fun line => setting? line == some ("PublicKey", clientId)

variable (file : String)

def withoutPeer : String :=
  String.ofList ((blocks file.toList).filter fun block => !isPeerOf clientId block).flatten

/-- `client.value(configKey::clientId).toString()` of a row of the table. -/
def clientIdAt (clientsTable : List QJsonValue) (row : ℕ) : String :=
  ((clientsTable.getD row .undefined).toObject.value "clientId").toString

section Blocks

variable {clientId : String} {file block : List Char} {bs : List (List Char)}

/-- All blocks but the first start with a bracket. -/
def Headed (bs : List (List Char)) : Prop := ∀ block ∈ bs.tail, block.head? = some '['

def Separated (a b : List Char) : Prop := a.getLast? = some '\n' ∧ b.head? = some '['

theorem pairwise_separated_blocks (file : List Char) : (blocks file).Pairwise Separated := by
  have hchain := isChain_getLast_head_splitBy (fun a b => !(a == '\n' && b == '[')) file
  unfold blocks
  generalize file.splitBy (fun a b => !(a == '\n' && b == '[')) = bs at hchain
  induction bs with
  | nil => exact List.Pairwise.nil
  | cons b bs ih =>
    cases bs with
    | nil => exact pairwise_singleton _ _
    | cons b' bs =>
      rw [isChain_cons_cons] at hchain
      obtain ⟨⟨ha, hb, hr⟩, hrest⟩ := hchain
      have hpairwise := ih hrest
      simp only [Bool.not_eq_eq_eq_not, Bool.not_false, Bool.and_eq_true, beq_iff_eq] at hr
      have hlast : b.getLast? = some '\n' := by rw [getLast?_eq_some_getLast ha, hr.1]
      have hhead : b'.head? = some '[' := by rw [head?_eq_some_head hb, hr.2]
      refine pairwise_cons.mpr ⟨?_, hpairwise⟩
      intro block hblock
      rcases mem_cons.mp hblock with rfl | hblock
      · exact ⟨hlast, hhead⟩
      · exact ⟨hlast, ((pairwise_cons.mp hpairwise).1 block hblock).2⟩

theorem headed_blocks (file : List Char) : Headed (blocks file) := by
  have hpairwise := pairwise_separated_blocks file
  unfold Headed
  cases hblocks : blocks file with
  | nil => simp
  | cons b bs =>
    rw [hblocks] at hpairwise
    exact fun block hblock => ((pairwise_cons.mp hpairwise).1 block hblock).2

theorem Headed.filter {p : List Char → Bool} (h : Headed bs) : Headed (bs.filter p) := by
  cases bs with
  | nil => exact h
  | cons b bs =>
    intro block hblock
    have hmem : block ∈ bs.filter p := by
      rw [filter_cons] at hblock
      split_ifs at hblock
      · exact hblock
      · exact mem_of_mem_tail hblock
    exact h block (mem_of_mem_filter hmem)

theorem pieces_append_flatten (h : ∀ b ∈ bs, b.head? = some '[') (first : List Char) :
    pieces '[' (first ++ bs.flatten) = pieces '[' first ++ bs.flatMap (pieces '[') := by
  induction bs generalizing first with
  | nil => simp
  | cons b bs ih =>
    obtain ⟨rest, rfl⟩ := head?_eq_some_iff.mp (h b mem_cons_self)
    rw [flatten_cons, cons_append, pieces_append_cons,
      ih fun b hb => h b (mem_cons_of_mem _ hb), flatMap_cons, pieces_cons_self]

theorem pieces_flatten (h : Headed bs) : pieces '[' bs.flatten = bs.flatMap (pieces '[') := by
  cases bs with
  | nil => rfl
  | cons b bs => exact pieces_append_flatten h b

theorem mem_of_mem_trimmed {c : Char} {s : String} (h : c ∈ (QString.trimmed s).toList) :
    c ∈ s.toList := by
  unfold QString.trimmed at h
  rw [String.toList_ofList, mem_reverse] at h
  exact (dropWhile_suffix _).subset (mem_reverse.mp ((dropWhile_suffix _).subset h))

theorem pieces_ne_nil_of_isPeerOf (h : isPeerOf clientId block = true) : pieces '[' block ≠ [] := by
  unfold isPeerOf at h
  simp only [Bool.and_eq_true, beq_iff_eq] at h
  have hP : 'P' ∈ (QString.trimmed
      (String.ofList (uncommented ((block.splitOn '\n').headD [])))).toList := by
    rw [h.1.2]
    decide
  have hline := mem_of_mem_trimmed hP
  rw [String.toList_ofList] at hline
  have hline := ( takeWhile_prefix _).subset hline
  cases hlines : block.splitOn '\n' with
  | nil => exact absurd hlines (splitOn_ne_nil _ _)
  | cons line lines =>
    rw [hlines, headD_cons] at hline
    have hmem : line ∈ block.splitOn '\n' := hlines ▸ mem_cons_self
    have hblock : 'P' ∈ block :=
      ((exists_infix_splitOn_iff (not_mem_of_mem_splitOn hmem)).mpr
        ⟨line, hmem, infix_rfl⟩).subset hline
    obtain ⟨left, right, hsplit⟩ := append_of_mem hblock
    have hinside : ['P'] <:+: block := ⟨left, right, by rw [hsplit, append_assoc]; rfl⟩
    obtain ⟨piece, hpiece, -⟩ :=
      (exists_infix_pieces_iff (c := '[') (by decide) (by decide)).mp hinside
    exact ne_nil_of_mem hpiece

theorem blocks_filter_flatten (p : List Char → Bool) (file : List Char) :
    blocks ((blocks file).filter p).flatten = (blocks file).filter p := by
  apply splitBy_flatten
  · intro hnil
    exact nil_notMem_splitBy _ file (mem_of_mem_filter hnil)
  · intro block hblock
    exact isChain_of_mem_splitBy (mem_of_mem_filter hblock)
  · have hpairwise := (pairwise_separated_blocks file).filter p
    apply hpairwise.isChain.imp
    rintro a b ⟨ha, hb⟩
    obtain ⟨start, rfl⟩ := getLast?_eq_some_iff.mp ha
    obtain ⟨rest, rfl⟩ := head?_eq_some_iff.mp hb
    exact ⟨by simp, by simp, by simp⟩

end Blocks

/-- A bracket at the start and a piece after each bracket, or nothing but one bracket. -/
def Bracketed (l : List Char) : Prop :=
  l = ['['] ∨ l.head? = some '[' ∧ l.getLast? ≠ some '[' ∧ ¬ ['[', '['] <:+: l

def keptPieces (file : List Char) : List (List Char) :=
  ((blocks file).filter fun block => !isPeerOf clientId block).flatMap (pieces '[')

theorem pieces_eq_flatMap_blocks (file : List Char) :
    pieces '[' file = (blocks file).flatMap (pieces '[') := by
  have h := pieces_flatten (headed_blocks file)
  rwa [blocks, flatten_splitBy] at h

theorem newWireGuardConfig_eq_iff_pieces :
    newWireGuardConfig clientId file = withoutPeer clientId file ↔
      Bracketed (withoutPeer clientId file).toList ∧
        ((pieces '[' file.toList).eraseP fun piece => clientId.toList <:+: piece) =
          keptPieces clientId file.toList := by
  have hkept : pieces '[' (withoutPeer clientId file).toList = keptPieces clientId file.toList := by
    unfold withoutPeer
    rw [String.toList_ofList, pieces_flatten (headed_blocks file.toList).filter]
    rfl
  have hclean : ∀ p ∈ (pieces '[' file.toList).eraseP fun piece => clientId.toList <:+: piece,
      '[' ∉ p ∧ p ≠ [] := by
    intro p hp
    have hp := mem_of_mem_eraseP hp
    exact ⟨not_mem_of_mem_pieces hp, ne_nil_of_mem_pieces hp⟩
  have hbracketed : Bracketed (withoutPeer clientId file).toList ↔
      glue '[' (pieces '[' (withoutPeer clientId file).toList) =
        (withoutPeer clientId file).toList := glue_pieces_iff.symm
  rw [hbracketed, ← hkept, ← String.toList_inj, toList_newWireGuardConfig]
  constructor
  · intro h
    have hpieces := congrArg (pieces '[') h
    rw [pieces_glue hclean] at hpieces
    exact ⟨by rw [← hpieces, h], hpieces⟩
  · rintro ⟨hglue, hpieces⟩
    rw [hpieces, hglue]

/-- The section of the client is what the revocation removes. -/
def Removable : Prop :=
  Bracketed (withoutPeer clientId file).toList ∧
    (((∀ block ∈ blocks file.toList, isPeerOf clientId block = false) ∧
        ∀ piece ∈ pieces '[' file.toList, ¬ clientId.toList <:+: piece) ∨
      ∃ before block after piece, blocks file.toList = before ++ block :: after ∧
        isPeerOf clientId block = true ∧ (∀ b ∈ before ++ after, isPeerOf clientId b = false) ∧
        pieces '[' block = [piece] ∧ clientId.toList <:+: piece ∧
        ∃ l k, before.flatMap (pieces '[') = l ++ List.replicate k piece ∧
          ∀ p ∈ l, ¬ clientId.toList <:+: p)

theorem newWireGuardConfig_eq_iff :
    newWireGuardConfig clientId file = withoutPeer clientId file ↔ Removable clientId file := by
  have hne : ∀ block, isPeerOf clientId block = true → pieces '[' block ≠ [] := fun block =>
    pieces_ne_nil_of_isPeerOf
  unfold Removable
  rw [newWireGuardConfig_eq_iff_pieces, pieces_eq_flatMap_blocks, keptPieces,
    ListErasure.eraseP_flatMap_eq_iff hne]
  simp only [decide_eq_true_iff, decide_eq_false_iff_not]

/-- When the uploaded file is the file without the section of the client of a row. -/
theorem uploaded_config_iff (clientsTable : List QJsonValue) (row : ℕ) (file : String) :
    let clientId := clientIdAt clientsTable row
    newWireGuardConfig clientId file = withoutPeer clientId file ↔
      Bracketed (withoutPeer clientId file).toList ∧
        (((∀ block ∈ blocks file.toList, isPeerOf clientId block = false) ∧
            ∀ piece ∈ pieces '[' file.toList, ¬ clientId.toList <:+: piece) ∨
          ∃ before block after piece, blocks file.toList = before ++ block :: after ∧
            isPeerOf clientId block = true ∧ (∀ b ∈ before ++ after, isPeerOf clientId b = false) ∧
            pieces '[' block = [piece] ∧ clientId.toList <:+: piece ∧
            ∃ l k, before.flatMap (pieces '[') = l ++ List.replicate k piece ∧
              ∀ p ∈ l, ¬ clientId.toList <:+: p) := by
  exact newWireGuardConfig_eq_iff (clientIdAt clientsTable row) file

/-- The section of the interface is removed, and the client stays. -/
theorem revoked_interface_section :
    let file := "[Interface]\n# replaces a2V5\n[Peer]\nPublicKey = a2V5\n"
    let clientsTable : List QJsonValue := [.object [("clientId", .string "a2V5")]]
    newWireGuardConfig (clientIdAt clientsTable 0) file = "[Peer]\nPublicKey = a2V5\n" ∧
      withoutPeer (clientIdAt clientsTable 0) file = "[Interface]\n# replaces a2V5\n" := by
  decide +kernel

end AmneziaVpn.ClientManagementModel
