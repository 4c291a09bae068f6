import Mathlib.Data.List.TakeWhile
import AmneziaVpn.QtBytes
import AmneziaVpn.SshReads

/-!
# Files of a container

A file is read as a hexadecimal dump, which arrives in pieces. What was collected of it is decoded.
-/

namespace AmneziaVpn

open List QByteArray

namespace QString

theorem toUtf8_of_ascii {bytes : QByteArray} (h : ∀ b ∈ bytes, b.toNat < 128) :
    toUtf8 (String.ofList (bytes.map fun b => Char.ofNat b.toNat)) = bytes := by
  induction bytes with
  | nil => rfl
  | cons b bytes ih =>
    obtain ⟨hb, hbytes⟩ := forall_mem_cons.mp h
    have hvalid : b.toNat.isValidChar := Or.inl (by omega)
    have hval : (Char.ofNat b.toNat).val.toNat = b.toNat := by
      rw [Char.ofNat, dif_pos hvalid]
      rfl
    have hsize : (Char.ofNat b.toNat).utf8Size = 1 := by
      rw [Char.utf8Size_eq_one_iff, UInt32.le_iff_toNat_le, hval]
      exact Nat.le_of_lt_succ hb
    rw [map_cons, toUtf8_cons hsize, ih hbytes]
    congr 1
    apply UInt8.toNat_inj.mp
    rw [UInt32.toNat_toUInt8, hval]
    omega

theorem toUtf8_fromUtf8 {bytes : QByteArray} (h : ∀ b ∈ bytes, b.toNat < 128)
    (replacement : QByteArray → String) : toUtf8 (fromUtf8 replacement bytes) = bytes := by
  conv_lhs => rw [← toUtf8_of_ascii h]
  rw [fromUtf8_toUtf8, toUtf8_of_ascii h]

theorem toUtf8_join (texts : List String) : toUtf8 (String.join texts) = texts.flatMap toUtf8 := by
  induction texts with
  | nil => rfl
  | cons text texts ih => rw [String.join_cons, toUtf8_append, ih, flatMap_cons]

end QString

namespace ServerController

/-- `xxd -p` from a column on: a line has 30 bytes. -/
def xxdFrom (column : ℕ) : QByteArray → QByteArray
  | [] => if column = 0 then [] else [10]
  | b :: bytes =>
      (b.toNat / 16).digitChar.val.toUInt8 :: (b.toNat % 16).digitChar.val.toUInt8 ::
        if column = 29 then 10 :: xxdFrom 0 bytes else xxdFrom (column + 1) bytes

def xxd (file : QByteArray) : QByteArray := xxdFrom 0 file

/-- What is returned after these reads of the output. -/
def getTextFileFromContainer (replacement : QByteArray → String) (reads : List QByteArray) :
    QByteArray :=
  fromHex (QString.toUtf8 (String.join (reads.map (readText replacement))))

theorem filterMap_xxdFrom (column : ℕ) (file : QByteArray) :
    (xxdFrom column file).filterMap hexValue? = digits file := by
  have hnewline : hexValue? 10 = none := rfl
  unfold digits
  induction file generalizing column with
  | nil =>
    rw [xxdFrom]
    split_ifs <;> rfl
  | cons b file ih =>
    have hb := b.toNat_lt
    rw [xxdFrom, filterMap_cons_some (hexValue?_digitChar (by omega)),
      filterMap_cons_some (hexValue?_digitChar (by omega)), flatMap_cons]
    split_ifs
    · rw [filterMap_cons_none hnewline, ih]
      rfl
    · rw [ih]
      rfl

theorem ascii_xxdFrom (column : ℕ) (file : QByteArray) :
    ∀ b ∈ xxdFrom column file, b ≠ 0 ∧ b.toNat < 128 := by
  have hdigit : ∀ n < 16, n.digitChar.val.toUInt8 ≠ 0 ∧ n.digitChar.val.toUInt8.toNat < 128 := by
    decide
  induction file generalizing column with
  | nil =>
    rw [xxdFrom]
    split_ifs <;> simp
  | cons b file ih =>
    have hb := b.toNat_lt
    rw [xxdFrom, forall_mem_cons, forall_mem_cons]
    refine ⟨hdigit _ (by omega), hdigit _ (by omega), ?_⟩
    split_ifs
    · rw [forall_mem_cons]
      exact ⟨by decide, ih 0⟩
    · exact ih (column + 1)

theorem toUtf8_readText {read : QByteArray} (h : ∀ b ∈ read, b ≠ 0 ∧ b.toNat < 128)
    (replacement : QByteArray → String) : QString.toUtf8 (readText replacement read) = read := by
  have hread : read.takeWhile (· ≠ 0) = read :=
    takeWhile_eq_self_iff.mpr fun b hb => decide_eq_true (h b hb).1
  rw [readText, hread, QString.toUtf8_fromUtf8 fun b hb => (h b hb).2]

/-- However the dump is cut into reads, the bytes of the file are returned. -/
theorem getTextFileFromContainer_eq (replacement : QByteArray → String) {file : QByteArray}
    {reads : List QByteArray} (h : IsReading (xxd file) reads) :
    getTextFileFromContainer replacement reads = file := by
  have htext : ∀ read ∈ reads, QString.toUtf8 (readText replacement read) = read := by
    intro read hread
    apply toUtf8_readText
    intro b hb
    apply ascii_xxdFrom 0 file
    rw [← xxd, ← h.flatten]
    exact mem_flatten_of_mem hread hb
  have hall : reads.flatMap (fun read => QString.toUtf8 (readText replacement read)) = xxd file := by
    rw [← h.flatten, ← flatMap_id]
    exact flatMap_congr htext
  rw [getTextFileFromContainer, QString.toUtf8_join, flatMap_map, hall]
  exact fromHex_of_digits (filterMap_xxdFrom 0 file)

/-- A line end in the middle of the file, and every byte of the dump in a read of its own. -/
theorem getTextFileFromContainer_bytewise :
    getTextFileFromContainer (fun _ => "") ((xxd (List.replicate 31 0xfe)).map fun b => [b]) =
      List.replicate 31 0xfe :=
  getTextFileFromContainer_eq _ (isReading_bytes _)

end ServerController

end AmneziaVpn
