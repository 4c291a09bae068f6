import Mathlib.Data.List.AList
import AmneziaVpn.ByteOrder
import AmneziaVpn.QtRuntime

/-!
# Scanning a series of QR codes

The codes of a series may be scanned in any order and more than once. As long as a chunk is missing
the scanner has stored the chunks of the codes it has seen and has tried nothing.
-/

namespace AmneziaVpn

open ByteStream

def qrMagicCode : ℕ := 1984

namespace ExportController

def chunkSize : ℕ := 850

variable (data : QByteArray)

/-- `std::ceil(data.size() / k)`, before it is cut to eight bits. -/
def chunksCount : ℕ := (data.length + (chunkSize - 1)) / chunkSize

/-- `data.mid(i, k)` for the position of a chunk. -/
def chunk (i : ℕ) : QByteArray := (data.drop (i * chunkSize)).take chunkSize

def qrCode (i : ℕ) : String :=
  Utils.toBase64Url (writeNat 2 qrMagicCode ++ writeNat 1 (chunksCount data % 256) ++
    writeNat 1 (i % 256) ++ writeBytes (chunk data i))

def generateQrCodeImageSeries : List String :=
  (List.range (chunksCount data)).map (qrCode data)

end ExportController

structure QrScanner where
  m_config : QJsonObject
  m_qrCodeChunks : AList fun _ : ℕ => QByteArray
  m_isQrCodeProcessed : Bool
  m_totalQrCodeChunksCount : ℕ
  m_receivedQrCodeChunksCount : ℕ
  attempts : List QByteArray

namespace QrScanner

def started (config : QJsonObject) : QrScanner := ⟨config, ∅, true, 0, 0, []⟩

variable (qt : QtRuntime)

variable (c : QrScanner)

def extractConfigFromQr (data : QByteArray) : Bool × QrScanner :=
  let c := { c with attempts := c.attempts ++ [data] }
  let dataObj := qt.objectFromJson data
  if !dataObj.isEmpty then (true, { c with m_config := dataObj })
  else
    let ba_uncompressed := qt.qUncompress data
    if !ba_uncompressed.isEmpty then
      (true, { c with m_config := qt.objectFromJson ba_uncompressed })
    else (false, c)

def assembled : QByteArray :=
  (List.range c.m_totalQrCodeChunksCount).flatMap fun i => (c.m_qrCodeChunks.lookup i).getD []

/-- Store a chunk. The chunks of a series of another length are dropped first. -/
def store (chunksCount chunkId : ℕ) (bytes : QByteArray) : QrScanner :=
  let chunks := if c.m_totalQrCodeChunksCount ≠ chunksCount then ∅ else c.m_qrCodeChunks
  let chunks := chunks.insert chunkId bytes
  { c with
    m_totalQrCodeChunksCount := chunksCount
    m_qrCodeChunks := chunks
    m_receivedQrCodeChunksCount := chunks.keys.length }

def finish : Bool × QrScanner :=
  let (ok, c) := extractConfigFromQr qt c c.assembled
  if ok then (true, { c with m_isQrCodeProcessed := false })
  else
    (false, { c with
      m_qrCodeChunks := ∅
      m_totalQrCodeChunksCount := 0
      m_receivedQrCodeChunksCount := 0 })

def parseQrCodeChunk (code : String) : Bool × QrScanner :=
  if !c.m_isQrCodeProcessed then (false, c)
  else
    let ba := Utils.fromBase64Url code
    let (magic, s) := readNat 2 ba
    if magic = qrMagicCode then
      let (chunksCount, s) := readNat 1 s
      let (chunkId, s) := readNat 1 s
      let c := c.store chunksCount chunkId (readBytes s).1
      if c.m_qrCodeChunks.keys.length = c.m_totalQrCodeChunksCount then finish qt c else (false, c)
    else
      let (ok, c) := extractConfigFromQr qt c ba
      if ok then (true, { c with m_isQrCodeProcessed := false }) else (false, c)

def scanAll (codes : List String) : QrScanner :=
  codes.foldl (fun c code => (c.parseQrCodeChunk qt code).2) c

end QrScanner

open ByteStream ExportController List

namespace ExportController

variable {data : QByteArray}

theorem length_series (data : QByteArray) :
    (generateQrCodeImageSeries data).length = chunksCount data := by
  simp [generateQrCodeImageSeries]

theorem mem_series {code : String} :
    code ∈ generateQrCodeImageSeries data ↔ ∃ i < chunksCount data, qrCode data i = code := by
  simp [generateQrCodeImageSeries]

theorem flatMap_chunk_take (data : QByteArray) (n : ℕ) :
    (List.range n).flatMap (chunk data) = data.take (n * chunkSize) := by
  induction n with
  | zero => simp
  | succ n ih =>
    rw [range_succ, flatMap_append, ih, flatMap_singleton, chunk, add_mul, one_mul,
      take_add]

theorem flatMap_chunk (data : QByteArray) :
    (List.range (chunksCount data)).flatMap (chunk data) = data := by
  rw [flatMap_chunk_take]
  apply take_of_length_le
  unfold chunksCount chunkSize
  omega

theorem readNat_qrCode (data : QByteArray) (i : ℕ) :
    readNat 2 (Utils.fromBase64Url (qrCode data i)) =
      (qrMagicCode, writeNat 1 (chunksCount data % 256) ++
        (writeNat 1 (i % 256) ++ writeBytes (chunk data i))) := by
  rw [qrCode, Utils.fromBase64Url_toBase64Url, append_assoc, append_assoc,
    readNat_writeNat (by decide)]

theorem readNat_byte {v : ℕ} (h : v ≤ 255) (rest : QByteArray) :
    readNat 1 (writeNat 1 (v % 256) ++ rest) = (v, rest) := by
  rw [Nat.mod_eq_of_lt (by omega), readNat_writeNat (by omega)]

theorem readBytes_chunk (data : QByteArray) (i : ℕ) :
    (readBytes (writeBytes (chunk data i))).1 = chunk data i := by
  have hlength : (chunk data i).length ≤ chunkSize := length_take_le _ _
  unfold chunkSize at hlength
  rw [← append_nil (writeBytes _), readBytes_writeBytes (by omega)]

theorem qrCode_injective (hcount : chunksCount data ≤ 255) {i j : ℕ} (hi : i < chunksCount data)
    (hj : j < chunksCount data) (h : qrCode data i = qrCode data j) : i = j := by
  have hstream := readNat_qrCode data i
  rw [h, readNat_qrCode data j, Prod.mk.injEq, append_cancel_left_eq] at hstream
  have hread := congrArg (readNat 1) hstream.2
  rw [readNat_byte (by omega), readNat_byte (by omega), Prod.mk.injEq] at hread
  exact hread.1.symm

end ExportController

namespace QrScanner

variable {qt : QtRuntime} {data : QByteArray} {i : ℕ} {c : QrScanner}

theorem parseQrCodeChunk_qrCode (hcount : chunksCount data ≤ 255) (hi : i < chunksCount data)
    (hprocessed : c.m_isQrCodeProcessed = true) :
    c.parseQrCodeChunk qt (qrCode data i) =
      if (c.store (chunksCount data) i (chunk data i)).m_qrCodeChunks.keys.length =
          chunksCount data
      then finish qt (c.store (chunksCount data) i (chunk data i))
      else (false, c.store (chunksCount data) i (chunk data i)) := by
  unfold parseQrCodeChunk
  simp only [hprocessed, readNat_qrCode, readNat_byte hcount, readNat_byte (hi.le.trans hcount),
    readBytes_chunk, Bool.not_true, Bool.false_eq_true, if_false, if_true]
  rfl

structure Collecting (data : QByteArray) (seen : List ℕ) (c : QrScanner) : Prop where
  processed : c.m_isQrCodeProcessed = true
  attempts : c.attempts = []
  total : c.m_totalQrCodeChunksCount = chunksCount data ∨ c.m_qrCodeChunks = ∅
  lookup : ∀ i, c.m_qrCodeChunks.lookup i = if i ∈ seen then some (chunk data i) else none

theorem collecting_started (data : QByteArray) (config : QJsonObject) :
    Collecting data [] (started config) :=
  ⟨rfl, rfl, Or.inr rfl, fun _ => rfl⟩

variable {seen : List ℕ}

theorem Collecting.lookup_store (h : Collecting data seen c) (i j : ℕ) :
    (c.store (chunksCount data) i (chunk data i)).m_qrCodeChunks.lookup j =
      if j ∈ i :: seen then some (chunk data j) else none := by
  have hkept : (if c.m_totalQrCodeChunksCount ≠ chunksCount data then ∅ else c.m_qrCodeChunks) =
      c.m_qrCodeChunks := by
    rcases h.total with htotal | hempty
    · exact if_neg (not_not_intro htotal)
    · rw [hempty, ite_self]
  unfold store
  dsimp only
  rw [hkept]
  by_cases hj : j = i
  · rw [hj, AList.lookup_insert, if_pos mem_cons_self]
  · rw [AList.lookup_insert_ne hj, h.lookup]
    simp [hj]

theorem mem_keys_iff {chunks : AList fun _ : ℕ => QByteArray}
    (h : ∀ i, chunks.lookup i = if i ∈ seen then some (chunk data i) else none) (i : ℕ) :
    i ∈ chunks.keys ↔ i ∈ seen := by
  rw [← AList.mem_keys, ← AList.lookup_isSome, h]
  split_ifs with hi
  · simp [hi]
  · simp [hi]

/-- There are as many chunks as numbers if and only if every number was seen. -/
theorem length_keys_eq_iff {n : ℕ} (hseen : ∀ i ∈ seen, i < n)
    {chunks : AList fun _ : ℕ => QByteArray}
    (h : ∀ i, chunks.lookup i = if i ∈ seen then some (chunk data i) else none) :
    chunks.keys.length = n ↔ ∀ i < n, i ∈ seen := by
  have hsubset : chunks.keys.toFinset ⊆ Finset.range n := by
    intro i hi
    exact Finset.mem_range.mpr (hseen i ((mem_keys_iff h i).mp (mem_toFinset.mp hi)))
  rw [← toFinset_card_of_nodup chunks.keys_nodup]
  constructor
  · intro hcard i hi
    have hall := Finset.eq_of_subset_of_card_le hsubset (by rw [hcard, Finset.card_range])
    exact (mem_keys_iff h i).mp (mem_toFinset.mp (hall ▸ Finset.mem_range.mpr hi))
  · intro hall
    have heq : chunks.keys.toFinset = Finset.range n := by
      apply hsubset.antisymm
      intro i hi
      exact mem_toFinset.mpr ((mem_keys_iff h i).mpr (hall i (Finset.mem_range.mp hi)))
    rw [heq, Finset.card_range]

theorem attempts_finish (qt : QtRuntime) (c : QrScanner) :
    (finish qt c).2.attempts = c.attempts ++ [c.assembled] := by
  unfold finish extractConfigFromQr
  dsimp only
  split_ifs <;> rfl

theorem Collecting.assembled_store (h : Collecting data seen c)
    (hall : ∀ j < chunksCount data, j ∈ i :: seen) :
    (c.store (chunksCount data) i (chunk data i)).assembled = data := by
  have hchunks : ∀ j ∈ List.range (chunksCount data),
      ((c.store (chunksCount data) i (chunk data i)).m_qrCodeChunks.lookup j).getD [] =
        chunk data j := by
    intro j hj
    rw [h.lookup_store, if_pos (hall j (mem_range.mp hj))]
    rfl
  exact (flatMap_congr hchunks).trans (flatMap_chunk data)

section Step

variable {seen : List ℕ} (h : Collecting data seen c) (hcount : chunksCount data ≤ 255)
  (hseen : ∀ j ∈ i :: seen, j < chunksCount data)
include h hcount hseen

theorem Collecting.step_incomplete (hmissing : ¬ ∀ j < chunksCount data, j ∈ i :: seen) :
    Collecting data (i :: seen) (c.parseQrCodeChunk qt (qrCode data i)).2 := by
  rw [parseQrCodeChunk_qrCode hcount (hseen i mem_cons_self) h.processed,
    if_neg fun hlength => hmissing ((length_keys_eq_iff hseen (h.lookup_store i)).mp hlength)]
  exact ⟨h.processed, h.attempts, Or.inl rfl, h.lookup_store i⟩

theorem Collecting.step_complete (hall : ∀ j < chunksCount data, j ∈ i :: seen) :
    (c.parseQrCodeChunk qt (qrCode data i)).2.attempts = [data] := by
  rw [parseQrCodeChunk_qrCode hcount (hseen i mem_cons_self) h.processed,
    if_pos ((length_keys_eq_iff hseen (h.lookup_store i)).mpr hall), attempts_finish,
    h.assembled_store hall]
  exact congrArg (· ++ [data]) h.attempts

end Step

theorem Collecting.scanAll (h : Collecting data seen c) (hcount : chunksCount data ≤ 255)
    {numbers : List ℕ} (hnumbers : ∀ j ∈ numbers.reverse ++ seen, j < chunksCount data)
    (hmissing : ∃ j < chunksCount data, j ∉ numbers.reverse ++ seen) :
    Collecting data (numbers.reverse ++ seen) (c.scanAll qt (numbers.map (qrCode data))) := by
  induction numbers generalizing c seen with
  | nil => exact h
  | cons i numbers ih =>
    rw [reverse_cons, append_assoc, singleton_append] at hnumbers hmissing ⊢
    obtain ⟨j, hj, hjmissing⟩ := hmissing
    have hstep : Collecting data (i :: seen) (c.parseQrCodeChunk qt (qrCode data i)).2 := by
      apply h.step_incomplete hcount
      · exact fun k hk => hnumbers k (mem_append_right _ hk)
      · exact fun hall => hjmissing (mem_append_right _ (hall j hj))
    exact ih hstep hnumbers ⟨j, hj, hjmissing⟩

theorem exists_numbers {scans : List String}
    (h : ∀ code ∈ scans, code ∈ generateQrCodeImageSeries data) :
    ∃ numbers : List ℕ, scans = numbers.map (qrCode data) ∧ ∀ j ∈ numbers, j < chunksCount data := by
  induction scans with
  | nil => exact ⟨[], rfl, by simp⟩
  | cons code scans ih =>
    obtain ⟨numbers, rfl, hnumbers⟩ := ih fun x hx => h x (mem_cons_of_mem _ hx)
    obtain ⟨i, hi, rfl⟩ := mem_series.mp (h code mem_cons_self)
    refine ⟨i :: numbers, rfl, fun j hj => ?_⟩
    rcases mem_cons.mp hj with rfl | hj
    · exact hi
    · exact hnumbers j hj

/-- The data is tried when the series is complete. -/
theorem first_attempt (qt : QtRuntime) (config : QJsonObject) {scans : List String}
    (hcount : (generateQrCodeImageSeries data).length ≤ 255)
    (hscans : ∀ code ∈ scans, code ∈ generateQrCodeImageSeries data)
    (hmissing : ∃ code ∈ generateQrCodeImageSeries data, code ∉ scans) :
    ((started config).scanAll qt scans).attempts = [] ∧
      ∀ code, (∀ x ∈ generateQrCodeImageSeries data, x ∈ scans ++ [code]) →
        ((started config).scanAll qt (scans ++ [code])).attempts = [data] := by
  rw [length_series] at hcount
  obtain ⟨numbers, rfl, hnumbers⟩ := exists_numbers hscans
  obtain ⟨missing, hmem, hmissing⟩ := hmissing
  obtain ⟨m, hm, rfl⟩ := mem_series.mp hmem
  have hnot : m ∉ numbers := fun hin => hmissing (mem_map_of_mem hin)
  have hcollecting : Collecting data (numbers.reverse ++ [])
      ((started config).scanAll qt (numbers.map (qrCode data))) :=
    (collecting_started data config).scanAll hcount (by simpa using hnumbers)
      ⟨m, hm, by simpa using hnot⟩
  refine ⟨hcollecting.attempts, fun code hall => ?_⟩
  obtain rfl : qrCode data m = code := by
    rcases mem_append.mp (hall _ hmem) with hold | hnew
    · exact absurd hold hmissing
    · exact mem_singleton.mp hnew
  have hcomplete : ∀ j < chunksCount data, j ∈ m :: (numbers.reverse ++ []) := by
    intro j hj
    have hscanned := hall _ (mem_series.mpr ⟨j, hj, rfl⟩)
    rw [mem_append, mem_map, mem_singleton] at hscanned
    rcases hscanned with ⟨k, hk, hcode⟩ | hcode
    · obtain rfl := qrCode_injective hcount (hnumbers k hk) hj hcode
      simp [hk]
    · obtain rfl := qrCode_injective hcount hj hm hcode
      exact mem_cons_self
  rw [QrScanner.scanAll, foldl_append]
  refine hcollecting.step_complete hcount (fun j hj => ?_) hcomplete
  rcases mem_cons.mp hj with rfl | hj
  · exact hm
  · exact hnumbers j (by simpa using hj)

def twoChunks : QByteArray := List.replicate 851 7

theorem first_attempt_twoChunks :
    ((started []).scanAll (.plain QtRuntime.noUrl [])
        [qrCode twoChunks 1, qrCode twoChunks 1]).attempts = [] ∧
      ((started []).scanAll (.plain QtRuntime.noUrl [])
        ([qrCode twoChunks 1, qrCode twoChunks 1] ++ [qrCode twoChunks 0])).attempts =
        [twoChunks] := by
  have hcount : chunksCount twoChunks = 2 := by
    rw [chunksCount, twoChunks, length_replicate]
    rfl
  have hlength : (generateQrCodeImageSeries twoChunks).length ≤ 255 := by
    rw [length_series, hcount]
    decide
  have hfirst : qrCode twoChunks 0 ∈ generateQrCodeImageSeries twoChunks :=
    mem_series.mpr ⟨0, by omega, rfl⟩
  have hscans : ∀ code ∈ [qrCode twoChunks 1, qrCode twoChunks 1],
      code ∈ generateQrCodeImageSeries twoChunks := by
    intro code hcode
    obtain rfl : code = qrCode twoChunks 1 := by simpa using hcode
    exact mem_series.mpr ⟨1, by omega, rfl⟩
  have hmissing : qrCode twoChunks 0 ∉ [qrCode twoChunks 1, qrCode twoChunks 1] := by
    intro hcode
    have heq : qrCode twoChunks 0 = qrCode twoChunks 1 := by simpa using hcode
    exact absurd (qrCode_injective (by omega) (by omega) (by omega) heq) (by decide)
  obtain ⟨hnone, hdata⟩ := first_attempt (.plain QtRuntime.noUrl []) [] hlength hscans
    ⟨_, hfirst, hmissing⟩
  refine ⟨hnone, hdata _ fun x hx => ?_⟩
  obtain ⟨i, hi, rfl⟩ := mem_series.mp hx
  obtain rfl | rfl : i = 0 ∨ i = 1 := by omega
  · exact mem_append_right _ mem_cons_self
  · exact mem_append_left _ mem_cons_self

end QrScanner

end AmneziaVpn
