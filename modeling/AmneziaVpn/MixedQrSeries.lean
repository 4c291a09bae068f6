import AmneziaVpn.QrSeries

/-!
# Codes of several series

A code does not say which series it belongs to, only how many codes that has, and the scanner drops
what it has stored when that number changes.
-/

namespace AmneziaVpn.QrScanner

open ByteStream ExportController List

/-- The number of chunks, the number and the bytes of the chunk that a code is read as. -/
def chunkOf (code : String) : Option (ℕ × ℕ × QByteArray) :=
  let (magic, s) := readNat 2 (Utils.fromBase64Url code)
  if magic = qrMagicCode then
    let (chunksCount, s) := readNat 1 s
    let (chunkId, s) := readNat 1 s
    some (chunksCount, chunkId, (readBytes s).1)
  else none

def withCode (c : QrScanner) (code : String) : QrScanner :=
  match chunkOf code with
  | some (chunksCount, chunkId, bytes) => c.store chunksCount chunkId bytes
  | none => c

def isComplete (c : QrScanner) : Bool :=
  c.m_qrCodeChunks.keys.length = c.m_totalQrCodeChunksCount

/-- What is tried to be read from the collected chunks with a code. -/
def chunkedAttempt (c : QrScanner) (code : String) : Option QByteArray :=
  if c.m_isQrCodeProcessed && (chunkOf code).isSome && (c.withCode code).isComplete then
    some (c.withCode code).assembled
  else none

def sinceReset (c : QrScanner) (recent : List String) (code : String) : List String :=
  if (chunkOf code).any fun chunk => chunk.1 ≠ c.m_totalQrCodeChunksCount then [code]
  else recent ++ [code]

variable (qt : QtRuntime)

def scan (t : QrScanner × List String) (code : String) : QrScanner × List String :=
  let c := (t.1.parseQrCodeChunk qt code).2
  (c, if !t.1.m_isQrCodeProcessed then t.2
    else if c.m_qrCodeChunks.keys.isEmpty then []
    else sinceReset t.1 t.2 code)

variable {qt} {c : QrScanner} {code : String} {data : QByteArray} {S : Set QByteArray}
  {recent : List String} {t : QrScanner × List String}

theorem parseQrCodeChunk_eq (qt : QtRuntime) (c : QrScanner) (code : String) :
    c.parseQrCodeChunk qt code =
      if !c.m_isQrCodeProcessed then (false, c)
      else if (chunkOf code).isSome then
        if (c.withCode code).isComplete then finish qt (c.withCode code)
        else (false, c.withCode code)
      else
        let (ok, c) := extractConfigFromQr qt c (Utils.fromBase64Url code)
        if ok then (true, { c with m_isQrCodeProcessed := false }) else (false, c) := by
  unfold parseQrCodeChunk isComplete withCode chunkOf
  by_cases hmagic : (readNat 2 (Utils.fromBase64Url code)).1 = qrMagicCode
  · simp [hmagic, decide_eq_true_eq, Option.isSome_some]
  · simp [hmagic, Option.isSome_none, Bool.false_eq_true]

theorem chunkOf_qrCode (hcount : chunksCount data ≤ 255) {i : ℕ} (hi : i < chunksCount data) :
    chunkOf (qrCode data i) = some (chunksCount data, i, chunk data i) := by
  unfold chunkOf
  simp [readNat_qrCode, readNat_byte hcount, readNat_byte (hi.le.trans hcount), readBytes_chunk]

/-- The stored chunks are chunks of series of the present length, and their codes are recent. -/
def StoredFrom (S : Set QByteArray) (c : QrScanner) (recent : List String) : Prop :=
  ∀ i bytes, c.m_qrCodeChunks.lookup i = some bytes → ∃ data ∈ S,
    chunksCount data = c.m_totalQrCodeChunksCount ∧ i < chunksCount data ∧
      bytes = chunk data i ∧ qrCode data i ∈ recent

theorem StoredFrom.store (h : StoredFrom S c recent) (hdata : data ∈ S) (hcount : chunksCount data ≤ 255)
    {i : ℕ} (hi : i < chunksCount data) :
    StoredFrom S (c.withCode (qrCode data i)) (sinceReset c recent (qrCode data i)) := by
  intro j bytes hj
  unfold sinceReset
  unfold withCode at hj ⊢
  rw [chunkOf_qrCode hcount hi] at hj ⊢
  unfold QrScanner.store at hj
  dsimp only at hj
  by_cases hji : j = i
  · subst hji
    rw [AList.lookup_insert, Option.some.injEq] at hj
    refine ⟨data, hdata, rfl, hi, hj.symm, ?_⟩
    split_ifs <;> simp
  · rw [AList.lookup_insert_ne hji] at hj
    by_cases htotal : c.m_totalQrCodeChunksCount = chunksCount data
    · rw [if_neg (not_not_intro htotal)] at hj
      obtain ⟨other, hother, hsame, hless, hbytes, hrecent⟩ := h j bytes hj
      exact ⟨other, hother, hsame.trans htotal, hless, hbytes, by simp [htotal, hrecent]⟩
    · rw [if_pos htotal] at hj
      cases hj

/-- If series of one length are the same, all chunks there are belong to one series. -/
theorem StoredFrom.eq_series (h : StoredFrom S c recent)
    (hS : ∀ data ∈ S, ∀ other ∈ S, chunksCount data = chunksCount other → data = other)
    (hdata : data ∈ S) (htotal : c.m_totalQrCodeChunksCount = chunksCount data)
    (hcomplete : c.isComplete) :
    c.assembled = data ∧ ∀ code ∈ generateQrCodeImageSeries data, code ∈ recent := by
  have hseries : ∀ i bytes, c.m_qrCodeChunks.lookup i = some bytes →
      i < chunksCount data ∧ bytes = chunk data i ∧ qrCode data i ∈ recent := by
    intro i bytes hi
    obtain ⟨other, hother, hcount, hless, hbytes, hrecent⟩ := h i bytes hi
    obtain rfl := hS data hdata other hother (hcount.trans htotal).symm
    exact ⟨hless, hbytes, hrecent⟩
  have hkeys : ∀ i ∈ c.m_qrCodeChunks.keys, ∃ bytes, c.m_qrCodeChunks.lookup i = some bytes := by
    intro i hi
    exact Option.isSome_iff_exists.mp (AList.lookup_isSome.mpr (AList.mem_keys.mpr hi))
  have hlookup : ∀ i, c.m_qrCodeChunks.lookup i =
      if i ∈ c.m_qrCodeChunks.keys then some (chunk data i) else none := by
    intro i
    split_ifs with hi
    · obtain ⟨bytes, hbytes⟩ := hkeys i hi
      rw [hbytes, (hseries i bytes hbytes).2.1]
    · exact AList.lookup_eq_none.mpr fun hmem => hi (AList.mem_keys.mp hmem)
  have hless : ∀ i ∈ c.m_qrCodeChunks.keys, i < chunksCount data := by
    intro i hi
    obtain ⟨bytes, hbytes⟩ := hkeys i hi
    exact (hseries i bytes hbytes).1
  have hall := (length_keys_eq_iff hless hlookup).mp ((of_decide_eq_true hcomplete).trans htotal)
  constructor
  · have hchunks : ∀ i ∈ List.range (chunksCount data),
        (c.m_qrCodeChunks.lookup i).getD [] = chunk data i := by
      intro i hi
      rw [hlookup, if_pos (hall i (mem_range.mp hi))]
      rfl
    unfold assembled
    rw [htotal]
    exact (flatMap_congr hchunks).trans (flatMap_chunk data)
  · intro code hcode
    obtain ⟨i, hi, rfl⟩ := mem_series.mp hcode
    obtain ⟨bytes, hbytes⟩ := hkeys i (hall i hi)
    exact (hseries i bytes hbytes).2.2

def Keeps (c c' : QrScanner) : Prop :=
  c'.m_qrCodeChunks = ∅ ∨ (c'.m_qrCodeChunks = c.m_qrCodeChunks ∧
    c'.m_totalQrCodeChunksCount = c.m_totalQrCodeChunksCount)

theorem StoredFrom.of_keeps (h : StoredFrom S c recent) {c' : QrScanner} (hc : Keeps c c') :
    StoredFrom S c' (if c'.m_qrCodeChunks.keys.isEmpty then [] else recent) := by
  intro i bytes hi
  rcases hc with hempty | ⟨hchunks, htotal⟩
  · rw [hempty] at hi
    cases hi
  · have hmem : i ∈ c'.m_qrCodeChunks.keys :=
      AList.mem_keys.mp (AList.lookup_isSome.mp (by rw [hi]; rfl))
    rw [if_neg (by simpa using ne_nil_of_mem hmem), htotal]
    exact h i bytes (hchunks ▸ hi)

theorem keeps_extractConfigFromQr (qt : QtRuntime) (c : QrScanner) (data : QByteArray) :
    Keeps c (extractConfigFromQr qt c data).2 := by
  unfold extractConfigFromQr
  dsimp only
  split_ifs <;> exact .inr ⟨rfl, rfl⟩

theorem keeps_parseQrCodeChunk (hprocessed : c.m_isQrCodeProcessed = true) :
    Keeps (c.withCode code) (c.parseQrCodeChunk qt code).2 := by
  rw [parseQrCodeChunk_eq, hprocessed, if_neg (by decide)]
  by_cases hchunk : (chunkOf code).isSome
  · rw [if_pos hchunk]
    unfold finish
    dsimp only
    split_ifs
    · exact keeps_extractConfigFromQr qt _ _
    · exact .inl rfl
    · exact .inr ⟨rfl, rfl⟩
  · have hcode : c.withCode code = c := by
      rw [withCode, Option.not_isSome_iff_eq_none.mp hchunk]
    rw [if_neg hchunk, hcode]
    dsimp only
    split_ifs
    · exact keeps_extractConfigFromQr qt c _
    · exact keeps_extractConfigFromQr qt c _

def CodeFrom (S : Set QByteArray) (code : String) : Prop :=
  (∃ data ∈ S, code ∈ generateQrCodeImageSeries data) ∨ chunkOf code = none

theorem StoredFrom.scan (h : StoredFrom S t.1 t.2) (hcount : ∀ data ∈ S, chunksCount data ≤ 255)
    (hcode : CodeFrom S code) : StoredFrom S (scan qt t code).1 (scan qt t code).2 := by
  have hstored : StoredFrom S (t.1.withCode code) (sinceReset t.1 t.2 code) := by
    rcases hcode with ⟨data, hdata, hseries⟩ | hnone
    · obtain ⟨i, hi, rfl⟩ := mem_series.mp hseries
      exact h.store hdata (hcount data hdata) hi
    · intro i bytes hi
      rw [withCode, hnone] at hi ⊢
      obtain ⟨data, hdata, htotal, hless, hbytes, hmem⟩ := h i bytes hi
      exact ⟨data, hdata, htotal, hless, hbytes, by simp [sinceReset, hnone, hmem]⟩
  unfold QrScanner.scan
  by_cases hprocessed : t.1.m_isQrCodeProcessed = true
  · rw [hprocessed]
    exact hstored.of_keeps (keeps_parseQrCodeChunk hprocessed)
  · rw [parseQrCodeChunk_eq, Bool.eq_false_of_not_eq_true hprocessed]
    exact h

theorem StoredFrom.foldl_scan (hcount : ∀ data ∈ S, chunksCount data ≤ 255) {codes : List String}
    (hcodes : ∀ code ∈ codes, CodeFrom S code) (h : StoredFrom S t.1 t.2) :
    StoredFrom S (codes.foldl (QrScanner.scan qt) t).1 (codes.foldl (QrScanner.scan qt) t).2 := by
  induction codes generalizing t with
  | nil => exact h
  | cons code codes ih =>
    exact ih (fun x hx => hcodes x (mem_cons_of_mem _ hx))
      (h.scan hcount (hcodes code mem_cons_self))

theorem StoredFrom.chunkedAttempt (h : StoredFrom S c recent)
    (hS : ∀ data ∈ S, ∀ other ∈ S, chunksCount data = chunksCount other → data = other)
    (hcount : ∀ data ∈ S, chunksCount data ≤ 255) (hcode : CodeFrom S code)
    (hattempt : c.chunkedAttempt code = some data) :
    data ∈ S ∧ ∀ x ∈ generateQrCodeImageSeries data, x ∈ sinceReset c recent code := by
  unfold QrScanner.chunkedAttempt at hattempt
  rw [Option.ite_none_right_eq_some, Bool.and_eq_true, Bool.and_eq_true] at hattempt
  obtain ⟨⟨⟨-, hchunk⟩, hcomplete⟩, hdata⟩ := hattempt
  rcases hcode with ⟨series, hseries, hmem⟩ | hnone
  · obtain ⟨i, hi, rfl⟩ := mem_series.mp hmem
    have htotal : (c.withCode (qrCode series i)).m_totalQrCodeChunksCount = chunksCount series := by
      rw [withCode, chunkOf_qrCode (hcount series hseries) hi]
      rfl
    obtain ⟨hassembled, hall⟩ :=
      (h.store hseries (hcount series hseries) hi).eq_series hS hseries htotal hcomplete
    obtain rfl : series = data := hassembled.symm.trans (Option.some.inj hdata)
    exact ⟨hseries, hall⟩
  · simp [hnone] at hchunk

/-- The second chunk of one series of two codes is tried behind the first one of another. -/
theorem chunkedAttempt_second {first second : QByteArray} (hfirst : chunksCount first = 2)
    (hsecond : chunksCount second = 2) (qt : QtRuntime) (config : QJsonObject) :
    (scan qt (started config, []) (qrCode first 0)).1.chunkedAttempt (qrCode second 1) =
      some (chunk first 0 ++ chunk second 1) := by
  have hscan : (scan qt (started config, []) (qrCode first 0)).1 =
      (started config).store 2 0 (chunk first 0) := by
    unfold scan
    rw [parseQrCodeChunk_qrCode (by omega) (by omega) rfl, hfirst]
    rfl
  rw [hscan, chunkedAttempt, withCode, chunkOf_qrCode (by omega) (by omega), hsecond]
  exact congrArg (fun bytes => some (chunk first 0 ++ bytes)) (append_nil _)

def otherTwoChunks : QByteArray := List.replicate 851 8

variable (byte : UInt8)

theorem chunksCount_replicate : chunksCount (List.replicate 851 byte) = 2 := by
  rw [chunksCount, length_replicate]
  rfl

theorem chunk_replicate_zero : chunk (List.replicate 851 byte) 0 = List.replicate 850 byte := by
  rw [chunk, zero_mul, drop_zero, take_replicate]
  rfl

theorem chunk_replicate_one : chunk (List.replicate 851 byte) 1 = [byte] := by
  rw [chunk, one_mul, drop_replicate, take_replicate]
  rfl

end AmneziaVpn.QrScanner
