import AmneziaVpn.EntryTables
import Mathlib.Data.Finset.Card

/-!
# The buffers of the Windows split tunnel

The driver gets two buffers: the device paths of the applications that bypass the tunnel, and the
processes that are already running.
-/

namespace AmneziaVpn.WindowsSplitTunnel

open EntryTables List List

abbrev WString := List UInt16

variable (s : WString)

def wcharBytes : List UInt8 := s.flatMap fun unit => leBytes 2 unit.toNat

def wchars : List UInt8 → WString
  | low :: high :: rest => UInt16.ofNat (ByteOrder.leValue [low, high]) :: wchars rest
  | _ => []

@[simp] theorem wcharBytes_cons (unit : UInt16) (s : WString) :
    wcharBytes (unit :: s) = leBytes 2 unit.toNat ++ wcharBytes s := rfl

@[simp] theorem length_wcharBytes : (wcharBytes s).length = s.length * 2 := by
  induction s with
  | nil => rfl
  | cons unit s ih =>
    rw [wcharBytes_cons, length_append, length_leBytes, ih, length_cons]
    ring

theorem wchars_wcharBytes : wchars (wcharBytes s) = s := by
  induction s with
  | nil => rfl
  | cons unit s ih =>
    have hunit : ByteOrder.leValue (leBytes 2 unit.toNat) = unit.toNat :=
      leValue_leBytes (by exact unit.toNat_lt)
    rw [wcharBytes_cons]
    simp only [leBytes] at hunit ⊢
    rw [cons_append, cons_append, nil_append, wchars, hunit, ih, UInt16.ofNat_toNat]

/-- What `QueryDosDeviceW` returns, and the text in the buffer. -/
abbrev DosDevices := WString → ℕ → ℕ × WString

def ERROR_INSUFFICIENT_BUFFER : ℕ := 122

def slash : UInt16 := 0x2f

def colon : UInt16 := 0x3a

def backslash : UInt16 := 0x5c

variable (QueryDosDeviceW : DosDevices)

def convertPath (path : WString) : WString :=
  match path.splitOn slash with
  | [] => []
  | driveLetter :: parts =>
    if colon ∉ driveLetter ∨ parts.length = 0 then []
    else
      let first := QueryDosDeviceW driveLetter (2048 / 2)
      let result :=
        if first.1 = ERROR_INSUFFICIENT_BUFFER then QueryDosDeviceW driveLetter (4096 / 2) else first
      if result.1 = 0 then [] else intercalate [backslash] (result.2 :: parts)

/-- `CONFIGURATION_ENTRY`: the offset, the length and six bytes of padding. -/
def configurationEntry : Layout where
  entrySize := 16
  offsetAt := 0

/-- The positions are those of `entry` and `stringDest`. -/
def fillConfiguration : List WString → ℕ → ℕ → ℕ → List UInt8 → Option (List UInt8)
  | [], _, _, _, outBuffer => some outBuffer
  | path :: dosPaths, entry, stringDest, stringOffset, outBuffer => do
    let stringLength := path.length * 2
    let outBuffer ← write outBuffer (entry + 8) (leBytes 2 stringLength)
    let outBuffer ← write outBuffer entry (leBytes 8 stringOffset)
    let outBuffer ← write outBuffer stringDest (wcharBytes path)
    fillConfiguration dosPaths (entry + 16) (stringDest + stringLength)
      ((stringOffset + stringLength) % 2 ^ 64) outBuffer

/-- The sizes are added up as `size_t`. -/
def stringSize (paths : List WString) : ℕ :=
  paths.foldl (fun size path => (size + path.length * 2) % 2 ^ 64) 0

def generateAppConfiguration (appPaths : List WString) :
    Option (List UInt8) := do
  let dosPaths := appPaths.map (convertPath QueryDosDeviceW)
  let bufferSize := (16 + 16 * appPaths.length + stringSize dosPaths) % 2 ^ 64
  let outBuffer ← fillConfiguration dosPaths 16 (16 + 16 * appPaths.length) 0
    (replicate bufferSize 0)
  let outBuffer ← write outBuffer 0 (leBytes 8 appPaths.length)
  write outBuffer 8 (leBytes 8 bufferSize)

structure PROCESSENTRY32W where
  th32ProcessID : UInt32
  th32ParentProcessID : UInt32

def INVALID_HANDLE_VALUE : UInt64 := 0xffffffffffffffff

def MAX_PATH : ℕ := 260

/-- What `K32GetProcessImageFileNameW` writes to a buffer of `MAX_PATH + 1` characters. -/
structure ImagePath where
  path : WString
  fits : path.length ≤ MAX_PATH

structure Visit where
  currentProcess : PROCESSENTRY32W
  process_handle : UInt64
  imagepath : Option ImagePath

structure ProcessInfo where
  ProcessId : UInt32
  ParentProcessId : UInt32
  DevicePath : WString

def getProcessInfo (visit : Visit) : ProcessInfo where
  ProcessId := visit.currentProcess.th32ProcessID
  ParentProcessId := visit.currentProcess.th32ParentProcessID
  DevicePath := visit.imagepath.elim [] (·.path)

/-- `QMap::insert`; the values of the map in the order of the process identifiers. -/
def insertProcess (info : ProcessInfo) : List ProcessInfo → List ProcessInfo
  | [] => [info]
  | process :: processes =>
    if info.ProcessId < process.ProcessId then info :: process :: processes
    else if info.ProcessId = process.ProcessId then info :: processes
    else process :: insertProcess info processes

def visitProcess (processes : List ProcessInfo) (visit : Visit) : List ProcessInfo :=
  if visit.process_handle = INVALID_HANDLE_VALUE then processes
  else insertProcess (getProcessInfo visit) processes

variable (snapshot : Option (Visit × List Visit))

/-- The loop comes to at least one process, also if `Process32First` fails. -/
def processList : List ProcessInfo :=
  match snapshot with
  | none => []
  | some (first, next) => (first :: next).foldl visitProcess []

/-- `PROCESS_DISCOVERY_ENTRY`: two process identifiers come first. -/
def discoveryEntry : Layout where
  entrySize := 32
  offsetAt := 16

def fillBlob : List ProcessInfo → ℕ → ℕ → ℕ → List UInt8 → Option (List UInt8)
  | [], _, _, _, out => some out
  | process :: processes, entry, stringBuffer, currentStringOffset, out => do
    let out ← write out entry (leBytes 8 process.ProcessId.toNat)
    let out ← write out (entry + 8) (leBytes 8 process.ParentProcessId.toNat)
    if process.DevicePath = [] then
      let out ← write out (entry + 16) (leBytes 8 0)
      let out ← write out (entry + 24) (leBytes 2 0)
      fillBlob processes (entry + 32) stringBuffer currentStringOffset out
    else
      let imageNameLength := process.DevicePath.length * 2
      let out ← write out (entry + 16) (leBytes 8 currentStringOffset)
      let out ← write out (entry + 24) (leBytes 2 imageNameLength)
      let out ← write out (stringBuffer + currentStringOffset) (wcharBytes process.DevicePath)
      fillBlob processes (entry + 32) stringBuffer ((currentStringOffset + imageNameLength) % 2 ^ 64) out

def generateProcessBlob : Option (List UInt8) :=
  let process_list := processList snapshot
  if process_list.length = 0 then some []
  else do
    let bufferSize :=
      (16 + 32 * process_list.length + stringSize (process_list.map (·.DevicePath))) % 2 ^ 64
    let out ← fillBlob process_list 16 (16 + 32 * process_list.length) 0 (replicate bufferSize 0)
    let out ← write out 0 (leBytes 8 process_list.length)
    write out 8 (leBytes 8 bufferSize)

/-- Reading the buffer by its entries gives these paths. -/
def Decodes (layout : Layout) (buffer : List UInt8) (paths : List WString) : Prop :=
  ∃ strings, layout.Holds buffer strings ∧ strings.map wchars = paths

section Filling

variable {a s : List UInt8}

variable {paths : List WString}

theorem stringSize_eq (h : (paths.map wcharBytes).flatten.length < 2 ^ 64) :
    stringSize paths = (paths.map wcharBytes).flatten.length := by
  have hrun : ∀ size, size + (paths.map wcharBytes).flatten.length < 2 ^ 64 →
      paths.foldl (fun size path => (size + path.length * 2) % 2 ^ 64) size =
        size + (paths.map wcharBytes).flatten.length := by
    clear h
    induction paths with
    | nil => exact fun size _ => rfl
    | cons path paths ih =>
      intro size hsize
      simp only [map_cons, flatten_cons, length_append, length_wcharBytes] at hsize ⊢
      rw [foldl_cons, Nat.mod_eq_of_lt (by omega), ih _ (by omega)]
      ring
  rw [stringSize, hrun 0 (by rwa [Nat.zero_add]), Nat.zero_add]

theorem write_string {table c bytes : List UInt8} {pos n : ℕ}
    (hpos : pos = a.length + (table.length + s.length)) (hn : bytes.length = n) :
    write (a ++ (table ++ (s ++ (replicate n 0 ++ c)))) pos bytes =
      some (a ++ (table ++ ((s ++ bytes) ++ c))) := by
  have hzone := @write_zone (a ++ (table ++ s)) (replicate n 0) bytes c pos
    (by simp only [length_append, hpos]) (by rw [length_replicate, hn])
  simpa only [append_assoc] using hzone

theorem write_configurationEntry (c : List UInt8) (offset length : ℕ)
    (next : List UInt8 → Option (List UInt8)) :
    ((write (a ++ (replicate 16 0 ++ c)) (a.length + 8) (leBytes 2 length)).bind fun out =>
      (write out a.length (leBytes 8 offset)).bind next) =
      next (a ++ ((leBytes 8 offset ++ (leBytes 2 length ++ replicate 6 0)) ++ c)) := by
  have hzones : a ++ (replicate 16 0 ++ c) =
      (a ++ replicate 8 0) ++ (replicate 2 0 ++ (replicate 6 0 ++ c)) := by
    simp only [append_assoc]
    rfl
  rw [hzones, write_zone (by simp) (by simp), Option.bind_some, append_assoc,
    write_zone rfl (by simp), Option.bind_some]
  simp [append_assoc]

theorem stores_configurationEntry (offset length : ℕ) : configurationEntry.Stores
    (leBytes 8 offset ++ (leBytes 2 length ++ replicate 6 0)) offset length :=
  @Layout.stores_of_fields configurationEntry [] (replicate 6 0) offset length rfl rfl

theorem fillConfiguration_cons (path : WString) (dosPaths : List WString) (a s c : List UInt8)
    (hfits : s.length + (wcharBytes path).length < 2 ^ 64) :
    ∃ offset entry, configurationEntry.Stores entry offset (wcharBytes path).length ∧
      offset ≤ s.length ∧ (wcharBytes path ≠ [] → offset = s.length) ∧
      fillConfiguration (path :: dosPaths) a.length
        (a.length + (16 * (path :: dosPaths).length + s.length)) s.length (a ++ (replicate 16 0 ++
          (replicate (16 * dosPaths.length) 0 ++
            (s ++ (replicate (wcharBytes path).length 0 ++ c))))) =
      fillConfiguration dosPaths (a ++ entry).length
        ((a ++ entry).length + (16 * dosPaths.length + (s ++ wcharBytes path).length))
        (s ++ wcharBytes path).length
        (a ++ ((entry ++ replicate (16 * dosPaths.length) 0) ++ ((s ++ wcharBytes path) ++ c))) := by
  have hstores := stores_configurationEntry s.length (wcharBytes path).length
  refine ⟨s.length, _, hstores, le_rfl, fun _ => rfl, ?_⟩
  generalize hentry : leBytes 8 s.length ++ (leBytes 2 (wcharBytes path).length ++
    replicate 6 0) = entry at hstores
  have hsize : entry.length = 16 := hstores.size
  have hdest : a.length + (16 * (path :: dosPaths).length + s.length) =
      a.length + ((entry ++ replicate (16 * dosPaths.length) 0).length + s.length) := by
    rw [length_append, length_replicate, hsize, length_cons]
    ring
  have hnext : a.length + (16 * (path :: dosPaths).length + s.length) + (wcharBytes path).length =
      (a ++ entry).length + (16 * dosPaths.length + (s ++ wcharBytes path).length) := by
    simp only [length_append, hsize, length_cons]
    ring
  rw [fillConfiguration, ← length_wcharBytes]
  simp only [Option.bind_eq_bind]
  rw [write_configurationEntry, hentry, ← append_assoc entry, write_string hdest rfl,
    Option.bind_some, hnext, Nat.mod_eq_of_lt hfits, ← length_append, length_append, hsize]

theorem write_discoveryEntry (c : List UInt8) (pid parent offset length : ℕ)
    (next : List UInt8 → Option (List UInt8)) :
    ((write (a ++ (replicate 32 0 ++ c)) a.length (leBytes 8 pid)).bind fun out =>
      (write out (a.length + 8) (leBytes 8 parent)).bind fun out =>
      (write out (a.length + 16) (leBytes 8 offset)).bind fun out =>
      (write out (a.length + 24) (leBytes 2 length)).bind next) =
      next (a ++ (((leBytes 8 pid ++ leBytes 8 parent) ++ (leBytes 8 offset ++ (leBytes 2 length ++
        replicate 6 0))) ++ c)) := by
  have hzones : replicate 32 (0 : UInt8) ++ c = replicate 8 0 ++ (replicate 8 0 ++
      (replicate 8 0 ++ (replicate 2 0 ++ (replicate 6 0 ++ c)))) := by
    simp only [← append_assoc]
    rfl
  rw [hzones, write_zone rfl (by simp), Option.bind_some, ← append_assoc,
    write_zone (by simp) (by simp), Option.bind_some, ← append_assoc,
    write_zone (by simp) (by simp), Option.bind_some, ← append_assoc,
    write_zone (by simp) (by simp), Option.bind_some]
  simp [append_assoc]

theorem stores_discoveryEntry (pid parent offset length : ℕ) : discoveryEntry.Stores
    ((leBytes 8 pid ++ leBytes 8 parent) ++ (leBytes 8 offset ++ (leBytes 2 length ++
      replicate 6 0))) offset length :=
  discoveryEntry.stores_of_fields (by simp [discoveryEntry]) (by simp [discoveryEntry])

theorem fillBlob_cons (process : ProcessInfo) (processes : List ProcessInfo) (a s c : List UInt8)
    (hfits : s.length + (wcharBytes process.DevicePath).length < 2 ^ 64) :
    ∃ offset entry, discoveryEntry.Stores entry offset (wcharBytes process.DevicePath).length ∧
      offset ≤ s.length ∧ (wcharBytes process.DevicePath ≠ [] → offset = s.length) ∧
      fillBlob (process :: processes) a.length (a.length + 32 * (process :: processes).length) s.length
        (a ++ (replicate 32 0 ++ (replicate (32 * processes.length) 0 ++
          (s ++ (replicate (wcharBytes process.DevicePath).length 0 ++ c))))) =
      fillBlob processes (a ++ entry).length ((a ++ entry).length + 32 * processes.length)
        (s ++ wcharBytes process.DevicePath).length
        (a ++ ((entry ++ replicate (32 * processes.length) 0) ++
          ((s ++ wcharBytes process.DevicePath) ++ c))) := by
  have hbuffer : a.length + 32 * (process :: processes).length =
      a.length + 32 + 32 * processes.length := by
    rw [length_cons]
    ring
  rw [fillBlob, hbuffer]
  by_cases hempty : process.DevicePath = []
  · have hnil : wcharBytes process.DevicePath = [] := by rw [hempty]; rfl
    have hstores := stores_discoveryEntry process.ProcessId.toNat process.ParentProcessId.toNat 0
      (wcharBytes process.DevicePath).length
    refine ⟨0, _, hstores, Nat.zero_le _, fun h => absurd hnil h, ?_⟩
    simp only [Option.bind_eq_bind, if_pos hempty]
    rw [write_discoveryEntry, @length_append _ a, hstores.size, hnil]
    simp [discoveryEntry, length_nil, replicate_zero, nil_append, append_nil, append_assoc]
  · have hstores := stores_discoveryEntry process.ProcessId.toNat process.ParentProcessId.toNat
      s.length (wcharBytes process.DevicePath).length
    refine ⟨s.length, _, hstores, le_rfl, fun _ => rfl, ?_⟩
    simp only [Option.bind_eq_bind, if_neg hempty]
    rw [← length_wcharBytes, write_discoveryEntry, @length_append _ a, hstores.size]
    generalize (leBytes 8 process.ProcessId.toNat ++ leBytes 8 process.ParentProcessId.toNat) ++
      (leBytes 8 s.length ++ (leBytes 2 (wcharBytes process.DevicePath).length ++
        replicate 6 0)) = entry at hstores
    have hpos : a.length + 32 + 32 * processes.length + s.length = a.length +
        ((entry ++ replicate (32 * processes.length) 0).length + s.length) := by
      rw [length_append, length_replicate, hstores.size]
      simp only [discoveryEntry]
      ring
    rw [← append_assoc entry, write_string hpos rfl, Option.bind_some, Nat.mod_eq_of_lt hfits,
      length_append]
    rfl

theorem write_header (x : List UInt8) (number total : ℕ) :
    ((write (replicate 16 0 ++ x) 0 (leBytes 8 number)).bind fun out =>
      write out 8 (leBytes 8 total)) = some (leBytes 8 number ++ (leBytes 8 total ++ x)) := by
  have hzones : replicate 16 (0 : UInt8) ++ x =
      [] ++ (replicate 8 0 ++ (replicate 8 0 ++ x)) := by
    rw [nil_append, ← append_assoc]
    rfl
  rw [hzones, write_zone length_nil.symm (by simp), Option.bind_some, nil_append,
    write_zone (by simp) (by simp)]

theorem replicate_buffer (table strings : ℕ) :
    replicate (16 + table + strings) (0 : UInt8) =
      replicate 16 0 ++ (replicate table 0 ++ ([] ++ replicate strings 0)) := by
  rw [nil_append, replicate_append_replicate, replicate_append_replicate, Nat.add_assoc]

theorem decodes_of_laid {layout : Layout} {entries : List (List UInt8)} {slices : List (ℕ × ℕ)}
    (h : layout.Laid 0 entries (paths.map wcharBytes) slices)
    (hfits : 16 + layout.entrySize * paths.length + (paths.map wcharBytes).flatten.length < 2 ^ 64)
    (hnumber : paths.length < 2 ^ 64) :
    ∃ buffer, ((write (replicate 16 0 ++ (entries.flatten ++ ([] ++ (paths.map wcharBytes).flatten)))
        0 (leBytes 8 paths.length)).bind fun out => write out 8 (leBytes 8
          (16 + layout.entrySize * paths.length + (paths.map wcharBytes).flatten.length))) =
      some buffer ∧ Decodes layout buffer paths := by
  rw [write_header]
  refine ⟨_, rfl, paths.map wcharBytes, ?_, ?_⟩
  · have hlength : (paths.map wcharBytes).length = paths.length := length_map _
    have htotal : 16 + layout.entrySize * paths.length + (paths.map wcharBytes).flatten.length =
        16 + (paths.map wcharBytes).length * layout.entrySize +
          (paths.map wcharBytes).flatten.length := by
      rw [hlength, Nat.mul_comm]
    rw [nil_append, ← hlength]
    rw [← hlength] at htotal hfits hnumber
    exact h.holds htotal (by norm_num at hfits ⊢; exact hfits) (by norm_num at hnumber ⊢; exact hnumber)
  · rw [map_map]
    exact (map_congr_left fun path _ => wchars_wcharBytes path).trans (map_id _)

end Filling

variable (texts : List WString)

def Resident : Prop := (texts.map fun text => 24 + text.length * 2).sum < 2 ^ 64

theorem sum_resident : (texts.map fun text => 24 + text.length * 2).sum =
    24 * texts.length + (texts.map wcharBytes).flatten.length := by
  induction texts with
  | nil => rfl
  | cons text texts ih =>
    simp only [map_cons, sum_cons, ih, length_cons, flatten_cons, length_append,
      length_wcharBytes]
    ring

/-- The buffer is not larger than the list that it is made from, but for the header. -/
theorem Resident.fits {texts : List WString} (h : Resident texts)
    (hshort : ∀ text ∈ texts, (wcharBytes text).length < 65536) :
    16 + 16 * texts.length + (texts.map wcharBytes).flatten.length < 2 ^ 64 := by
  rw [Resident, sum_resident] at h
  match texts with
  | [] => simp
  | [text] =>
    have htext := hshort text mem_cons_self
    simp only [length_singleton, map_singleton, flatten_singleton]
    omega
  | _ :: _ :: _ =>
    simp only [length_cons] at h ⊢
    omega

theorem generateAppConfiguration_decodes {QueryDosDeviceW : DosDevices} {appPaths : List WString}
    (hshort : ∀ path ∈ appPaths, (wcharBytes (convertPath QueryDosDeviceW path)).length < 65536)
    (hresident : Resident (appPaths.map (convertPath QueryDosDeviceW))) :
    ∃ buffer, generateAppConfiguration QueryDosDeviceW appPaths = some buffer ∧
      Decodes configurationEntry buffer (appPaths.map (convertPath QueryDosDeviceW)) := by
  have hlength : (appPaths.map (convertPath QueryDosDeviceW)).length = appPaths.length :=
    length_map _
  rw [← forall_mem_map (P := fun path => (wcharBytes path).length < 65536)] at hshort
  unfold generateAppConfiguration
  rw [← hlength]
  generalize appPaths.map (convertPath QueryDosDeviceW) = dosPaths at hshort hresident
  have hfits := hresident.fits hshort
  obtain ⟨entries, slices, hfill, hlaid⟩ := @Layout.Laid.of_loop configurationEntry _ wcharBytes
    (fun dosPaths entry offset => fillConfiguration dosPaths entry
      (entry + (16 * dosPaths.length + offset)) offset) (2 ^ 64) (by norm_num) (fun _ _ _ => rfl)
    fillConfiguration_cons dosPaths (replicate 16 0) [] hshort (by rw [length_nil]; omega)
  obtain ⟨buffer, hheader, hdecodes⟩ := decodes_of_laid hlaid hfits (by omega)
  refine ⟨buffer, ?_, hdecodes⟩
  dsimp only
  rw [stringSize_eq (by omega), Nat.mod_eq_of_lt hfits, replicate_buffer]
  rw [length_replicate, length_nil, Nat.add_zero,
    show configurationEntry.entrySize = 16 from rfl] at hfill
  rw [hfill]
  exact hheader

section Discovery

/-- The values of the map: in the order of their keys, with paths that come from the buffer. -/
structure Discovered (processes : List ProcessInfo) : Prop where
  sorted : processes.Pairwise fun p q => p.ProcessId < q.ProcessId
  short : ∀ process ∈ processes, process.DevicePath.length ≤ MAX_PATH

variable {processes : List ProcessInfo}

theorem mem_insertProcess {info process : ProcessInfo} (h : process ∈ insertProcess info processes) :
    process = info ∨ process ∈ processes := by
  induction processes with
  | nil => exact Or.inl (mem_singleton.mp h)
  | cons first processes ih =>
    unfold insertProcess at h
    split_ifs at h
    · exact mem_cons.mp h
    · exact (mem_cons.mp h).imp_right (mem_cons_of_mem first)
    · rcases mem_cons.mp h with rfl | h
      · exact Or.inr mem_cons_self
      · exact (ih h).imp_right (mem_cons_of_mem first)

theorem sorted_insertProcess (info : ProcessInfo)
    (h : processes.Pairwise fun p q => p.ProcessId < q.ProcessId) :
    (insertProcess info processes).Pairwise fun p q => p.ProcessId < q.ProcessId := by
  induction h with
  | nil => exact pairwise_singleton _ _
  | @cons first processes hfirst hrest ih =>
    unfold insertProcess
    split_ifs with hlt heq
    · refine .cons (fun process hprocess => ?_) (.cons hfirst hrest)
      rcases mem_cons.mp hprocess with rfl | hprocess
      · exact hlt
      · exact UInt32.lt_trans hlt (hfirst process hprocess)
    · exact .cons (fun process hprocess => heq ▸ hfirst process hprocess) hrest
    · refine .cons (fun process hprocess => ?_) ih
      rcases mem_insertProcess hprocess with rfl | hprocess
      · exact UInt32.lt_of_le_of_ne (UInt32.not_lt.mp hlt) (Ne.symm heq)
      · exact hfirst process hprocess

theorem short_getProcessInfo (visit : Visit) : (getProcessInfo visit).DevicePath.length ≤ MAX_PATH := by
  unfold getProcessInfo
  cases visit.imagepath with
  | none => exact Nat.zero_le _
  | some image => exact image.fits

theorem Discovered.visit (h : Discovered processes) (visit : Visit) :
    Discovered (visitProcess processes visit) := by
  unfold visitProcess
  split_ifs
  · exact h
  · refine ⟨sorted_insertProcess _ h.sorted, fun process hprocess => ?_⟩
    rcases mem_insertProcess hprocess with rfl | hprocess
    · exact short_getProcessInfo visit
    · exact h.short process hprocess

theorem discovered_processList (snapshot : Option (Visit × List Visit)) :
    Discovered (processList snapshot) := by
  have hnil : Discovered [] := ⟨List.Pairwise.nil, by simp⟩
  unfold processList
  split
  · exact hnil
  · apply foldlRecOn
    · exact hnil
    · exact fun processes h visit _ => h.visit visit

theorem Discovered.length_le (h : Discovered processes) : processes.length ≤ 2 ^ 32 := by
  have hnodup : (processes.map fun process => process.ProcessId.toNat).Nodup := by
    rw [List.Nodup, pairwise_map]
    exact h.sorted.imp fun hlt => (UInt32.lt_iff_toNat_lt.mp hlt).ne
  have hsubset : (processes.map fun process => process.ProcessId.toNat) ⊆ range (2 ^ 32) := by
    intro id hid
    obtain ⟨process, -, rfl⟩ := mem_map.mp hid
    exact mem_range.mpr process.ProcessId.toNat_lt
  have hle := (hnodup.subperm hsubset).length_le
  rwa [length_map, length_range] at hle

theorem Discovered.length_paths_le (h : Discovered processes) :
    (processes.map fun process => wcharBytes process.DevicePath).flatten.length ≤
      520 * processes.length := by
  have hshort := h.short
  clear h
  induction processes with
  | nil => exact Nat.zero_le _
  | cons process processes ih =>
    obtain ⟨hprocess, hshort⟩ := forall_mem_cons.mp hshort
    have hrest := ih hshort
    simp only [map_cons, flatten_cons, length_append, length_wcharBytes, length_cons,
      MAX_PATH] at hprocess ⊢
    omega

variable {snapshot : Option (Visit × List Visit)}

theorem generateProcessBlob_decodes (hsome : processList snapshot ≠ []) :
    ∃ buffer, generateProcessBlob snapshot = some buffer ∧
      Decodes discoveryEntry buffer ((processList snapshot).map (·.DevicePath)) := by
  have hdiscovered := discovered_processList snapshot
  unfold generateProcessBlob
  generalize processList snapshot = processes at hsome hdiscovered
  have hlength := hdiscovered.length_le
  have hpaths := hdiscovered.length_paths_le
  have hmap : (processes.map (·.DevicePath)).map wcharBytes =
      processes.map fun process => wcharBytes process.DevicePath := map_map
  have hshort : ∀ process ∈ processes, (wcharBytes process.DevicePath).length < 65536 := by
    intro process hprocess
    have hprocess := hdiscovered.short process hprocess
    rw [length_wcharBytes]
    simp only [MAX_PATH] at hprocess
    omega
  obtain ⟨entries, slices, hfill, hlaid⟩ := @Layout.Laid.of_loop discoveryEntry _
    (fun process => wcharBytes process.DevicePath)
    (fun processes entry => fillBlob processes entry (entry + 32 * processes.length)) (2 ^ 64)
    (by norm_num) (fun _ _ _ => rfl) fillBlob_cons processes (replicate 16 0) [] hshort
    (by rw [length_nil]; omega)
  rw [← hmap] at hfill hlaid hpaths
  have hcount : (processes.map (·.DevicePath)).length = processes.length := length_map _
  have hfits : 16 + 32 * processes.length +
      ((processes.map (·.DevicePath)).map wcharBytes).flatten.length < 2 ^ 64 := by omega
  obtain ⟨buffer, hheader, hdecodes⟩ := decodes_of_laid hlaid (by rw [hcount]; exact hfits) (by omega)
  refine ⟨buffer, ?_, hdecodes⟩
  dsimp only
  rw [if_neg (by simpa using hsome), stringSize_eq (by omega), Nat.mod_eq_of_lt hfits, replicate_buffer]
  rw [length_replicate, length_nil, show discoveryEntry.entrySize = 32 from rfl] at hfill
  rw [hfill]
  rw [hcount] at hheader
  exact hheader

theorem not_decodes_nil (layout : Layout) (paths : List WString) : ¬ Decodes layout [] paths := by
  rintro ⟨strings, ⟨slices, hdecode, -, -⟩, -⟩
  simp [Layout.decode, EntryTables.read] at hdecode

theorem generateProcessBlob_of_nil (hnil : processList snapshot = []) :
    generateProcessBlob snapshot = some [] := by
  simp [generateProcessBlob, hnil, length_nil]

end Discovery

end AmneziaVpn.WindowsSplitTunnel
