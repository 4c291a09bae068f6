import AmneziaVpn.QtText
import AmneziaVpn.TerminatedLines

/-!
# Messages on the socket of the daemon

The client and the daemon send each other lines. Both collect what they read in a buffer, take the
lines out of it and dispatch those that are not blank.
-/

namespace AmneziaVpn

open TerminatedLines List

namespace QByteArray

def trimmed (bytes : QByteArray) : QByteArray :=
  ((bytes.dropWhile space).reverse.dropWhile space).reverse
where
  space (b : UInt8) : Bool := b == 0x20 || (9 ≤ b && b ≤ 13)

end QByteArray

/-- A side of a connection: the buffer and the commands that `parseCommand` was called with. -/
structure LineReader where
  m_buffer : QByteArray := []
  parsed : List QByteArray := []

namespace LineReader

def newline : UInt8 := 0x0a

def takeLine (reader : LineReader) : Option LineReader :=
  (reader.m_buffer.idxOf? newline).map fun pos =>
    let line := reader.m_buffer.take pos
    let m_buffer := reader.m_buffer.drop (pos + 1)
    let command := QByteArray.trimmed line
    if command = [] then ⟨m_buffer, reader.parsed⟩ else ⟨m_buffer, reader.parsed ++ [command]⟩

def commands (lines : List QByteArray) : List QByteArray :=
  (lines.map QByteArray.trimmed).filter (· ≠ [])

def after (reader : LineReader) (input : QByteArray) : LineReader where
  m_buffer := remainder newline (reader.m_buffer ++ input)
  parsed := reader.parsed ++ commands (lines newline (reader.m_buffer ++ input))

variable {reader next : LineReader}

theorem not_mem_of_takeLine (h : reader.takeLine = none) : newline ∉ reader.m_buffer :=
  idxOf?_eq_none_iff.mp (Option.map_eq_none_iff.mp h)

theorem parsed_takeLine {line rest : QByteArray} (hline : newline ∉ line)
    (hbuffer : reader.m_buffer = line ++ newline :: rest) :
    reader.takeLine = some ⟨rest, reader.parsed ++ commands [line]⟩ := by
  have hpos : reader.m_buffer.idxOf? newline = some line.length := by
    rw [hbuffer, idxOf?_eq_some_iff]
    refine ⟨by simp, by simp, fun j hj hnewline => hline ?_⟩
    rw [getElem_append_left hj] at hnewline
    exact hnewline ▸ getElem_mem hj
  have htake : reader.m_buffer.take line.length = line := by
    rw [hbuffer, take_left]
  have hdrop : reader.m_buffer.drop (line.length + 1) = rest := by
    rw [hbuffer, ← drop_drop, drop_left, drop_one, tail_cons]
  unfold takeLine
  rw [hpos, Option.map_some, htake, hdrop]
  dsimp only
  split_ifs with hcommand
  · simp [commands, hcommand]
  · simp [commands, hcommand]

theorem m_buffer_of_takeLine (h : reader.takeLine = some next) :
    ∃ line, newline ∉ line ∧ reader.m_buffer = line ++ newline :: next.m_buffer ∧
      next.parsed = reader.parsed ++ commands [line] := by
  have hmem : newline ∈ reader.m_buffer := by
    by_contra hnot
    rw [takeLine, idxOf?_eq_none_iff.mpr hnot] at h
    cases h
  obtain ⟨line, rest, hbuffer, hline⟩ := eq_append_cons_of_mem hmem
  obtain rfl := Option.some.inj ((parsed_takeLine hline hbuffer).symm.trans h)
  exact ⟨line, hline, hbuffer, rfl⟩

theorem length_takeLine (h : reader.takeLine = some next) :
    next.m_buffer.length < reader.m_buffer.length := by
  obtain ⟨line, -, hbuffer, -⟩ := m_buffer_of_takeLine h
  rw [hbuffer, length_append, length_cons]
  omega

theorem commands_append (ls ms : List QByteArray) :
    commands (ls ++ ms) = commands ls ++ commands ms := by
  rw [commands, map_append, filter_append]
  rfl

theorem after_takeLine (h : reader.takeLine = some next) (input : QByteArray) :
    reader.after input = next.after input := by
  obtain ⟨line, hline, hbuffer, hparsed⟩ := m_buffer_of_takeLine h
  unfold after
  rw [hbuffer, append_assoc, cons_append, lines_append_cons hline,
    remainder_append_cons hline, hparsed, ← singleton_append, commands_append,
    append_assoc]

theorem after_nil (h : newline ∉ reader.m_buffer) : reader.after [] = reader := by
  unfold after
  rw [append_nil, lines_of_not_mem h, remainder_of_not_mem h]
  simp [commands]

theorem after_append (reader : LineReader) (input more : QByteArray) :
    (reader.after input).after more = reader.after (input ++ more) := by
  unfold after
  dsimp only
  rw [← append_assoc, lines_append (reader.m_buffer ++ input),
    remainder_append (reader.m_buffer ++ input), commands_append, append_assoc]

/-- What a reader does with every part, it does with all of them together. -/
theorem foldl_after {ι : Type} {read : LineReader → ι → LineReader} {bytes : ι → QByteArray}
    (h : ∀ reader i, read reader i = reader.after (bytes i)) (parts : List ι)
    (hreader : newline ∉ reader.m_buffer) :
    parts.foldl read reader = reader.after (parts.flatMap bytes) := by
  induction parts generalizing reader with
  | nil => rw [foldl_nil, flatMap_nil, after_nil hreader]
  | cons i parts ih =>
    rw [foldl_cons, h, ih (not_mem_remainder _ _), after_append, flatMap_cons]

end LineReader

namespace LocalSocketController

open LineReader

def takeLines (reader : LineReader) : LineReader :=
  match _h : reader.takeLine with
  | none => reader
  | some next => takeLines next
termination_by reader.m_buffer.length
decreasing_by exact length_takeLine (by assumption)

variable (reader : LineReader)

def readData (input : QByteArray) : LineReader :=
  takeLines { reader with m_buffer := reader.m_buffer ++ input }

theorem takeLines_eq : takeLines reader = reader.after [] := by
  fun_induction takeLines reader with
  | case1 reader h => exact (after_nil (not_mem_of_takeLine h)).symm
  | case2 reader next h ih => rw [ih, after_takeLine h]

theorem readData_eq (input : QByteArray) : readData reader input = reader.after input := by
  rw [readData, takeLines_eq, LineReader.after, LineReader.after, append_nil]

end LocalSocketController

namespace DaemonLocalServerConnection

open LineReader

/-- What `readAll` returns while there is something to read. -/
structure Input where
  bytes : QByteArray
  ne_nil : bytes ≠ []

/-- One call with all that can be read during it. -/
def readData (reader : LineReader) (inputs : List Input) : LineReader :=
  match _h : reader.takeLine, inputs with
  | some next, inputs => readData next inputs
  | none, input :: inputs =>
      readData { reader with m_buffer := reader.m_buffer ++ input.bytes } inputs
  | none, [] => reader
termination_by (inputs.length, reader.m_buffer.length)
decreasing_by
  · exact Prod.Lex.right _ (length_takeLine (by assumption))
  · exact Prod.Lex.left _ _ (Nat.lt_succ_self _)

theorem readData_eq (reader : LineReader) (inputs : List Input) :
    readData reader inputs = reader.after (inputs.flatMap Input.bytes) := by
  fun_induction readData reader inputs with
  | case1 reader inputs next h ih => rw [ih, after_takeLine h]
  | case2 reader input inputs h ih =>
    rw [ih, LineReader.after, LineReader.after, flatMap_cons, append_assoc]
  | case3 reader h => exact (after_nil (not_mem_of_takeLine h)).symm

end DaemonLocalServerConnection

end AmneziaVpn
