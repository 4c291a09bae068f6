import AmneziaVpn.ServerController

/-!
# Scripts that run on the server

A script is sent line by line. A line that ends in a backslash is continued by the next one.
-/

namespace AmneziaVpn.ServerController

open List

def isComment (line : String) : Bool := QString.startsWith line "#"

def continued (totalLine currentLine : String) : String :=
  if totalLine = "" then currentLine else totalLine ++ "\n" ++ currentLine

def scriptLines (script : String) : List String :=
  QString.splitSkipEmpty (QString.replace script "\r" "") "\n"

/-- The logical lines that are complete, and what is left of one that is not. -/
def logicalLines : String → List String → List String × String
  | rest, [] => ([], rest)
  | rest, line :: lines =>
      if QString.endsWith line "\\" then logicalLines (continued rest line) lines
      else (continued rest line :: (logicalLines "" lines).1, (logicalLines "" lines).2)

def commands (lines : List String) : List String := lines.filter fun line => line ≠ "" && !isComment line

section Scripts

variable (executeCommand : List String → String → Option ErrorCode)

/-- The result and the commands that were executed, on which `executeCommand` may depend. -/
def runLines : List String → String → List String → Option ErrorCode × List String
  | [], _, executed => (none, executed)
  | currentLine :: lines, totalLine, executed =>
      if QString.endsWith currentLine "\\" then
        runLines lines (continued totalLine currentLine) executed
      else
        let lineToExec := continued totalLine currentLine
        if isComment lineToExec then runLines lines "" executed
        else
          match executeCommand executed lineToExec with
          | some error => (some error, executed ++ [lineToExec])
          | none => runLines lines "" (executed ++ [lineToExec])

variable (connectToHost : Option ErrorCode) (script : String)

def runScript : Option ErrorCode × List String :=
  match connectToHost with
  | some error => (some error, [])
  | none => runLines executeCommand (scriptLines script) "" []

def inOrder : List String → List String → Option ErrorCode × List String
  | [], executed => (none, executed)
  | command :: commands, executed =>
      match executeCommand executed command with
      | some error => (some error, executed ++ [command])
      | none => inOrder commands (executed ++ [command])

/-- All logical lines in order, up to the first one that fails. -/
def intended : Option ErrorCode × List String :=
  match connectToHost with
  | some error => (some error, [])
  | none =>
      let lines := logicalLines "" (scriptLines script)
      inOrder executeCommand (commands (lines.1 ++ [lines.2])) []

variable {executeCommand} {lines : List String} {totalLine : String} {executed : List String}

theorem runLines_eq (h : ∀ line ∈ lines, line ≠ "") :
    runLines executeCommand lines totalLine executed =
      inOrder executeCommand (commands (logicalLines totalLine lines).1) executed := by
  induction lines generalizing totalLine executed with
  | nil => rfl
  | cons line lines ih =>
    obtain ⟨hline, hlines⟩ := forall_mem_cons.mp h
    have hne : continued totalLine line ≠ "" := by
      unfold continued
      split_ifs
      · exact hline
      · simp
    rw [runLines, logicalLines]
    split_ifs with hends
    · exact ih hlines
    dsimp only
    split_ifs with hcomment
    · rw [ih hlines, commands, commands, filter_cons_of_neg (by simp [hcomment])]
    · rw [commands, filter_cons_of_pos (by simp [hne, hcomment]), inOrder, ← commands]
      cases executeCommand executed (continued totalLine line) with
      | some error => rfl
      | none => exact ih hlines

theorem inOrder_append (l r : List String) : inOrder executeCommand (l ++ r) executed =
    if (inOrder executeCommand l executed).1 = none then
      inOrder executeCommand r (inOrder executeCommand l executed).2
    else inOrder executeCommand l executed := by
  induction l generalizing executed with
  | nil => rfl
  | cons command l ih =>
    rw [cons_append, inOrder, inOrder]
    cases executeCommand executed command with
    | some error => rfl
    | none => exact ih

theorem inOrder_singleton (command : String) :
    (inOrder executeCommand [command] executed).2 = executed ++ [command] := by
  rw [inOrder]
  cases executeCommand executed command <;> rfl

variable (executeCommand)

end Scripts

end AmneziaVpn.ServerController
