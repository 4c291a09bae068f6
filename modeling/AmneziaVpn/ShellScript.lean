import Mathlib.Tactic

/-!
# Shell lists of commands that may fail

A script is built from commands by `!`, `&&`, `||` and `if`. Running it threads the state through
the commands in order and returns the exit status: a command that fails leaves the state alone.
-/

namespace ShellScript

inductive Script (κ : Type)
  | cmd (c : κ)
  | pass
  | neg (s : Script κ)
  | andThen (s t : Script κ)
  | orElse (s t : Script κ)
  | ite (c s t : Script κ)

variable {κ σ : Type} (exec : κ → σ → Option σ)

namespace Script

def run : Script κ → σ → σ × Bool
  | cmd c, x => match exec c x with
      | some y => (y, true)
      | none => (x, false)
  | pass, x => (x, true)
  | neg s, x => ((run s x).1, !(run s x).2)
  | andThen s t, x => if (run s x).2 then run t (run s x).1 else run s x
  | orElse s t, x => if (run s x).2 then run s x else run t (run s x).1
  | ite c s t, x => if (run c x).2 then run s (run c x).1 else run t (run c x).1

variable {exec} {c : κ} {s t u : Script κ} {x y : σ}

theorem run_cmd_of_some (h : exec c x = some y) : (cmd c).run exec x = (y, true) := by
  simp [run, h]

theorem run_cmd_of_none (h : exec c x = none) : (cmd c).run exec x = (x, false) := by
  simp [run, h]

@[simp] theorem run_pass : (pass : Script κ).run exec x = (x, true) := rfl

theorem run_neg {b : Bool} (h : s.run exec x = (y, b)) : (neg s).run exec x = (y, !b) := by
  simp [run, h]

theorem run_andThen_of_true (h : s.run exec x = (y, true)) :
    (andThen s t).run exec x = t.run exec y := by
  simp [run, h]

theorem run_orElse_of_true (h : s.run exec x = (y, true)) :
    (orElse s t).run exec x = (y, true) := by
  simp [run, h]

theorem run_ite_of_true (h : s.run exec x = (y, true)) :
    (ite s t u).run exec x = t.run exec y := by
  simp [run, h]

theorem run_ite_of_false (h : s.run exec x = (y, false)) :
    (ite s t u).run exec x = u.run exec y := by
  simp [run, h]

end Script

end ShellScript
