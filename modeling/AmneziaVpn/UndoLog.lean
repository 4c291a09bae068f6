import Mathlib.Logic.Function.Basic
import Mathlib.Tactic

/-!
# Tables with an undo log

An insertion finds its key taken, is refused or takes place, and according to the outcome the entry
is logged.
-/

namespace UndoLog

open List

variable {Key Value Entry : Type*}

abbrev Table (Key Value : Type*) := Key → Option Value

inductive Outcome
  | added | taken | refused
  deriving DecidableEq

/-- What entries are about, who decides on them, and what is done with the log. -/
structure Rules (Key Value Entry : Type*) where
  key : Entry → Key
  accepts : Table Key Value → Entry → Bool
  value : Table Key Value → Entry → Value
  logs : Outcome → Bool
  exempt : Entry → Bool
  logs_added : logs .added = true

structure State (Key Value Entry : Type*) where
  table : Table Key Value
  log : List Entry

section Rules

variable (R : Rules Key Value Entry)

def attempt (t : Table Key Value) (e : Entry) : Outcome :=
  if (t (R.key e)).isSome then .taken else if R.accepts t e then .added else .refused

def Deleted (log : List Entry) (k : Key) : Prop := ∃ e ∈ log, R.exempt e = false ∧ R.key e = k

/-- What a run of insertions does: what was there stays, and what is new is logged. -/
structure Extends (s s' : State Key Value Entry) : Prop where
  kept : ∀ k, s.table k ≠ none → s'.table k = s.table k
  log : ∀ e ∈ s.log, e ∈ s'.log
  logged : ∀ k, s'.table k ≠ s.table k → ∃ e ∈ s'.log, R.key e = k

variable {R} {t : Table Key Value} {e : Entry} {s s' s'' : State Key Value Entry} {k : Key}

theorem attempt_eq_added : attempt R t e = .added ↔ t (R.key e) = none ∧ R.accepts t e = true := by
  unfold attempt
  split_ifs with htaken haccepts
  · simp [Option.isSome_iff_ne_none.mp htaken]
  · simpa [haccepts] using htaken
  · simp [haccepts]

theorem deleted_cons {log : List Entry} :
    Deleted R (e :: log) k ↔ R.exempt e = false ∧ R.key e = k ∨ Deleted R log k := by
  simp [Deleted, mem_cons, or_and_right, exists_or]

namespace Extends

theorem refl (s : State Key Value Entry) : Extends R s s :=
  ⟨fun _ _ => rfl, fun _ h => h, fun _ h => absurd rfl h⟩

theorem trans (h : Extends R s s') (h' : Extends R s' s'') : Extends R s s'' := by
  refine ⟨?_, fun e he => h'.log e (h.log e he), ?_⟩
  · intro k hk
    have hsame := h.kept k hk
    rw [h'.kept k (hsame ▸ hk), hsame]
  · intro k hk
    by_cases hchange : s''.table k = s'.table k
    · obtain ⟨e, he, hkey⟩ := h.logged k (hchange ▸ hk)
      exact ⟨e, h'.log e he, hkey⟩
    · exact h'.logged k hchange

end Extends

end Rules

variable [DecidableEq Key] (R : Rules Key Value Entry)

def insert (t : Table Key Value) (e : Entry) : Table Key Value :=
  if attempt R t e = .added then Function.update t (R.key e) (some (R.value t e)) else t

def add (s : State Key Value Entry) (e : Entry) : State Key Value Entry where
  table := insert R s.table e
  log := if R.logs (attempt R s.table e) then s.log ++ [e] else s.log

def addAll (s : State Key Value Entry) (es : List Entry) : State Key Value Entry := es.foldl (add R) s

def erase (t : Table Key Value) (e : Entry) : Table Key Value :=
  if R.exempt e then t else Function.update t (R.key e) none

def clear (s : State Key Value Entry) : State Key Value Entry := ⟨s.log.foldl (erase R) s.table, []⟩

/-- Every logged entry is new, and each one has its own key. -/
structure NewOnly (t : Table Key Value) (s : State Key Value Entry) : Prop where
  absent : ∀ e ∈ s.log, t (R.key e) = none
  present : ∀ e ∈ s.log, s.table (R.key e) ≠ none
  nodup : (s.log.map R.key).Nodup
  kept : ∀ k, t k ≠ none → s.table k ≠ none

variable {R} {s s' : State Key Value Entry} {t : Table Key Value} {e : Entry} {k : Key}

theorem insert_of_ne (h : k ≠ R.key e) : insert R t e k = t k := by
  unfold insert
  split_ifs
  · exact Function.update_of_ne h _ _
  · rfl

theorem insert_of_ne_none (h : t k ≠ none) : insert R t e k = t k := by
  by_cases hk : k = R.key e
  · rw [insert, if_neg]
    rw [attempt_eq_added, ← hk]
    exact fun hadded => h hadded.1
  · exact insert_of_ne hk

theorem insert_self_of_added (h : attempt R t e = .added) : insert R t e (R.key e) ≠ none := by
  rw [insert, if_pos h, Function.update_self]
  exact Option.some_ne_none _

theorem log_add_of_added (h : attempt R s.table e = .added) : (add R s e).log = s.log ++ [e] := by
  rw [add, h, R.logs_added]
  rfl

theorem mem_log_add {e' : Entry} (h : e' ∈ s.log) : e' ∈ (add R s e).log := by
  unfold add
  dsimp only
  split_ifs
  · exact mem_append_left _ h
  · exact h

theorem mem_log_of_mem_addAll {es : List Entry} (h : e ∈ (addAll R s es).log) :
    e ∈ s.log ∨ e ∈ es := by
  induction es generalizing s with
  | nil => exact Or.inl h
  | cons e' es ih =>
    rcases ih h with hlog | hes
    · unfold add at hlog
      dsimp only at hlog
      split_ifs at hlog
      · rcases mem_append.mp hlog with hlog | hlast
        · exact Or.inl hlog
        · exact Or.inr (mem_singleton.mp hlast ▸ mem_cons_self)
      · exact Or.inl hlog
    · exact Or.inr (mem_cons_of_mem _ hes)

namespace Extends

theorem add (s : State Key Value Entry) (e : Entry) : Extends R s (add R s e) := by
  refine ⟨fun k hk => insert_of_ne_none hk, fun _ he => mem_log_add he, ?_⟩
  intro k hk
  by_cases hadded : attempt R s.table e = .added
  · refine ⟨e, ?_, ?_⟩
    · rw [log_add_of_added hadded]
      exact mem_append_right _ mem_cons_self
    · by_contra hne
      exact hk (insert_of_ne (Ne.symm hne))
  · exact absurd (congrFun (if_neg hadded) k) hk

theorem addAll (s : State Key Value Entry) (es : List Entry) : Extends R s (addAll R s es) := by
  induction es generalizing s with
  | nil => exact refl s
  | cons e es ih => exact (add s e).trans (ih _)

end Extends

theorem foldl_erase (log : List Entry) (t : Table Key Value) (k : Key) :
    (Deleted R log k → log.foldl (erase R) t k = none) ∧
      (¬ Deleted R log k → log.foldl (erase R) t k = t k) := by
  induction log generalizing t with
  | nil => exact ⟨fun ⟨_, he, _⟩ => absurd he not_mem_nil, fun _ => rfl⟩
  | cons e log ih =>
    obtain ⟨hdeleted, hother⟩ := ih (erase R t e)
    rw [deleted_cons, foldl_cons]
    constructor
    · rintro h
      by_cases hlog : Deleted R log k
      · exact hdeleted hlog
      · obtain ⟨hexempt, rfl⟩ := h.resolve_right hlog
        rw [hother hlog, erase, hexempt, if_neg Bool.false_ne_true, Function.update_self]
    · intro h
      rw [not_or] at h
      rw [hother h.2, erase]
      split_ifs with hexempt
      · rfl
      · refine Function.update_of_ne ?_ _ _
        rintro rfl
        exact h.1 ⟨by simpa using hexempt, rfl⟩

theorem clear_of_deleted (h : Deleted R s.log k) : (clear R s).table k = none :=
  (foldl_erase s.log s.table k).1 h

theorem clear_of_not_deleted (h : ¬ Deleted R s.log k) : (clear R s).table k = s.table k :=
  (foldl_erase s.log s.table k).2 h

theorem clear_eq_iff (h : Extends R ⟨t, []⟩ s) :
    (clear R s).table = t ↔
      (∀ e ∈ s.log, R.exempt e = false → t (R.key e) = none) ∧
      ∀ e ∈ s.log, R.exempt e = true → Deleted R s.log (R.key e) ∨ s.table (R.key e) = t (R.key e) := by
  constructor
  · intro heq
    constructor
    · intro e he hexempt
      rw [← heq]
      exact clear_of_deleted ⟨e, he, hexempt, rfl⟩
    · intro e _ _
      by_cases hdeleted : Deleted R s.log (R.key e)
      · exact Or.inl hdeleted
      · refine Or.inr ?_
        rw [← clear_of_not_deleted hdeleted, heq]
  · rintro ⟨hnew, hexempt⟩
    funext k
    by_cases hdeleted : Deleted R s.log k
    · rw [clear_of_deleted hdeleted]
      obtain ⟨e, he, hkey, rfl⟩ := hdeleted
      exact (hnew e he hkey).symm
    · rw [clear_of_not_deleted hdeleted]
      by_contra hchange
      obtain ⟨e, he, rfl⟩ := h.logged k hchange
      have hkey : R.exempt e = true := by
        by_contra hkey
        exact hdeleted ⟨e, he, by simpa using hkey, rfl⟩
      rcases hexempt e he hkey with hother | hsame
      · exact hdeleted hother
      · exact hchange hsame

section OnlyAdded

variable (hlogs : ∀ outcome, R.logs outcome = true → outcome = .added)

include hlogs

theorem NewOnly.add (h : NewOnly R t s) (e : Entry) : NewOnly R t (add R s e) := by
  have hkept : ∀ k, s.table k ≠ none → (UndoLog.add R s e).table k ≠ none := by
    intro k hk
    rw [(Extends.add s e).kept k hk]
    exact hk
  by_cases hadded : attempt R s.table e = .added
  · have hlog := log_add_of_added hadded
    have hfree : s.table (R.key e) = none := (attempt_eq_added.mp hadded).1
    refine ⟨?_, ?_, ?_, fun k hk => hkept k (h.kept k hk)⟩
    · intro e' he'
      rw [hlog, mem_append, mem_singleton] at he'
      rcases he' with he' | rfl
      · exact h.absent e' he'
      · by_contra hne
        exact h.kept _ hne hfree
    · intro e' he'
      rw [hlog, mem_append, mem_singleton] at he'
      rcases he' with he' | rfl
      · exact hkept _ (h.present e' he')
      · exact insert_self_of_added hadded
    · rw [hlog, map_append, map_singleton, nodup_append]
      refine ⟨h.nodup, nodup_singleton _, ?_⟩
      intro k hk k' hk' heq
      obtain ⟨e', he', rfl⟩ := mem_map.mp hk
      rw [mem_singleton] at hk'
      exact h.present e' he' (heq.trans hk' ▸ hfree)
  · have hlog : (UndoLog.add R s e).log = s.log :=
      if_neg fun hlogged => hadded (hlogs _ hlogged)
    exact ⟨hlog ▸ h.absent, fun e' he' => hkept _ (h.present e' (hlog ▸ he')), hlog ▸ h.nodup,
      fun k hk => hkept k (h.kept k hk)⟩

theorem NewOnly.addAll (h : NewOnly R t s) (es : List Entry) : NewOnly R t (addAll R s es) := by
  induction es generalizing s with
  | nil => exact h
  | cons e es ih => exact ih (h.add hlogs e)

end OnlyAdded

theorem NewOnly.clear_eq_iff (h : NewOnly R t s) (hextends : Extends R ⟨t, []⟩ s) :
    (clear R s).table = t ↔ ∀ e ∈ s.log, R.exempt e = false := by
  rw [UndoLog.clear_eq_iff hextends]
  constructor
  · rintro ⟨-, hleft⟩ e he
    by_contra hexempt
    have hexempt : R.exempt e = true := by simpa using hexempt
    rcases hleft e he hexempt with ⟨e', he', hexempt', hkey⟩ | hsame
    · have heq : e' = e := inj_on_of_nodup_map h.nodup he' he hkey
      rw [heq, hexempt] at hexempt'
      cases hexempt'
    · exact h.present e he (hsame.trans (h.absent e he))
  · intro hnone
    refine ⟨fun e he _ => h.absent e he, fun e he hexempt => ?_⟩
    rw [hnone e he] at hexempt
    cases hexempt

end UndoLog
