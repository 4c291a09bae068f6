import Mathlib.Tactic

/-!
# Backtracking regular expressions

Patterns with capture groups, back references and negative lookahead, matched the way a backtracking
engine does: alternatives in order, repetitions greedily, the leftmost start first. `run` carries
the rest of the match as a continuation, so that a later failure makes an earlier choice be revised.
-/

namespace BacktrackingRegex

open List Option

inductive Regex
  | cls (p : Char → Bool)
  | seq (r s : Regex)
  | alt (r s : Regex)
  | opt (r : Regex)
  | rep (min : ℕ) (r : Regex)
  | group (i : ℕ) (r : Regex)
  | backref (i : ℕ)
  | notAhead (r : Regex)
  | atStart
  | wordBoundary

/-- A position in the text. `before` holds the consumed characters, the last one first. -/
structure Position where
  before : List Char
  after : List Char
  captures : ℕ → Option (List Char)

namespace Position

def start (before after : List Char) : Position := ⟨before, after, fun _ => none⟩

def advance (p : Position) (w rest : List Char) : Position :=
  { p with before := w.reverse ++ p.before, after := rest }

def capture (p : Position) (i : ℕ) (w : List Char) : Position :=
  { p with captures := Function.update p.captures i (some w) }

def consumedSince (p q : Position) : List Char :=
  (q.before.take (q.before.length - p.before.length)).reverse

def isWord (c : Char) : Bool := c.isAlphanum || c == '_'

def onWordBoundary (p : Position) : Bool :=
  p.before.head?.any isWord != p.after.head?.any isWord

end Position

abbrev Matcher := Position → (Position → Option Position) → Option Position

def repLoop (m : Matcher) : ℕ → ℕ → Matcher
  | 0, _, _, _ => none
  | fuel + 1, 0, p, k =>
      (m p fun q => if q.after.length < p.after.length then repLoop m fuel 0 q k else none).or (k p)
  | fuel + 1, min + 1, p, k => m p fun q => repLoop m fuel min q k

def run : Regex → Matcher
  | .cls c, p, k =>
      match p.after with
      | [] => none
      | x :: xs => if c x then k (p.advance [x] xs) else none
  | .seq r s, p, k => run r p fun q => run s q k
  | .alt r s, p, k => (run r p k).or (run s p k)
  | .opt r, p, k => (run r p k).or (k p)
  | .rep min r, p, k => repLoop (run r) (min + p.after.length + 1) min p k
  | .group i r, p, k => run r p fun q => k (q.capture i (p.consumedSince q))
  | .backref i, p, k =>
      match p.captures i with
      | none => none
      | some w => if w <+: p.after then k (p.advance w (p.after.drop w.length)) else none
  | .notAhead r, p, k => if (run r p some).isSome then none else k p
  | .atStart, p, k => if p.before = [] then k p else none
  | .wordBoundary, p, k => if p.onWordBoundary then k p else none

inductive Matches : Regex → Position → Position → Prop
  | cls {c : Char → Bool} {p : Position} {x : Char} {xs : List Char} :
      p.after = x :: xs → c x = true → Matches (.cls c) p (p.advance [x] xs)
  | seq {r s : Regex} {p q t : Position} : Matches r p q → Matches s q t → Matches (.seq r s) p t
  | altLeft {r s : Regex} {p q : Position} : Matches r p q → Matches (.alt r s) p q
  | altRight {r s : Regex} {p q : Position} : Matches s p q → Matches (.alt r s) p q
  | optSome {r : Regex} {p q : Position} : Matches r p q → Matches (.opt r) p q
  | optNone {r : Regex} {p : Position} : Matches (.opt r) p p
  | repStop {r : Regex} {p : Position} : Matches (.rep 0 r) p p
  | repMore {r : Regex} {p q t : Position} :
      Matches r p q → Matches (.rep 0 r) q t → Matches (.rep 0 r) p t
  | repSucc {r : Regex} {min : ℕ} {p q t : Position} :
      Matches r p q → Matches (.rep min r) q t → Matches (.rep (min + 1) r) p t
  | group {i : ℕ} {r : Regex} {p q : Position} :
      Matches r p q → Matches (.group i r) p (q.capture i (p.consumedSince q))
  | backref {i : ℕ} {p : Position} {w rest : List Char} :
      p.captures i = some w → p.after = w ++ rest → Matches (.backref i) p (p.advance w rest)
  | notAhead {r : Regex} {p : Position} : run r p some = none → Matches (.notAhead r) p p
  | atStart {p : Position} : p.before = [] → Matches .atStart p p
  | wordBoundary {p : Position} : p.onWordBoundary = true → Matches .wordBoundary p p

variable {k : Position → Option Position} {c : Char → Bool} {xs : List Char} {p q : Position}
  {r : Regex} {x : Char}

theorem repLoop_sound (hr : ∀ {p : Position} {k : Position → Option Position} {f : Position},
      run r p k = some f → ∃ q, Matches r p q ∧ k q = some f) (fuel min : ℕ) {p f : Position}
    (h : repLoop (run r) fuel min p k = some f) : ∃ q, Matches (.rep min r) p q ∧ k q = some f := by
  induction fuel generalizing min p with
  | zero => simp [repLoop] at h
  | succ fuel ih =>
    cases min with
    | zero =>
      rw [repLoop, or_eq_some_iff] at h
      rcases h with h | ⟨-, h⟩
      · obtain ⟨q, hq, hk⟩ := hr h
        split_ifs at hk
        obtain ⟨t, ht, hf⟩ := ih 0 hk
        exact ⟨t, .repMore hq ht, hf⟩
      · exact ⟨p, .repStop, h⟩
    | succ min =>
      obtain ⟨q, hq, hk⟩ := hr h
      obtain ⟨t, ht, hf⟩ := ih min hk
      exact ⟨t, .repSucc hq ht, hf⟩

theorem run_sound (r : Regex) {p f : Position} (h : run r p k = some f) :
    ∃ q, Matches r p q ∧ k q = some f := by
  induction r generalizing p f k with
  | cls c =>
    rw [run] at h
    split at h
    · simp at h
    · rename_i x xs hp
      split_ifs at h with hc
      exact ⟨_, .cls hp hc, h⟩
  | seq r s ihr ihs =>
    obtain ⟨q, hq, hk⟩ := ihr h
    obtain ⟨t, ht, hf⟩ := ihs hk
    exact ⟨t, .seq hq ht, hf⟩
  | alt r s ihr ihs =>
    rw [run, or_eq_some_iff] at h
    rcases h with h | ⟨-, h⟩
    · obtain ⟨q, hq, hf⟩ := ihr h
      exact ⟨q, .altLeft hq, hf⟩
    · obtain ⟨q, hq, hf⟩ := ihs h
      exact ⟨q, .altRight hq, hf⟩
  | opt r ih =>
    rw [run, or_eq_some_iff] at h
    rcases h with h | ⟨-, h⟩
    · obtain ⟨q, hq, hf⟩ := ih h
      exact ⟨q, .optSome hq, hf⟩
    · exact ⟨p, .optNone, h⟩
  | rep min r ih => exact repLoop_sound ih _ min h
  | group i r ih =>
    obtain ⟨q, hq, hf⟩ := ih h
    exact ⟨_, .group hq, hf⟩
  | backref i =>
    rw [run] at h
    split at h
    · simp at h
    · rename_i w hw
      split_ifs at h with hpre
      obtain ⟨rest, hrest⟩ := hpre
      rw [← hrest, drop_left] at h
      exact ⟨_, .backref hw hrest.symm, h⟩
  | notAhead r ih =>
    rw [run] at h
    split_ifs at h with hsome
    exact ⟨p, .notAhead (by simpa using hsome), h⟩
  | atStart =>
    rw [run] at h
    split_ifs at h with hb
    exact ⟨p, .atStart hb, h⟩
  | wordBoundary =>
    rw [run] at h
    split_ifs at h with hb
    exact ⟨p, .wordBoundary hb, h⟩

theorem Matches.consumes (h : Matches r p q) :
    ∃ w, p.after = w ++ q.after ∧ q.before = w.reverse ++ p.before := by
  induction h with
  | cls hp _ => exact ⟨[_], by simpa [Position.advance] using hp, rfl⟩
  | backref _ hp => exact ⟨_, hp, rfl⟩
  | group _ ih => exact ih
  | seq _ _ ih₁ ih₂ | repMore _ _ ih₁ ih₂ | repSucc _ _ ih₁ ih₂ =>
    obtain ⟨v, hv, hv'⟩ := ih₁
    obtain ⟨w, hw, hw'⟩ := ih₂
    exact ⟨v ++ w, by rw [hv, hw, append_assoc], by simp [hv', hw']⟩
  | altLeft _ ih | altRight _ ih | optSome _ ih => exact ih
  | optNone | repStop | notAhead _ | atStart _ | wordBoundary _ => exact ⟨[], by simp⟩

/-- What each match of `r` preserves while counting, a repetition of `r` preserves. -/
theorem Matches.rep_invariant {P : ℕ → Position → Prop}
    (step : ∀ {k : ℕ} {p q : Position}, P k p → Matches r p q → P (k + 1) q) {min : ℕ}
    (h : Matches (.rep min r) p q) {k : ℕ} (hp : P k p) : ∃ n, k + min ≤ n ∧ P n q := by
  generalize hs : Regex.rep min r = s at h
  induction h generalizing min k with
  | repStop =>
    cases hs
    exact ⟨k, le_rfl, hp⟩
  | repMore h₁ _ _ ih =>
    cases hs
    obtain ⟨n, hn, hq⟩ := ih (step hp h₁) rfl
    exact ⟨n, by omega, hq⟩
  | repSucc h₁ _ _ ih =>
    cases hs
    obtain ⟨n, hn, hq⟩ := ih (step hp h₁) rfl
    exact ⟨n, by omega, hq⟩
  | _ => cases hs

/-- A class that does not contain the next character is repeated zero times. -/
theorem Matches.rep_cls_stuck (h : Matches (.rep 0 (.cls c)) p q)
    (hp : ∀ x ∈ p.after.head?, c x = false) : q = p := by
  cases h with
  | repStop => rfl
  | repMore h₁ _ =>
    cases h₁ with
    | cls hx hc => simp [hp _ (by rw [hx]; rfl)] at hc

def firstMatch (r : Regex) : List Char → List Char → Option (List Char × Position)
  | before, after =>
    match run r (.start before after) some with
    | some q => some (before, q)
    | none =>
      match after with
      | [] => none
      | x :: xs => firstMatch r (x :: before) xs

def replaceFrom (r : Regex) (replacement : Position → List Char) :
    ℕ → List Char → List Char → List Char
  | 0, _, after => after
  | fuel + 1, before, after =>
    match firstMatch r before after with
    | none => after
    | some (start, q) =>
      (start.take (start.length - before.length)).reverse ++ replacement q ++
        if start.length < q.before.length then replaceFrom r replacement fuel q.before q.after
        else
          match q.after with
          | [] => []
          | x :: xs => x :: replaceFrom r replacement fuel (x :: q.before) xs

def replaceAll (r : Regex) (replacement : Position → List Char) (s : List Char) : List Char :=
  replaceFrom r replacement (s.length + 1) [] s

theorem firstMatch_sound {before after start : List Char} {q : Position}
    (h : firstMatch r before after = some (start, q)) :
    ∃ skipped rest, after = skipped ++ rest ∧ start = skipped.reverse ++ before ∧
      run r (.start start rest) some = some q := by
  induction after generalizing before with
  | nil =>
    rw [firstMatch] at h
    split at h
    · rename_i hrun
      simp only [some.injEq, Prod.mk.injEq] at h
      obtain ⟨rfl, rfl⟩ := h
      exact ⟨[], [], rfl, rfl, hrun⟩
    · simp at h
  | cons x xs ih =>
    rw [firstMatch] at h
    split at h
    · rename_i hrun
      simp only [some.injEq, Prod.mk.injEq] at h
      obtain ⟨rfl, rfl⟩ := h
      exact ⟨[], x :: xs, rfl, rfl, hrun⟩
    · obtain ⟨skipped, rest, rfl, rfl, hrun⟩ := ih h
      exact ⟨x :: skipped, rest, rfl, by simp, hrun⟩

theorem run_cls_cons {p : Position} (hp : p.after = x :: xs) (hc : c x = true)
    (k : Position → Option Position) : run (.cls c) p k = k (p.advance [x] xs) := by
  rw [run, hp]
  exact if_pos hc

theorem repLoop_cls_cons {p : Position} (hp : p.after = x :: xs) (hc : c x = true) (fuel : ℕ)
    (k : Position → Option Position) :
    repLoop (run (.cls c)) (fuel + 1) 0 p k =
      (repLoop (run (.cls c)) fuel 0 (p.advance [x] xs) k).or (k p) := by
  rw [repLoop, run_cls_cons hp hc, if_pos (by simp [Position.advance, hp])]

section Greedy

variable {a w rest : List Char}

theorem advance_nil {p : Position} (hp : p.after = [] ++ rest) : p.advance [] rest = p := by
  cases p
  simp_all [Position.advance]

theorem advance_advance (p : Position) (u v rest rest' : List Char) :
    (p.advance u rest).advance v rest' = p.advance (u ++ v) rest' := by
  simp [Position.advance]

/-- A repetition of a class stays where it is if the rest of the pattern fails further on. -/
theorem repLoop_cls_stay (hw : ∀ x ∈ w, c x = true) (hrest : ∀ x ∈ rest.head?, c x = false)
    {fuel : ℕ} (hfuel : w.length < fuel) {p : Position} (hp : p.after = w ++ rest)
    (hlater : ∀ u v, w = u ++ v → u ≠ [] → k (p.advance u (v ++ rest)) = none) :
    repLoop (run (.cls c)) fuel 0 p k = k p := by
  obtain ⟨fuel, rfl⟩ : ∃ n, fuel = n + 1 := ⟨fuel - 1, by omega⟩
  induction w generalizing fuel p with
  | nil =>
    rw [nil_append] at hp
    cases rest with
    | nil =>
      rw [repLoop, run, hp]
      rfl
    | cons y rest =>
      have hy : c y = false := hrest y rfl
      rw [repLoop, run, hp]
      simp [hy]
  | cons y w ih =>
    obtain ⟨fuel, rfl⟩ : ∃ n, fuel = n + 1 := ⟨fuel - 1, by simp at hfuel; omega⟩
    rw [cons_append] at hp
    have hnext : k (p.advance [y] (w ++ rest)) = none := hlater [y] w rfl (cons_ne_nil y [])
    have hstay := ih (fun z hz => hw z (mem_cons_of_mem y hz)) (p := p.advance [y] (w ++ rest))
      rfl (by
        intro u v huv hu
        rw [advance_advance]
        exact hlater (y :: u) v (by rw [huv, cons_append]) (cons_ne_nil y u)) fuel
      (by simpa using hfuel)
    rw [repLoop_cls_cons hp (hw y mem_cons_self), hstay, hnext, none_or]

theorem repLoop_cls_append (ha : ∀ x ∈ a, c x = true) {p : Position} (hp : p.after = a ++ rest)
    {fuel : ℕ} {f : Position}
    (h : repLoop (run (.cls c)) fuel 0 (p.advance a rest) k = some f) :
    repLoop (run (.cls c)) (fuel + a.length) 0 p k = some f := by
  induction a generalizing p with
  | nil =>
    rwa [advance_nil hp] at h
  | cons y a ih =>
    rw [cons_append] at hp
    have hnext := ih (fun z hz => ha z (mem_cons_of_mem y hz)) (p := p.advance [y] (a ++ rest))
      rfl (by rwa [advance_advance])
    rw [length_cons, ← Nat.add_assoc, repLoop_cls_cons hp (ha y mem_cons_self), hnext,
      some_or]

/-- A greedy repetition of a class ends at the last place where the rest of the pattern matches. -/
theorem run_rep_cls_last {p f : Position} (hp : p.after = a ++ (w ++ rest))
    (ha : ∀ x ∈ a, c x = true) (hw : ∀ x ∈ w, c x = true) (hrest : ∀ x ∈ rest.head?, c x = false)
    (hlater : ∀ u v, w = u ++ v → u ≠ [] → k (p.advance (a ++ u) (v ++ rest)) = none)
    (hk : k (p.advance a (w ++ rest)) = some f) : run (.rep 0 (.cls c)) p k = some f := by
  have hfuel : 0 + p.after.length + 1 = ((w ++ rest).length + 1) + a.length := by
    rw [hp, length_append]
    omega
  rw [run, hfuel]
  apply repLoop_cls_append ha hp
  rw [repLoop_cls_stay hw hrest (by rw [length_append]; omega) rfl, hk]
  intro u v huv hu
  rw [advance_advance]
  exact hlater u v huv hu

theorem run_rep_cls_all (p : Position) (hp : ∀ x ∈ p.after, c x = true)
    (hk : (k (p.advance p.after [])).isSome) :
    run (.rep 0 (.cls c)) p k = k (p.advance p.after []) := by
  obtain ⟨f, hf⟩ := isSome_iff_exists.mp hk
  rw [hf]
  have hafter : p.after = p.after ++ ([] ++ []) := by simp
  apply run_rep_cls_last hafter hp (by simp) (by simp) ?_ hf
  intro u v huv hu
  exact absurd (append_eq_nil_iff.mp huv.symm).1 hu

theorem run_group_cls_last {s : Regex} {p f : Position} {b : List Char} {i : ℕ} (hx : c x = true)
    (hp : p.after = a ++ x :: b) (ha : ∀ y ∈ a, c y = true) (hb : ∀ y ∈ b, c y = true)
    (hlast : x ∉ b)
    (hs : run s (((p.advance a (x :: b)).capture i a).advance [x] b) k = some f) :
    run (.seq (.group i (.rep 0 (.cls c))) (.seq (.cls (· == x)) s)) p k = some f := by
  have hsince : p.consumedSince (p.advance a (x :: b)) = a := by
    simp [Position.consumedSince, Position.advance]
  have hnil : x :: b ++ [] = x :: b := append_nil _
  have hafter : p.after = a ++ (x :: b ++ []) := by rw [hnil, hp]
  rw [run, run]
  apply run_rep_cls_last hafter ha ?_ (by simp)
  · intro u v huv hu
    obtain ⟨y, u, rfl⟩ := exists_cons_of_ne_nil hu
    rw [append_nil, run, run, Position.capture, Position.advance]
    cases v with
    | nil => rfl
    | cons z v =>
      rw [(List.cons.inj huv).2] at hlast
      have hz : z ≠ x := by
        rintro rfl
        simp at hlast
      simp [hz]
  · rw [hnil, hsince, run, run_cls_cons rfl (by simp)]
    exact hs
  · intro y hy
    rcases mem_cons.mp hy with rfl | hy
    · exact hx
    · exact hb y hy

end Greedy

/-- The characters of a text, followed by a pattern. -/
def chars (s : List Char) (r : Regex) : Regex := s.foldr (fun c r => .seq (.cls (· == c)) r) r

theorem run_chars (s rest : List Char) {p : Position} (hp : p.after = s ++ rest) :
    run (chars s r) p k = run r (p.advance s rest) k := by
  induction s generalizing p with
  | nil =>
    rw [advance_nil hp]
    rfl
  | cons y s ih =>
    rw [cons_append] at hp
    rw [chars, foldr_cons, run, run_cls_cons hp (by simp)]
    have htail := ih (p := p.advance [y] (s ++ rest)) rfl
    rw [advance_advance] at htail
    exact htail

theorem isPrefix_of_run_chars {s : List Char} {p f : Position} (h : run (chars s r) p k = some f) :
    s <+: p.after := by
  induction s generalizing p with
  | nil => exact nil_prefix
  | cons y s ih =>
    rw [chars, foldr_cons, run, run] at h
    cases hp : p.after with
    | nil =>
      rw [hp] at h
      cases h
    | cons z t =>
      rw [hp] at h
      dsimp only at h
      split_ifs at h with hz
      rw [cons_prefix_cons, ← eq_of_beq hz]
      exact ⟨rfl, ih h⟩

theorem firstMatch_chars_of_not_infix {s t : List Char} (h : ¬ s <:+: t) (before : List Char) :
    firstMatch (chars s r) before t = none := by
  cases hmatch : firstMatch (chars s r) before t with
  | none => rfl
  | some m =>
    obtain ⟨skipped, rest, rfl, -, hrun⟩ := firstMatch_sound hmatch
    obtain ⟨after, hafter⟩ := isPrefix_of_run_chars hrun
    exact absurd ⟨skipped, after, by rw [append_assoc, hafter]; rfl⟩ h

section Lines

/-- The pattern reads no `x`, and what it matches depends on nothing but what it reads. -/
def Regex.Avoids (x : Char) : Regex → Prop
  | .cls c => c x = false
  | .seq r s | .alt r s => r.Avoids x ∧ s.Avoids x
  | .opt r | .rep _ r | .group _ r => r.Avoids x
  | .backref _ | .notAhead _ | .atStart | .wordBoundary => False

structure Extends (base rest : List Char) (p p' : Position) : Prop where
  before : p'.before = p.before ++ base
  after : p'.after = p.after ++ rest
  captures : p'.captures = p.captures

variable {base rest : List Char} {p' : Position} {k' : Position → Option Position}

/-- The continuations agree at every position that can be reached from `p`. -/
def Agree (base rest : List Char) (p : Position) (k k' : Position → Option Position) : Prop :=
  ∀ q q', Extends base rest q q' → q.after.length ≤ p.after.length →
    Option.Rel (Extends base rest) (k q) (k' q')

theorem rel_or {α β : Type} {R : α → β → Prop} {o₁ o₂ : Option α} {o₁' o₂' : Option β}
    (h₁ : Option.Rel R o₁ o₁') (h₂ : Option.Rel R o₂ o₂') :
    Option.Rel R (o₁.or o₂) (o₁'.or o₂') := by
  cases h₁ with
  | some h => exact .some h
  | none => exact h₂

theorem Extends.length_lt_iff (hp : Extends base rest p p') {q q' : Position}
    (hq : Extends base rest q q') :
    q'.after.length < p'.after.length ↔ q.after.length < p.after.length := by
  rw [hp.after, hq.after, length_append, length_append]
  omega

theorem repLoop_extends
    (hr : ∀ {p p' : Position} {k k' : Position → Option Position}, Extends base rest p p' →
      Agree base rest p k k' → Option.Rel (Extends base rest) (run r p k) (run r p' k'))
    {min fuel fuel' : ℕ} (hp : Extends base rest p p') (hk : Agree base rest p k k')
    (hfuel : min + p.after.length < fuel) (hfuel' : min + p.after.length < fuel') :
    Option.Rel (Extends base rest) (repLoop (run r) fuel min p k) (repLoop (run r) fuel' min p' k') := by
  induction fuel generalizing fuel' min p p' with
  | zero => omega
  | succ fuel ih =>
    obtain ⟨fuel', rfl⟩ : ∃ n, fuel' = n + 1 := ⟨fuel' - 1, by omega⟩
    cases min with
    | zero =>
      rw [repLoop, repLoop]
      apply rel_or (hr hp ?_) (hk p p' hp le_rfl)
      intro q q' hq hle
      dsimp only
      by_cases hlt : q.after.length < p.after.length
      · rw [if_pos hlt, if_pos ((hp.length_lt_iff hq).mpr hlt)]
        exact ih hq (fun t t' ht hle' => hk t t' ht (hle'.trans hle)) (by omega) (by omega)
      · rw [if_neg hlt, if_neg ((hp.length_lt_iff hq).not.mpr hlt)]
        exact .none
    | succ min =>
      rw [repLoop, repLoop]
      apply hr hp
      intro q q' hq hle
      exact ih hq (fun t t' ht hle' => hk t t' ht (hle'.trans hle)) (by omega) (by omega)

/-- Nothing behind the text of the position is read by the pattern. -/
theorem run_extends (hr : r.Avoids x) (hrest : ∀ y ∈ rest.head?, y = x)
    (hp : Extends base rest p p') (hk : Agree base rest p k k') :
    Option.Rel (Extends base rest) (run r p k) (run r p' k') := by
  induction r generalizing p p' k k' with
  | cls c =>
    have hc : c x = false := hr
    have hafter := hp.after
    rw [run, run]
    cases h : p.after with
    | nil =>
      rw [h, nil_append] at hafter
      cases hrest' : rest with
      | nil => rw [hafter, hrest']; exact .none
      | cons y t =>
        have hy : y = x := hrest y (by rw [hrest']; rfl)
        rw [hafter, hrest']
        simp only [hy, hc]
        exact .none
    | cons y t =>
      rw [h, cons_append] at hafter
      rw [hafter]
      dsimp only
      split_ifs with hy
      · apply hk
        · exact ⟨by simp [Position.advance, hp.before], rfl, hp.captures⟩
        · rw [h]
          exact Nat.le_succ t.length
      · exact .none
  | seq r s ihr ihs =>
    apply ihr hr.1 hp
    intro q q' hq hle
    exact ihs hr.2 hq fun t t' ht hle' => hk t t' ht (hle'.trans hle)
  | alt r s ihr ihs => exact rel_or (ihr hr.1 hp hk) (ihs hr.2 hp hk)
  | opt r ih => exact rel_or (ih hr hp hk) (hk p p' hp le_rfl)
  | rep min r ih =>
    rw [run, run]
    apply repLoop_extends (fun hp hk => ih hr hp hk) hp hk (by omega)
    rw [hp.after, length_append]
    omega
  | group i r ih =>
    apply ih hr hp
    intro q q' hq hle
    have hsince : p'.consumedSince q' = p.consumedSince q := by
      have hlength : (q.before ++ base).length - (p.before ++ base).length =
          q.before.length - p.before.length := by
        rw [length_append, length_append]
        omega
      unfold Position.consumedSince
      rw [hp.before, hq.before, hlength, take_append_of_le_length (Nat.sub_le _ _)]
    refine hk _ _ ⟨hq.before, hq.after, ?_⟩ hle
    simp [Position.capture, hsince, hq.captures]
  | backref | notAhead | atStart | wordBoundary => cases hr

def capturesAt (r : Regex) (s : List Char) : Option (ℕ → Option (List Char)) :=
  (run r (.start [] s) some).map Position.captures

theorem map_captures_run (hr : r.Avoids x) (hrest : ∀ y ∈ rest.head?, y = x)
    (before s : List Char) :
    (run r (.start before (s ++ rest)) some).map Position.captures = capturesAt r s := by
  have hstart : Extends before rest (.start [] s) (.start before (s ++ rest)) := ⟨rfl, rfl, rfl⟩
  have hsome : Agree before rest (.start [] s) some some := fun q q' hq _ => .some hq
  have hrel := run_extends hr hrest hstart hsome
  unfold capturesAt
  generalize run r (.start [] s) some = o at hrel
  generalize run r (.start before (s ++ rest)) some = o' at hrel
  cases hrel with
  | some h => rw [map_some, map_some, h.captures]
  | none => rfl

theorem map_captures_firstMatch (hr : r.Avoids x) (before s : List Char) :
    (firstMatch r before s).map (fun m => m.2.captures) = s.tails.findSome? (capturesAt r) := by
  have hnil : ∀ y ∈ ([] : List Char).head?, y = x := by simp
  induction s generalizing before with
  | nil =>
    have hrun := map_captures_run hr hnil before []
    rw [firstMatch, List.tails, findSome?_cons, ← hrun, append_nil]
    cases run r (.start before []) some <;> rfl
  | cons y s ih =>
    have hrun := map_captures_run hr hnil before (y :: s)
    rw [append_nil] at hrun
    rw [firstMatch, tails_cons, findSome?_cons, ← hrun]
    cases run r (.start before (y :: s)) some with
    | some q => rfl
    | none => exact ih (y :: before)

def firstCaptures (r : Regex) (s : List Char) : Option (ℕ → Option (List Char)) :=
  (firstMatch r [] s).map fun m => m.2.captures

theorem firstCaptures_of_run {s : List Char} (h : run r (.start [] s) some = some q) :
    firstCaptures r s = some q.captures := by
  unfold firstCaptures
  rw [firstMatch.eq_def]
  dsimp only
  rw [h]
  rfl

theorem firstCaptures_chars_of_not_infix {s t : List Char} (h : ¬ s <:+: t) :
    firstCaptures (chars s r) t = none := by
  rw [firstCaptures, firstMatch_chars_of_not_infix h]
  rfl

theorem firstCaptures_append (hr : r.Avoids x) (s t : List Char) :
    firstCaptures r (s ++ x :: t) = (firstCaptures r s).or (firstCaptures r t) := by
  unfold firstCaptures
  rw [map_captures_firstMatch hr, map_captures_firstMatch hr, map_captures_firstMatch hr]
  have hat : ∀ s, capturesAt r (s ++ x :: t) = capturesAt r s := fun s =>
    map_captures_run hr (by simp) [] s
  induction s with
  | nil =>
    have hnil : capturesAt r (x :: t) = capturesAt r [] := hat []
    rw [nil_append, tails_cons, List.tails, findSome?_cons,
      findSome?_singleton, hnil]
    cases capturesAt r [] <;> rfl
  | cons y s ih =>
    rw [cons_append, tails_cons, tails_cons, findSome?_cons,
      findSome?_cons, ih, ← cons_append, hat]
    cases capturesAt r (y :: s) <;> rfl

/-- A pattern that reads no `x` is searched between the `x`, one part after the other. -/
theorem firstCaptures_intercalate (hr : r.Avoids x) {parts : List (List Char)} (h : parts ≠ []) :
    firstCaptures r ([x].intercalate parts) = parts.findSome? (firstCaptures r) := by
  induction parts with
  | nil => exact absurd rfl h
  | cons part parts ih =>
    cases parts with
    | nil => simp
    | cons next parts =>
      rw [intercalate_cons_cons, append_assoc, singleton_append,
        firstCaptures_append hr, ih (cons_ne_nil next parts)]
      cases hpart : firstCaptures r part with
      | none => simp [findSome?_cons, hpart]
      | some f => simp [findSome?_cons, hpart]

end Lines
/-- If a class repetition followed by `k` succeeds one character further on, it succeeds here. -/
theorem run_rep_cls_isSome_of_tail {p : Position} (hp : p.after = x :: xs) (hc : c x = true)
    (h : (run (.rep 0 (.cls c)) (p.advance [x] xs) k).isSome) :
    (run (.rep 0 (.cls c)) p k).isSome := by
  have hlen : 0 + p.after.length + 1 = (0 + (p.advance [x] xs).after.length + 1) + 1 := by
    simp [hp, Position.advance]
  rw [run] at h ⊢
  rw [hlen, repLoop_cls_cons hp hc, isSome_or, h, Bool.true_or]

end BacktrackingRegex
