import AmneziaVpn.IpAddress

/-!
# The canonical form of an IPv6 text

The text of an IPv6 address is a row of blocks. The pattern of `convertIpv6ToCanonicalForm` can
match it in one way only: complete zero blocks, the colon behind them, and all that follows.
-/

namespace AmneziaVpn

open BacktrackingRegex List Position

/-- A block as it is printed: a single zero, or hexadecimal digits that start with another one. -/
structure HexWord (w : List Char) : Prop where
  ne_nil : w ≠ []
  digit : ∀ c ∈ w, (hexDigit? c).isSome
  zero : w.head? = some '0' → w = ['0']

variable {bs : List (List Char)} {p q : Position} {c : Char}

theorem HexWord.not_mem {w : List Char} (h : HexWord w) (hc : hexDigit? c = none) :
    c ∉ w := fun hw => by simpa [hc] using h.digit c hw

def tailText (bs : List (List Char)) : List Char := bs.flatMap (':' :: ·)

def joined : List (List Char) → List Char
  | [] => []
  | b :: bs => b ++ tailText bs

@[simp] theorem tailText_nil : tailText [] = [] := rfl

@[simp] theorem tailText_cons (b : List Char) (bs : List (List Char)) :
    tailText (b :: bs) = ':' :: (b ++ tailText bs) := rfl

theorem tailText_head {x : Char} (h : x ∈ (tailText bs).head?) : x = ':' := by
  cases bs with
  | nil => simp at h
  | cons b bs => simpa using h.symm

theorem joined_eq_intercalate (bs : List (List Char)) : joined bs = [':'].intercalate bs := by
  cases bs with
  | nil => rfl
  | cons b bs =>
    induction bs generalizing b with
    | nil => simp [joined]
    | cons c bs ih =>
      rw [intercalate_cons_cons, ← ih c]
      simp [joined]

theorem flatMap_append_colon (b : List Char) (bs : List (List Char)) :
    (b :: bs).flatMap (· ++ [':']) = joined (b :: bs) ++ [':'] := by
  induction bs generalizing b with
  | nil => simp [joined]
  | cons c bs ih =>
    rw [flatMap_cons, ih c]
    simp [joined]

theorem dropLast_flatMap_append_colon (bs : List (List Char)) :
    (bs.flatMap (· ++ [':'])).dropLast = joined bs := by
  cases bs with
  | nil => rfl
  | cons b bs => rw [flatMap_append_colon, dropLast_concat]

theorem splitOn_joined (hbs : ∀ b ∈ bs, HexWord b) (hne : bs ≠ []) :
    (joined bs).splitOn ':' = bs := by
  rw [joined_eq_intercalate]
  exact splitOn_intercalate ':' (fun b hb => (hbs b hb).not_mem rfl) hne

theorem tailText_eq_cons_joined (hne : bs ≠ []) : tailText bs = ':' :: joined bs := by
  cases bs with
  | nil => exact absurd rfl hne
  | cons b bs => rfl

/-- Where a text of blocks is split in front of a colon, whole blocks lie on both sides. -/
theorem split_at_colon (hbs : ∀ b ∈ bs, HexWord b) {skipped xs : List Char}
    (h : joined bs = skipped ++ ':' :: xs) :
    ∃ bs₁ bs₂, bs = bs₁ ++ bs₂ ∧ bs₁ ≠ [] ∧ skipped = joined bs₁ ∧ ':' :: xs = tailText bs₂ := by
  have hne : bs ≠ [] := by
    rintro rfl
    simp [joined] at h
  refine ⟨skipped.splitOn ':', xs.splitOn ':', ?_, splitOn_ne_nil _ _, ?_, ?_⟩
  · rw [← splitOn_append_cons_self, ← h, splitOn_joined hbs hne]
  · rw [joined_eq_intercalate, intercalate_splitOn]
  · rw [tailText_eq_cons_joined (splitOn_ne_nil _ _), joined_eq_intercalate,
      intercalate_splitOn]

theorem zeros_matches {w : List Char} (hw : HexWord w) (hp : p.after = w ++ tailText bs)
    (h : Matches zeros p q) : w = ['0'] ∧ q = p.advance ['0'] (tailText bs) := by
  cases h with
  | repSucc h₁ h₂ =>
    cases h₁ with
    | cls hx hc =>
      obtain ⟨c, w, rfl⟩ := exists_cons_of_ne_nil hw.ne_nil
      rw [hp, cons_append, List.cons.injEq] at hx
      obtain ⟨rfl, rfl⟩ := hx
      obtain rfl := eq_of_beq hc
      have hzero := hw.zero rfl
      obtain ⟨-, rfl⟩ := List.cons.inj hzero
      refine ⟨rfl, h₂.rep_cls_stuck fun x hx => ?_⟩
      rw [tailText_head hx]
      rfl

/-- A position at the border of blocks, with the blocks `bs` to come. -/
def AtBlocks (bs : List (List Char)) (p : Position) : Prop :=
  (p.before = [] ∧ p.after = joined bs) ∨ (p.before ≠ [] ∧ p.after = tailText bs)

theorem AtBlocks.matches_zeroBlock (hbs : ∀ b ∈ bs, HexWord b) (hp : AtBlocks bs p)
    (h : Matches zeroBlock p q) : ∃ bs', bs = ['0'] :: bs' ∧ AtBlocks bs' q ∧ q.before ≠ [] := by
  cases h with
  | seq hborder hrest =>
    cases hrest with
    | seq hzeros hword =>
      cases hword
      have key : ∀ {t : Position} {w : List Char} {bs' : List (List Char)}, HexWord w →
          t.after = w ++ tailText bs' → Matches zeros t q →
          w :: bs' = ['0'] :: bs' ∧ AtBlocks bs' q ∧ q.before ≠ [] := by
        intro t w bs' hw ht hm
        obtain ⟨rfl, rfl⟩ := zeros_matches hw ht hm
        exact ⟨rfl, .inr ⟨by simp [advance], rfl⟩, by simp [advance]⟩
      cases bs with
      | nil =>
        exfalso
        have hafter : p.after = [] := by
          rcases hp with ⟨-, h⟩ | ⟨-, h⟩ <;> exact h
        obtain ⟨v, hv, -⟩ := hborder.consumes
        rw [hafter, eq_comm, append_eq_nil_iff] at hv
        cases hzeros with
        | repSucc h₁ _ =>
          cases h₁ with
          | cls hx _ => simp [hv.2] at hx
      | cons w bs =>
        have hw := hbs w mem_cons_self
        obtain ⟨c, w, rfl⟩ := exists_cons_of_ne_nil hw.ne_nil
        refine ⟨bs, ?_⟩
        cases hborder with
        | altLeft hstart =>
          cases hstart with
          | atStart hb =>
            rcases hp with ⟨-, ha⟩ | ⟨hne, -⟩
            · exact key hw ha hzeros
            · exact absurd hb hne
        | altRight hcolon =>
          cases hcolon with
          | cls hx hc =>
            obtain rfl := eq_of_beq hc
            rcases hp with ⟨-, ha⟩ | ⟨-, ha⟩
            · rw [ha, joined, cons_append, List.cons.injEq] at hx
              exact absurd (hx.1 ▸ mem_cons_self) (hw.not_mem (c := ':') rfl)
            · rw [ha, tailText_cons, List.cons.injEq] at hx
              exact key hw hx.2.symm hzeros

theorem AtBlocks.matches_zeroRun (hbs : ∀ b ∈ bs, HexWord b) (hp : AtBlocks bs p) {min : ℕ}
    (hmin : 0 < min) (h : Matches (.rep min zeroBlock) p q) :
    ∃ k bs', min ≤ k ∧ bs = List.replicate k ['0'] ++ bs' ∧ q.after = tailText bs' := by
  obtain ⟨k, hk, ⟨bs', hsplit, hq⟩, hne⟩ := h.rep_invariant (k := 0)
    (P := fun k p => (∃ bs', bs = List.replicate k ['0'] ++ bs' ∧ AtBlocks bs' p) ∧
      (0 < k → p.before ≠ []))
    (by
      rintro k p q ⟨⟨bs', hsplit, hp⟩, -⟩ hm
      have hbs' : ∀ b ∈ bs', HexWord b := fun b hb => hbs b (by simp [hsplit, hb])
      obtain ⟨bs'', rfl, hq, hne⟩ := hp.matches_zeroBlock hbs' hm
      refine ⟨⟨bs'', ?_, hq⟩, fun _ => hne⟩
      rw [hsplit, replicate_succ', append_assoc]
      rfl)
    ⟨⟨bs, rfl, hp⟩, by simp⟩
  refine ⟨k, bs', by omega, hsplit, ?_⟩
  rcases hq with ⟨hb, -⟩ | ⟨-, ha⟩
  · exact absurd hb (hne (by omega))
  · exact ha

theorem atBlocks_of_zeroBlock (hbs : ∀ b ∈ bs, HexWord b) {skipped rest : List Char}
    (htext : joined bs = skipped ++ rest) {q : Position}
    (h : Matches zeroBlock (.start skipped.reverse rest) q) :
    ∃ bs₁ bs₂, bs = bs₁ ++ bs₂ ∧ skipped = joined bs₁ ∧
      AtBlocks bs₂ (.start skipped.reverse rest) := by
  cases h with
  | seq hborder _ =>
    cases hborder with
    | altLeft hstart =>
      cases hstart with
      | atStart hb =>
        obtain rfl : skipped = [] := by simpa [start] using hb
        exact ⟨[], bs, rfl, rfl, .inl ⟨rfl, htext.symm⟩⟩
    | altRight hcolon =>
      cases hcolon with
      | cls hx hc =>
        obtain rfl := eq_of_beq hc
        obtain rfl : rest = _ := hx
        obtain ⟨bs₁, bs₂, rfl, hne, hskipped, htail⟩ := split_at_colon hbs htext
        refine ⟨bs₁, bs₂, rfl, hskipped, .inr ⟨?_, htail⟩⟩
        intro hnil
        obtain rfl : skipped = [] := by simpa [start] using hnil
        obtain ⟨b, bs₁, rfl⟩ := exists_cons_of_ne_nil hne
        exact (hbs b (by simp)).ne_nil (append_eq_nil_iff.mp hskipped.symm).1

theorem not_isSpace_of_hexDigit (h : (hexDigit? c).isSome) : isSpace c = false := by
  by_contra hs
  rw [Bool.not_eq_false, isSpace] at hs
  simp only [Bool.or_eq_true, beq_iff_eq] at hs
  rcases hs with ((((rfl | rfl) | rfl) | rfl) | rfl) | rfl <;> simp [hexDigit?] at h

theorem not_isSpace_of_mem_tailText (hbs : ∀ b ∈ bs, HexWord b) (hc : c ∈ tailText bs) :
    isSpace c = false := by
  obtain ⟨b, hb, hcb⟩ := mem_flatMap.mp hc
  rcases mem_cons.mp hcb with rfl | hcb
  · rfl
  · exact not_isSpace_of_hexDigit ((hbs b hb).digit c hcb)

/-- The second half of the pattern behind the zero blocks. -/
def restOfText : Regex :=
  .seq (.opt colon) (.seq (.notAhead longerRunAhead) (.group 2 nonSpaces))

/-- Without a longer run ahead the rest of the text is taken as the second group. -/
theorem run_lookahead {p : Position} (hp : ∀ c ∈ p.after, isSpace c = false) :
    run (.seq (.notAhead longerRunAhead) (.group 2 nonSpaces)) p some =
      if (run longerRunAhead p some).isSome then none
      else some ((p.advance p.after []).capture 2 p.after) := by
  have hall : ∀ c ∈ p.after, (!isSpace c) = true := fun c hc => by simp [hp c hc]
  have hsince : p.consumedSince (p.advance p.after []) = p.after := by
    simp [consumedSince, advance]
  rw [run, run]
  split_ifs
  · rfl
  · rw [run, nonSpaces, run_rep_cls_all p hall rfl, hsince]

/-- A longer run that is ahead behind a colon is ahead in front of it. -/
theorem longerRunAhead_of_tail {p : Position} {xs : List Char} (hp : p.after = ':' :: xs)
    (h : (run longerRunAhead (p.advance [':'] xs) some).isSome) :
    (run longerRunAhead p some).isSome :=
  run_rep_cls_isSome_of_tail hp rfl h

theorem run_restOfText (hbs : ∀ b ∈ bs, HexWord b) (hp : p.after = tailText bs)
    (h : run restOfText p some = some q) : q.after = [] ∧ q.captures 2 = some (joined bs) := by
  have hspace : ∀ c ∈ p.after, isSpace c = false := by
    rw [hp]
    exact fun c hc => not_isSpace_of_mem_tailText hbs hc
  rw [restOfText, run, run] at h
  cases bs with
  | nil =>
    have hcolon : ∀ k, run colon p k = none := by
      intro k
      rw [colon, run, hp]
      rfl
    rw [hcolon, Option.none_or, run_lookahead hspace] at h
    split_ifs at h
    cases h
    rw [hp]
    simp [advance, capture, joined]
  | cons b bs =>
    rw [tailText_cons] at hp
    have hspace' : ∀ c ∈ (p.advance [':'] (b ++ tailText bs)).after, isSpace c = false := by
      intro c hc
      apply hspace
      rw [hp]
      exact mem_cons_of_mem _ hc
    rw [colon, run_cls_cons hp rfl, run_lookahead hspace', run_lookahead hspace] at h
    split_ifs at h with htail hhere hhere
    · cases h
    · exact absurd (longerRunAhead_of_tail hp htail) hhere
    · cases h
      simp [advance, capture, joined]
    · cases h
      simp [advance, capture, joined]

theorem run_zeroRunPattern_nil (before : List Char) :
    run zeroRunPattern (.start before []) some = none := by
  cases hrun : run zeroRunPattern (.start before []) some with
  | none => rfl
  | some q =>
    exfalso
    obtain ⟨t, hm, -⟩ := run_sound _ hrun
    cases hm with
    | seq hgroup _ =>
      cases hgroup with
      | group hrep =>
        cases hrep with
        | repSucc hzero _ =>
          cases hzero with
          | seq hborder hrest =>
            obtain ⟨v, hv, -⟩ := hborder.consumes
            cases hrest with
            | seq hzeros _ =>
              cases hzeros with
              | repSucc h₁ _ =>
                cases h₁ with
                | cls hx _ => simp [start, hx] at hv

theorem replaceFrom_zeroRunPattern_nil (fuel : ℕ) (before : List Char) :
    replaceFrom zeroRunPattern canonicalReplacement fuel before [] = [] := by
  cases fuel with
  | zero => rfl
  | succ fuel => simp [replaceFrom, firstMatch, run_zeroRunPattern_nil]

/-- The only match there can be: a run of at least two zero blocks and everything behind it. -/
theorem run_zeroRunPattern (hbs : ∀ b ∈ bs, HexWord b) {skipped rest : List Char}
    (htext : joined bs = skipped ++ rest) {q : Position}
    (h : run zeroRunPattern (.start skipped.reverse rest) some = some q) :
    ∃ bs₁ k bs₂, 2 ≤ k ∧ bs = bs₁ ++ List.replicate k ['0'] ++ bs₂ ∧ skipped = joined bs₁ ∧
      q.after = [] ∧ q.captures 2 = some (joined bs₂) := by
  rw [zeroRunPattern, run, run] at h
  obtain ⟨t, hrep, hrest⟩ := run_sound _ h
  have hfirst : ∃ t', Matches zeroBlock (.start skipped.reverse rest) t' := by
    cases hrep with
    | repSucc h₁ _ => exact ⟨_, h₁⟩
  obtain ⟨t', hfirst⟩ := hfirst
  obtain ⟨bs₁, bs', rfl, hskipped, hat⟩ := atBlocks_of_zeroBlock hbs htext hfirst
  obtain ⟨k, bs₂, hk, rfl, hafter⟩ :=
    hat.matches_zeroRun (fun b hb => hbs b (mem_append_right _ hb)) two_pos hrep
  have hbs₂ : ∀ b ∈ bs₂, HexWord b := fun b hb => hbs b (by simp [hb])
  refine ⟨bs₁, k, bs₂, hk, (append_assoc _ _ _).symm, hskipped, ?_⟩
  exact run_restOfText (p := t.capture 1 _) hbs₂ hafter hrest

/-- The text is left alone, or a run of at least two zero blocks becomes a double colon. -/
theorem convertIpv6ToCanonicalForm_joined (hbs : ∀ b ∈ bs, HexWord b) :
    convertIpv6ToCanonicalForm (joined bs) = joined bs ∨
      ∃ bs₁ k bs₂, 2 ≤ k ∧ bs = bs₁ ++ List.replicate k ['0'] ++ bs₂ ∧
        convertIpv6ToCanonicalForm (joined bs) = joined bs₁ ++ ':' :: ':' :: joined bs₂ := by
  rw [convertIpv6ToCanonicalForm, replaceAll, replaceFrom]
  cases hmatch : firstMatch zeroRunPattern [] (joined bs) with
  | none => exact .inl rfl
  | some m =>
    obtain ⟨start, q⟩ := m
    obtain ⟨skipped, rest, htext, hstart, hrun⟩ := firstMatch_sound hmatch
    rw [append_nil] at hstart
    subst hstart
    obtain ⟨bs₁, k, bs₂, hk, hsplit, rfl, hafter, hcap⟩ := run_zeroRunPattern hbs htext hrun
    refine .inr ⟨bs₁, k, bs₂, hk, hsplit, ?_⟩
    have htake : (joined bs₁).reverse.take (joined bs₁).length = (joined bs₁).reverse :=
      take_of_length_le (by simp)
    simp [hafter, hcap, canonicalReplacement, replaceFrom_zeroRunPattern_nil, htake]

end AmneziaVpn
