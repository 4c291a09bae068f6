import AmneziaVpn.Pieces
import AmneziaVpn.QtText

/-!
# Lists of texts

Texts are split at a separator of one character, the empty parts may be skipped, and the parts are
joined again.
-/

namespace AmneziaVpn.QString

open Pieces List Nat

/-- `split(separator, Qt::SkipEmptyParts)` -/
def splitSkipEmpty (s separator : String) : List String := (split s separator).filter (· ≠ "")

/-- `QStringList::join` -/
def join (parts : List String) (separator : String) : String := separator.intercalate parts

section Split

variable {s separator : String} {c : Char}

theorem splitFrom_singleton (c : Char) (part l : List Char) :
    splitFrom [c] 0 part l = l.splitOnPPrepend (· == c) part := by
  induction l generalizing part with
  | nil => rfl
  | cons x l ih =>
    have hpre : [c] <+: x :: l ↔ x = c := by
      rw [cons_prefix_cons, and_iff_left nil_prefix, eq_comm]
    rw [splitFrom, splitOnPPrepend_cons_eq_if, length_singleton, Nat.sub_self, ih, ih]
    simp [hpre]

theorem split_eq (h : separator.toList = [c]) :
    split s separator = (s.toList.splitOn c).map String.ofList := by
  unfold split
  rw [h, splitFrom_singleton, splitOn_eq_splitOnP, splitOnP_eq_splitOnPPrepend]

theorem splitSkipEmpty_eq (h : separator.toList = [c]) :
    splitSkipEmpty s separator = (pieces c s.toList).map String.ofList := by
  unfold splitSkipEmpty pieces
  rw [split_eq h, filter_map]
  congr 1
  apply filter_congr
  intro p _
  simp

theorem split_join {parts : List String} (h : separator.toList = [c]) (hne : parts ≠ [])
    (hparts : ∀ part ∈ parts, c ∉ part.toList) : split (join parts separator) separator = parts := by
  have hall : ∀ l ∈ parts.map String.toList, c ∉ l := by
    intro l hl
    obtain ⟨part, hpart, rfl⟩ := mem_map.mp hl
    exact hparts part hpart
  unfold join
  rw [split_eq h, String.toList_intercalate, h, splitOn_intercalate c hall (by simpa using hne),
    map_map]
  simp [Function.comp_def]

theorem splitFrom_of_not_infix {sep l : List Char} (h : ¬ sep <:+: l) (part : List Char) :
    splitFrom sep 0 part l = [part.reverse ++ l] := by
  induction l generalizing part with
  | nil => simp [splitFrom]
  | cons y l ih =>
    rw [infix_cons_iff, not_or] at h
    rw [splitFrom, if_neg h.1, ih h.2, reverse_cons, append_assoc, singleton_append]

theorem splitFrom_append {a : List Char} (sep r : List Char) (ha : c ∉ a) (part : List Char) :
    splitFrom (c :: sep) 0 part (a ++ (c :: sep ++ r)) =
      (part.reverse ++ a) :: splitFrom (c :: sep) 0 [] r := by
  have hskip : ∀ (s part : List Char), splitFrom (c :: sep) s.length part (s ++ r) =
      splitFrom (c :: sep) 0 part r := by
    intro s part
    induction s with
    | nil => rfl
    | cons y s ih => exact ih
  induction a generalizing part with
  | nil =>
    have hpre : c :: sep <+: c :: (sep ++ r) := prefix_append (c :: sep) r
    rw [nil_append, cons_append, splitFrom, if_pos hpre, append_nil]
    exact congrArg _ (hskip sep [])
  | cons y a ih =>
    rw [mem_cons, not_or] at ha
    have hpre : ¬ c :: sep <+: y :: (a ++ (c :: sep ++ r)) := by
      rw [cons_prefix_cons]
      exact fun h => ha.1 h.1
    rw [cons_append, splitFrom, if_neg hpre, ih ha.2, reverse_cons, append_assoc,
      singleton_append]

end Split

section Replace

variable {before after l r : List Char} {c : Char}

theorem replaceFrom_append_cons (hne : before ≠ []) (hc : c ∉ before) {skip : ℕ}
    (hskip : skip ≤ l.length) :
    replaceFrom before after skip (l ++ c :: r) =
      replaceFrom before after skip l ++ c :: replaceFrom before after 0 r := by
  induction l generalizing skip with
  | nil =>
    obtain rfl : skip = 0 := le_zero.mp hskip
    have hpre : ¬ before <+: c :: r := by
      intro h
      exact hne (prefix_nil.mp ((prefix_append_cons_iff (l := []) hc).mp h))
    simp [replaceFrom, hpre]
  | cons x l ih =>
    cases skip with
    | succ skip => exact ih (le_of_succ_le_succ hskip)
    | zero =>
      have hpre : before <+: x :: (l ++ c :: r) ↔ before <+: x :: l :=
        prefix_append_cons_iff (l := x :: l) hc
      by_cases h : before <+: x :: l
      · have hlength : before.length - 1 ≤ l.length := sub_le_of_le_add h.length_le
        rw [cons_append, replaceFrom, if_pos (hpre.mpr h), replaceFrom, if_pos h, ih hlength,
          append_assoc]
      · rw [cons_append, replaceFrom, if_neg (hpre.not.mpr h), replaceFrom, if_neg h,
          ih (zero_le _), cons_append]

theorem replaceFrom_append_left (x : Char) (xs after r : List Char) :
    replaceFrom (x :: xs) after 0 (x :: xs ++ r) = after ++ replaceFrom (x :: xs) after 0 r := by
  have hpre : x :: xs <+: x :: (xs ++ r) := prefix_append (x :: xs) r
  rw [cons_append, replaceFrom, if_pos hpre]
  exact congrArg _ (replaceFrom_skip (x :: xs) after xs r)

theorem replaceFrom_append {x : Char} {xs after : List Char} (hl : x ∉ l) :
    replaceFrom (x :: xs) after 0 (l ++ r) = l ++ replaceFrom (x :: xs) after 0 r := by
  induction l with
  | nil => rfl
  | cons y l ih =>
    rw [mem_cons, not_or] at hl
    have hpre : ¬ x :: xs <+: y :: (l ++ r) := by
      rw [cons_prefix_cons]
      exact fun h => hl.1 h.1
    rw [cons_append, replaceFrom, if_neg hpre, ih hl.2, cons_append]

/-- Deleting a text that stands at the end and whose first character does not occur before. -/
theorem replaceFrom_append_right {x : Char} {xs : List Char} (hl : x ∉ l) :
    replaceFrom (x :: xs) [] 0 (l ++ x :: xs) = l := by
  have hend := replaceFrom_append_left x xs [] []
  rw [append_nil] at hend
  rw [replaceFrom_append hl, hend, nil_append, replaceFrom, append_nil]

theorem not_mem_replaceFrom (hafter : c ∉ after) (hl : c ∉ l) (skip : ℕ) :
    c ∉ replaceFrom before after skip l := by
  induction l generalizing skip with
  | nil => simp [replaceFrom]
  | cons x l ih =>
    rw [mem_cons, not_or] at hl
    cases skip with
    | succ skip => exact ih hl.2 skip
    | zero =>
      rw [replaceFrom]
      split_ifs
      · rw [mem_append, not_or]
        exact ⟨hafter, ih hl.2 _⟩
      · rw [mem_cons, not_or]
        exact ⟨hl.1, ih hl.2 _⟩

theorem not_mem_replaceFrom_singleton (c : Char) (l : List Char) :
    c ∉ replaceFrom [c] [] 0 l := by
  induction l with
  | nil => simp [replaceFrom]
  | cons x l ih =>
    have hpre : [c] <+: x :: l ↔ c = x := by
      rw [cons_prefix_cons, and_iff_left nil_prefix]
    rw [replaceFrom]
    split_ifs with h
    · exact ih
    · rw [mem_cons, not_or]
      exact ⟨hpre.not.mp h, ih⟩

end Replace

section Around

variable {c : Char} {s l r : List Char}

theorem cutFirst_append_cons (h : c ∉ l) : cutFirst c (l ++ c :: r) = some (l, r) := by
  induction l with
  | nil => simp [cutFirst]
  | cons x l ih =>
    have hx : x ≠ c := fun hx => h (hx ▸ mem_cons_self)
    rw [cons_append, cutFirst, if_neg hx, ih fun hl => h (mem_cons_of_mem x hl),
      Option.map_some]

theorem cutFirst_of_not_mem (h : c ∉ l) : cutFirst c l = none := by
  induction l with
  | nil => rfl
  | cons x l ih =>
    have hx : x ≠ c := fun hx => h (hx ▸ mem_cons_self)
    rw [cutFirst, if_neg hx, ih fun hl => h (mem_cons_of_mem x hl), Option.map_none]

theorem cutFirst_eq_some (h : cutFirst c s = some (l, r)) : s = l ++ c :: r := by
  induction s generalizing l with
  | nil => cases h
  | cons x s ih =>
    rw [cutFirst] at h
    split_ifs at h with hx
    · obtain ⟨rfl, rfl⟩ := Prod.mk.inj (Option.some.inj h)
      rw [hx, nil_append]
    · obtain ⟨⟨l', r'⟩, hcut, heq⟩ := Option.map_eq_some_iff.mp h
      obtain ⟨rfl, rfl⟩ := Prod.mk.inj heq
      rw [ih hcut, cons_append]

theorem aroundLast_append_cons (h : c ∉ r) :
    aroundLast c (String.ofList (l ++ c :: r)) = (String.ofList l, String.ofList r) := by
  have hreverse : (l ++ c :: r).reverse = r.reverse ++ c :: l.reverse := by simp
  unfold aroundLast cutLast
  rw [String.toList_ofList, hreverse, cutFirst_append_cons (fun hr => h (mem_reverse.mp hr))]
  simp

theorem aroundLast_of_not_mem (h : c ∉ l) :
    aroundLast c (String.ofList l) = (String.ofList l, String.ofList l) := by
  unfold aroundLast cutLast
  rw [String.toList_ofList, cutFirst_of_not_mem (fun hl => h (mem_reverse.mp hl))]
  rfl

end Around

theorem toList_toString (n : ℕ) : (toString (n : ℤ)).toList = toDigits 10 n := by
  simp [toString, Int.repr]

variable {n : ℕ}

theorem isDigit_of_mem_toString {c : Char} (h : c ∈ (toString (n : ℤ)).toList) :
    c.isDigit = true := by
  rw [toList_toString] at h
  exact isDigit_of_mem_toDigits (by decide) (by decide) h

theorem isSpace_of_isDigit {c : Char} (h : c.isDigit = true) : isSpace c = false := by
  obtain ⟨hlow, hhigh⟩ := Bool.and_eq_true_iff.mp h
  have hlow : 48 ≤ c.toNat := of_decide_eq_true hlow
  have hhigh : c.toNat ≤ 57 := of_decide_eq_true hhigh
  unfold isSpace
  simp only [Bool.or_eq_false_iff, Bool.and_eq_false_iff, decide_eq_false_iff_not,
    beq_eq_false_iff_ne]
  omega

theorem trimmed_eq_self {s : String} (hstart : ∀ c ∈ s.toList.head?, isSpace c = false)
    (hend : ∀ c ∈ s.toList.getLast?, isSpace c = false) : trimmed s = s := by
  have hdrop : ∀ l : List Char, (∀ c ∈ l.head?, isSpace c = false) → l.dropWhile isSpace = l := by
    intro l hl
    cases l with
    | nil => rfl
    | cons c l => exact dropWhile_cons_of_neg (by simp [hl c rfl])
  unfold trimmed
  rw [hdrop _ hstart, hdrop _ (by rwa [head?_reverse]), reverse_reverse,
    String.ofList_toList]

theorem trimmed_of_isDigit {s : String} (h : ∀ c ∈ s.toList, c.isDigit = true) :
    trimmed s = s :=
  trimmed_eq_self (fun c hc => isSpace_of_isDigit (h c (mem_of_mem_head? hc)))
    fun c hc => isSpace_of_isDigit (h c (mem_of_getLast? hc))

def signed? : List Char → Option ℤ
  | '-' :: cs => (decimal? cs).map fun n => -(n : ℤ)
  | '+' :: cs => (decimal? cs).map fun n => (n : ℤ)
  | cs => (decimal? cs).map fun n => (n : ℤ)

theorem toInt?_eq (s : String) :
    toInt? s = (signed? (trimmed s).toList).filter fun n => -2 ^ 31 ≤ n ∧ n < 2 ^ 31 := by
  unfold toInt? signed?
  generalize (trimmed s).toList = l
  rfl

/-- `toLongLong()`: decimal digits with a sign, between spaces, in the range of `qlonglong`. -/
def toLongLong (s : String) : ℤ :=
  ((signed? (trimmed s).toList).filter fun n => -2 ^ 63 ≤ n ∧ n < 2 ^ 63).getD 0

theorem decimal?_toDigits (n : ℕ) : decimal? (toDigits 10 n) = some n := by
  have hall : ∀ c ∈ toDigits 10 n, c.isDigit = true := fun c =>
    isDigit_of_mem_toDigits (by decide) (by decide)
  have hvalue : ofDigitChars 10 (toDigits 10 n) 0 = n :=
    ofDigitChars_toDigits (by decide) (by decide)
  cases hdigits : toDigits 10 n with
  | nil => exact absurd hdigits toDigits_ne_nil
  | cons d ds =>
    rw [hdigits] at hall hvalue
    rw [decimal?, if_pos (all_eq_true.mpr hall), hvalue]
    exact cons_ne_nil d ds

theorem signed?_of_decimal? {cs : List Char} (h : decimal? cs = some n) :
    signed? cs = some (n : ℤ) := by
  have hall : ∀ c ∈ cs, c.isDigit = true := by
    unfold decimal? at h
    split at h
    · cases h
    · split_ifs at h with hall
      exact all_eq_true.mp hall
  unfold signed?
  split
  case h_1 =>
    have hsign := hall '-' mem_cons_self
    exact absurd hsign (by decide)
  case h_2 =>
    have hsign := hall '+' mem_cons_self
    exact absurd hsign (by decide)
  case h_3 =>
    rw [h]
    rfl

theorem signed?_toString (n : ℕ) : signed? (trimmed (toString (n : ℤ))).toList = some (n : ℤ) := by
  rw [trimmed_of_isDigit fun c => isDigit_of_mem_toString, toList_toString]
  exact signed?_of_decimal? (decimal?_toDigits n)

theorem toInt_toString (hn : n < 2 ^ 31) : toInt (toString (n : ℤ)) = n := by
  have hrange : (-2 ^ 31 : ℤ) ≤ n ∧ (n : ℤ) < 2 ^ 31 := by omega
  have hread : toInt? (toString (n : ℤ)) = some (n : ℤ) := by
    rw [toInt?_eq, signed?_toString]
    exact Option.filter_some_pos (decide_eq_true hrange)
  rw [toInt, hread, Option.getD_some]

theorem toLongLong_toString (hn : n < 2 ^ 63) : toLongLong (toString (n : ℤ)) = n := by
  have hrange : (-2 ^ 63 : ℤ) ≤ n ∧ (n : ℤ) < 2 ^ 63 := by omega
  have hread : (some (n : ℤ)).filter (fun n => -2 ^ 63 ≤ n ∧ n < 2 ^ 63) = some (n : ℤ) :=
    Option.filter_some_pos (decide_eq_true hrange)
  rw [toLongLong, signed?_toString, hread, Option.getD_some]

theorem toLongLong_toString_of_le (hn : 2 ^ 63 ≤ n) : toLongLong (toString (n : ℤ)) = 0 := by
  have hrange : ¬((-2 ^ 63 : ℤ) ≤ n ∧ (n : ℤ) < 2 ^ 63) := by omega
  have hread : (some (n : ℤ)).filter (fun n => -2 ^ 63 ≤ n ∧ n < 2 ^ 63) = none :=
    Option.filter_some_neg (by simpa using hrange)
  rw [toLongLong, signed?_toString, hread, Option.getD_none]

theorem toDigits_injective {m : ℕ} (h : toDigits 10 m = toDigits 10 n) : m = n := by
  have hvalue := congrArg (fun ds => ofDigitChars 10 ds 0) h
  simpa [ofDigitChars_toDigits] using hvalue

theorem toString_injective {m n : ℤ} (h : toString m = toString n) : m = n := by
  have hneg : ∀ k : ℕ, (toString (Int.negSucc k)).toList = '-' :: toDigits 10 (k + 1) := by
    intro k
    simp [toString, Int.repr]
  have hsign : ∀ (k : ℕ) (l : List Char), toDigits 10 k ≠ '-' :: l := by
    intro k l hk
    have hdigit := isDigit_of_mem_toDigits (by decide) (by decide) (hk ▸ mem_cons_self)
    exact absurd hdigit (by decide)
  have h := congrArg String.toList h
  match m, n with
  | .ofNat a, .ofNat b =>
    rw [Int.ofNat_eq_natCast, Int.ofNat_eq_natCast, toList_toString, toList_toString] at h
    rw [toDigits_injective h]
  | .ofNat a, .negSucc b =>
    rw [Int.ofNat_eq_natCast, toList_toString, hneg] at h
    exact absurd h (hsign a _)
  | .negSucc a, .ofNat b =>
    rw [Int.ofNat_eq_natCast, toList_toString, hneg] at h
    exact absurd h.symm (hsign b _)
  | .negSucc a, .negSucc b =>
    rw [hneg, hneg, List.cons.injEq] at h
    rw [succ.inj (toDigits_injective h.2)]

end AmneziaVpn.QString
