import AmneziaVpn.KotlinRuntime

/-!
# Texts and byte strings of the Qt library

The functions of `QString` and `QByteArray` that the import and export of configurations call. A
search that returns a position in the source, `-1` for none, returns the two parts around the
position here.
-/

namespace AmneziaVpn

open List

abbrev QByteArray := List UInt8

namespace QString

variable (s : String)

def startsWith (start : String) : Bool := start.toList.isPrefixOf s.toList

def endsWith (final : String) : Bool := final.toList.isSuffixOf s.toList

def contains (part : String) : Bool := decide (part.toList <:+: s.toList)

def mid (position : ℕ) : String := String.ofList (s.toList.drop position)

variable (c : Char)

/-- `QChar::isSpace` -/
def isSpace : Bool :=
  c.toNat == 0x20 || (9 ≤ c.toNat && c.toNat ≤ 13) || c.toNat == 0x85 || c.toNat == 0xa0 ||
    c.toNat == 0x1680 || (0x2000 ≤ c.toNat && c.toNat ≤ 0x200a) || c.toNat == 0x2028 ||
    c.toNat == 0x2029 || c.toNat == 0x202f || c.toNat == 0x205f || c.toNat == 0x3000

def trimmed : String :=
  String.ofList ((s.toList.dropWhile isSpace).reverse.dropWhile isSpace).reverse

def cutFirst (c : Char) : List Char → Option (List Char × List Char)
  | [] => none
  | x :: xs => if x = c then some ([], xs) else (cutFirst c xs).map fun (l, r) => (x :: l, r)

def cutLast (s : List Char) : Option (List Char × List Char) :=
  (cutFirst c s.reverse).map fun (l, r) => (r.reverse, l.reverse)

/-- Without a `c`, both parts are the whole text. -/
def aroundFirst (s : String) : String × String :=
  ((cutFirst c s.toList).map fun (l, r) => (String.ofList l, String.ofList r)).getD (s, s)

def aroundLast (s : String) : String × String :=
  ((cutLast c s.toList).map fun (l, r) => (String.ofList l, String.ofList r)).getD (s, s)

/-- The next `skip` characters belong to an occurrence already replaced. -/
def replaceFrom (before after : List Char) : ℕ → List Char → List Char
  | _, [] => []
  | skip + 1, _ :: cs => replaceFrom before after skip cs
  | 0, c :: cs =>
      if before <+: c :: cs then after ++ replaceFrom before after (before.length - 1) cs
      else c :: replaceFrom before after 0 cs

def replace (before after : String) : String :=
  String.ofList (replaceFrom before.toList after.toList 0 s.toList)

/-- The current part is collected in reverse order. -/
def splitFrom (separator : List Char) : ℕ → List Char → List Char → List (List Char)
  | _, part, [] => [part.reverse]
  | skip + 1, part, _ :: cs => splitFrom separator skip part cs
  | 0, part, c :: cs =>
      if separator <+: c :: cs then
        part.reverse :: splitFrom separator (separator.length - 1) [] cs
      else splitFrom separator 0 (c :: part) cs

def split (separator : String) : List String :=
  (splitFrom separator.toList 0 [] s.toList).map String.ofList

/-- The number of the place marker that a text starts with, and how many characters it has. -/
def marker? : List Char → Option (ℕ × ℕ)
  | '%' :: 'L' :: cs => (number? cs).map fun (n, length) => (n, length + 2)
  | '%' :: cs => (number? cs).map fun (n, length) => (n, length + 1)
  | _ => none
where
  /-- One decimal digit or two. -/
  number? : List Char → Option (ℕ × ℕ)
    | c :: cs =>
        if c.isDigit then
          match cs with
          | d :: _ =>
              if d.isDigit then some (10 * (c.toNat - 48) + (d.toNat - 48), 2)
              else some (c.toNat - 48, 1)
          | [] => some (c.toNat - 48, 1)
        else none
    | [] => none

def replaceMarker (n : ℕ) (a : List Char) : ℕ → List Char → List Char
  | _, [] => []
  | skip + 1, _ :: cs => replaceMarker n a skip cs
  | 0, c :: cs =>
      match marker? (c :: cs) with
      | some (m, length) =>
          if m = n then a ++ replaceMarker n a (length - 1) cs else c :: replaceMarker n a 0 cs
      | none => c :: replaceMarker n a 0 cs

/-- `arg(a)`: the place markers of the lowest number are replaced, wherever they come from. -/
def arg (a : String) : String :=
  match (s.toList.tails.filterMap fun t => (marker? t).map Prod.fst).min? with
  | some n => String.ofList (replaceMarker n a.toList 0 s.toList)
  | none => s

/-- `toInt(&ok)`: decimal digits with a sign, between spaces, in the range of `int`. -/
def toInt? : Option ℤ :=
  let magnitude := match (trimmed s).toList with
    | '-' :: cs => (decimal? cs).map fun n => -(n : ℤ)
    | '+' :: cs => (decimal? cs).map fun n => (n : ℤ)
    | cs => (decimal? cs).map fun n => (n : ℤ)
  magnitude.filter fun n => -2 ^ 31 ≤ n ∧ n < 2 ^ 31

def toInt (s : String) : ℤ := (toInt? s).getD 0

def toUtf8 : QByteArray := s.toUTF8.data.toList

variable (replacement : QByteArray → String)

/-- `QString(bytes)`. What bytes that are not UTF-8 are read as is left to `replacement`. -/
def fromUtf8 (bytes : QByteArray) : String :=
  if h : (ByteArray.mk bytes.toArray).IsValidUTF8 then String.fromUTF8 _ h else replacement bytes

@[simp] theorem fromUtf8_toUtf8 (s : String) : fromUtf8 replacement (toUtf8 s) = s := by
  have h : ByteArray.mk (toUtf8 s).toArray = s.toUTF8 := by simp [toUtf8]
  unfold fromUtf8
  rw [dif_pos (by rw [h]; exact s.isValidUTF8)]
  apply String.toByteArray_inj.mp
  exact h

theorem isEmpty_toUtf8 {s : String} (h : s ≠ "") : (toUtf8 s).isEmpty = false := by
  rw [isEmpty_eq_false_iff]
  intro hnil
  apply h
  have hempty : toUtf8 "" = [] := rfl
  rw [← fromUtf8_toUtf8 (fun _ => "") s, hnil, ← hempty, fromUtf8_toUtf8]

theorem toUtf8_append (t : String) : toUtf8 (s ++ t) = toUtf8 s ++ toUtf8 t := by
  simp [toUtf8, String.toByteArray_append]

theorem toUtf8_cons {c : Char} (hc : c.utf8Size = 1) (cs : List Char) :
    toUtf8 (String.ofList (c :: cs)) = c.val.toUInt8 :: toUtf8 (String.ofList cs) := by
  unfold toUtf8
  rw [String.toUTF8, String.toByteArray_ofList, utf8Encode_cons, ← String.toByteArray_ofList]
  simp [List.utf8Encode, String.utf8EncodeChar_eq_singleton hc]

theorem contains_iff {s part : String} : contains s part = true ↔ part.toList <:+: s.toList :=
  decide_eq_true_iff

theorem replaceFrom_of_not_mem {before after s : List Char} {x : Char} (hx : x ∈ before)
    (hs : x ∉ s) : replaceFrom before after 0 s = s := by
  induction s with
  | nil => rfl
  | cons c cs ih =>
    have hpre : ¬ before <+: c :: cs := fun h => hs (h.subset hx)
    rw [replaceFrom, if_neg hpre, ih fun h => hs (mem_cons_of_mem _ h)]

theorem replaceFrom_skip (before after skipped rest : List Char) :
    replaceFrom before after skipped.length (skipped ++ rest) =
      replaceFrom before after 0 rest := by
  induction skipped with
  | nil => rfl
  | cons c cs ih => exact ih

/-- Deleting a text that stands at the start and has a character that does not occur later. -/
theorem replace_append {before rest : String} {x : Char} (hx : x ∈ before.toList)
    (hrest : x ∉ rest.toList) : replace (before ++ rest) before "" = rest := by
  obtain ⟨c, cs, hcs⟩ := exists_cons_of_ne_nil (ne_nil_of_mem hx)
  have hall : replaceFrom (c :: cs) [] 0 (c :: cs ++ rest.toList) = rest.toList := by
    rw [cons_append, replaceFrom, if_pos ⟨rest.toList, rfl⟩]
    refine (replaceFrom_skip (c :: cs) [] cs rest.toList).trans ?_
    exact replaceFrom_of_not_mem (hcs ▸ hx) hrest
  unfold replace
  rw [String.toList_append, hcs]
  exact (congrArg String.ofList hall).trans String.ofList_toList

theorem startsWith_iff {s start : String} :
    startsWith s start = true ↔ start.toList <+: s.toList := isPrefixOf_iff_prefix

/-- A text has at most one of two starts of which none is the start of the other. -/
theorem startsWith_eq_false {s start other : String} (h : startsWith s start = true)
    (hstart : ¬ start.toList <+: other.toList) (hother : ¬ other.toList <+: start.toList) :
    startsWith s other = false := by
  rw [Bool.eq_false_iff]
  intro hs
  rcases prefix_or_prefix_of_prefix (startsWith_iff.mp h) (startsWith_iff.mp hs) with hp | hp
  · exact hstart hp
  · exact hother hp

variable {l : List Char}

theorem number?_length_le {m length : ℕ} (h : marker?.number? (l ++ [')']) = some (m, length)) :
    length ≤ l.length := by
  match l with
  | [] => simp [marker?.number?] at h
  | [c] =>
    have hparen : (')' : Char).isDigit = false := rfl
    simp only [cons_append, nil_append, marker?.number?, hparen, Bool.false_eq_true,
      if_false] at h
    split_ifs at h
    simp only [Option.some.injEq, Prod.mk.injEq] at h
    exact h.2 ▸ le_refl _
  | c :: d :: l =>
    simp only [cons_append, marker?.number?] at h
    split_ifs at h
    all_goals
      simp only [Option.some.injEq, Prod.mk.injEq] at h
      simp only [length_cons]
      omega

theorem marker?_length_le {m length : ℕ} (h : marker? (l ++ [')']) = some (m, length)) :
    length ≤ l.length := by
  match l with
  | [] => simp [marker?] at h
  | [c] =>
    by_cases hc : c = '%'
    · simp [hc, marker?, marker?.number?] at h
    · simp [marker?, hc] at h
  | c :: d :: l =>
    by_cases hc : c = '%'
    · subst hc
      by_cases hd : d = 'L'
      · subst hd
        obtain ⟨⟨n, k⟩, hn, heq⟩ := Option.map_eq_some_iff.mp h
        cases heq
        exact Nat.add_le_add_right (number?_length_le hn) 2
      · have hrest : marker? ('%' :: d :: l ++ [')']) =
            (marker?.number? (d :: l ++ [')'])).map fun (n, length) => (n, length + 1) := by
          simp [marker?, hd]
        obtain ⟨⟨n, k⟩, hn, heq⟩ := Option.map_eq_some_iff.mp (hrest.symm.trans h)
        cases heq
        exact Nat.add_le_add_right (number?_length_le hn) 1
    · simp [marker?, hc] at h

theorem replaceMarker_append (n : ℕ) (a : List Char) {skip : ℕ} (h : skip ≤ l.length) :
    [')'] <:+ replaceMarker n a skip (l ++ [')']) := by
  induction l generalizing skip with
  | nil =>
    obtain rfl : skip = 0 := Nat.le_zero.mp h
    exact suffix_refl _
  | cons c l ih =>
    cases skip with
    | succ skip => exact ih (Nat.le_of_succ_le_succ h)
    | zero =>
      rw [cons_append, replaceMarker]
      split
      · rename_i m length hmarker
        have hlength := marker?_length_le (l := c :: l) hmarker
        split_ifs
        · exact (ih (by simp at hlength; omega)).trans (suffix_append _ _)
        · exact (ih (Nat.zero_le _)).trans (suffix_cons _ _)
      · exact (ih (Nat.zero_le _)).trans (suffix_cons _ _)

theorem endsWith_arg (a : String) : endsWith (arg (s ++ ")") a) ")" = true := by
  rw [endsWith, isSuffixOf_iff_suffix]
  unfold arg
  split
  · simp only [String.toList_ofList, String.toList_append]
    exact replaceMarker_append _ _ (Nat.zero_le _)
  · rw [String.toList_append]
    exact suffix_append _ _

end QString

end AmneziaVpn
