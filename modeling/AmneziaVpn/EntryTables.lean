import AmneziaVpn.ByteOrder
import Mathlib.Order.CompletePartialOrder
import Mathlib.Order.Interval.Set.Disjoint

/-!
# Strings behind a table of entries

A buffer starts with the number of entries and its own length. The entries that follow have a fixed
size and give the offset and the length of a string in the area behind the last entry.
-/

namespace EntryTables

open ByteOrder List

/-- The number in so many bytes, the least significant one first. What does not fit is cut off. -/
def leBytes : ℕ → ℕ → List UInt8
  | 0, _ => []
  | n + 1, v => UInt8.ofNat v :: leBytes n (v / 256)

@[simp] theorem length_leBytes (n v : ℕ) : (leBytes n v).length = n := by
  induction n generalizing v with
  | zero => rfl
  | succ n ih => rw [leBytes, length_cons, ih]

theorem leValue_leBytes {n v : ℕ} (h : v < 256 ^ n) : leValue (leBytes n v) = v := by
  induction n generalizing v with
  | zero =>
    have hv : v = 0 := by simpa using h
    rw [leBytes, leValue_nil, hv]
  | succ n ih =>
    have hdiv : v / 256 < 256 ^ n := by
      apply Nat.div_lt_of_lt_mul
      rwa [← pow_succ']
    rw [leBytes, leValue_cons, ih hdiv, UInt8.toNat_ofNat']
    exact Nat.mod_add_div v 256

def read (buf : List UInt8) (pos n : ℕ) : Option (List UInt8) :=
  if pos + n ≤ buf.length then some ((buf.drop pos).take n) else none

/-- Writing behind the end is not defined. -/
def write (buf : List UInt8) (pos : ℕ) (bytes : List UInt8) : Option (List UInt8) :=
  if pos + bytes.length ≤ buf.length then
    some (buf.take pos ++ (bytes ++ buf.drop (pos + bytes.length)))
  else none

section Zones

variable {a b b' c : List UInt8} {pos n : ℕ}

theorem read_zone (hpos : pos = a.length) (hn : n = b.length) :
    read (a ++ (b ++ c)) pos n = some b := by
  subst hpos hn
  have hle : a.length + b.length ≤ (a ++ (b ++ c)).length := by simp
  rw [read, if_pos hle, drop_left, take_left]

theorem write_zone (hpos : pos = a.length) (hlen : b'.length = b.length) :
    write (a ++ (b ++ c)) pos b' = some (a ++ (b' ++ c)) := by
  subst hpos
  have hle : a.length + b'.length ≤ (a ++ (b ++ c)).length := by
    simp only [length_append]
    omega
  have hdrop : (a ++ (b ++ c)).drop (a.length + b'.length) = c := by
    rw [← drop_drop, drop_left, hlen, drop_left]
  rw [write, if_pos hle, take_left, hdrop]

theorem read_inner (h : read b pos n = some b') : read (a ++ (b ++ c)) (a.length + pos) n = some b' := by
  unfold read at h ⊢
  split_ifs at h with hin
  have hle : a.length + pos + n ≤ (a ++ (b ++ c)).length := by
    simp only [length_append]
    omega
  have htake : n ≤ (b.drop pos).length := by
    rw [length_drop]
    omega
  rw [if_pos hle, ← drop_drop, drop_left, drop_append_of_le_length (by omega),
    take_append_of_le_length htake]
  exact h

end Zones

/-- Where an entry has its offset, eight bytes; the two bytes of the length follow it. -/
structure Layout where
  entrySize : ℕ
  offsetAt : ℕ

structure Table where
  total : ℕ
  /-- Where the strings are: their first byte and their length. -/
  slices : List (ℕ × ℕ)
  strings : List (List UInt8)

namespace Layout

variable (L : Layout)

def entries (buf : List UInt8) : ℕ → ℕ → Option (List (ℕ × ℕ))
  | 0, _ => some []
  | n + 1, pos => do
    let offset ← read buf (pos + L.offsetAt) 8
    let length ← read buf (pos + (L.offsetAt + 8)) 2
    let rest ← entries buf n (pos + L.entrySize)
    return (leValue offset, leValue length) :: rest

def decode (buf : List UInt8) : Option Table := do
  let num ← read buf 0 8
  let total ← read buf 8 8
  let entries ← L.entries buf (leValue num) 16
  let slices := entries.map fun entry => (16 + leValue num * L.entrySize + entry.1, entry.2)
  let strings ← slices.mapM fun slice => read buf slice.1 slice.2
  return ⟨leValue total, slices, strings⟩

/-- The buffer gives its own length and these strings, which lie in the area behind the entries and do
not overlap. -/
def Holds (buf : List UInt8) (strings : List (List UInt8)) : Prop :=
  ∃ slices, L.decode buf = some ⟨buf.length, slices, strings⟩ ∧
    (∀ slice ∈ slices, 16 + strings.length * L.entrySize ≤ slice.1 ∧
      slice.1 + slice.2 ≤ buf.length) ∧
    slices.Pairwise fun s t => Disjoint (Set.Ico s.1 (s.1 + s.2)) (Set.Ico t.1 (t.1 + t.2))

structure Stores (entry : List UInt8) (offset length : ℕ) : Prop where
  size : entry.length = L.entrySize
  offset : read entry L.offsetAt 8 = some (leBytes 8 offset)
  length : read entry (L.offsetAt + 8) 2 = some (leBytes 2 length)

theorem stores_of_fields {front pad : List UInt8} {offset length : ℕ}
    (hfront : L.offsetAt = front.length) (hsize : L.entrySize = front.length + (10 + pad.length)) :
    L.Stores (front ++ (leBytes 8 offset ++ (leBytes 2 length ++ pad))) offset length where
  size := by
    simp only [length_append, length_leBytes, hsize]
    omega
  offset := read_zone hfront (length_leBytes 8 offset).symm
  length := by
    rw [← append_assoc]
    apply read_zone _ (length_leBytes 2 length).symm
    rw [length_append, length_leBytes, hfront]

/-- Entries and their strings from an offset on. -/
inductive Laid : ℕ → List (List UInt8) → List (List UInt8) → List (ℕ × ℕ) → Prop
  | nil (base : ℕ) : Laid base [] [] []
  | cons {base offset : ℕ} {entry string : List UInt8} {entries strings : List (List UInt8)}
      {slices : List (ℕ × ℕ)} (stores : L.Stores entry offset string.length)
      (fits : offset < 256 ^ 8 ∧ string.length < 256 ^ 2) (le : offset ≤ base)
      (eq : string ≠ [] → offset = base) (rest : Laid (base + string.length) entries strings slices) :
      Laid base (entry :: entries) (string :: strings) ((offset, string.length) :: slices)

namespace Laid

variable {L}
variable {base : ℕ} {es strings : List (List UInt8)} {slices : List (ℕ × ℕ)}

theorem lengths (h : L.Laid base es strings slices) :
    es.length = strings.length ∧ es.flatten.length = strings.length * L.entrySize := by
  induction h with
  | nil base => exact ⟨rfl, (Nat.zero_mul _).symm⟩
  | cons stores fits le eq rest ih =>
    obtain ⟨hlength, hflatten⟩ := ih
    simp only [length_cons, flatten_cons, length_append, stores.size, hflatten, hlength,
      true_and]
    ring

theorem entries_eq (h : L.Laid base es strings slices) (a c : List UInt8) :
    L.entries (a ++ (es.flatten ++ c)) strings.length a.length = some slices := by
  induction h generalizing a with
  | nil base => rfl
  | @cons base offset entry string entries strings slices stores fits le eq rest ih =>
    have hrest := ih (a ++ entry)
    rw [append_assoc, length_append, stores.size] at hrest
    have hoffset := @read_inner a entry _ (entries.flatten ++ c) _ _ stores.offset
    have hlength := @read_inner a entry _ (entries.flatten ++ c) _ _ stores.length
    simp [length_cons, flatten_cons, append_assoc, Layout.entries, hoffset, hlength, hrest, Option.bind_eq_bind, Option.bind_some, Option.pure_def, leValue_leBytes fits.1, leValue_leBytes fits.2]

theorem strings_eq (h : L.Laid base es strings slices) {head pre : List UInt8} {area : ℕ}
    (harea : area = head.length) (hbase : pre.length = base) :
    (slices.map fun slice => (area + slice.1, slice.2)).mapM
      (fun slice => read (head ++ (pre ++ strings.flatten)) slice.1 slice.2) = some strings := by
  induction h generalizing pre with
  | nil base => rfl
  | @cons base offset entry string entries strings slices stores fits le eq rest ih =>
    have hrest := @ih (pre ++ string) (by rw [length_append, hbase])
    have hread : read (head ++ (pre ++ (string ++ strings.flatten))) (area + offset)
        string.length = some string := by
      by_cases hempty : string = []
      · subst hempty
        have hle : area + offset + 0 ≤ (head ++ (pre ++ ([] ++ strings.flatten))).length := by
          simp only [length_append]
          omega
        rw [read, length_nil, if_pos hle, take_zero]
      · rw [← append_assoc]
        apply read_zone _ rfl
        rw [length_append, hbase, eq hempty, harea]
    rw [append_assoc] at hrest
    simp [flatten_cons, map_cons, mapM_cons, hread, hrest, Option.bind_eq_bind, Option.bind_some, Option.pure_def]

theorem inside (h : L.Laid base es strings slices) :
    ∀ slice ∈ slices, slice.1 + slice.2 ≤ base + strings.flatten.length := by
  induction h with
  | nil base => simp
  | cons stores fits le eq rest ih =>
    simp only [flatten_cons, length_append, forall_mem_cons]
    refine ⟨by omega, fun slice hslice => ?_⟩
    have hrest := ih slice hslice
    omega

theorem behind (h : L.Laid base es strings slices) :
    ∀ slice ∈ slices, slice.2 = 0 ∨ base ≤ slice.1 := by
  induction h with
  | nil base => simp
  | @cons base offset entry string entries strings slices stores fits le eq rest ih =>
    rw [forall_mem_cons]
    constructor
    · by_cases hempty : string = []
      · exact Or.inl (by rw [hempty, length_nil])
      · exact Or.inr (eq hempty).ge
    · exact fun slice hslice => (ih slice hslice).imp_right fun hle => by omega

theorem disjoint (h : L.Laid base es strings slices) (area : ℕ) :
    (slices.map fun slice => (area + slice.1, slice.2)).Pairwise fun s t =>
      Disjoint (Set.Ico s.1 (s.1 + s.2)) (Set.Ico t.1 (t.1 + t.2)) := by
  induction h with
  | nil base => exact List.Pairwise.nil
  | @cons base offset entry string entries strings slices stores fits le eq rest ih =>
    rw [map_cons, pairwise_cons]
    refine ⟨fun t ht => ?_, ih⟩
    obtain ⟨slice, hslice, rfl⟩ := mem_map.mp ht
    rw [Set.Ico_disjoint_Ico]
    rcases rest.behind slice hslice with hzero | hbehind
    · dsimp only
      omega
    · dsimp only
      omega

/-- A loop that fills one entry at a time lays the strings out. -/
theorem of_loop {α : Type*} {string : α → List UInt8}
    {run : List α → ℕ → ℕ → List UInt8 → Option (List UInt8)} {bound : ℕ} (hbound : bound ≤ 256 ^ 8)
    (hnil : ∀ pos offset buf, run [] pos offset buf = some buf)
    (hcons : ∀ x xs (a s c : List UInt8), s.length + (string x).length < bound →
      ∃ offset entry, L.Stores entry offset (string x).length ∧ offset ≤ s.length ∧
        (string x ≠ [] → offset = s.length) ∧
        run (x :: xs) a.length s.length (a ++ (List.replicate L.entrySize 0 ++
          (List.replicate (L.entrySize * xs.length) 0 ++
            (s ++ (List.replicate (string x).length 0 ++ c))))) =
        run xs (a ++ entry).length (s ++ string x).length
          (a ++ ((entry ++ List.replicate (L.entrySize * xs.length) 0) ++ ((s ++ string x) ++ c))))
    (xs : List α) (a s : List UInt8) (hshort : ∀ x ∈ xs, (string x).length < 256 ^ 2)
    (hfits : s.length + (xs.map string).flatten.length < bound) :
    ∃ entries slices,
      run xs a.length s.length (a ++ (List.replicate (L.entrySize * xs.length) 0 ++
        (s ++ List.replicate (xs.map string).flatten.length 0))) =
        some (a ++ (entries.flatten ++ (s ++ (xs.map string).flatten))) ∧
      L.Laid s.length entries (xs.map string) slices := by
  induction xs generalizing a s with
  | nil => exact ⟨[], [], by simp [hnil], .nil _⟩
  | cons x xs ih =>
    obtain ⟨hx, hshort⟩ := forall_mem_cons.mp hshort
    simp only [map_cons, flatten_cons, length_append, length_cons] at hfits ⊢
    obtain ⟨offset, entry, hstores, hle, heq, hstep⟩ := hcons x xs a s
      (List.replicate (xs.map string).flatten.length 0) (by omega)
    obtain ⟨entries, slices, hrun, hlaid⟩ := ih (a ++ entry) (s ++ string x) hshort
      (by rw [length_append]; omega)
    refine ⟨entry :: entries, (offset, (string x).length) :: slices, ?_, ?_⟩
    · have htable : List.replicate (L.entrySize * (xs.length + 1)) (0 : UInt8) =
          List.replicate L.entrySize 0 ++ List.replicate (L.entrySize * xs.length) 0 := by
        rw [replicate_append_replicate, Nat.mul_succ, Nat.add_comm]
      rw [htable, ← replicate_append_replicate, append_assoc, hstep]
      simpa only [append_assoc, flatten_cons] using hrun
    · rw [length_append] at hlaid
      exact .cons hstores ⟨by omega, hx⟩ hle heq hlaid

theorem holds (h : L.Laid 0 es strings slices) {total : ℕ}
    (htotal : total = 16 + strings.length * L.entrySize + strings.flatten.length)
    (hfits : total < 256 ^ 8) (hnum : strings.length < 256 ^ 8) :
    L.Holds (leBytes 8 strings.length ++ (leBytes 8 total ++ (es.flatten ++ strings.flatten)))
      strings := by
  generalize hbuf : leBytes 8 strings.length ++ (leBytes 8 total ++ (es.flatten ++ strings.flatten)) =
    buf
  have hlength : buf.length = total := by
    rw [← hbuf]
    simp only [length_append, length_leBytes, h.lengths.2]
    omega
  have hnumber : read buf 0 8 = some (leBytes 8 strings.length) := by
    rw [← hbuf]
    exact read_zone (a := []) rfl (length_leBytes 8 _).symm
  have hread : read buf 8 8 = some (leBytes 8 total) := by
    rw [← hbuf]
    exact read_zone (length_leBytes 8 _).symm (length_leBytes 8 _).symm
  have hentries : L.entries buf strings.length 16 = some slices := by
    have hentries := h.entries_eq (leBytes 8 strings.length ++ leBytes 8 total) strings.flatten
    rw [append_assoc, hbuf, length_append, length_leBytes, length_leBytes] at hentries
    exact hentries
  have hstrings : (slices.map fun slice => (16 + strings.length * L.entrySize + slice.1, slice.2)).mapM
      (fun slice => read buf slice.1 slice.2) = some strings := by
    have harea : 16 + strings.length * L.entrySize =
        (leBytes 8 strings.length ++ (leBytes 8 total ++ es.flatten)).length := by
      simp only [length_append, length_leBytes, h.lengths.2]
      omega
    have hstrings := h.strings_eq harea (show ([] : List UInt8).length = 0 from rfl)
    rw [nil_append, append_assoc, append_assoc, hbuf] at hstrings
    exact hstrings
  refine ⟨_, ?_, ?_, h.disjoint (16 + strings.length * L.entrySize)⟩
  · simp only [decode, hnumber, hread, Option.bind_eq_bind, Option.bind_some, leValue_leBytes hnum,
      leValue_leBytes hfits, hentries, hstrings, Option.pure_def, hlength]
  · intro slice hslice
    obtain ⟨slice, hmem, rfl⟩ := mem_map.mp hslice
    have hinside := h.inside slice hmem
    dsimp only
    omega

end Laid

end Layout

end EntryTables
