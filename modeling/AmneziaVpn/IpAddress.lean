import AmneziaVpn.BacktrackingRegex
import AmneziaVpn.ByteOrder
import AmneziaVpn.KotlinRuntime

/-!
# Addresses of the Android client

`IpAddress` is a mutable array of four or sixteen unsigned bytes in network order. Here it is the
byte list itself, and the loops that run from the last index downwards run over the reversed list.
The platform never hands out an IPv4-mapped `Inet6Address`; such text yields the `Inet4Address`.
-/

namespace AmneziaVpn

open BacktrackingRegex

/-- `java.net.InetAddress`: an `Inet4Address` has four bytes, an `Inet6Address` sixteen. -/
@[ext] structure InetAddress where
  address : List UInt8
  size_eq : address.length = 4 ∨ address.length = 16
deriving DecidableEq

@[ext] structure IpAddress where
  address : List UInt8
  size_eq : address.length = 4 ∨ address.length = 16
deriving DecidableEq

namespace IpAddress

def ofInetAddress (inetAddress : InetAddress) : IpAddress :=
  ⟨inetAddress.address, inetAddress.size_eq⟩

variable (ip : IpAddress)

def size : ℕ := ip.address.length

def maxMask : ℤ := ip.size * 8

def incLoop : List UInt8 → List UInt8
  | [] => []
  | b :: bs => if b + 1 ≠ 0 then (b + 1) :: bs else (b + 1) :: incLoop bs

def decLoop : List UInt8 → List UInt8
  | [] => []
  | b :: bs => if b - 1 ≠ 0xff then (b - 1) :: bs else (b - 1) :: decLoop bs

@[simp] theorem length_incLoop (l : List UInt8) : (incLoop l).length = l.length := by
  induction l with
  | nil => rfl
  | cons b bs ih =>
    rw [incLoop]
    split_ifs <;> simp [ih]

@[simp] theorem length_decLoop (l : List UInt8) : (decLoop l).length = l.length := by
  induction l with
  | nil => rfl
  | cons b bs ih =>
    rw [decLoop]
    split_ifs <;> simp [ih]

def isMinIp : Bool := ip.address.all (· == 0x00)

def isMaxIp : Bool := ip.address.all (· == 0xff)

def inc : Outcome IpAddress :=
  if ip.address.all (· == 0xff) then .error (.runtimeException "IP address overflow")
  else .ok ⟨(incLoop ip.address.reverse).reverse, by simpa using ip.size_eq⟩

def dec : Outcome IpAddress :=
  if ip.address.all (· == 0) then .error (.runtimeException "IP address overflow")
  else .ok ⟨(decLoop ip.address.reverse).reverse, by simpa using ip.size_eq⟩

/-- The first non-zero difference of two bytes at the same index, as a signed number. -/
def compareLoop : List UInt8 → List UInt8 → ℤ
  | a :: as, b :: bs => if (a.toNat : ℤ) - b.toNat ≠ 0 then a.toNat - b.toNat else compareLoop as bs
  | _, _ => 0

def compareTo (other : IpAddress) : ℤ :=
  if ip.size ≠ other.size then (ip.size : ℤ) - other.size
  else compareLoop ip.address other.address

def equals (other : IpAddress) : Bool := ip.compareTo other = 0

instance : LT IpAddress := ⟨fun a b => a.compareTo b < 0⟩
instance : LE IpAddress := ⟨fun a b => a.compareTo b ≤ 0⟩
instance (a b : IpAddress) : Decidable (a < b) := inferInstanceAs (Decidable (a.compareTo b < 0))
instance (a b : IpAddress) : Decidable (a ≤ b) := inferInstanceAs (Decidable (a.compareTo b ≤ 0))

end IpAddress

def colon : Regex := .cls (· == ':')

def zeros : Regex := .rep 1 (.cls (· == '0'))

def isSpace (c : Char) : Bool :=
  c == ' ' || c == '\t' || c == '\n' || c == '\x0b' || c == '\x0c' || c == '\r'

def nonSpaces : Regex := .rep 0 (.cls fun c => !isSpace c)

def zeroBlock : Regex := .seq (.alt .atStart colon) (.seq zeros .wordBoundary)

def longerRunAhead : Regex :=
  .seq nonSpaces (.seq .wordBoundary (.seq (.backref 1) (.seq colon (.seq zeros .wordBoundary))))

/-- The pattern `((?:(?:^|:)0+\b){2,}):?(?!\S*\b\1:0+\b)(\S*)`. -/
def zeroRunPattern : Regex :=
  .seq (.group 1 (.rep 2 zeroBlock))
    (.seq (.opt colon) (.seq (.notAhead longerRunAhead) (.group 2 nonSpaces)))

def canonicalReplacement (q : Position) : List Char :=
  ':' :: ':' :: (q.captures 2).getD []

def convertIpv6ToCanonicalForm (ipv6 : List Char) : List Char :=
  replaceAll zeroRunPattern canonicalReplacement ipv6

/-- Two bytes at a time, the first one shifted by eight. -/
def hexBlocks : List UInt8 → List ℕ
  | a :: b :: rest => (a.toNat * 2 ^ 8 + b.toNat) :: hexBlocks rest
  | _ => []

variable (address : List UInt8)

def toIpv6String : List Char :=
  convertIpv6ToCanonicalForm
    ((hexBlocks address).flatMap fun block => Nat.toDigits 16 block ++ [':']).dropLast

def dottedDecimal : List Char :=
  ['.'].intercalate (address.map fun b => Nat.toDigits 10 b.toNat)

def IpAddress.toString (ip : IpAddress) : String :=
  .ofList (if ip.size > 4 then toIpv6String ip.address else dottedDecimal ip.address)

def hexDigit? (c : Char) : Option ℕ :=
  if '0' ≤ c ∧ c ≤ '9' then some (c.toNat - '0'.toNat)
  else if 'a' ≤ c ∧ c ≤ 'f' then some (c.toNat - 'a'.toNat + 10)
  else if 'A' ≤ c ∧ c ≤ 'F' then some (c.toNat - 'A'.toNat + 10)
  else none

variable (cs : List Char)

def hexNumber : Option ℕ :=
  cs.foldlM (fun n c => (hexDigit? c).map (16 * n + ·)) 0

def parseHexBlock : Option ℕ :=
  if 1 ≤ cs.length ∧ cs.length ≤ 4 then hexNumber cs else none

def parseDecimalByte : Option UInt8 :=
  if cs.length ≤ 3 ∧ (cs.head? ≠ some '0' ∨ cs.length = 1) then
    (decimal? cs).bind fun n => if n < 256 then some (.ofNat n) else none
  else none

def parseDottedDecimal : Option (List UInt8) :=
  let parts := cs.splitOn '.'
  if parts.length = 4 then parts.mapM parseDecimalByte else none

def blockBytes (block : ℕ) : List UInt8 := [.ofNat (block / 256), .ofNat (block % 256)]

/-- Colon-separated blocks; the last one may be a dotted decimal tail. -/
def parseBlocks : List (List Char) → Option (List UInt8)
  | [] => some []
  | [tail] => if '.' ∈ tail then parseDottedDecimal tail else (parseHexBlock tail).map blockBytes
  | block :: rest => do
      let n ← parseHexBlock block
      let bytes ← parseBlocks rest
      return blockBytes n ++ bytes

/-- Cut a text at its first `::`. -/
def cutAtDoubleColon : List Char → Option (List Char × List Char)
  | ':' :: ':' :: rest => some ([], rest)
  | c :: rest => (cutAtDoubleColon rest).map fun (left, right) => (c :: left, right)
  | [] => none

def parseColonBlocks : Option (List UInt8) :=
  if cs = [] then some [] else parseBlocks (cs.splitOn ':')

def parseIpv6 : Option (List UInt8) :=
  match cutAtDoubleColon cs with
  | none => do
      let bytes ← parseColonBlocks cs
      if bytes.length = 16 then return bytes else none
  | some (left, right) => do
      let before ← parseColonBlocks left
      let after ← parseColonBlocks right
      if '.' ∉ left ∧ before.length + after.length ≤ 14 then
        return before ++ List.replicate (16 - (before.length + after.length)) 0 ++ after
      else none

def ipv4MappedPrefix : List UInt8 := List.replicate 10 0 ++ [0xff, 0xff]

/-- `InetAddress.getByAddress`: an IPv4-mapped address becomes the IPv4 address. -/
def InetAddress.getByAddress : Option InetAddress :=
  if h : address.length = 4 then some ⟨address, .inl h⟩
  else if h : address.length = 16 then
    if ipv4MappedPrefix <+: address then some ⟨address.drop 12, .inl (by simp [h])⟩
    else some ⟨address, .inr h⟩
  else none

def parseInetAddress (address : String) : Outcome InetAddress :=
  let bytes := if ':' ∈ address.toList then parseIpv6 address.toList
    else parseDottedDecimal address.toList
  match bytes.bind InetAddress.getByAddress with
  | some a => .ok a
  | none => .error (.illegalArgumentException ("Not a numeric address: " ++ address))

end AmneziaVpn

namespace AmneziaVpn.IpAddress

open ByteOrder

variable (ip : IpAddress)

def value : ℕ := beValue ip.address

def rank : ℕ := if ip.size = 4 then ip.value else 2 ^ 32 + ip.value

theorem size_cases : ip.size = 4 ∨ ip.size = 16 := ip.size_eq

theorem value_lt : ip.value < 256 ^ ip.size := beValue_lt ip.address

theorem rank_of_size_four {ip : IpAddress} (h : ip.size = 4) :
    ip.rank = ip.value ∧ ip.value < 2 ^ 32 := by
  have := ip.value_lt
  rw [h] at this
  exact ⟨if_pos h, by simpa using this⟩

theorem rank_of_size_sixteen {ip : IpAddress} (h : ip.size = 16) :
    ip.rank = 2 ^ 32 + ip.value ∧ ip.value < 2 ^ 128 := by
  have := ip.value_lt
  rw [h] at this
  refine ⟨if_neg (by omega), ?_⟩
  calc
    _ < 256 ^ 16 := this
    _ = 2 ^ 128 := by norm_num

theorem size_eq_four_iff : ip.size = 4 ↔ ip.rank < 2 ^ 32 := by
  rcases ip.size_cases with h | h
  · have := rank_of_size_four h
    omega
  · have := rank_of_size_sixteen h
    omega

theorem rank_lt : ip.rank < 2 ^ 32 + 2 ^ 128 := by
  rcases ip.size_cases with h | h
  · have := rank_of_size_four h
    omega
  · have := rank_of_size_sixteen h
    omega

variable (a b : IpAddress)

theorem size_eq_iff : a.size = b.size ↔ (a.rank < 2 ^ 32 ↔ b.rank < 2 ^ 32) := by
  rw [← size_eq_four_iff, ← size_eq_four_iff]
  have ha := a.size_cases
  have hb := b.size_cases
  omega

theorem rank_sub_rank {a b : IpAddress} (h : a.size = b.size) :
    a.value + b.rank = a.rank + b.value := by
  rw [rank, rank, h]
  split_ifs <;> omega

theorem rank_injective {a b : IpAddress} (h : a.rank = b.rank) : a = b := by
  have hs : a.size = b.size := (size_eq_iff a b).mpr (by rw [h])
  have hv : a.value = b.value := by
    rcases a.size_cases with ha | ha
    · have := rank_of_size_four ha
      have := rank_of_size_four (hs ▸ ha)
      omega
    · have := rank_of_size_sixteen ha
      have := rank_of_size_sixteen (hs ▸ ha)
      omega
  exact IpAddress.ext (beValue_inj hs hv)

theorem compareLoop_spec {a b : List UInt8} (hlen : a.length = b.length) :
    (compareLoop a b < 0 ↔ beValue a < beValue b) ∧
      (compareLoop a b = 0 ↔ beValue a = beValue b) := by
  induction a generalizing b with
  | nil =>
    obtain rfl := List.length_eq_zero_iff.mp hlen.symm
    simp [compareLoop]
  | cons x xs ih =>
    cases b with
    | nil => simp at hlen
    | cons y ys =>
      have hlen' : xs.length = ys.length := by simpa using hlen
      rw [compareLoop]
      rcases lt_trichotomy x.toNat y.toNat with hxy | hxy | hxy
      · have := beValue_cons_lt_of_lt hlen' hxy
        split_ifs <;> omega
      · rw [if_neg (by omega), beValue_cons, beValue_cons, hxy, hlen']
        have := ih hlen'
        omega
      · have := beValue_cons_lt_of_lt hlen'.symm hxy
        split_ifs <;> omega

theorem compareTo_spec :
    (a.compareTo b < 0 ↔ a.rank < b.rank) ∧ (a.compareTo b = 0 ↔ a.rank = b.rank) := by
  rw [compareTo]
  by_cases hs : a.size = b.size
  · rw [if_neg (not_not.mpr hs)]
    have hspec := compareLoop_spec (a := a.address) (b := b.address) hs
    change (_ ↔ a.value < b.value) ∧ (_ ↔ a.value = b.value) at hspec
    rw [hspec.1, hspec.2, rank, rank, hs]
    split_ifs <;> omega
  · rw [if_pos hs]
    have ha := a.size_eq_four_iff
    have hb := b.size_eq_four_iff
    have := a.size_cases
    have := b.size_cases
    omega

theorem lt_iff_rank : a < b ↔ a.rank < b.rank := (compareTo_spec a b).1

theorem le_iff_rank : a ≤ b ↔ a.rank ≤ b.rank := by
  change a.compareTo b ≤ 0 ↔ _
  have := compareTo_spec a b
  omega

theorem equals_iff : a.equals b = true ↔ a.rank = b.rank := by
  rw [equals, decide_eq_true_iff]
  exact (compareTo_spec a b).2

theorem isMinIp_iff : ip.isMinIp = true ↔ ip.rank = 0 ∨ ip.rank = 2 ^ 32 := by
  rw [isMinIp, all_zero_iff]
  change ip.value = 0 ↔ _
  rcases ip.size_cases with h | h
  · have := rank_of_size_four h
    omega
  · have := rank_of_size_sixteen h
    omega

theorem isMaxIp_iff :
    ip.isMaxIp = true ↔ ip.rank = 2 ^ 32 - 1 ∨ ip.rank = 2 ^ 32 + 2 ^ 128 - 1 := by
  rw [isMaxIp, all_ones_iff]
  change ip.value + 1 = 256 ^ ip.size ↔ _
  rcases ip.size_cases with h | h
  · have := rank_of_size_four h
    rw [h]
    norm_num
    omega
  · have := rank_of_size_sixteen h
    rw [h]
    norm_num
    omega

theorem leValue_incLoop {l : List UInt8} (h : leValue l + 1 < 256 ^ l.length) :
    leValue (incLoop l) = leValue l + 1 := by
  induction l with
  | nil => simp at h
  | cons b bs ih =>
    have hadd : (b + 1).toNat = (b.toNat + 1) % 256 := UInt8.toNat_add b 1
    have hlt := b.toNat_lt
    rw [leValue_cons, List.length_cons, pow_succ] at h
    rw [incLoop]
    by_cases hb : b + 1 = 0
    · rw [hb] at hadd
      change 0 = _ at hadd
      rw [if_neg (not_not.mpr hb), leValue_cons, leValue_cons, hb, ih (by omega)]
      change 0 + 256 * (leValue bs + 1) = _
      omega
    · have hne : (b + 1).toNat ≠ 0 := fun he => hb (UInt8.toNat_inj.mp he)
      rw [if_pos hb, leValue_cons, leValue_cons]
      omega

theorem leValue_decLoop {l : List UInt8} (h : 0 < leValue l) :
    leValue (decLoop l) + 1 = leValue l := by
  induction l with
  | nil => simp at h
  | cons b bs ih =>
    have hsub : (b - 1).toNat = (256 - 1 + b.toNat) % 256 := UInt8.toNat_sub b 1
    have hlt := b.toNat_lt
    rw [leValue_cons] at h
    rw [decLoop]
    by_cases hb : b - 1 = 0xff
    · rw [hb] at hsub
      change 255 = _ at hsub
      rw [if_neg (not_not.mpr hb), leValue_cons, leValue_cons, hb]
      change 255 + 256 * leValue (decLoop bs) + 1 = _
      have := ih (by omega)
      omega
    · have hne : (b - 1).toNat ≠ 255 := fun he => hb (UInt8.toNat_inj.mp he)
      rw [if_pos hb, leValue_cons, leValue_cons]
      omega

theorem rank_eq_add_one {a b : IpAddress} (hs : b.size = a.size) (hv : b.value = a.value + 1) :
    b.rank = a.rank + 1 := by
  rw [rank, rank, hs, hv]
  split_ifs <;> omega

/-- Away from the last address of its family `inc` moves one place up. -/
theorem inc_eq_ok {ip : IpAddress} (h : ip.isMaxIp = false) :
    ∃ next, ip.inc = .ok next ∧ next.size = ip.size ∧ next.rank = ip.rank + 1 := by
  have hall : ¬ (ip.address.all (· == 0xff) = true) := by
    change ¬ (ip.isMaxIp = true)
    simp [h]
  have hval : leValue ip.address.reverse + 1 < 256 ^ ip.address.reverse.length := by
    have hlt := leValue_lt ip.address.reverse
    have hne : ip.value + 1 ≠ 256 ^ ip.size := fun he => hall ((all_ones_iff _).mpr he)
    simp only [value, beValue, size] at hne
    rw [List.length_reverse] at hlt ⊢
    omega
  refine ⟨_, if_neg hall, by simp [size], rank_eq_add_one (by simp [size]) ?_⟩
  simp only [value, beValue, List.reverse_reverse]
  exact leValue_incLoop hval

theorem size_rank_of_inc {ip next : IpAddress} (h : ip.inc = .ok next) :
    next.size = ip.size ∧ next.rank = ip.rank + 1 := by
  have hmax : ip.isMaxIp = false := by
    by_contra hmax
    rw [inc, if_pos (by simpa [isMaxIp] using hmax)] at h
    cases h
  obtain ⟨next', hnext, hspec⟩ := inc_eq_ok hmax
  rw [hnext] at h
  cases h
  exact hspec

theorem dec_eq_ok {ip : IpAddress} (h : ip.isMinIp = false) :
    ∃ prev, ip.dec = .ok prev ∧ prev.size = ip.size ∧ ip.rank = prev.rank + 1 := by
  have hall : ¬ (ip.address.all (· == 0) = true) := by
    change ¬ (ip.isMinIp = true)
    simp [h]
  have hval : 0 < leValue ip.address.reverse := by
    have hne : ip.value ≠ 0 := fun he => hall ((all_zero_iff _).mpr he)
    exact Nat.pos_of_ne_zero hne
  refine ⟨_, if_neg hall, by simp [size], rank_eq_add_one (by simp [size]) ?_⟩
  simp only [value, beValue, List.reverse_reverse]
  exact (leValue_decLoop hval).symm

end AmneziaVpn.IpAddress
