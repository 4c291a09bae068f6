import AmneziaVpn.ByteOrder
import AmneziaVpn.FirstMaximum
import Mathlib.Data.Prod.Lex

/-!
# Exclusion routes on Windows

`updateExclusionRoute` goes through the routing table once for the row that contains the address of
the exclusion, is shorter than it and leads over another interface: the longest one, of these the
one with the least metric, and of these the first.
-/

namespace AmneziaVpn

open ByteOrder FirstMaximum

inductive AddressFamily
  | AF_INET
  | AF_INET6
  | unsupported (family : UInt16)
deriving DecidableEq

def AddressFamily.size : AddressFamily → ℕ
  | AF_INET => 4
  | AF_INET6 => 16
  | unsupported _ => 0

/-- An address. The port and the other bytes of the structure are one number. -/
structure SOCKADDR_INET where
  si_family : AddressFamily
  addr : List UInt8
  rest : ℕ
  length_addr : addr.length = si_family.size
deriving DecidableEq

/-- All bytes but the family are zero. -/
def SOCKADDR_INET.zero (family : AddressFamily) : SOCKADDR_INET :=
  ⟨family, List.replicate family.size 0, 0, List.length_replicate⟩

structure IP_ADDRESS_PREFIX where
  Prefix : SOCKADDR_INET
  PrefixLength : UInt8
deriving DecidableEq

structure MIB_IPFORWARD_ROW2 where
  InterfaceLuid : UInt64
  DestinationPrefix : IP_ADDRESS_PREFIX
  NextHop : SOCKADDR_INET
  Metric : UInt32
deriving DecidableEq

/-- The calls that change the routing table. Their results are only logged. -/
inductive ForwardCall
  | DeleteIpForwardEntry2 (row : MIB_IPFORWARD_ROW2)
  | CreateIpForwardEntry2 (row : MIB_IPFORWARD_ROW2)

structure WindowsRouteMonitor where
  m_luid : UInt64
  m_validInterfacesIpv4 : List UInt64
  m_validInterfacesIpv6 : List UInt64

namespace WindowsRouteMonitor

/-- The difference of the first bytes that are not the same. -/
def memcmp : List UInt8 → List UInt8 → ℤ
  | x :: a, y :: b => if x = y then memcmp a b else x.toNat - y.toNat
  | _, _ => 0

def prefixcmp (a b : List UInt8) (bits : ℕ) : ℤ :=
  let bytes := bits / 8
  let diff := if bytes > 0 then memcmp (a.take bytes) (b.take bytes) else 0
  if diff ≠ 0 then diff
  else if bits % 8 ≠ 0 then
    let avalue := (a.getD bytes 0).toNat >>> (8 - bits % 8)
    let bvalue := (b.getD bytes 0).toNat >>> (8 - bits % 8)
    avalue - bvalue
  else 0

structure Match where
  nexthop : SOCKADDR_INET
  bestLuid : UInt64
  bestMatch : ℤ
  bestMetric : UInt32

variable (monitor : WindowsRouteMonitor) (data : MIB_IPFORWARD_ROW2)

def matchesDestination (row : MIB_IPFORWARD_ROW2) : Bool :=
  match data.DestinationPrefix.Prefix.si_family with
  | .AF_INET6 =>
      row.DestinationPrefix.Prefix.si_family = .AF_INET6 &&
        monitor.m_validInterfacesIpv6.contains row.InterfaceLuid &&
        prefixcmp data.DestinationPrefix.Prefix.addr row.DestinationPrefix.Prefix.addr
          row.DestinationPrefix.PrefixLength.toNat = 0
  | .AF_INET =>
      row.DestinationPrefix.Prefix.si_family = .AF_INET &&
        monitor.m_validInterfacesIpv4.contains row.InterfaceLuid &&
        prefixcmp data.DestinationPrefix.Prefix.addr row.DestinationPrefix.Prefix.addr
          row.DestinationPrefix.PrefixLength.toNat = 0
  | .unsupported _ => false

def considerRow (best : Match) (row : MIB_IPFORWARD_ROW2) : Match :=
  if row.InterfaceLuid = monitor.m_luid then best
  else if row.DestinationPrefix.PrefixLength ≥ data.DestinationPrefix.PrefixLength then best
  else if (row.DestinationPrefix.PrefixLength.toNat : ℤ) < best.bestMatch then best
  else if monitor.matchesDestination data row = false then best
  else if (row.DestinationPrefix.PrefixLength.toNat : ℤ) = best.bestMatch ∧
      row.Metric ≥ best.bestMetric then best
  else
    { nexthop := row.NextHop
      bestLuid := row.InterfaceLuid
      bestMatch := row.DestinationPrefix.PrefixLength.toNat
      bestMetric := row.Metric }

def noMatch : Match where
  nexthop := .zero data.DestinationPrefix.Prefix.si_family
  bestLuid := 0
  bestMatch := -1
  bestMetric := 0xffffffff

/-- The row of the exclusion as it is stored, and the calls. -/
def updateExclusionRoute (table : List MIB_IPFORWARD_ROW2) :
    MIB_IPFORWARD_ROW2 × List ForwardCall :=
  let best := table.foldl (monitor.considerRow data) (noMatch data)
  if data.InterfaceLuid = best.bestLuid ∧ best.nexthop = data.NextHop then (data, [])
  else
    let deleted :=
      if data.InterfaceLuid ≠ 0 then [ForwardCall.DeleteIpForwardEntry2 data] else []
    let data := { data with InterfaceLuid := best.bestLuid, NextHop := best.nexthop }
    let created :=
      if data.InterfaceLuid ≠ 0 then [ForwardCall.CreateIpForwardEntry2 data] else []
    (data, deleted ++ created)

section Comparison

variable {a b : List UInt8}

theorem memcmp_eq_zero_iff (h : a.length = b.length) : memcmp a b = 0 ↔ a = b := by
  induction a generalizing b with
  | nil =>
    rw [List.length_nil, eq_comm, List.length_eq_zero_iff] at h
    rw [h]
    exact iff_of_true rfl rfl
  | cons x a ih =>
    cases b with
    | nil => cases h
    | cons y b =>
      rw [memcmp, List.cons.injEq]
      split_ifs with hxy
      · rw [ih (Nat.succ.inj h), and_iff_right hxy]
      · have hne : x.toNat ≠ y.toNat := fun heq => hxy (UInt8.toNat_inj.mp heq)
        refine iff_of_false ?_ fun heq => hxy heq.1
        omega

theorem prefixcmp_eq_zero_iff (h : a.length = b.length) (bits : ℕ) :
    prefixcmp a b bits = 0 ↔
      beValue a / 2 ^ (8 * a.length - bits) = beValue b / 2 ^ (8 * a.length - bits) := by
  have hbytes : (if bits / 8 > 0 then memcmp (a.take (bits / 8)) (b.take (bits / 8)) else 0) = 0 ↔
      a.take (bits / 8) = b.take (bits / 8) := by
    split_ifs with hpos
    · apply memcmp_eq_zero_iff
      rw [List.length_take, List.length_take, h]
    · have hzero : bits / 8 = 0 := by omega
      rw [hzero]
      exact iff_of_true rfl rfl
  rw [div_eq_iff_take h, prefixcmp]
  dsimp only
  generalize (if bits / 8 > 0 then memcmp (a.take (bits / 8)) (b.take (bits / 8)) else 0) = diff
    at hbytes
  split_ifs with hdiff hbits
  · exact iff_of_false hdiff fun heq => hdiff (hbytes.mpr heq.1)
  · rw [and_iff_right (hbytes.mp (not_not.mp hdiff)), sub_eq_zero, Nat.cast_inj,
      Nat.shiftRight_eq_div_pow, Nat.shiftRight_eq_div_pow]
  · have hzero : bits % 8 = 0 := by omega
    have ha := (a.getD (bits / 8) 0).toNat_lt
    have hb := (b.getD (bits / 8) 0).toNat_lt
    rw [and_iff_right (hbytes.mp (not_not.mp hdiff)), hzero, Nat.div_eq_of_lt ha,
      Nat.div_eq_of_lt hb]
    exact iff_of_true rfl rfl

end Comparison

section Selection

def validInterfaces : AddressFamily → List UInt64
  | .AF_INET => monitor.m_validInterfacesIpv4
  | .AF_INET6 => monitor.m_validInterfacesIpv6
  | .unsupported _ => []

/-- The rows that an exclusion may follow. -/
structure Eligible (row : MIB_IPFORWARD_ROW2) : Prop where
  outside : row.InterfaceLuid ≠ monitor.m_luid
  valid : row.InterfaceLuid ∈ monitor.validInterfaces data.DestinationPrefix.Prefix.si_family
  family : row.DestinationPrefix.Prefix.si_family = data.DestinationPrefix.Prefix.si_family
  shorter : row.DestinationPrefix.PrefixLength < data.DestinationPrefix.PrefixLength
  contains :
    beValue data.DestinationPrefix.Prefix.addr / 2 ^
        (8 * data.DestinationPrefix.Prefix.si_family.size -
          row.DestinationPrefix.PrefixLength.toNat) =
      beValue row.DestinationPrefix.Prefix.addr / 2 ^
        (8 * data.DestinationPrefix.Prefix.si_family.size -
          row.DestinationPrefix.PrefixLength.toNat)

/-- A longer prefix ranks higher, and of two equally long ones the one with the lower metric. -/
def rank (row : MIB_IPFORWARD_ROW2) : ℕ ×ₗ ℕᵒᵈ :=
  toLex (row.DestinationPrefix.PrefixLength.toNat, OrderDual.toDual row.Metric.toNat)

theorem rank_lt_iff {x y : MIB_IPFORWARD_ROW2} :
    rank x < rank y ↔
      x.DestinationPrefix.PrefixLength.toNat < y.DestinationPrefix.PrefixLength.toNat ∨
        x.DestinationPrefix.PrefixLength.toNat = y.DestinationPrefix.PrefixLength.toNat ∧
          y.Metric < x.Metric := by
  rw [rank, rank, Prod.Lex.toLex_lt_toLex, OrderDual.toDual_lt_toDual, UInt32.lt_iff_toNat_lt]

def Match.of (row : MIB_IPFORWARD_ROW2) : Match where
  nexthop := row.NextHop
  bestLuid := row.InterfaceLuid
  bestMatch := row.DestinationPrefix.PrefixLength.toNat
  bestMetric := row.Metric

variable {monitor data} {row : MIB_IPFORWARD_ROW2}

theorem prefixcmp_row_eq_zero_iff
    (h : row.DestinationPrefix.Prefix.si_family = data.DestinationPrefix.Prefix.si_family) :
    prefixcmp data.DestinationPrefix.Prefix.addr row.DestinationPrefix.Prefix.addr
        row.DestinationPrefix.PrefixLength.toNat = 0 ↔
      beValue data.DestinationPrefix.Prefix.addr / 2 ^
          (8 * data.DestinationPrefix.Prefix.si_family.size -
            row.DestinationPrefix.PrefixLength.toNat) =
        beValue row.DestinationPrefix.Prefix.addr / 2 ^
          (8 * data.DestinationPrefix.Prefix.si_family.size -
            row.DestinationPrefix.PrefixLength.toNat) := by
  have hlength := data.DestinationPrefix.Prefix.length_addr
  have hrow := row.DestinationPrefix.Prefix.length_addr
  rw [h, ← hlength] at hrow
  rw [prefixcmp_eq_zero_iff hrow.symm, hlength]

theorem matchesDestination_iff :
    monitor.matchesDestination data row = true ↔
      row.DestinationPrefix.Prefix.si_family = data.DestinationPrefix.Prefix.si_family ∧
        row.InterfaceLuid ∈ monitor.validInterfaces data.DestinationPrefix.Prefix.si_family ∧
        prefixcmp data.DestinationPrefix.Prefix.addr row.DestinationPrefix.Prefix.addr
          row.DestinationPrefix.PrefixLength.toNat = 0 := by
  unfold matchesDestination
  cases data.DestinationPrefix.Prefix.si_family with
  | AF_INET => simp [validInterfaces, and_assoc]
  | AF_INET6 => simp [validInterfaces, and_assoc]
  | unsupported family => simp [validInterfaces]

theorem eligible_iff :
    monitor.Eligible data row ↔
      row.InterfaceLuid ≠ monitor.m_luid ∧
        ¬ row.DestinationPrefix.PrefixLength ≥ data.DestinationPrefix.PrefixLength ∧
        monitor.matchesDestination data row = true := by
  rw [matchesDestination_iff, ge_iff_le, UInt8.not_le]
  constructor
  · intro h
    exact ⟨h.outside, h.shorter, h.family, h.valid, (prefixcmp_row_eq_zero_iff h.family).mpr h.contains⟩
  · rintro ⟨houtside, hshorter, hfamily, hvalid, hcmp⟩
    exact ⟨houtside, hvalid, hfamily, hshorter, (prefixcmp_row_eq_zero_iff hfamily).mp hcmp⟩

theorem considerRow_of_not_eligible (best : Match) (h : ¬ monitor.Eligible data row) :
    monitor.considerRow data best row = best := by
  rw [eligible_iff] at h
  unfold considerRow
  split_ifs with hluid hlength hshorter hmatches hmetric
  · rfl
  · rfl
  · rfl
  · rfl
  · rfl
  · exact absurd ⟨hluid, hlength, by simpa using hmatches⟩ h

theorem considerRow_of_eligible (best : Match) (h : monitor.Eligible data row) :
    monitor.considerRow data best row =
      if (row.DestinationPrefix.PrefixLength.toNat : ℤ) < best.bestMatch ∨
        (row.DestinationPrefix.PrefixLength.toNat : ℤ) = best.bestMatch ∧
          row.Metric ≥ best.bestMetric then best else .of row := by
  obtain ⟨hluid, hlength, hmatches⟩ := eligible_iff.mp h
  unfold considerRow
  rw [if_neg hluid, if_neg hlength, hmatches]
  by_cases hshorter : (row.DestinationPrefix.PrefixLength.toNat : ℤ) < best.bestMatch
  · rw [if_pos hshorter, if_pos (.inl hshorter)]
  · rw [if_neg hshorter, if_neg (by decide)]
    simp only [hshorter, false_or]
    rfl

/-- The loop ends with the first row of the highest rank among the rows that may be followed. -/
theorem foldl_considerRow (monitor : WindowsRouteMonitor) (data : MIB_IPFORWARD_ROW2)
    (table : List MIB_IPFORWARD_ROW2) :
    (table.foldl (monitor.considerRow data) (noMatch data) = noMatch data ∧
      ∀ row ∈ table, ¬ monitor.Eligible data row) ∨
    ∃ row, IsFirstMaximum rank (monitor.Eligible data) table row ∧
      table.foldl (monitor.considerRow data) (noMatch data) = .of row := by
  apply foldl_firstMaximum
  · exact fun best row h => considerRow_of_not_eligible best h
  · intro row h
    rw [considerRow_of_eligible _ h, if_neg]
    simp only [noMatch]
    omega
  · intro x y hy hlt
    rw [considerRow_of_eligible _ hy, if_neg]
    rw [rank_lt_iff, UInt32.lt_iff_toNat_lt] at hlt
    simp only [Match.of, ge_iff_le, UInt32.le_iff_toNat_le]
    omega
  · intro x y hy hle
    rw [considerRow_of_eligible _ hy, if_pos]
    rw [← not_lt, rank_lt_iff, UInt32.lt_iff_toNat_lt] at hle
    simp only [Match.of, ge_iff_le, UInt32.le_iff_toNat_le]
    omega

/-- What is stored is what the loop has found, whether it has changed or not. -/
theorem updateExclusionRoute_fst (table : List MIB_IPFORWARD_ROW2) :
    (monitor.updateExclusionRoute data table).1 =
      { data with
        InterfaceLuid := (table.foldl (monitor.considerRow data) (noMatch data)).bestLuid
        NextHop := (table.foldl (monitor.considerRow data) (noMatch data)).nexthop } := by
  unfold updateExclusionRoute
  dsimp only
  split_ifs with hsame
  · rw [← hsame.1, hsame.2]
  · rfl
  · rfl
  · rfl
  · rfl

/-- The exclusion follows the longest row with the least metric. -/
theorem updateExclusionRoute_selects (monitor : WindowsRouteMonitor) (data : MIB_IPFORWARD_ROW2)
    (table : List MIB_IPFORWARD_ROW2) :
    (∃ row, IsFirstMaximum rank (monitor.Eligible data) table row ∧
      (monitor.updateExclusionRoute data table).1 =
        { data with InterfaceLuid := row.InterfaceLuid, NextHop := row.NextHop }) ∨
    (∀ row ∈ table, ¬ monitor.Eligible data row) ∧
      (monitor.updateExclusionRoute data table).1 =
        { data with
          InterfaceLuid := 0
          NextHop := .zero data.DestinationPrefix.Prefix.si_family } := by
  rw [updateExclusionRoute_fst]
  rcases foldl_considerRow monitor data table with ⟨hfold, hnone⟩ | ⟨row, hrow, hfold⟩
  · right
    rw [hfold]
    exact ⟨hnone, rfl⟩
  · left
    rw [hfold]
    exact ⟨row, hrow, rfl⟩

end Selection

end WindowsRouteMonitor

end AmneziaVpn
