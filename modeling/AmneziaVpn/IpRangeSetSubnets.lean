import AmneziaVpn.IpRangeCover
import AmneziaVpn.IpRangeSetRuns

/-!
# The networks of a set of ranges

`IpRangeSet.subnets` lists the networks of the ranges one after another.
-/

namespace AmneziaVpn

open DyadicCover List

def InetNetwork.covers (n : InetNetwork) (a : IpAddress) : Prop := n.IsPrefix ∧ n.contains a

instance (n : InetNetwork) (a : IpAddress) : Decidable (n.covers a) :=
  inferInstanceAs (Decidable (_ ∧ _))

theorem InetNetwork.IsCidr.covers_iff {n : InetNetwork} (h : n.IsCidr) (a : IpAddress) :
    n.covers a ↔ n.contains a := and_iff_right h.1

namespace IpRange

theorem BlockNetwork.covers_iff {size : ℕ} {b : Block} {n : InetNetwork}
    (h : BlockNetwork size b n) (haligned : b.Aligned) (hexp : b.exp ≤ 8 * size) (a : IpAddress) :
    n.covers a ↔ (a.size = size ∧ a.value ∈ b) ∧
      ¬ (size = 16 ∧ mappedFirst ≤ b.start ∧ b.start < mappedFirst + 2 ^ 32) := by
  by_cases hmapped : size = 16 ∧ mappedFirst ≤ b.start ∧ b.start < mappedFirst + 2 ^ 32
  · obtain ⟨rfl, hmapped⟩ := hmapped
    constructor
    · exact fun hcovers => absurd hcovers.1 (h.not_isPrefix haligned hmapped)
    · exact fun hclear => absurd ⟨rfl, hmapped⟩ hclear.2
  · obtain ⟨hcidr, hsize, rfl⟩ := h.spec haligned hexp fun hs hm => hmapped ⟨hs, hm⟩
    rw [hcidr.covers_iff, mem_block_iff hcidr, hsize, and_iff_left hmapped]

theorem subnets_covers (r : IpRange) :
    ∃ ns, r.subnets = .ok ns ∧
      ∀ a, (∃ n ∈ ns, n.covers a) ↔ r.covers a ∧ (Mapped a → r.AroundMapped) := by
  obtain ⟨bs, ns, hrun, hgreedy, hns⟩ := subnets_spec r
  refine ⟨ns, hrun, fun a => ?_⟩
  have hnetworks : (∃ n ∈ ns, n.covers a) ↔ ∃ b ∈ bs, (a.size = r.start.size ∧ a.value ∈ b) ∧
      ¬ (r.start.size = 16 ∧ mappedFirst ≤ b.start ∧ b.start < mappedFirst + 2 ^ 32) := by
    have hblocks := fun b hb => hgreedy.aligned b hb
    clear hgreedy hrun
    induction hns with
    | nil => simp
    | @cons b n bs ns hbn _ ih =>
      obtain ⟨haligned, hexp, -, -⟩ := hblocks b mem_cons_self
      have hrest := ih fun c hc => hblocks c (mem_cons_of_mem _ hc)
      simp [mem_cons, exists_eq_or_imp, hrest, hbn.covers_iff haligned hexp]
  rw [hnetworks, covers_iff_value, ← hgreedy.mem_iff]
  constructor
  · rintro ⟨b, hb, ⟨hsize, ha⟩, hclear⟩
    refine ⟨⟨hsize, b, hb, ha⟩, fun hmapped => ?_⟩
    rcases mapped_start_or_aroundMapped hgreedy hb ha hmapped.2 with h | h
    · exact absurd ⟨hsize ▸ hmapped.1, h⟩ hclear
    · exact h
  · rintro ⟨⟨hsize, b, hb, ha⟩, haround⟩
    refine ⟨b, hb, ⟨hsize, ha⟩, ?_⟩
    rintro ⟨hsixteen, hstart⟩
    have hblock := (mapped_block (hgreedy.aligned b hb).1 hstart).2
    have hmapped : Mapped a := ⟨hsize.trans hsixteen, hstart.1.trans ha.1, ha.2.trans_le hblock⟩
    have hclear : r.ClearOfMapped := .inr (.inr (.inr (haround hmapped)))
    exact not_mapped_start_of_clear hgreedy hclear hsixteen b hb hstart

end IpRange

namespace IpRangeSet

open IpRange

def subnets (s : IpRangeSet) : Outcome (List InetNetwork) := do
  let subnets ← s.ranges.mapM IpRange.subnets
  return subnets.flatten

def AroundMapped (s : IpRangeSet) : Prop :=
  ∀ a : IpAddress, a.size = 16 → a.value ∈ aroundMapped → s.covers a

theorem exists_address {size v : ℕ} (hsize : size = 4 ∨ size = 16) (hv : v < 256 ^ size) :
    ∃ a : IpAddress, a.size = size ∧ a.value = v := by
  obtain ⟨l, hlen, hl⟩ := ByteOrder.exists_beValue hv
  exact ⟨⟨l, hlen ▸ hsize⟩, hlen, hl⟩

theorem covers_start (r : IpRange) : r.covers r.start :=
  (covers_iff r _).mpr ⟨le_rfl, r.lo_hi.1⟩

theorem covers_end (r : IpRange) : r.covers r.end :=
  (covers_iff r _).mpr ⟨r.lo_hi.1, le_rfl⟩

instance : Std.Symm Apart := ⟨fun _ _ h => h.symm⟩

variable {s : IpRangeSet}

/-- An address of the set next to an address of one of its ranges is in that range. -/
theorem covers_of_adjacent (hs : s.ranges.Pairwise Before) {r : IpRange} (hr : r ∈ s.ranges)
    {a b : IpAddress} (ha : r.covers a) (hb : s.covers b) (hsize : a.size = b.size)
    (hnext : a.value ≤ b.value + 1 ∧ b.value ≤ a.value + 1) : r.covers b := by
  obtain ⟨q, hq, hqb⟩ := hb
  by_cases hqr : q = r
  · exact hqr ▸ hqb
  exfalso
  have hrank := IpAddress.rank_sub_rank hsize
  have hfamily : q.SameFamily r := by
    rw [sameFamily_iff, ← ((covers_iff_value r a).mp ha).1, ← ((covers_iff_value q b).mp hqb).1,
      hsize]
  rw [covers_iff] at ha hqb
  rcases (hs.imp Or.inl).forall (R := Apart) hq hr hqr with h | h
  · have := h.2 hfamily
    omega
  · have := h.2 hfamily.symm
    omega

theorem aroundMapped_iff (hs : s.ranges.Pairwise Before) {r : IpRange} (hr : r ∈ s.ranges)
    {a : IpAddress} (ha : r.covers a) (hmapped : Mapped a) : r.AroundMapped ↔ s.AroundMapped := by
  obtain ⟨hsize, hlo, hhi⟩ := (covers_iff_value r a).mp ha
  obtain ⟨hsixteen, hfirst, hlast⟩ := hmapped
  have hmf : mappedFirst = 0xffff * 2 ^ 32 := rfl
  constructor
  · rintro ⟨hstart, hend⟩ b hb hmem
    rw [mem_aroundMapped] at hmem
    exact ⟨r, hr, (covers_iff_value r b).mpr ⟨by omega, by omega, by omega⟩⟩
  · intro h
    constructor
    · by_contra hstart
      have hlt : r.start.value - 1 < 256 ^ 16 := by
        have := r.start.value_lt
        rw [← hsize, hsixteen] at this
        omega
      obtain ⟨b, hb, hvalue⟩ := exists_address (.inr rfl) hlt
      have hcov := h b hb (mem_aroundMapped.mpr (by omega))
      have hrb := covers_of_adjacent hs hr (covers_start r) hcov (by omega) (by omega)
      have := ((covers_iff_value r b).mp hrb).2.1
      omega
    · by_contra hend
      have hlt : r.end.value + 1 < 256 ^ 16 := by
        norm_num
        omega
      obtain ⟨b, hb, hvalue⟩ := exists_address (.inr rfl) hlt
      have hcov := h b hb (mem_aroundMapped.mpr (by omega))
      have hrend := r.size_eq
      have hrb := covers_of_adjacent hs hr (covers_end r) hcov (by omega) (by omega)
      have := ((covers_iff_value r b).mp hrb).2.2
      omega

theorem mapM_subnets (l : List IpRange) :
    ∃ nss, l.mapM IpRange.subnets = .ok nss ∧ ∀ a, (∃ n ∈ nss.flatten, n.covers a) ↔
      ∃ r ∈ l, r.covers a ∧ (Mapped a → r.AroundMapped) := by
  induction l with
  | nil => exact ⟨[], rfl, by simp⟩
  | cons r l ih =>
    obtain ⟨nss, hrun, hcov⟩ := ih
    obtain ⟨ns, hrun', hcov'⟩ := r.subnets_covers
    refine ⟨ns :: nss, ?_, fun a => ?_⟩
    · rw [mapM_cons, hrun', hrun]
      rfl
    · simp only [flatten_cons, mem_append, or_and_right, exists_or, hcov, hcov',
        mem_cons, exists_eq_left]

theorem subnets_spec (hs : s.ranges.Pairwise Before) :
    ∃ ns, s.subnets = .ok ns ∧
      ∀ a, (∃ n ∈ ns, n.covers a) ↔ s.covers a ∧ (Mapped a → s.AroundMapped) := by
  obtain ⟨nss, hrun, hcov⟩ := mapM_subnets s.ranges
  refine ⟨nss.flatten, by simp only [subnets, hrun, bind, Except.bind, pure, Except.pure], ?_⟩
  intro a
  rw [hcov]
  constructor
  · rintro ⟨r, hr, ha, h⟩
    exact ⟨⟨r, hr, ha⟩, fun hm => (aroundMapped_iff hs hr ha hm).mp (h hm)⟩
  · rintro ⟨⟨r, hr, ha⟩, h⟩
    exact ⟨r, hr, ha, fun hm => (aroundMapped_iff hs hr ha hm).mpr (h hm)⟩

end IpRangeSet

end AmneziaVpn
