import AmneziaVpn.IpRangeSubnets

/-!
# When the networks of a range make up the range

The blocks of `subnets` are the shortest cover of the range. They reach the caller as networks read
back from text, and reading an IPv4-mapped address gives an IPv4 address.
-/

namespace AmneziaVpn

open ByteOrder DyadicCover List

/-- The value of `::ffff:0:0`, the first IPv4-mapped address. -/
def mappedFirst : ℕ := 0xffff * 2 ^ 32

namespace IpRange

/-- Aligned disjoint networks in order that make up the range, as few as possible. -/
structure ShortestCover (r : IpRange) (ns : List InetNetwork) : Prop where
  cidr : ∀ n ∈ ns, n.IsCidr
  ascending : ns.Pairwise fun m n => m.ip < n.ip
  disjoint : ns.Pairwise fun m n => ∀ a, ¬ (m.contains a ∧ n.contains a)
  union : ∀ a, (∃ n ∈ ns, n.contains a) ↔ r.covers a
  shortest : ∀ ms : List InetNetwork, (∀ m ∈ ms, m.IsCidr) →
    (∀ a, (∃ m ∈ ms, m.contains a) ↔ ∃ n ∈ ns, n.contains a) → ns.length ≤ ms.length

/-- The range has all of `::fffe:0:0/95` in it. -/
def AroundMapped (r : IpRange) : Prop :=
  r.start.value + 2 ^ 32 ≤ mappedFirst ∧ mappedFirst + 2 ^ 32 ≤ r.end.value + 1

def ClearOfMapped (r : IpRange) : Prop :=
  r.start.size = 4 ∨ r.end.value < mappedFirst ∨ mappedFirst + 2 ^ 32 ≤ r.start.value ∨
    r.AroundMapped

def Mapped (ip : IpAddress) : Prop :=
  ip.size = 16 ∧ mappedFirst ≤ ip.value ∧ ip.value < mappedFirst + 2 ^ 32

variable {bs : List Block} {ns : List InetNetwork} {n : InetNetwork} {b : Block} {r : IpRange}
  {ip : IpAddress} {size : ℕ} {y : ℕ}

theorem mapped_iff_leading (hsize : ip.size = 16) :
    ipv4MappedPrefix <+: ip.address ↔ Mapped ip := by
  have hlen : ip.address.length = 16 := hsize
  have hsplit : ip.value = beValue (ip.address.take 12) * 2 ^ 32 + beValue (ip.address.drop 12) := by
    conv_lhs => rw [IpAddress.value, ← take_append_drop 12 ip.address, beValue_append]
    simp [hlen]
  have hlow : beValue (ip.address.drop 12) < 2 ^ 32 := by
    have := beValue_lt (ip.address.drop 12)
    simpa [hlen] using this
  have hprefix : beValue ipv4MappedPrefix = 0xffff := by decide
  have htake : ipv4MappedPrefix <+: ip.address ↔ beValue (ip.address.take 12) = 0xffff := by
    rw [prefix_iff_eq_take, ← hprefix]
    constructor
    · intro h
      exact (congrArg beValue h).symm
    · intro h
      exact (beValue_inj (by simp [hlen, ipv4MappedPrefix]) h).symm
  rw [htake, Mapped, mappedFirst]
  omega

theorem getByAddress_of_not_mapped (h : ¬ Mapped ip) :
    InetAddress.getByAddress ip.address = some ⟨ip.address, ip.size_eq⟩ := by
  rw [InetAddress.getByAddress]
  rcases ip.size_cases with hsize | hsize
  · have hlen : ip.address.length = 4 := hsize
    rw [dif_pos hlen]
  · have hlen : ip.address.length = 16 := hsize
    rw [dif_neg (by omega), dif_pos hlen, if_neg ((mapped_iff_leading hsize).not.mpr h)]

theorem getByAddress_of_mapped (h : Mapped ip) :
    ∃ a, InetAddress.getByAddress ip.address = some a ∧ a.address.length = 4 := by
  have hlen : ip.address.length = 16 := h.1
  rw [InetAddress.getByAddress, dif_neg (by omega), dif_pos hlen,
    if_pos ((mapped_iff_leading h.1).mpr h)]
  exact ⟨_, rfl, by simp [hlen]⟩

def block (n : InetNetwork) : Block := ⟨n.ip.value, n.hostBits⟩

theorem mem_block_iff (h : n.IsCidr) (a : IpAddress) :
    n.contains a ↔ a.size = n.ip.size ∧ a.value ∈ block n := by
  have haligned : (block n).Aligned := h.2
  rw [haligned.mem_iff_div]
  rfl

/-- The network read back from an address that is not IPv4-mapped is the block. -/
theorem BlockNetwork.spec (h : BlockNetwork size b n) (haligned : b.Aligned)
    (hexp : b.exp ≤ 8 * size)
    (hclear : size = 16 → ¬ (mappedFirst ≤ b.start ∧ b.start < mappedFirst + 2 ^ 32)) :
    n.IsCidr ∧ n.ip.size = size ∧ block n = b := by
  obtain ⟨ip, hsize, hvalue, hmask, hget⟩ := h
  have hnot : ¬ Mapped ip := fun hm => hclear (hsize ▸ hm.1) (hvalue ▸ hm.2)
  rw [getByAddress_of_not_mapped hnot, Option.some.injEq] at hget
  have hip : n.ip = ip := by
    rw [InetNetwork.ip, ← hget]
    rfl
  have hbits : n.hostBits = b.exp := by
    rw [InetNetwork.hostBits, hip, IpAddress.maxMask, hmask, hsize]
    omega
  refine ⟨⟨⟨?_, ?_⟩, ?_⟩, by rw [hip, hsize], ?_⟩
  · omega
  · rw [hip, IpAddress.maxMask, hmask, hsize]
    omega
  · rw [hbits, hip, hvalue]
    exact haligned
  · rw [block, hbits, hip, hvalue]

/-- An aligned block that starts at an IPv4-mapped address has only such addresses. -/
theorem mapped_block (haligned : b.Aligned)
    (hmapped : mappedFirst ≤ b.start ∧ b.start < mappedFirst + 2 ^ 32) :
    b.exp ≤ 32 ∧ b.start + 2 ^ b.exp ≤ mappedFirst + 2 ^ 32 := by
  have hexp : b.exp ≤ 32 := by
    by_contra hlarge
    have hdvd : 2 ^ 33 ∣ b.start := (pow_dvd_pow 2 (by omega)).trans haligned
    rw [mappedFirst] at hmapped
    omega
  have hdvd : 2 ^ b.exp ∣ mappedFirst + 2 ^ 32 := by
    have hpow : 2 ^ b.exp ∣ 2 ^ 32 := pow_dvd_pow 2 hexp
    exact (hpow.mul_left 0xffff).add hpow
  have hgap := Nat.le_of_dvd (by omega) (Nat.dvd_sub hdvd haligned)
  omega

/-- A block that starts at an IPv4-mapped address is read back with a mask no IPv4 address has. -/
theorem BlockNetwork.not_isPrefix (h : BlockNetwork 16 b n) (haligned : b.Aligned)
    (hmapped : mappedFirst ≤ b.start ∧ b.start < mappedFirst + 2 ^ 32) : ¬ n.IsPrefix := by
  obtain ⟨ip, hsize, hvalue, hmask, hget⟩ := h
  have hip : Mapped ip := ⟨hsize, hvalue ▸ hmapped⟩
  obtain ⟨a, ha, hlen⟩ := getByAddress_of_mapped hip
  have hexp := (mapped_block haligned hmapped).1
  rw [hget, Option.some.injEq] at ha
  rintro ⟨-, hmax⟩
  have hfour : n.ip.maxMask = 32 := by
    change ((n.address.address.length : ℤ) * 8) = 32
    rw [ha, hlen]
    rfl
  omega

/-- The value of every block of a family stays below the end of the family. -/
theorem block_end_le (h : n.IsCidr) (hy : y ∈ block n) : y < 256 ^ n.ip.size := by
  have hlt := n.ip.value_lt
  have hfamily : 256 ^ n.ip.size = 2 ^ (8 * n.ip.size) := by
    rw [pow_mul]
    norm_num
  have hdvd : 2 ^ n.hostBits ∣ 2 ^ (8 * n.ip.size) := pow_dvd_pow 2 (Nat.min_le_left _ _)
  have hgap : 2 ^ n.hostBits ∣ 2 ^ (8 * n.ip.size) - n.ip.value := Nat.dvd_sub hdvd h.2
  have hle := Nat.le_of_dvd (by omega) hgap
  have hend : y < n.ip.value + 2 ^ n.hostBits := hy.2
  omega

/-- Any cover of the range by networks is a cover of its values by blocks. -/
theorem block_cover {ms : List InetNetwork} (hms : ∀ m ∈ ms, m.IsCidr)
    (hunion : ∀ a, (∃ m ∈ ms, m.contains a) ↔ r.covers a) :
    (∀ c ∈ ms.map block, c.Aligned ∧ c.exp ≤ 8 * r.start.size) ∧
      ∀ y, (∃ c ∈ ms.map block, y ∈ c) ↔ r.start.value ≤ y ∧ y ≤ r.end.value := by
  have hsize : ∀ m ∈ ms, m.ip.size = r.start.size := by
    intro m hm
    exact ((covers_iff_value r _).mp ((hunion m.ip).mp ⟨m, hm, rfl, rfl⟩)).1
  refine ⟨fun c hc => ?_, fun y => ?_⟩
  · obtain ⟨m, hm, rfl⟩ := mem_map.mp hc
    rw [← hsize m hm]
    exact ⟨(hms m hm).2, Nat.min_le_left _ _⟩
  · by_cases hy : y < 256 ^ r.start.size
    · obtain ⟨l, hlen, rfl⟩ := exists_beValue hy
      have hl : l.length = 4 ∨ l.length = 16 := hlen ▸ r.start.size_cases
      have hcov := hunion ⟨l, hl⟩
      rw [covers_iff_value] at hcov
      have hmem : (∃ c ∈ ms.map block, beValue l ∈ c) ↔ ∃ m ∈ ms, m.contains ⟨l, hl⟩ := by
        simp only [mem_map, exists_exists_and_eq_and]
        refine exists_congr fun m => and_congr_right fun hm => ?_
        rw [mem_block_iff (hms m hm), hsize m hm]
        exact (and_iff_right hlen).symm
      rw [hmem, hcov]
      exact and_iff_right hlen
    · have hend := r.end.value_lt
      rw [← r.size_eq] at hend
      constructor
      · rintro ⟨c, hc, hyc⟩
        obtain ⟨m, hm, rfl⟩ := mem_map.mp hc
        have := block_end_le (hms m hm) hyc
        rw [hsize m hm] at this
        exact absurd this hy
      · omega

theorem BlockNetwork.map_block (h : List.Forall₂ (BlockNetwork size) bs ns)
    (hbs : ∀ b ∈ bs, b.Aligned ∧ b.exp ≤ 8 * size)
    (hclear : size = 16 → ∀ b ∈ bs, ¬ (mappedFirst ≤ b.start ∧ b.start < mappedFirst + 2 ^ 32)) :
    ns.map block = bs ∧ ∀ n ∈ ns, n.IsCidr ∧ n.ip.size = size := by
  induction h with
  | nil => simp
  | @cons b n bs ns hbn _ ih =>
    obtain ⟨haligned, hexp⟩ := hbs b mem_cons_self
    obtain ⟨hcidr, hsize, rfl⟩ :=
      hbn.spec haligned hexp fun hs => hclear hs b mem_cons_self
    obtain ⟨hmap, hall⟩ := ih (fun c hc => hbs c (mem_cons_of_mem _ hc))
      fun hs c hc => hclear hs c (mem_cons_of_mem _ hc)
    refine ⟨by rw [map_cons, hmap], fun m hm => ?_⟩
    rcases mem_cons.mp hm with rfl | hm
    · exact ⟨hcidr, hsize⟩
    · exact hall m hm

theorem shortestCover_of_greedy (hgreedy : Greedy (8 * r.start.size) r.end.value r.start.value bs)
    (hns : List.Forall₂ (BlockNetwork r.start.size) bs ns) (hclear : r.start.size = 16 →
      ∀ b ∈ bs, ¬ (mappedFirst ≤ b.start ∧ b.start < mappedFirst + 2 ^ 32)) :
    ShortestCover r ns := by
  obtain ⟨rfl, hall⟩ := BlockNetwork.map_block hns
    (fun b hb => ⟨(hgreedy.aligned b hb).1, (hgreedy.aligned b hb).2.1⟩) hclear
  have hascending := pairwise_map.mp hgreedy.ascending
  have hunion : ∀ a, (∃ n ∈ ns, n.contains a) ↔ r.covers a := by
    intro a
    have hmem := hgreedy.mem_iff a.value
    simp only [mem_map, exists_exists_and_eq_and] at hmem
    rw [covers_iff_value, ← hmem]
    constructor
    · rintro ⟨n, hn, ha⟩
      rw [mem_block_iff (hall n hn).1, (hall n hn).2] at ha
      exact ⟨ha.1, n, hn, ha.2⟩
    · rintro ⟨hsize, n, hn, ha⟩
      exact ⟨n, hn, (mem_block_iff (hall n hn).1 a).mpr ⟨hsize.trans (hall n hn).2.symm, ha⟩⟩
  refine ⟨fun n hn => (hall n hn).1, ?_, ?_, hunion, fun ms hms hsame => ?_⟩
  · refine hascending.imp_of_mem fun {m n} hm hn hmn => ?_
    rw [lt_iff_value ((hall m hm).2.trans (hall n hn).2.symm)]
    exact lt_of_lt_of_le (block m).start_mem.2 hmn
  · refine hascending.imp_of_mem fun {m n} hm hn hmn a ha => ?_
    have ham := ((mem_block_iff (hall m hm).1 a).mp ha.1).2.2
    have han := ((mem_block_iff (hall n hn).1 a).mp ha.2).2.1
    omega
  · obtain ⟨haligned, hcover⟩ := block_cover hms fun a => (hsame a).trans (hunion a)
    have hle := hgreedy.length_le (ms.map block) haligned hcover
    rw [length_map, length_map] at hle
    exact hle

/-- `::fffe:0:0/95` as a block: the IPv4-mapped addresses and their other half. -/
def aroundMapped : Block := ⟨mappedFirst - 2 ^ 32, 33⟩

theorem aroundMapped_aligned : aroundMapped.Aligned := by
  change 2 ^ 33 ∣ mappedFirst - 2 ^ 32
  rw [mappedFirst]
  omega

theorem mem_aroundMapped :
    y ∈ aroundMapped ↔ mappedFirst ≤ y + 2 ^ 32 ∧ y < mappedFirst + 2 ^ 32 := by
  change mappedFirst - 2 ^ 32 ≤ y ∧ y < mappedFirst - 2 ^ 32 + 2 ^ 33 ↔ _
  rw [mappedFirst]
  omega

theorem Mapped.mem_aroundMapped {a : IpAddress} (h : Mapped a) : a.value ∈ aroundMapped :=
  IpRange.mem_aroundMapped.mpr ⟨Nat.le_add_right_of_le h.2.1, h.2.2⟩

theorem not_mapped_start_of_clear (hgreedy : Greedy (8 * r.start.size) r.end.value r.start.value bs)
    (h : r.ClearOfMapped) (hsize : r.start.size = 16) :
    ∀ b ∈ bs, ¬ (mappedFirst ≤ b.start ∧ b.start < mappedFirst + 2 ^ 32) := by
  rintro b hb ⟨hfirst, hlast⟩
  obtain ⟨-, -, hstart, hend⟩ := hgreedy.aligned b hb
  have hpos := Nat.two_pow_pos b.exp
  rcases h with h | h | h | ⟨hlo, hhi⟩
  · omega
  · omega
  · omega
  · have hinside : Inside (8 * r.start.size) r.start.value r.end.value aroundMapped := by
      refine ⟨aroundMapped_aligned, ?_, ?_, ?_⟩
      · rw [hsize]
        decide
      · exact Nat.le_sub_of_add_le hlo
      · have hwidth : aroundMapped.start + 2 ^ aroundMapped.exp = mappedFirst + 2 ^ 32 := rfl
        exact hwidth ▸ hhi
    have hmem := hgreedy.maximal (fresh_first _) hb hinside b.start_mem
      (mem_aroundMapped.mpr ⟨Nat.le_add_right_of_le hfirst, hlast⟩) aroundMapped.start_mem
    have hle : b.start ≤ mappedFirst - 2 ^ 32 := hmem.1
    have : mappedFirst = 0xffff * 2 ^ 32 := rfl
    omega

theorem mapped_start_or_around (haligned : b.Aligned) (hy : y ∈ b)
    (hmapped : mappedFirst ≤ y ∧ y < mappedFirst + 2 ^ 32) :
    mappedFirst ≤ b.start ∧ b.start < mappedFirst + 2 ^ 32 ∨ ∀ z ∈ aroundMapped, z ∈ b := by
  by_cases hstart : mappedFirst ≤ b.start
  · exact .inl ⟨hstart, lt_of_le_of_lt hy.1 hmapped.2⟩
  · have hexp : aroundMapped.exp ≤ b.exp := by
      by_contra hsmall
      have hexp : b.exp ≤ 32 := by
        change ¬ 33 ≤ b.exp at hsmall
        omega
      have hdvd : 2 ^ b.exp ∣ mappedFirst := (pow_dvd_pow 2 hexp).trans (Nat.dvd_mul_left _ _)
      have hgap := Nat.le_of_dvd (by omega) (Nat.dvd_sub hdvd haligned)
      have := hy.2
      omega
    refine .inr fun z hz => ?_
    exact aroundMapped_aligned.subset_of_mem haligned
      (mem_aroundMapped.mpr ⟨Nat.le_add_right_of_le hmapped.1, hmapped.2⟩) hy hexp hz

theorem mapped_start_or_aroundMapped
    (hgreedy : Greedy (8 * r.start.size) r.end.value r.start.value bs) (hb : b ∈ bs) (hy : y ∈ b)
    (hmapped : mappedFirst ≤ y ∧ y < mappedFirst + 2 ^ 32) :
    mappedFirst ≤ b.start ∧ b.start < mappedFirst + 2 ^ 32 ∨ r.AroundMapped := by
  obtain ⟨haligned, -, hfirst, hlast⟩ := hgreedy.aligned b hb
  rcases mapped_start_or_around haligned hy hmapped with h | h
  · exact .inl h
  · have hmapped : mappedFirst = 0xffff * 2 ^ 32 := rfl
    have hlow := (h _ aroundMapped.start_mem).1
    have hhigh := (h (mappedFirst + 2 ^ 32 - 1) (mem_aroundMapped.mpr (by omega))).2
    change b.start ≤ mappedFirst - 2 ^ 32 at hlow
    exact .inr ⟨by omega, by omega⟩

theorem exists_mapped_start_of_not_clear
    (hgreedy : Greedy (8 * r.start.size) r.end.value r.start.value bs) (h : ¬ r.ClearOfMapped) :
    r.start.size = 16 ∧
      ∃ b ∈ bs, mappedFirst ≤ b.start ∧ b.start < mappedFirst + 2 ^ 32 := by
  simp only [ClearOfMapped, not_or, not_lt, not_le] at h
  obtain ⟨hfour, hend, hstart, haround⟩ := h
  have hle : r.start.value ≤ r.end.value := (le_iff_value r.size_eq).mp r.start_le_end
  refine ⟨(r.start.size_cases).resolve_left hfour, ?_⟩
  obtain ⟨b, hb, hmem⟩ := (hgreedy.mem_iff (max r.start.value mappedFirst)).mpr (by omega)
  refine ⟨b, hb, ?_⟩
  exact (mapped_start_or_aroundMapped hgreedy hb hmem (by omega)).resolve_right haround

theorem exists_network_of_mem (h : List.Forall₂ (BlockNetwork size) bs ns) (hb : b ∈ bs) :
    ∃ n ∈ ns, BlockNetwork size b n := by
  induction h with
  | nil => cases hb
  | @cons c n bs ns hcn _ ih =>
    rcases mem_cons.mp hb with rfl | hb
    · exact ⟨n, mem_cons_self, hcn⟩
    · obtain ⟨m, hm, hbm⟩ := ih hb
      exact ⟨m, mem_cons_of_mem _ hm, hbm⟩

/-- `subnets` is the shortest cover exactly for ranges clear of the IPv4-mapped addresses. -/
theorem subnets_shortestCover_iff (r : IpRange) :
    (∃ ns, r.subnets = .ok ns ∧ ShortestCover r ns) ↔ r.ClearOfMapped := by
  obtain ⟨bs, ns, hrun, hgreedy, hns⟩ := subnets_spec r
  constructor
  · rintro ⟨ns', hrun', hcover⟩
    by_contra hclear
    obtain ⟨hsize, b, hb, hmapped⟩ := exists_mapped_start_of_not_clear hgreedy hclear
    obtain ⟨n, hn, hbn⟩ := exists_network_of_mem hns hb
    rw [hrun, Except.ok.injEq] at hrun'
    rw [hsize] at hbn
    exact hbn.not_isPrefix (hgreedy.aligned b hb).1 hmapped (hcover.cidr n (hrun' ▸ hn)).1
  · intro hclear
    exact ⟨ns, hrun, shortestCover_of_greedy hgreedy hns (not_mapped_start_of_clear hgreedy hclear)⟩

def mappedRange : IpRange :=
  ⟨⟨ipv4MappedPrefix ++ [1, 2, 3, 4], .inr rfl⟩, ⟨ipv4MappedPrefix ++ [1, 2, 3, 4], .inr rfl⟩, rfl,
    by decide⟩

/-- Its only network comes back as `1.2.3.4/128`, which is not a network. -/
theorem subnets_mappedRange :
    mappedRange.subnets = .ok [⟨⟨[1, 2, 3, 4], .inl rfl⟩, 128⟩] ∧
      ¬ ∃ ns, mappedRange.subnets = .ok ns ∧ ShortestCover mappedRange ns := by
  have hrun : mappedRange.subnets = .ok [⟨⟨[1, 2, 3, 4], .inl rfl⟩, 128⟩] := by decide +kernel
  refine ⟨hrun, ?_⟩
  rintro ⟨ns, hns, hcover⟩
  rw [hrun, Except.ok.injEq] at hns
  have hcidr := hcover.cidr ⟨⟨[1, 2, 3, 4], .inl rfl⟩, 128⟩ (by simp [← hns])
  exact absurd hcidr (by decide)

end IpRange

end AmneziaVpn
