import AmneziaVpn.IpRangeSetSubnets

/-!
# When the networks of a set are accepted

The platform takes a route only if its mask is a prefix length and no bit behind the prefix is set.
-/

namespace AmneziaVpn

open DyadicCover ByteOrder List

namespace IpRange

def firstMapped : IpAddress := ⟨ipv4MappedPrefix ++ [0, 0, 0, 0], .inr rfl⟩

theorem firstMapped_value : firstMapped.value = mappedFirst := by decide

theorem mapped_firstMapped : Mapped firstMapped := by
  rw [Mapped, firstMapped_value]
  exact ⟨rfl, le_rfl, by omega⟩

theorem not_mapped_of_getByAddress {bytes : List UInt8} {a : InetAddress}
    (h : InetAddress.getByAddress bytes = some a) : ¬ Mapped (.ofInetAddress a) := by
  intro hmapped
  have hlen : a.address.length = 16 := hmapped.1
  unfold InetAddress.getByAddress at h
  split_ifs at h with hfour hsixteen hlead
  · rw [← Option.some.inj h] at hlen
    exact absurd hlen (by simp only; omega)
  · rw [← Option.some.inj h, length_drop] at hlen
    omega
  · obtain rfl := Option.some.inj h
    exact hlead ((mapped_iff_leading hmapped.1).mpr hmapped)

theorem not_mapped_of_parseInetAddress {text : String} {a : InetAddress}
    (h : parseInetAddress text = .ok a) : ¬ Mapped (.ofInetAddress a) := by
  simp only [parseInetAddress] at h
  split at h
  · rename_i b hb
    obtain ⟨bytes, -, hget⟩ := Option.bind_eq_some_iff.mp hb
    obtain rfl := Except.ok.inj h
    exact not_mapped_of_getByAddress hget
  · cases h

variable {ns : List InetNetwork} {n : InetNetwork}

theorem not_mapped_of_ofText {text : String} {mask : ℤ} (h : InetNetwork.ofText text mask = .ok n) :
    ¬ Mapped n.ip := by
  unfold InetNetwork.ofText at h
  cases hparse : parseInetAddress text with
  | error e => simp [hparse, Except.map] at h
  | ok a =>
    rw [hparse] at h
    obtain rfl := Except.ok.inj h
    exact not_mapped_of_parseInetAddress hparse

/-- A network that does not start among the mapped addresses has all of them or none. -/
theorem contains_mapped_iff (hn : ¬ Mapped n.ip) {a c : IpAddress} (ha : Mapped a) (hc : Mapped c) :
    n.contains a ↔ n.contains c := by
  have hself : ∀ {a c : IpAddress}, Mapped a → Mapped c → n.contains a → n.contains c := by
    rintro a c ⟨hsize, hlo, hhi⟩ ⟨hsize', hlo', hhi'⟩ ⟨hfamily, hdiv⟩
    refine ⟨hsize'.trans (hsize.symm.trans hfamily), ?_⟩
    have hlarge : 32 ≤ n.hostBits := by
      by_contra hsmall
      have hhigh : a.value / 2 ^ 32 = n.ip.value / 2 ^ 32 :=
        PrefixMasks.div_eq_of_le (by omega) hdiv
      rw [mappedFirst] at hlo hhi
      exact hn ⟨hfamily.symm.trans hsize, by rw [mappedFirst]; omega, by rw [mappedFirst]; omega⟩
    rw [← hdiv]
    apply PrefixMasks.div_eq_of_le hlarge
    rw [mappedFirst] at hlo hhi hlo' hhi'
    omega
  exact ⟨hself ha hc, hself hc ha⟩

theorem exists_block_of_mem {size : ℕ} {bs : List Block}
    (h : List.Forall₂ (BlockNetwork size) bs ns) (hn : n ∈ ns) :
    ∃ b ∈ bs, BlockNetwork size b n := by
  induction h with
  | nil => cases hn
  | @cons b m bs ns hbm _ ih =>
    rcases mem_cons.mp hn with rfl | hn
    · exact ⟨b, mem_cons_self, hbm⟩
    · obtain ⟨c, hc, hcn⟩ := ih hn
      exact ⟨c, mem_cons_of_mem _ hc, hcn⟩

theorem isCidr_of_aroundMapped {r : IpRange} (hrun : r.subnets = .ok ns)
    (h : ∀ a, r.covers a → Mapped a → r.AroundMapped) : ∀ n ∈ ns, n.IsCidr := by
  obtain ⟨bs, ns', hrun', hgreedy, hns⟩ := subnets_spec r
  obtain rfl : ns' = ns := Except.ok.inj (hrun'.symm.trans hrun)
  intro n hn
  obtain ⟨b, hb, hbn⟩ := exists_block_of_mem hns hn
  obtain ⟨haligned, hexp, -, -⟩ := hgreedy.aligned b hb
  refine (hbn.spec haligned hexp fun hsixteen hstart => ?_).1
  obtain ⟨ip, hsize, hvalue, -, -⟩ := hbn
  have hcovers : r.covers ip := by
    rw [covers_iff_value, hvalue]
    exact ⟨hsize, (hgreedy.mem_iff b.start).mp ⟨b, hb, b.start_mem⟩⟩
  have haround := h ip hcovers ⟨hsize.trans hsixteen, hvalue ▸ hstart⟩
  exact not_mapped_start_of_clear hgreedy (.inr (.inr (.inr haround))) hsixteen b hb hstart

theorem exists_rejected {r : IpRange} (hrun : r.subnets = .ok ns) (hcovers : r.covers firstMapped)
    (hnot : ¬ r.AroundMapped) : ∃ n ∈ ns, n.address.address = [0, 0, 0, 0] ∧ ¬ n.IsPrefix := by
  obtain ⟨bs, ns', hrun', hgreedy, hns⟩ := subnets_spec r
  obtain rfl : ns' = ns := Except.ok.inj (hrun'.symm.trans hrun)
  obtain ⟨hsize, hmem⟩ := (covers_iff_value r _).mp hcovers
  rw [firstMapped_value] at hmem
  obtain ⟨b, hb, hin⟩ := (hgreedy.mem_iff mappedFirst).mpr hmem
  have hstart := (mapped_start_or_aroundMapped hgreedy hb hin (by omega)).resolve_right hnot
  have hfirst : b.start = mappedFirst := Nat.le_antisymm hin.1 hstart.1
  have haligned := (hgreedy.aligned b hb).1
  obtain ⟨n, hn, hbn⟩ := exists_network_of_mem hns hb
  have hsixteen : r.start.size = 16 := hsize.symm
  rw [hsixteen] at hbn
  refine ⟨n, hn, ?_, hbn.not_isPrefix haligned hstart⟩
  obtain ⟨ip, hipsize, hvalue, -, hget⟩ := hbn
  have hip : ip.address = firstMapped.address :=
    beValue_inj (hipsize.trans rfl) ((hvalue.trans hfirst).trans firstMapped_value.symm)
  have hzero : InetAddress.getByAddress firstMapped.address = some ⟨[0, 0, 0, 0], .inl rfl⟩ := by
    decide
  rw [hip, hzero, Option.some.injEq] at hget
  rw [← hget]

end IpRange

namespace IpRangeSet

open IpRange

theorem mem_flatten_mapM {l : List IpRange} {nss : List (List InetNetwork)}
    (h : l.mapM IpRange.subnets = .ok nss) (n : InetNetwork) :
    n ∈ nss.flatten ↔ ∃ r ∈ l, ∃ ns, r.subnets = .ok ns ∧ n ∈ ns := by
  induction l generalizing nss with
  | nil =>
    obtain rfl := Except.ok.inj h
    simp
  | cons r l ih =>
    rw [mapM_cons] at h
    obtain ⟨ns, hns, h⟩ := bind_eq_ok.mp h
    obtain ⟨mss, hmss, h⟩ := bind_eq_ok.mp h
    obtain rfl := Except.ok.inj h
    rw [flatten_cons, mem_append, ih hmss]
    constructor
    · rintro (hn | ⟨q, hq, hrest⟩)
      · exact ⟨r, mem_cons_self, ns, hns, hn⟩
      · exact ⟨q, mem_cons_of_mem _ hq, hrest⟩
    · rintro ⟨q, hq, ms, hms, hn⟩
      rcases mem_cons.mp hq with rfl | hq
      · obtain rfl : ns = ms := Except.ok.inj (hns.symm.trans hms)
        exact .inl hn
      · exact .inr ⟨q, hq, ms, hms, hn⟩

variable {ns : List InetNetwork} {s : IpRangeSet}

theorem mem_subnets (h : s.subnets = .ok ns) (n : InetNetwork) :
    n ∈ ns ↔ ∃ r ∈ s.ranges, ∃ ms, r.subnets = .ok ms ∧ n ∈ ms := by
  obtain ⟨nss, hrun, h⟩ := bind_eq_ok.mp h
  obtain rfl := Except.ok.inj h
  exact mem_flatten_mapM hrun n

theorem not_mapped_of_mem_subnets (h : s.subnets = .ok ns) {n : InetNetwork} (hn : n ∈ ns) :
    ¬ Mapped n.ip := by
  obtain ⟨r, -, ms, hms, hn⟩ := (mem_subnets h n).mp hn
  obtain ⟨bs, ms', hrun, -, hblocks⟩ := IpRange.subnets_spec r
  obtain rfl : ms' = ms := Except.ok.inj (hrun.symm.trans hms)
  obtain ⟨b, -, ip, -, -, -, hget⟩ := exists_block_of_mem hblocks hn
  exact not_mapped_of_getByAddress hget

theorem subnets_isCidr (hs : s.ranges.Pairwise Before) (h : s.subnets = .ok ns)
    (hkept : ∀ a, s.covers a → Mapped a → s.AroundMapped) : ∀ n ∈ ns, n.IsCidr := by
  intro n hn
  obtain ⟨r, hr, ms, hms, hn⟩ := (mem_subnets h n).mp hn
  refine isCidr_of_aroundMapped hms (fun a ha hmapped => ?_) n hn
  exact (aroundMapped_iff hs hr ha hmapped).mpr (hkept a ⟨r, hr, ha⟩ hmapped)

theorem subnets_rejected (hs : s.ranges.Pairwise Before) (h : s.subnets = .ok ns)
    (hcovers : s.covers firstMapped) (hnot : ¬ s.AroundMapped) :
    ∃ n ∈ ns, n.address.address = [0, 0, 0, 0] ∧ ¬ n.IsPrefix := by
  obtain ⟨r, hr, hcovers⟩ := hcovers
  obtain ⟨-, ms, hms, -⟩ := IpRange.subnets_spec r
  have haround := (aroundMapped_iff hs hr hcovers mapped_firstMapped).not.mpr hnot
  obtain ⟨n, hn, hzero⟩ := exists_rejected hms hcovers haround
  exact ⟨n, (mem_subnets h n).mpr ⟨r, hr, ms, hms, hn⟩, hzero⟩

end IpRangeSet

end AmneziaVpn
