import AmneziaVpn.DyadicCover
import AmneziaVpn.InetNetwork
import AmneziaVpn.IpAddressText

/-!
# Networks that make up a range

`subnets` walks through the range. At the current address it takes the shortest prefix the trailing
zero bits allow, lengthens it while the network would pass the end, and goes on behind the network.
-/

namespace AmneziaVpn

open ByteOrder DyadicCover IpAddress

def countTrailingZeroBits (b : UInt8) : ℕ := ((List.range 8).find? b.toNat.testBit).getD 8

namespace IpRange

def possibleMaxMaskLoop : List UInt8 → ℤ → ℤ
  | [], mask => mask
  | b :: bs, mask =>
      let lastZeroBits := countTrailingZeroBits b
      if lastZeroBits ≠ 8 then mask - lastZeroBits
      else possibleMaxMaskLoop bs (mask - lastZeroBits)

variable (ip : IpAddress)

def getPossibleMaxMask : ℤ := possibleMaxMaskLoop ip.address.reverse ip.maxMask

def lastIpLoop : List UInt8 → ℤ → List UInt8
  | [], _ => []
  | b :: bs, remainingBits =>
      if remainingBits > 0 then
        (if remainingBits > 8 then b ||| 0xff else b ||| ~~~byteMask remainingBits.toNat) ::
          lastIpLoop bs (remainingBits - 8)
      else b :: bs

variable (bs : List UInt8)

@[simp] theorem length_lastIpLoop (remainingBits : ℤ) :
    (lastIpLoop bs remainingBits).length = bs.length := by
  induction bs generalizing remainingBits with
  | nil => rfl
  | cons b bs ih =>
    rw [lastIpLoop]
    split_ifs <;> simp [ih]

def getLastIpForMask (mask : ℤ) : IpAddress :=
  let remainingBits := ip.maxMask - mask
  if remainingBits = 0 then ip
  else ⟨(lastIpLoop ip.address.reverse remainingBits).reverse, by simpa using ip.size_eq⟩

/-- The inner loop of `subnets`: the mask grows while the network would pass the end. -/
def growMask (currentIp last : IpAddress) : ℕ → ℤ → IpAddress → Outcome (ℤ × IpAddress)
  | 0, _, _ => .error .outOfFuel
  | fuel + 1, mask, lastIp =>
      if last < lastIp then
        growMask currentIp last fuel (mask + 1) (getLastIpForMask currentIp (mask + 1))
      else .ok (mask, lastIp)

def subnetsLoop (last : IpAddress) : ℕ → IpAddress → Outcome (List InetNetwork)
  | 0, _ => .error .outOfFuel
  | fuel + 1, currentIp =>
      if currentIp ≤ last then do
        let possibleMask := getPossibleMaxMask currentIp
        let (mask, lastIp) ← growMask currentIp last (8 * currentIp.size + 1) possibleMask
          (getLastIpForMask currentIp possibleMask)
        let subnet ← InetNetwork.ofText currentIp.toString mask
        if lastIp.isMaxIp then return [subnet]
        let next ← lastIp.inc
        let subnets ← subnetsLoop last fuel next
        return subnet :: subnets
      else return []

def subnets (r : IpRange) : Outcome (List InetNetwork) :=
  subnetsLoop r.end (r.end.value - r.start.value + 2) r.start

theorem countTrailingZeroBits_spec (b : UInt8) :
    countTrailingZeroBits b ≤ 8 ∧ (countTrailingZeroBits b = 8 ↔ b.toNat = 0) ∧
      2 ^ countTrailingZeroBits b ∣ b.toNat ∧
      ∀ j ≤ 8, countTrailingZeroBits b < j → ¬ 2 ^ j ∣ b.toNat := by
  have hall : ∀ n : Fin 256, countTrailingZeroBits (.ofNat n) ≤ 8 ∧
      (countTrailingZeroBits (.ofNat n) = 8 ↔ n.val = 0) ∧
      2 ^ countTrailingZeroBits (.ofNat n) ∣ n.val ∧
      ∀ j ≤ 8, countTrailingZeroBits (.ofNat n) < j → ¬ 2 ^ j ∣ n.val := by
    decide +kernel
  simpa using hall ⟨b.toNat, b.toNat_lt⟩

theorem dvd_byte_iff {j : ℕ} (hj : j ≤ 8) (b v : ℕ) : 2 ^ j ∣ b + 256 * v ↔ 2 ^ j ∣ b := by
  have h256 : 2 ^ j ∣ 256 := pow_dvd_pow 2 hj
  exact (Nat.dvd_add_iff_left (h256.mul_right v)).symm

theorem dvd_shifted_iff (j v : ℕ) : 2 ^ (8 + j) ∣ 256 * v ↔ 2 ^ j ∣ v := by
  rw [pow_add]
  exact Nat.mul_dvd_mul_iff_left (by norm_num)

theorem possibleMaxMaskLoop_spec (mask : ℤ) :
    ∃ t ≤ 8 * bs.length, possibleMaxMaskLoop bs mask = mask - t ∧ 2 ^ t ∣ leValue bs ∧
      ∀ j ≤ 8 * bs.length, t < j → ¬ 2 ^ j ∣ leValue bs := by
  induction bs generalizing mask with
  | nil => exact ⟨0, by simp, by simp [possibleMaxMaskLoop], by simp, by simp⟩
  | cons b bs ih =>
    obtain ⟨hle, height, hdvd, hmax⟩ := countTrailingZeroBits_spec b
    rw [possibleMaxMaskLoop, leValue_cons, List.length_cons]
    by_cases hz : countTrailingZeroBits b = 8
    · obtain ⟨t, ht, hloop, hdvd', hmax'⟩ := ih (mask - 8)
      rw [if_neg (not_not.mpr hz), hz, Nat.cast_ofNat, hloop, height.mp hz, Nat.zero_add]
      refine ⟨8 + t, by omega, by omega, (dvd_shifted_iff t _).mpr hdvd', fun j hj hlt => ?_⟩
      obtain ⟨i, rfl⟩ : ∃ i, j = 8 + i := ⟨j - 8, by omega⟩
      rw [dvd_shifted_iff]
      exact hmax' i (by omega) (by omega)
    · rw [if_pos hz]
      refine ⟨countTrailingZeroBits b, by omega, rfl, (dvd_byte_iff hle _ _).mpr hdvd,
        fun j _ hlt hj => ?_⟩
      have hmin : 2 ^ min j 8 ∣ b.toNat + 256 * leValue bs :=
        (pow_dvd_pow 2 (Nat.min_le_left j 8)).trans hj
      rw [dvd_byte_iff (Nat.min_le_right j 8)] at hmin
      exact hmax (min j 8) (Nat.min_le_right j 8) (by omega) hmin

variable {k : ℕ}

theorem set_low_bits (hpos : 0 < k) (hk : k ≤ 8) {b : UInt8} (h : 2 ^ k ∣ b.toNat) :
    (b ||| ~~~byteMask k).toNat = b.toNat + (2 ^ k - 1) := by
  have hspec := (byteMask_spec hpos (by omega) b).2
  rw [Nat.min_eq_left hk] at hspec
  rw [hspec, Nat.div_mul_cancel h]

theorem lastIpLoop_of_nonpos {remainingBits : ℤ} (h : remainingBits ≤ 0) :
    lastIpLoop bs remainingBits = bs := by
  cases bs with
  | nil => rfl
  | cons b bs => rw [lastIpLoop, if_neg (by omega)]

theorem leValue_lastIpLoop (hk : k ≤ 8 * bs.length) (hdvd : 2 ^ k ∣ leValue bs) :
    leValue (lastIpLoop bs k) = leValue bs + (2 ^ k - 1) := by
  induction bs generalizing k with
  | nil =>
    obtain rfl : k = 0 := by simpa using hk
    simp [lastIpLoop]
  | cons b bs ih =>
    rw [leValue_cons] at hdvd ⊢
    rw [List.length_cons] at hk
    rcases Nat.eq_zero_or_pos k with rfl | hpos
    · rw [lastIpLoop_of_nonpos _ (by omega)]
      simp
    rw [lastIpLoop, if_pos (by omega)]
    rcases Nat.lt_or_ge 8 k with hlarge | hsmall
    · obtain ⟨j, rfl⟩ : ∃ j, k = 8 + j := ⟨k - 8, by omega⟩
      have hb : b.toNat = 0 := by
        have h8 : 2 ^ 8 ∣ b.toNat + 256 * leValue bs := (pow_dvd_pow 2 (by omega)).trans hdvd
        rw [dvd_byte_iff le_rfl] at h8
        exact Nat.eq_zero_of_dvd_of_lt h8 b.toNat_lt
      rw [hb, Nat.zero_add, dvd_shifted_iff] at hdvd
      have hset : (b ||| 0xff).toNat = 255 := by
        rw [UInt8.toNat_or, hb]
        rfl
      have hcast : ((8 + j : ℕ) : ℤ) - 8 = j := by omega
      rw [if_pos (by omega), leValue_cons, hset, hcast, ih (by omega) hdvd, hb, pow_add]
      have := Nat.two_pow_pos j
      omega
    · have hset := set_low_bits hpos hsmall ((dvd_byte_iff hsmall _ _).mp hdvd)
      rw [if_neg (by omega), leValue_cons, lastIpLoop_of_nonpos _ (by omega), Int.toNat_natCast, hset]
      omega

theorem getPossibleMaxMask_spec :
    ∃ t ≤ 8 * ip.size, getPossibleMaxMask ip = ip.maxMask - t ∧ 2 ^ t ∣ ip.value ∧
      ∀ j ≤ 8 * ip.size, t < j → ¬ 2 ^ j ∣ ip.value := by
  have h := possibleMaxMaskLoop_spec ip.address.reverse ip.maxMask
  rw [List.length_reverse] at h
  exact h

theorem getLastIpForMask_spec {ip : IpAddress} (hk : k ≤ 8 * ip.size) (hdvd : 2 ^ k ∣ ip.value) :
    (getLastIpForMask ip (ip.maxMask - k)).size = ip.size ∧
      (getLastIpForMask ip (ip.maxMask - k)).value = ip.value + (2 ^ k - 1) := by
  have hrem : ip.maxMask - (ip.maxMask - k) = k := by omega
  rw [getLastIpForMask]
  rcases Nat.eq_zero_or_pos k with rfl | hpos
  · rw [if_pos (by omega)]
    simp
  · rw [if_neg (by omega)]
    refine ⟨by simp [size], ?_⟩
    change leValue (lastIpLoop _ (ip.maxMask - (ip.maxMask - k))).reverse.reverse = _
    rw [hrem, List.reverse_reverse]
    exact leValue_lastIpLoop _ (by simpa [size] using hk) hdvd

theorem lt_iff_value {a b : IpAddress} (h : a.size = b.size) : a < b ↔ a.value < b.value := by
  have := rank_sub_rank h
  rw [lt_iff_rank]
  omega

theorem le_iff_value {a b : IpAddress} (h : a.size = b.size) : a ≤ b ↔ a.value ≤ b.value := by
  have := rank_sub_rank h
  rw [le_iff_rank]
  omega

variable {cur last : IpAddress}

/-- The inner loop ends with the largest network that starts here and does not pass the end. -/
theorem growMask_spec (hsize : cur.size = last.size) (hle : cur.value ≤ last.value)
    (hk : k ≤ 8 * cur.size) (hdvd : 2 ^ k ∣ cur.value) {fuel : ℕ} (hfuel : k < fuel) :
    ∃ j ≤ k, growMask cur last fuel (cur.maxMask - k) (getLastIpForMask cur (cur.maxMask - k)) =
        .ok (cur.maxMask - j, getLastIpForMask cur (cur.maxMask - j)) ∧
      cur.value + 2 ^ j ≤ last.value + 1 ∧
      ∀ i ≤ k, j < i → last.value + 1 < cur.value + 2 ^ i := by
  induction k generalizing fuel with
  | zero =>
    obtain ⟨fuel, rfl⟩ : ∃ n, fuel = n + 1 := ⟨fuel - 1, by omega⟩
    obtain ⟨hlast, hvalue⟩ := getLastIpForMask_spec hk hdvd
    have hstop : ¬ last < getLastIpForMask cur (cur.maxMask - (0 : ℕ)) := by
      rw [lt_iff_value (by rw [hlast, hsize]), hvalue]
      simpa using hle
    exact ⟨0, le_rfl, by rw [growMask, if_neg hstop], by simpa using hle, by omega⟩
  | succ k ih =>
    obtain ⟨fuel, rfl⟩ : ∃ n, fuel = n + 1 := ⟨fuel - 1, by omega⟩
    obtain ⟨hlast, hvalue⟩ := getLastIpForMask_spec hk hdvd
    have hpos := Nat.two_pow_pos (k + 1)
    have hstop : last < getLastIpForMask cur (cur.maxMask - (k + 1 : ℕ)) ↔
        last.value + 1 < cur.value + 2 ^ (k + 1) := by
      rw [lt_iff_value (by rw [hlast, hsize]), hvalue]
      omega
    by_cases hpass : last.value + 1 < cur.value + 2 ^ (k + 1)
    · obtain ⟨j, hj, hrun, hfit, hmax⟩ := ih (by omega)
        ((pow_dvd_pow 2 (Nat.le_succ k)).trans hdvd) (show k < fuel by omega)
      have hmask : cur.maxMask - (k + 1 : ℕ) + 1 = cur.maxMask - k := by omega
      refine ⟨j, by omega, ?_, hfit, fun i hi hji => ?_⟩
      · rw [growMask, if_pos (hstop.mpr hpass), hmask, hrun]
      · rcases Nat.lt_or_ge k i with hki | hki
        · obtain rfl : i = k + 1 := by omega
          exact hpass
        · exact hmax i hki hji
    · refine ⟨k + 1, le_rfl, ?_, by omega, by omega⟩
      rw [growMask, if_neg (hstop.not.mpr hpass)]

/-- The network that is read back from the text of the first address of a block. -/
def BlockNetwork (size : ℕ) (b : Block) (n : InetNetwork) : Prop :=
  ∃ ip : IpAddress, ip.size = size ∧ ip.value = b.start ∧ n.mask = 8 * size - b.exp ∧
    InetAddress.getByAddress ip.address = some n.address

theorem isMaxIp_iff_value : ip.isMaxIp = true ↔ ip.value + 1 = 256 ^ ip.size :=
  all_ones_iff ip.address

theorem inc_value {ip next : IpAddress} (h : ip.inc = .ok next) :
    next.size = ip.size ∧ next.value = ip.value + 1 := by
  obtain ⟨hsize, hrank⟩ := size_rank_of_inc h
  have := rank_sub_rank hsize
  exact ⟨hsize, by omega⟩

/-- From any address of the range the loop returns, and it returns the greedy cover. -/
theorem subnetsLoop_spec (fuel : ℕ) (hsize : cur.size = last.size)
    (hcur : cur.value ≤ last.value + 1) (hfuel : last.value + 1 < fuel + cur.value) :
    ∃ bs ns, subnetsLoop last fuel cur = .ok ns ∧
      Greedy (8 * last.size) last.value cur.value bs ∧
      List.Forall₂ (BlockNetwork last.size) bs ns := by
  induction fuel generalizing cur with
  | zero => omega
  | succ fuel ih =>
    have hle := le_iff_value hsize
    by_cases hdone : cur.value ≤ last.value
    · obtain ⟨t, ht, hpossible, hdvd, htmax⟩ := getPossibleMaxMask_spec cur
      obtain ⟨k, hk, hgrow, hfit, hkmax⟩ :=
        growMask_spec hsize hdone ht hdvd (show t < 8 * cur.size + 1 by omega)
      have hdvdk : 2 ^ k ∣ cur.value := (pow_dvd_pow 2 hk).trans hdvd
      obtain ⟨hlastsize, hlastvalue⟩ := getLastIpForMask_spec (hk.trans ht) hdvdk
      obtain ⟨a, ha, hparse⟩ := parseInetAddress_toString cur
      have hmask : cur.maxMask - k = 8 * last.size - k := by
        rw [← hsize, maxMask]
        omega
      have hblock : BlockNetwork last.size ⟨cur.value, k⟩ ⟨a, cur.maxMask - k⟩ :=
        ⟨cur, hsize, rfl, hmask, ha⟩
      have hstep : ∀ {bs}, Greedy (8 * last.size) last.value (cur.value + 2 ^ k) bs →
          Greedy (8 * last.size) last.value cur.value (⟨cur.value, k⟩ :: bs) := by
        refine fun hrest => .step (by omega) hdvdk hfit (fun j hj hkj hjdvd => ?_) hrest
        rcases Nat.lt_or_ge t j with htj | htj
        · exact absurd hjdvd (htmax j (by omega) htj)
        · exact hkmax j htj hkj
      have hpos := Nat.two_pow_pos k
      cases hmax : (getLastIpForMask cur (cur.maxMask - k)).isMaxIp with
      | true =>
        have hall := (isMaxIp_iff_value _).mp hmax
        have hlt := last.value_lt
        rw [hlastsize, hlastvalue, hsize] at hall
        refine ⟨_, _, ?_, hstep (.done (by omega)), .cons hblock .nil⟩
        simp [subnetsLoop, if_pos (hle.mpr hdone), hpossible, hgrow, InetNetwork.ofText, hparse, hmax, bind, Except.bind, Except.map, pure, Except.pure]
      | false =>
        obtain ⟨next, hinc, -⟩ := inc_eq_ok hmax
        obtain ⟨hnextsize, hnextvalue⟩ := inc_value hinc
        have hnext : next.value = cur.value + 2 ^ k := by omega
        have hnextlast : next.size = last.size := hnextsize.trans (hlastsize.trans hsize)
        obtain ⟨bs, ns, hrest, hgreedy, hall⟩ := ih hnextlast (by omega) (by omega)
        rw [hnext] at hgreedy
        refine ⟨_, _, ?_, hstep hgreedy, .cons hblock hall⟩
        simp [subnetsLoop, if_pos (hle.mpr hdone), hpossible, hgrow, InetNetwork.ofText, hparse, hmax, hinc, hrest, bind, Except.bind, Except.map, Bool.false_eq_true, pure, Except.pure]
    · refine ⟨[], [], ?_, .done (by omega), .nil⟩
      rw [subnetsLoop, if_neg (hle.not.mpr hdone)]
      rfl

theorem subnets_spec (r : IpRange) :
    ∃ bs ns, r.subnets = .ok ns ∧
      Greedy (8 * r.start.size) r.end.value r.start.value bs ∧
      List.Forall₂ (BlockNetwork r.start.size) bs ns := by
  have hle : r.start.value ≤ r.end.value := (le_iff_value r.size_eq).mp r.start_le_end
  have h := subnetsLoop_spec (r.end.value - r.start.value + 2) r.size_eq (by omega) (by omega)
  rw [← r.size_eq] at h
  exact h

end IpRange

end AmneziaVpn
