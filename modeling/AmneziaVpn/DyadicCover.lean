import Mathlib.Data.List.Perm.Subperm
import AmneziaVpn.PrefixMasks

/-!
# Shortest covers of an interval by aligned blocks

An aligned block is an interval `[start, start + 2 ^ exp)` whose start is a multiple of its length.
-/

namespace DyadicCover

open List

@[ext] structure Block where
  start : ℕ
  exp : ℕ
deriving DecidableEq, Repr

namespace Block

instance : Membership ℕ Block := ⟨fun b x => b.start ≤ x ∧ x < b.start + 2 ^ b.exp⟩

variable (b : Block)

theorem mem_def (x : ℕ) : x ∈ b ↔ b.start ≤ x ∧ x < b.start + 2 ^ b.exp := Iff.rfl

def Aligned : Prop := 2 ^ b.exp ∣ b.start

theorem start_mem : b.start ∈ b :=
  ⟨le_rfl, Nat.lt_add_of_pos_right (Nat.two_pow_pos _)⟩

theorem last_mem : b.start + 2 ^ b.exp - 1 ∈ b := by
  have := Nat.two_pow_pos b.exp
  rw [mem_def]
  omega

theorem Aligned.mem_iff_div {b : Block} (hb : b.Aligned) (x : ℕ) :
    x ∈ b ↔ x / 2 ^ b.exp = b.start / 2 ^ b.exp := by
  obtain ⟨q, hq⟩ := hb
  have hpos := Nat.two_pow_pos b.exp
  rw [mem_def, hq, Nat.mul_div_cancel_left _ hpos, Nat.div_eq_iff hpos, Nat.mul_comm q]
  omega

theorem Aligned.subset_of_mem {b c : Block} (hb : b.Aligned) (hc : c.Aligned) {x : ℕ}
    (hxb : x ∈ b) (hxc : x ∈ c) (h : b.exp ≤ c.exp) {y : ℕ} (hy : y ∈ b) : y ∈ c := by
  rw [hb.mem_iff_div] at hxb hy
  rw [hc.mem_iff_div] at hxc ⊢
  rw [← hxc]
  exact PrefixMasks.div_eq_of_le h (hy.trans hxb.symm)

end Block

section Greedy

variable {width last : ℕ}

inductive Greedy (width last : ℕ) : ℕ → List Block → Prop
  | done {x : ℕ} : last < x → Greedy width last x []
  | step {x k : ℕ} {bs : List Block} : k ≤ width → 2 ^ k ∣ x → x + 2 ^ k ≤ last + 1 →
      (∀ j ≤ width, k < j → 2 ^ j ∣ x → last + 1 < x + 2 ^ j) →
      Greedy width last (x + 2 ^ k) bs → Greedy width last x (⟨x, k⟩ :: bs)

variable {bs : List Block} {x : ℕ}

theorem Greedy.of_block {b : Block} (hexp : b.exp ≤ width) (haligned : b.Aligned)
    (h : Greedy width (b.start + 2 ^ b.exp - 1) b.start bs) : bs = [b] := by
  have hpos := Nat.two_pow_pos b.exp
  cases h with
  | done hlt => omega
  | @step _ k bs _ _ hfit hmax hrest =>
    have hle : k ≤ b.exp := (Nat.pow_le_pow_iff_right (by decide : 1 < 2)).mp (by omega)
    have hge : b.exp ≤ k := by
      by_contra hlt
      have := hmax b.exp hexp (not_le.mp hlt) haligned
      omega
    obtain rfl : k = b.exp := Nat.le_antisymm hle hge
    cases hrest with
    | done _ => rfl
    | @step _ j _ _ _ hover _ _ =>
      have := Nat.two_pow_pos j
      omega

/-- The aligned blocks that a cover of `[first, last]` may use. -/
def Inside (width first last : ℕ) (c : Block) : Prop :=
  c.Aligned ∧ c.exp ≤ width ∧ first ≤ c.start ∧ c.start + 2 ^ c.exp ≤ last + 1

theorem Greedy.aligned (h : Greedy width last x bs) :
    ∀ b ∈ bs, b.Aligned ∧ b.exp ≤ width ∧ x ≤ b.start ∧ b.start + 2 ^ b.exp ≤ last + 1 := by
  induction h with
  | done _ => simp
  | @step x k bs hk hdvd hfit _ _ ih =>
    intro b hb
    rcases mem_cons.mp hb with rfl | hb
    · exact ⟨hdvd, hk, le_rfl, hfit⟩
    · obtain ⟨ha, he, hs, hl⟩ := ih b hb
      exact ⟨ha, he, (Nat.le_add_right _ _).trans hs, hl⟩

theorem Greedy.ascending (h : Greedy width last x bs) :
    bs.Pairwise (fun b c => b.start + 2 ^ b.exp ≤ c.start) := by
  induction h with
  | done _ => exact List.Pairwise.nil
  | step _ _ _ _ hrest ih =>
    exact pairwise_cons.mpr ⟨fun c hc => (hrest.aligned c hc).2.2.1, ih⟩

theorem Greedy.mem_iff (h : Greedy width last x bs) (y : ℕ) :
    (∃ b ∈ bs, y ∈ b) ↔ x ≤ y ∧ y ≤ last := by
  induction h with
  | done hlt => simp; omega
  | @step x k bs _ _ hfit _ _ ih =>
    have hpos := Nat.two_pow_pos k
    simp only [mem_cons, exists_eq_or_imp, ih]
    rw [Block.mem_def]
    simp only
    omega

/-- No aligned block inside the interval reaches over position `x` from the left. -/
def Fresh (width first last x : ℕ) : Prop :=
  ∀ c, Inside width first last c → x ∈ c → c.start = x

theorem fresh_first (first : ℕ) : Fresh width first last first :=
  fun _ hc hx => Nat.le_antisymm hx.1 hc.2.2.1

theorem Fresh.step {first x k : ℕ} (hx : Fresh width first last x) (hdvd : 2 ^ k ∣ x)
    (hmax : ∀ j ≤ width, k < j → 2 ^ j ∣ x → last + 1 < x + 2 ^ j) :
    Fresh width first last (x + 2 ^ k) := by
  intro c hc hmem
  have hpos := Nat.two_pow_pos k
  by_contra hne
  have hlt : c.start < x + 2 ^ k := lt_of_le_of_ne hmem.1 hne
  have hb : Block.Aligned ⟨x, k⟩ := hdvd
  rcases Nat.lt_or_ge c.exp (k + 1) with hsmall | hlarge
  · have hxin : x + 2 ^ k ∈ (⟨x, k⟩ : Block) := by
      rcases Nat.lt_or_ge c.start x with hcx | hcx
      · exact absurd (hx c hc ⟨hcx.le, by have := hmem.2; omega⟩) hcx.ne
      · exact hc.1.subset_of_mem hb c.start_mem ⟨hcx, hlt⟩ (Nat.le_of_lt_succ hsmall) hmem
    exact absurd hxin.2 (lt_irrefl _)
  · have hxc : x ∈ c := by
      rcases Nat.lt_or_ge c.start x with hcx | hcx
      · exact ⟨hcx.le, by have := hmem.2; omega⟩
      · exact hb.subset_of_mem hc.1 ⟨hcx, hlt⟩ c.start_mem (Nat.le_of_succ_le hlarge)
          (Block.start_mem ⟨x, k⟩)
    have hcs := hx c hc hxc
    have hfit := hmax c.exp hc.2.1 (by omega) (hcs ▸ hc.1)
    have := hc.2.2.2
    omega

/-- Each greedy block contains every aligned block of the interval that it meets. -/
theorem Greedy.maximal {first x : ℕ} (h : Greedy width last x bs) (hx : Fresh width first last x)
    {b c : Block} (hb : b ∈ bs) (hc : Inside width first last c) {y : ℕ} (hyb : y ∈ b) (hyc : y ∈ c)
    {z : ℕ} (hz : z ∈ c) : z ∈ b := by
  induction h with
  | done _ => simp at hb
  | @step x k bs hk hdvd hfit hmax _ ih =>
    rcases mem_cons.mp hb with rfl | hb
    · have ha : Block.Aligned ⟨x, k⟩ := hdvd
      rcases Nat.lt_or_ge k c.exp with hlt | hge
      · have hxc : x ∈ c := ha.subset_of_mem hc.1 hyb hyc hlt.le (Block.start_mem ⟨x, k⟩)
        have hcs := hx c hc hxc
        have hover := hmax c.exp hc.2.1 hlt (hcs ▸ hc.1)
        have := hc.2.2.2
        omega
      · exact hc.1.subset_of_mem ha hyc hyb hge hz
    · exact ih (hx.step hdvd hmax) hb

theorem Greedy.length_le (h : Greedy width last x bs) (cs : List Block)
    (hcs : ∀ c ∈ cs, c.Aligned ∧ c.exp ≤ width) (hunion : ∀ y, (∃ c ∈ cs, y ∈ c) ↔ x ≤ y ∧ y ≤ last) :
    bs.length ≤ cs.length := by
  have hinside : ∀ c ∈ cs, Inside width x last c := by
    intro c hc
    have hfirst := ((hunion _).mp ⟨c, hc, c.start_mem⟩).1
    have hlast := ((hunion _).mp ⟨c, hc, c.last_mem⟩).2
    exact ⟨(hcs c hc).1, (hcs c hc).2, hfirst, by omega⟩
  have hcover : ∀ b ∈ bs, ∃ c ∈ cs, b.start ∈ c := by
    intro b hb
    exact (hunion b.start).mpr ((h.mem_iff b.start).mp ⟨b, hb, b.start_mem⟩)
  choose! f hfmem hfstart using hcover
  have hnodup : (bs.map f).Nodup := by
    apply pairwise_map.mpr
    refine h.ascending.imp_of_mem fun {b c} hb hc hbc heq => ?_
    have hcb : c.start ∈ b := h.maximal (fresh_first x) hb (hinside _ (hfmem b hb))
      b.start_mem (hfstart b hb) (heq ▸ hfstart c hc)
    exact absurd hcb.2 (not_lt.mpr hbc)
  have hsub : bs.map f ⊆ cs := by
    intro c hc
    obtain ⟨b, hb, rfl⟩ := mem_map.mp hc
    exact hfmem b hb
  simpa using (hnodup.subperm hsub).length_le

end Greedy

end DyadicCover
