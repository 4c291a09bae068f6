import AmneziaVpn.QtJson
import AmneziaVpn.QtStringLists

/-!
# The name of a new server

The numbers are tried from one on until a name is free.
-/

namespace AmneziaVpn.Settings

open List

section Names

variable (tr : String) (servers : List QJsonObject)

def serverName (i : ℕ) : String := tr ++ " " ++ toString i

def nameExist (i : ℕ) : Bool :=
  servers.any fun server => (server.value "description").toString == serverName tr i

/-- The loop behind the number `i`, if it takes at most so many rounds. -/
def nextName : ℕ → ℕ → Option String
  | 0, _ => none
  | rounds + 1, i =>
      if nameExist tr servers (i + 1) then nextName rounds (i + 1) else some (serverName tr (i + 1))

def nextAvailableServerName (rounds : ℕ) : Option String := nextName tr servers rounds 0

variable {tr servers}

theorem serverName_injective : Function.Injective (serverName tr) := by
  intro i j h
  have hnumber : toString i = toString j := by
    simpa [serverName] using h
  exact Int.ofNat.inj (@QString.toString_injective i j hnumber)

theorem exists_free : ∃ n ≤ servers.length, nameExist tr servers (n + 1) = false := by
  by_contra! hall
  have hsubset : (range (servers.length + 1)).map (fun n => serverName tr (n + 1)) ⊆
      servers.map fun server => (server.value "description").toString := by
    intro name hname
    obtain ⟨n, hn, rfl⟩ := mem_map.mp hname
    have htaken := eq_true_of_ne_false (hall n (Nat.le_of_lt_succ (mem_range.mp hn)))
    obtain ⟨server, hserver, heq⟩ := any_eq_true.mp htaken
    exact mem_map.mpr ⟨server, hserver, beq_iff_eq.mp heq⟩
  have hnodup : ((range (servers.length + 1)).map fun n => serverName tr (n + 1)).Nodup :=
    nodup_range.map (serverName_injective.comp Nat.succ_injective)
  have hle := (hnodup.subperm hsubset).length_le
  rw [length_map, length_map, length_range] at hle
  omega

/-- All numbers up to `i` have been tried, and `n + 1` is the first one that is free. -/
theorem nextName_eq {n rounds i : ℕ} (hle : i ≤ n) (hrounds : n < i + rounds)
    (htaken : ∀ k < n, nameExist tr servers (k + 1) = true)
    (hfree : nameExist tr servers (n + 1) = false) :
    nextName tr servers rounds i = some (serverName tr (n + 1)) := by
  induction rounds generalizing i with
  | zero => omega
  | succ rounds ih =>
    rw [nextName]
    rcases hle.eq_or_lt with rfl | hlt
    · rw [hfree]
      rfl
    · rw [htaken i hlt, if_pos rfl]
      exact ih hlt (by omega)

end Names

theorem nextAvailableServerName_eq (tr : String) (servers : List QJsonObject) :
    ∃ i, 0 < i ∧ nameExist tr servers i = false ∧
      (∀ j, 0 < j → j < i → nameExist tr servers j = true) ∧
      ∀ rounds, servers.length < rounds →
        nextAvailableServerName tr servers rounds = some (serverName tr i) := by
  have hexists : ∃ n, nameExist tr servers (n + 1) = false := exists_free.imp fun _ h => h.2
  have htaken : ∀ k < Nat.find hexists, nameExist tr servers (k + 1) = true := fun k hk =>
    eq_true_of_ne_false (Nat.find_min hexists hk)
  refine ⟨Nat.find hexists + 1, Nat.succ_pos _, Nat.find_spec hexists, ?_, ?_⟩
  · intro j hj hlt
    obtain ⟨k, rfl⟩ := Nat.exists_eq_succ_of_ne_zero hj.ne'
    exact htaken k (Nat.succ_lt_succ_iff.mp hlt)
  · intro rounds hrounds
    obtain ⟨n, hn, hfree⟩ := @exists_free tr servers
    have hfind : Nat.find hexists ≤ n := Nat.find_min' hexists hfree
    exact nextName_eq (Nat.zero_le _) (by omega) htaken (Nat.find_spec hexists)

end AmneziaVpn.Settings
