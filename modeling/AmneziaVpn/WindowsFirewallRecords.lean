import AmneziaVpn.RunInvariants
import AmneziaVpn.WindowsKillSwitchVerdicts

/-!
# What the Windows firewall records

The identifier of a filter is recorded when the filter is added and forgotten when it is deleted, in
both cases before it is known whether the transaction can be committed.
-/

namespace AmneziaVpn.WindowsFirewall

open RunInvariants List

variable (s : State)

def State.ids : List ℕ := s.m_peerRules.map (·.2) ++ s.m_activeRules

def State.peerIds (pubkey : String) : List ℕ :=
  (s.m_peerRules.filter (·.1 == pubkey)).map (·.2)

def State.InForce (id : ℕ) : Prop := ∃ entry ∈ s.engine.filters, entry.1 = id

/-- The filters of this process have an identifier from `first` on. -/
def Recorded (first : ℕ) (s : State) : Prop :=
  ∀ entry ∈ s.engine.filters, first ≤ entry.1 → entry.1 ∈ s.ids

def SwitchesOff (first : ℕ) (s : State) : Prop :=
  ∀ sys : Platform, (∀ n, sys.succeeds n = true) → (disableKillSwitch sys s).1 = true →
    ∀ entry ∈ (disableKillSwitch sys s).2.engine.filters, entry.1 < first

inductive FirewallCall
  | enableKillSwitch (vpnAdapterIndex : Int32)
  | enablePeerTraffic (config : InterfaceConfig)
  | disablePeerTraffic (pubkey : String)
  | disableKillSwitch

def perform (sys : Platform) : FirewallCall → Op
  | .enableKillSwitch vpnAdapterIndex => enableKillSwitch sys vpnAdapterIndex
  | .enablePeerTraffic config => enablePeerTraffic sys config
  | .disablePeerTraffic pubkey => disablePeerTraffic sys pubkey
  | .disableKillSwitch => disableKillSwitch sys

def step (c : Platform × FirewallCall) : State := (perform c.1 c.2 s).2

section Calls

variable {sys : Platform} {s t : State}

structure SameBooks (s t : State) : Prop where
  filters : t.engine.filters = s.engine.filters
  nextId : t.engine.nextId = s.engine.nextId
  activeRules : t.m_activeRules = s.m_activeRules
  peerRules : t.m_peerRules = s.m_peerRules

theorem SameBooks.trans {u : State} (h : SameBooks s t) (h' : SameBooks t u) : SameBooks s u :=
  ⟨h'.filters.trans h.filters, h'.nextId.trans h.nextId, h'.activeRules.trans h.activeRules,
    h'.peerRules.trans h.peerRules⟩

theorem SameBooks.ids (h : SameBooks s t) : t.ids = s.ids := by
  rw [State.ids, State.ids, h.peerRules, h.activeRules]

theorem call_of_fails {f : Engine → Option Engine}
    (h : sys.succeeds s.calls = false ∨ f s.engine = none) :
    call sys f s = (false, { s with calls := s.calls + 1 }) := by
  unfold call
  split
  · rename_i e hok he
    rcases h with h | h
    · exact absurd (hok.symm.trans h) (by simp)
    · exact absurd (he.symm.trans h) (by simp)
  · rfl

theorem begin_of_none (hpending : s.engine.pending = none) (hok : sys.succeeds s.calls = true) :
    FwpmTransactionBegin sys s = (true, { s with
      engine := { s.engine with pending := some s.engine.filters }
      calls := s.calls + 1 }) :=
  call_of_succeeds hok (by simp [Engine.begin, hpending])

theorem begin_of_not (h : ¬ (s.engine.pending = none ∧ sys.succeeds s.calls = true)) :
    FwpmTransactionBegin sys s = (false, { s with calls := s.calls + 1 }) := by
  apply call_of_fails
  cases hpending : s.engine.pending with
  | none => exact Or.inl (by simpa [hpending] using h)
  | some ps => exact Or.inr (by simp [Engine.begin, hpending])

theorem sameBooks_abort : SameBooks s (FwpmTransactionAbort0 sys s).2 := by
  unfold FwpmTransactionAbort0 call
  split
  · rename_i e _ he
    unfold Engine.abort at he
    split at he
    · cases he
      exact ⟨rfl, rfl, rfl, rfl⟩
    · cases he
  · exact ⟨rfl, rfl, rfl, rfl⟩

/-- What is left of a list of filters when some of the deletions fail. -/
def survivors (sys : Platform) : ℕ → List ℕ → List (ℕ × Filter) → List (ℕ × Filter)
  | _, [], filters => filters
  | n, id :: ids, filters =>
      survivors sys (n + 1) ids
        (if sys.succeeds n then filters.filter fun entry => entry.1 != id else filters)

variable {filters : List (ℕ × Filter)}

theorem mem_survivors {n : ℕ} {ids : List ℕ} {entry : ℕ × Filter} :
    entry ∈ survivors sys n ids filters ↔
      entry ∈ filters ∧ ∀ k, ids[k]? = some entry.1 → sys.succeeds (n + k) = false := by
  induction ids generalizing n filters with
  | nil => simp [survivors]
  | cons id ids ih =>
    have hkeep : entry ∈ (if sys.succeeds n then filters.filter fun entry => entry.1 != id
        else filters) ↔ entry ∈ filters ∧ (id = entry.1 → sys.succeeds n = false) := by
      cases hok : sys.succeeds n with
      | false => simp
      | true =>
        rw [if_pos rfl, mem_filter, bne_iff_ne]
        exact and_congr_right fun _ =>
          ⟨fun hne heq => absurd heq.symm hne, fun h heq => absurd (h heq.symm) (by simp)⟩
    rw [survivors, ih, hkeep, and_assoc]
    refine and_congr_right fun _ => ⟨?_, ?_⟩
    · rintro ⟨hfirst, hrest⟩ k hk
      cases k with
      | zero => exact hfirst (Option.some.inj hk)
      | succ k =>
        rw [show n + (k + 1) = n + 1 + k by omega]
        exact hrest k hk
    · intro h
      refine ⟨fun heq => h 0 (congrArg some heq), fun k hk => ?_⟩
      rw [show n + 1 + k = n + (k + 1) by omega]
      exact h (k + 1) hk

theorem deleteFilters_eq (ids : List ℕ) (hpending : s.engine.pending = some filters) :
    deleteFilters sys ids s = { s with
      engine := { s.engine with pending := some (survivors sys s.calls ids filters) }
      calls := s.calls + ids.length } := by
  induction ids generalizing s filters with
  | nil =>
    obtain ⟨⟨inForce, pending, nextId⟩, active, peers, calls⟩ := s
    cases hpending
    rfl
  | cons id ids ih =>
    have hdelete : (FwpmFilterDeleteById0 sys id s).2 = { s with
        engine := { s.engine with
          pending := some (if sys.succeeds s.calls then filters.filter fun entry => entry.1 != id
            else filters) }
        calls := s.calls + 1 } := by
      unfold FwpmFilterDeleteById0
      cases hok : sys.succeeds s.calls with
      | false =>
        rw [call_of_fails (Or.inl hok)]
        obtain ⟨⟨inForce, pending, nextId⟩, active, peers, calls⟩ := s
        cases hpending
        rfl
      | true =>
        rw [call_of_succeeds (f := fun e => some (e.delete id)) hok rfl]
        simp only [Engine.delete, Engine.edit, hpending, if_true]
    rw [deleteFilters, foldl_cons, hdelete, ← deleteFilters, ih rfl, survivors, length_cons,
      Nat.add_right_comm, Nat.add_assoc]

/-- The state in which a transaction that deletes filters is committed. -/
def emptied (sys : Platform) (ids : List ℕ) (s : State) : State :=
  { s with
    engine := { s.engine with pending := some (survivors sys (s.calls + 1) ids s.engine.filters) }
    calls := s.calls + 1 + ids.length }

theorem deleteFilters_begun (ids : List ℕ) :
    deleteFilters sys ids { s with
      engine := { s.engine with pending := some s.engine.filters }
      calls := s.calls + 1 } = emptied sys ids s :=
  deleteFilters_eq ids rfl

def Begins (sys : Platform) (s : State) : Prop :=
  s.engine.pending = none ∧ sys.succeeds s.calls = true

theorem sameBooks_calls (n : ℕ) : SameBooks s { s with calls := n } := ⟨rfl, rfl, rfl, rfl⟩

theorem commit_of_emptied {ids : List ℕ} {u : State} (hengine : u.engine = (emptied sys ids s).engine)
    (hcalls : u.calls = (emptied sys ids s).calls) :
    FwpmTransactionCommit0 sys u =
      if sys.succeeds (s.calls + 1 + ids.length) then
        (true, { u with
          engine := ⟨survivors sys (s.calls + 1) ids s.engine.filters, none, s.engine.nextId⟩
          calls := u.calls + 1 })
      else (false, { u with calls := u.calls + 1 }) := by
  have hnumber : sys.succeeds u.calls = sys.succeeds (s.calls + 1 + ids.length) :=
    congrArg sys.succeeds hcalls
  rw [← hnumber]
  split_ifs with hok
  · exact call_of_succeeds hok (by rw [hengine]; rfl)
  · exact call_of_fails (Or.inl (by simpa using hok))

theorem disableKillSwitch_of_not_begins (h : ¬ Begins sys s) :
    (disableKillSwitch sys s).1 = false ∧ SameBooks s (disableKillSwitch sys s).2 := by
  unfold disableKillSwitch
  rw [begin_of_not h]
  exact ⟨rfl, (sameBooks_calls _).trans sameBooks_abort⟩

theorem disableKillSwitch_of_begins (h : Begins sys s) :
    disableKillSwitch sys s =
      if sys.succeeds (s.calls + 1 + s.ids.length) then
        (true, ⟨⟨survivors sys (s.calls + 1) s.ids s.engine.filters, none, s.engine.nextId⟩, [], [],
          s.calls + 1 + s.ids.length + 1⟩)
      else (false, (FwpmTransactionAbort0 sys { emptied sys s.ids s with
        calls := s.calls + 1 + s.ids.length + 1 }).2) := by
  unfold disableKillSwitch
  rw [begin_of_none h.1 h.2]
  dsimp only
  rw [← State.ids, deleteFilters_begun, commit_of_emptied rfl rfl]
  split_ifs <;> rfl

variable (pubkey : String)

def forgetPeer (s : State) : State :=
  { s with m_peerRules := s.m_peerRules.filter (·.1 != pubkey) }

theorem disablePeerTraffic_of_not_begins (h : ¬ Begins sys s) :
    SameBooks s (disablePeerTraffic sys pubkey s).2 := by
  unfold disablePeerTraffic
  rw [begin_of_not h]
  exact (sameBooks_calls _).trans sameBooks_abort

theorem disablePeerTraffic_of_begins (h : Begins sys s) :
    disablePeerTraffic sys pubkey s =
      if sys.succeeds (s.calls + 1 + (s.peerIds pubkey).length) then
        (true, { forgetPeer pubkey s with
          engine := ⟨survivors sys (s.calls + 1) (s.peerIds pubkey) s.engine.filters, none,
            s.engine.nextId⟩
          calls := s.calls + 1 + (s.peerIds pubkey).length + 1 })
      else (false, (FwpmTransactionAbort0 sys { forgetPeer pubkey (emptied sys (s.peerIds pubkey) s) with
        calls := s.calls + 1 + (s.peerIds pubkey).length + 1 }).2) := by
  unfold disablePeerTraffic
  rw [begin_of_none h.1 h.2]
  dsimp only
  rw [← State.peerIds, deleteFilters_begun, ← forgetPeer, @commit_of_emptied sys s (s.peerIds pubkey)
    (forgetPeer pubkey (emptied sys (s.peerIds pubkey) s)) rfl rfl]
  split_ifs <;> rfl

end Calls

section Books

variable {sys : Platform} {first : ℕ} {others : List (ℕ × Filter)} {s t : State}

/-- The filters are the others and those with one of the identifiers. -/
structure Accounts (others : List (ℕ × Filter)) (ids : List ℕ) (filters : List (ℕ × Filter)) :
    Prop where
  recorded : ∀ entry ∈ filters, entry ∈ others ∨ entry.1 ∈ ids
  kept : ∀ entry ∈ others, entry ∈ filters

variable {deleted : List ℕ} {filters : List (ℕ × Filter)}

theorem Accounts.survivors {ids ids' : List ℕ} {n : ℕ} (h : Accounts others ids filters)
    (hothers : ∀ entry ∈ others, entry.1 ∉ deleted) (hids : ∀ id ∈ ids, id ∈ deleted ∨ id ∈ ids')
    (hdeleted : ∀ k, ∀ entry ∈ filters, deleted[k]? = some entry.1 → sys.succeeds (n + k) = true) :
    Accounts others ids' (survivors sys n deleted filters) where
  recorded entry hentry := by
    obtain ⟨hin, hfailed⟩ := mem_survivors.mp hentry
    rcases h.recorded entry hin with hother | hid
    · exact Or.inl hother
    · rcases hids entry.1 hid with hid | hid
      · obtain ⟨k, hk⟩ := mem_iff_getElem?.mp hid
        exact absurd ((hfailed k hk).symm.trans (hdeleted k entry hin hk)) (by simp)
      · exact Or.inr hid
  kept entry hentry := mem_survivors.mpr
    ⟨h.kept entry hentry, fun _ hk => absurd (mem_of_getElem? hk) (hothers entry hentry)⟩

/-- A filter whose deletion fails survives if it is deleted only once. -/
theorem mem_survivors_of_fails (hnodup : deleted.Nodup) {entry : ℕ × Filter} (hin : entry ∈ filters)
    {n k : ℕ} (hk : deleted[k]? = some entry.1) (hfailed : sys.succeeds (n + k) = false) :
    entry ∈ WindowsFirewall.survivors sys n deleted filters := by
  refine mem_survivors.mpr ⟨hin, fun k' hk' => ?_⟩
  have hlength : k < deleted.length := (List.getElem?_eq_some_iff.mp hk).1
  obtain rfl : k = k' := (getElem?_inj hlength hnodup).mp (hk.trans hk'.symm)
  exact hfailed

/-- The filters in force are those of others and recorded ones. -/
structure Books (first : ℕ) (others : List (ℕ × Filter)) (s : State) : Prop where
  accounts : Accounts others s.ids s.engine.filters
  own : ∀ id ∈ s.ids, first ≤ id ∧ id < s.engine.nextId
  apart : ∀ entry ∈ others, entry.1 ∉ s.ids ∧ entry.1 < s.engine.nextId
  nodup : s.ids.Nodup
  start : first ≤ s.engine.nextId

theorem Books.of_same (h : Books first others s) (hsame : SameBooks s t) : Books first others t where
  accounts := hsame.ids ▸ hsame.filters ▸ h.accounts
  own := hsame.ids ▸ hsame.nextId ▸ h.own
  apart := hsame.ids ▸ hsame.nextId ▸ h.apart
  nodup := hsame.ids ▸ h.nodup
  start := hsame.nextId ▸ h.start

theorem Books.recorded (h : Books first others s) (hothers : ∀ entry ∈ others, entry.1 < first) :
    Recorded first s := by
  intro entry hentry hown
  rcases h.accounts.recorded entry hentry with hother | hid
  · exact absurd (hothers entry hother) (not_lt.mpr hown)
  · exact hid

/-- A filter that is in force is not deleted, and its record is cleared. -/
def LosesAny (sys : Platform) (s : State) : Prop :=
  Begins sys s ∧ sys.succeeds (s.calls + 1 + s.ids.length) = true ∧
    ∃ k id, s.ids[k]? = some id ∧ s.InForce id ∧ sys.succeeds (s.calls + 1 + k) = false

theorem Books.disableKillSwitch (h : Books first others s) (hloses : ¬ LosesAny sys s) :
    Books first others (disableKillSwitch sys s).2 := by
  by_cases hbegins : Begins sys s
  · rw [disableKillSwitch_of_begins hbegins]
    split_ifs with hcommit
    · refine ⟨?_, by simp [State.ids], fun entry hentry => ⟨?_, (h.apart entry hentry).2⟩,
        by simp [State.ids], h.start⟩
      · apply h.accounts.survivors (fun entry hentry => (h.apart entry hentry).1)
          (fun id hid => Or.inl hid)
        intro k entry hin hk
        by_contra hfailed
        exact hloses ⟨hbegins, hcommit, k, entry.1, hk, ⟨entry, hin, rfl⟩, by simpa using hfailed⟩
      · simp [State.ids]
    · have hsame : SameBooks s { emptied sys s.ids s with
          calls := s.calls + 1 + s.ids.length + 1 } := ⟨rfl, rfl, rfl, rfl⟩
      exact h.of_same (hsame.trans sameBooks_abort)
  · exact h.of_same (disableKillSwitch_of_not_begins hbegins).2

theorem Books.not_recorded_of_losesAny (h : Books first others s) (hloses : LosesAny sys s) :
    ¬ Recorded first (WindowsFirewall.disableKillSwitch sys s).2 := by
  obtain ⟨hbegins, hcommit, k, id, hk, ⟨entry, hin, rfl⟩, hfailed⟩ := hloses
  have hown := (h.own entry.1 (mem_of_getElem? hk)).1
  rw [disableKillSwitch_of_begins hbegins, if_pos hcommit]
  intro hrecorded
  have hsurvives := mem_survivors_of_fails h.nodup hin hk hfailed
  simpa [State.ids] using hrecorded entry hsurvives hown

/-- A filter of the peer stays in force without its record. -/
def LosesPeer (sys : Platform) (pubkey : String) (s : State) : Prop :=
  Begins sys s ∧ ∃ k id, (s.peerIds pubkey)[k]? = some id ∧ s.InForce id ∧
    (sys.succeeds (s.calls + 1 + k) = false ∨
      sys.succeeds (s.calls + 1 + (s.peerIds pubkey).length) = false)

theorem ids_forgetPeer_sublist (pubkey : String) (s : State) :
    (forgetPeer pubkey s).ids.Sublist s.ids :=
  (filter_sublist.map Prod.snd).append_right _

theorem mem_ids_iff (pubkey : String) (s : State) (id : ℕ) :
    id ∈ s.ids ↔ id ∈ s.peerIds pubkey ∨ id ∈ (forgetPeer pubkey s).ids := by
  have hpeers : id ∈ s.m_peerRules.map (·.2) ↔ id ∈ s.peerIds pubkey ∨
      id ∈ (s.m_peerRules.filter (·.1 != pubkey)).map (·.2) := by
    simp only [State.peerIds, mem_map, mem_filter, beq_iff_eq, bne_iff_ne]
    constructor
    · rintro ⟨rule, hrule, rfl⟩
      by_cases hkey : rule.1 = pubkey
      · exact Or.inl ⟨rule, ⟨hrule, hkey⟩, rfl⟩
      · exact Or.inr ⟨rule, ⟨hrule, hkey⟩, rfl⟩
    · rintro (⟨rule, ⟨hrule, -⟩, rfl⟩ | ⟨rule, ⟨hrule, -⟩, rfl⟩)
      · exact ⟨rule, hrule, rfl⟩
      · exact ⟨rule, hrule, rfl⟩
  rw [State.ids, mem_append, hpeers, or_assoc, ← mem_append]
  rfl

variable {pubkey : String}

theorem Books.not_mem_forgetPeer (h : Books first others s) {id : ℕ} (hid : id ∈ s.peerIds pubkey) :
    id ∉ (forgetPeer pubkey s).ids := by
  obtain ⟨hpeers, -, hdisjoint⟩ := nodup_append.mp h.nodup
  obtain ⟨rule, hrule, rfl⟩ := mem_map.mp hid
  obtain ⟨hmem, hkey⟩ := mem_filter.mp hrule
  intro hforgotten
  rcases mem_append.mp hforgotten with hother | hactive
  · obtain ⟨rule', hrule', heq⟩ := mem_map.mp hother
    obtain ⟨hmem', hkey'⟩ := mem_filter.mp hrule'
    obtain rfl := inj_on_of_nodup_map hpeers hmem' hmem heq
    simp_all
  · exact hdisjoint _ (mem_map_of_mem hmem) _ hactive rfl

theorem Books.forgetPeer (h : Books first others s)
    (hgone : ∀ id ∈ s.peerIds pubkey, ¬ s.InForce id) :
    Books first others (forgetPeer pubkey s) where
  accounts := by
    refine ⟨fun entry hentry => ?_, h.accounts.kept⟩
    rcases h.accounts.recorded entry hentry with hother | hid
    · exact Or.inl hother
    · rcases (mem_ids_iff pubkey s entry.1).mp hid with hpeer | hid
      · exact absurd ⟨entry, hentry, rfl⟩ (hgone entry.1 hpeer)
      · exact Or.inr hid
  own id hid := h.own id ((ids_forgetPeer_sublist pubkey s).subset hid)
  apart entry hentry := ⟨fun hid => (h.apart entry hentry).1
    ((ids_forgetPeer_sublist pubkey s).subset hid), (h.apart entry hentry).2⟩
  nodup := h.nodup.sublist (ids_forgetPeer_sublist pubkey s)
  start := h.start

theorem Books.disablePeerTraffic (h : Books first others s) (hloses : ¬ LosesPeer sys pubkey s) :
    Books first others (disablePeerTraffic sys pubkey s).2 := by
  have hsubset := (ids_forgetPeer_sublist pubkey s).subset
  by_cases hbegins : Begins sys s
  · rw [disablePeerTraffic_of_begins pubkey hbegins]
    split_ifs with hcommit
    · refine ⟨?_, fun id hid => h.own id (hsubset hid), fun entry hentry =>
        ⟨fun hid => (h.apart entry hentry).1 (hsubset hid), (h.apart entry hentry).2⟩,
        h.nodup.sublist (ids_forgetPeer_sublist pubkey s), h.start⟩
      apply h.accounts.survivors (fun entry hentry hid => (h.apart entry hentry).1
        ((mem_ids_iff pubkey s entry.1).mpr (Or.inl hid)))
        (fun id hid => (mem_ids_iff pubkey s id).mp hid)
      intro k entry hin hk
      by_contra hfailed
      exact hloses ⟨hbegins, k, entry.1, hk, ⟨entry, hin, rfl⟩, Or.inl (by simpa using hfailed)⟩
    · have hgone : ∀ id ∈ s.peerIds pubkey, ¬ s.InForce id := by
        intro id hid hin
        obtain ⟨k, hk⟩ := mem_iff_getElem?.mp hid
        exact hloses ⟨hbegins, k, id, hk, hin, Or.inr (by simpa using hcommit)⟩
      have hsame : SameBooks (WindowsFirewall.forgetPeer pubkey s)
          { WindowsFirewall.forgetPeer pubkey (emptied sys (s.peerIds pubkey) s) with
            calls := s.calls + 1 + (s.peerIds pubkey).length + 1 } := ⟨rfl, rfl, rfl, rfl⟩
      exact (h.forgetPeer hgone).of_same (hsame.trans sameBooks_abort)
  · exact h.of_same (disablePeerTraffic_of_not_begins pubkey hbegins)

theorem Books.not_recorded_of_losesPeer (h : Books first others s) (hloses : LosesPeer sys pubkey s) :
    ¬ Recorded first (WindowsFirewall.disablePeerTraffic sys pubkey s).2 := by
  obtain ⟨hbegins, k, id, hk, ⟨entry, hin, rfl⟩, hfailed⟩ := hloses
  have hpeer : entry.1 ∈ s.peerIds pubkey := mem_of_getElem? hk
  have hown := (h.own entry.1 ((mem_ids_iff pubkey s entry.1).mpr (Or.inl hpeer))).1
  have hforgotten := h.not_mem_forgetPeer hpeer
  rw [disablePeerTraffic_of_begins pubkey hbegins]
  split_ifs with hcommit
  · have hdelete : sys.succeeds (s.calls + 1 + k) = false := by simpa [hcommit] using hfailed
    have hnodup : (s.peerIds pubkey).Nodup :=
      (nodup_append.mp h.nodup).1.sublist (filter_sublist.map Prod.snd)
    have hsurvives := mem_survivors_of_fails hnodup hin hk hdelete
    exact fun hrecorded => hforgotten (hrecorded entry hsurvives hown)
  · intro hrecorded
    have hsame := @sameBooks_abort sys
      ({ WindowsFirewall.forgetPeer pubkey (emptied sys (s.peerIds pubkey) s) with
        calls := s.calls + 1 + (s.peerIds pubkey).length + 1 })
    have hstays := hrecorded entry (hsame.filters ▸ hin) hown
    rw [hsame.ids] at hstays
    exact hforgotten hstays

end Books

section Enabling

variable {sys : Platform} {first : ℕ} {others : List (ℕ × Filter)} {s t u : State} {a b rule : Op}

/-- So are the filters of an open transaction. -/
structure Staged (first : ℕ) (others : List (ℕ × Filter)) (s : State) : Prop
    extends Books first others s where
  staged : ∀ filters, s.engine.pending = some filters → Accounts others s.ids filters

theorem Books.begin (h : Books first others s) (hbegin : FwpmTransactionBegin sys s = (true, t)) :
    Staged first others t := by
  by_cases hbegins : Begins sys s
  · obtain rfl := (Prod.mk.inj ((begin_of_none hbegins.1 hbegins.2).symm.trans hbegin)).2
    refine { h with staged := fun filters hfilters => ?_ }
    obtain rfl := Option.some.inj hfilters
    exact h.accounts
  · exact absurd ((begin_of_not hbegins).symm.trans hbegin) (by simp)

theorem sameBooks_begin (hbegin : FwpmTransactionBegin sys s = (false, t)) : SameBooks s t := by
  by_cases hbegins : Begins sys s
  · exact absurd ((begin_of_none hbegins.1 hbegins.2).symm.trans hbegin) (by simp)
  · obtain rfl := (Prod.mk.inj ((begin_of_not hbegins).symm.trans hbegin)).2
    exact sameBooks_calls _

theorem Staged.commit (h : Staged first others s) : Books first others (FwpmTransactionCommit0 sys s).2 := by
  unfold FwpmTransactionCommit0 call
  split
  · rename_i e _ he
    unfold Engine.commit at he
    split at he
    · rename_i filters hpending
      cases he
      exact { h.toBooks with accounts := h.staged filters hpending }
    · cases he
  · exact h.toBooks.of_same (sameBooks_calls _)

def KeepsStaged (first : ℕ) (others : List (ℕ × Filter)) (a : Op) : Prop :=
  ∀ s, Staged first others s → Staged first others (a s).2

theorem Accounts.append {ids ids' : List ℕ} {filters : List (ℕ × Filter)} {entry : ℕ × Filter}
    (h : Accounts others ids filters) (hids : ids'.Perm (entry.1 :: ids)) :
    Accounts others ids' (filters ++ [entry]) where
  recorded entry' hentry' := by
    rw [hids.mem_iff, mem_cons]
    rcases mem_append.mp hentry' with hold | hnew
    · exact (h.recorded entry' hold).imp_right Or.inr
    · exact Or.inr (Or.inl (congrArg Prod.fst (mem_singleton.mp hnew)))
  kept entry' hentry' := mem_append_left _ (h.kept entry' hentry')

theorem Accounts.cons {ids ids' : List ℕ} {filters : List (ℕ × Filter)} {id : ℕ}
    (h : Accounts others ids filters) (hids : ids'.Perm (id :: ids)) :
    Accounts others ids' filters where
  recorded entry hentry := (h.recorded entry hentry).imp_right fun hid =>
    hids.mem_iff.mpr (mem_cons_of_mem id hid)
  kept := h.kept

theorem nextId_add (e : Engine) (filter : Filter) : (e.add filter).nextId = e.nextId + 1 := rfl

/-- A filter is added and its identifier recorded, wherever in the records. -/
theorem Staged.add (h : Staged first others s) {filter : Filter}
    (hengine : t.engine = s.engine.add filter) (hids : t.ids.Perm (s.engine.nextId :: s.ids)) :
    Staged first others t where
  accounts := by
    rw [hengine]
    unfold Engine.add Engine.edit
    split
    · exact h.accounts.cons hids
    · exact h.accounts.append hids
  own id hid := by
    rw [hengine, nextId_add]
    rcases mem_cons.mp (hids.mem_iff.mp hid) with rfl | hid
    · exact ⟨h.start, Nat.lt_succ_self _⟩
    · exact ⟨(h.own id hid).1, Nat.lt_succ_of_lt (h.own id hid).2⟩
  apart entry hentry := by
    obtain ⟨hid, hlt⟩ := h.apart entry hentry
    rw [hengine, nextId_add, hids.mem_iff, mem_cons, not_or]
    exact ⟨⟨hlt.ne, hid⟩, Nat.lt_succ_of_lt hlt⟩
  nodup := by
    rw [hids.nodup_iff, nodup_cons]
    exact ⟨fun hid => lt_irrefl _ (h.own _ hid).2, h.nodup⟩
  start := by
    rw [hengine, nextId_add]
    exact Nat.le_succ_of_le h.start
  staged filters hfilters := by
    rw [hengine] at hfilters
    unfold Engine.add Engine.edit at hfilters
    split at hfilters
    · rename_i staged hstaged
      obtain rfl := Option.some.inj hfilters
      exact (h.staged staged hstaged).append hids
    · rename_i hnone
      exact absurd (hnone.symm.trans hfilters) (by simp)

theorem keepsStaged_enableFilter (filter : Filter) (peer : String) :
    KeepsStaged first others (enableFilter sys filter peer) := by
  intro s h
  unfold enableFilter
  cases hok : sys.succeeds s.calls with
  | false =>
    rw [call_of_fails (Or.inl hok)]
    exact { h.toBooks.of_same (sameBooks_calls _) with staged := h.staged }
  | true =>
    rw [call_of_succeeds (f := fun e => some (e.add filter)) hok rfl]
    dsimp only
    split_ifs
    · refine h.add (t := _) rfl ?_
      simp only [State.ids, ← append_assoc]
      exact perm_append_singleton _ _
    · exact h.add (t := _) rfl (List.Perm.refl _)

theorem KeepsStaged.andThen (ha : KeepsStaged first others a) (hb : KeepsStaged first others b) :
    KeepsStaged first others (a.andThen b) := by
  intro s h
  have hafter := ha s h
  unfold Op.andThen
  split
  · rename_i t ht
    rw [ht] at hafter
    exact hb t hafter
  · rename_i t ht
    rw [ht] at hafter
    exact hafter

theorem keepsStaged_composes : Composes (KeepsStaged first others) where
  nil _ hs := hs
  andThen _ _ := KeepsStaged.andThen

theorem keepsStaged_killSwitchRules (vpnAdapterIndex : Int32) :
    ∀ rule ∈ killSwitchRules sys vpnAdapterIndex, KeepsStaged first others rule :=
  keepsStaged_composes.killSwitchRules keepsStaged_enableFilter (fun _ _ hs => hs) vpnAdapterIndex

end Enabling

section Disabling

variable {sys : Platform} {first : ℕ} {others : List (ℕ × Filter)} {s t u : State} {rule : Op}

def ruleDisables (sys : Platform) (rule : Op) (s : State) : Option State :=
  match FwpmTransactionBegin sys s with
  | (false, s') => some s'
  | (true, s') =>
    match rule s' with
    | (false, t) => some (FwpmTransactionAbort0 sys t).2
    | (true, _) => none

def rulesDisable (sys : Platform) : List Op → State → Option State
  | [], _ => none
  | rule :: rules, s =>
    match FW_OK sys rule s with
    | (true, t) => rulesDisable sys rules t
    | (false, _) => ruleDisables sys rule s

def peerDisables (sys : Platform) (config : InterfaceConfig) (s : State) : Option State :=
  match FwpmTransactionBegin sys s with
  | (false, s') => some s'
  | (true, s') =>
    match (peerRules sys config).andThen (FwpmTransactionCommit0 sys) s' with
    | (false, t) => some (FwpmTransactionAbort0 sys t).2
    | (true, _) => none

def disablesFrom (sys : Platform) : FirewallCall → State → Option State
  | .enableKillSwitch vpnAdapterIndex => rulesDisable sys (killSwitchRules sys vpnAdapterIndex)
  | .enablePeerTraffic config => peerDisables sys config
  | .disablePeerTraffic _ => fun _ => none
  | .disableKillSwitch => some

theorem fw_ok_cases (h : Books first others s) (hrule : KeepsStaged first others rule) :
    (∃ u, ruleDisables sys rule s = some u ∧ Books first others u ∧
      FW_OK sys rule s = (false, (disableKillSwitch sys u).2)) ∨
    (ruleDisables sys rule s = none ∧ Books first others (FW_OK sys rule s).2) := by
  unfold ruleDisables FW_OK
  cases hbegin : FwpmTransactionBegin sys s with
  | mk begun s' =>
    cases begun with
    | false => exact Or.inl ⟨s', rfl, h.of_same (sameBooks_begin hbegin), rfl⟩
    | true =>
      have hstaged := hrule s' (h.begin hbegin)
      dsimp only
      cases hresult : rule s' with
      | mk added t =>
        rw [hresult] at hstaged
        cases added with
        | false => exact Or.inl ⟨_, rfl, hstaged.toBooks.of_same sameBooks_abort, rfl⟩
        | true => exact Or.inr ⟨rfl, hstaged.commit⟩

theorem rules_cases (h : Books first others s) {rules : List Op}
    (hrules : ∀ rule ∈ rules, KeepsStaged first others rule) :
    (∃ u, rulesDisable sys rules s = some u ∧ Books first others u ∧
      Op.allOf (rules.map (FW_OK sys)) s = (false, (disableKillSwitch sys u).2)) ∨
    (rulesDisable sys rules s = none ∧ Books first others (Op.allOf (rules.map (FW_OK sys)) s).2) := by
  induction rules generalizing s with
  | nil => exact Or.inr ⟨rfl, h⟩
  | cons rule rules ih =>
    obtain ⟨hrule, hrules⟩ := forall_mem_cons.mp hrules
    have hcases := @fw_ok_cases sys first others s rule h hrule
    rw [rulesDisable, map_cons, Op.allOf, Op.andThen]
    cases hresult : FW_OK sys rule s with
    | mk installed t =>
      rw [hresult] at hcases
      cases installed with
      | false =>
        dsimp only
        rcases hcases with ⟨u, hu, hbooks, heq⟩ | hnone
        · exact Or.inl ⟨u, hu, hbooks, heq⟩
        · exact Or.inr hnone
      | true =>
        rcases hcases with ⟨u, -, -, heq⟩ | ⟨-, hbooks⟩
        · simp at heq
        · exact ih hbooks hrules

theorem peer_cases (h : Books first others s) (config : InterfaceConfig) :
    (∃ u, peerDisables sys config s = some u ∧ Books first others u ∧
      enablePeerTraffic sys config s = (false, (disableKillSwitch sys u).2)) ∨
    (peerDisables sys config s = none ∧ Books first others (enablePeerTraffic sys config s).2) := by
  unfold peerDisables enablePeerTraffic
  cases hbegin : FwpmTransactionBegin sys s with
  | mk begun s' =>
    cases begun with
    | false => exact Or.inl ⟨s', rfl, h.of_same (sameBooks_begin hbegin), rfl⟩
    | true =>
      have hstaged : Staged first others (peerRules sys config s').2 :=
        keepsStaged_composes.peerRules keepsStaged_enableFilter config s' (h.begin hbegin)
      have hbooks : Books first others ((peerRules sys config).andThen (FwpmTransactionCommit0 sys) s').2 := by
        unfold Op.andThen
        cases hresult : peerRules sys config s' with
        | mk added t =>
          rw [hresult] at hstaged
          cases added with
          | false => exact hstaged.toBooks
          | true => exact hstaged.commit
      dsimp only
      cases hresult : (peerRules sys config).andThen (FwpmTransactionCommit0 sys) s' with
      | mk done t =>
        rw [hresult] at hbooks
        cases done with
        | false => exact Or.inl ⟨_, rfl, hbooks.of_same sameBooks_abort, rfl⟩
        | true => exact Or.inr ⟨rfl, hbooks⟩

def Loses (s : State) (c : Platform × FirewallCall) : Prop :=
  match c.2 with
  | .disablePeerTraffic pubkey => LosesPeer c.1 pubkey s
  | call => ∃ u, disablesFrom c.1 call s = some u ∧ LosesAny c.1 u

theorem perform_cases (h : Books first others s) {c : FirewallCall}
    (hc : ∀ pubkey, c ≠ .disablePeerTraffic pubkey) :
    (∃ u, disablesFrom sys c s = some u ∧ Books first others u ∧
      (perform sys c s).2 = (disableKillSwitch sys u).2) ∨
    (disablesFrom sys c s = none ∧ Books first others (perform sys c s).2) := by
  cases c with
  | enableKillSwitch vpnAdapterIndex =>
    rcases rules_cases h (keepsStaged_killSwitchRules vpnAdapterIndex) with
      ⟨u, hu, hbooks, heq⟩ | hnone
    · exact Or.inl ⟨u, hu, hbooks, by rw [perform, enableKillSwitch_eq, heq]⟩
    · exact Or.inr hnone
  | enablePeerTraffic config =>
    rcases peer_cases h config with ⟨u, hu, hbooks, heq⟩ | hnone
    · exact Or.inl ⟨u, hu, hbooks, by rw [perform, heq]⟩
    · exact Or.inr hnone
  | disablePeerTraffic pubkey => exact absurd rfl (hc pubkey)
  | disableKillSwitch => exact Or.inl ⟨s, rfl, h, rfl⟩

theorem loses_iff {c : FirewallCall} (hc : ∀ pubkey, c ≠ .disablePeerTraffic pubkey) :
    Loses s (sys, c) ↔ ∃ u, disablesFrom sys c s = some u ∧ LosesAny sys u := by
  cases c with
  | disablePeerTraffic pubkey => exact absurd rfl (hc pubkey)
  | _ => rfl

theorem Books.step (h : Books first others s) (c : Platform × FirewallCall) (hloses : ¬ Loses s c) :
    Books first others (step s c) := by
  obtain ⟨sys, c⟩ := c
  by_cases hc : ∀ pubkey, c ≠ .disablePeerTraffic pubkey
  · rw [loses_iff hc] at hloses
    rcases perform_cases h hc with ⟨u, hu, hbooks, heq⟩ | ⟨-, hbooks⟩
    · rw [WindowsFirewall.step, heq]
      exact hbooks.disableKillSwitch fun hany => hloses ⟨u, hu, hany⟩
    · exact hbooks
  · push Not at hc
    obtain ⟨pubkey, rfl⟩ := hc
    exact h.disablePeerTraffic hloses

theorem Books.not_recorded (h : Books first others s) (c : Platform × FirewallCall) (hloses : Loses s c) :
    ¬ Recorded first (WindowsFirewall.step s c) := by
  obtain ⟨sys, c⟩ := c
  by_cases hc : ∀ pubkey, c ≠ .disablePeerTraffic pubkey
  · obtain ⟨u, hu, hany⟩ := (loses_iff hc).mp hloses
    rcases perform_cases h hc with ⟨v, hv, hbooks, heq⟩ | ⟨hnone, -⟩
    · obtain rfl := Option.some.inj (hu.symm.trans hv)
      rw [WindowsFirewall.step, heq]
      exact hbooks.not_recorded_of_losesAny hany
    · exact absurd (hu.symm.trans hnone) (by simp)
  · push Not at hc
    obtain ⟨pubkey, rfl⟩ := hc
    exact h.not_recorded_of_losesPeer hloses

theorem Books.switchesOff (h : Books first others s) (hothers : ∀ entry ∈ others, entry.1 < first) :
    SwitchesOff first s := by
  intro sys hok htrue entry hentry
  by_cases hbegins : Begins sys s
  · rw [disableKillSwitch_of_begins hbegins, if_pos (hok _)] at hentry
    obtain ⟨hin, hfailed⟩ := mem_survivors.mp hentry
    by_contra hown
    obtain ⟨k, hk⟩ := mem_iff_getElem?.mp (h.recorded hothers entry hin (not_lt.mp hown))
    exact absurd ((hok _).symm.trans (hfailed k hk)) (by simp)
  · exact absurd ((disableKillSwitch_of_not_begins hbegins).1.symm.trans htrue) (by simp)

end Disabling

theorem not_loses {s : State} {c : Platform × FirewallCall} (hok : ∀ n, c.1.succeeds n = true) :
    ¬ Loses s c := by
  obtain ⟨sys, c⟩ := c
  have hany (u : State) : ¬ LosesAny sys u := by
    rintro ⟨-, -, k, id, -, -, hfailed⟩
    exact absurd ((hok _).symm.trans hfailed) (by simp)
  by_cases hc : ∀ pubkey, c ≠ .disablePeerTraffic pubkey
  · rw [loses_iff hc]
    rintro ⟨u, -, hloses⟩
    exact hany u hloses
  · push Not at hc
    obtain ⟨pubkey, rfl⟩ := hc
    rintro ⟨-, k, id, -, -, hfailed | hfailed⟩
    · exact absurd ((hok _).symm.trans hfailed) (by simp)
    · exact absurd ((hok _).symm.trans hfailed) (by simp)

def fresh (filters : List (ℕ × Filter)) (nextId : ℕ) : State :=
  { engine := ⟨filters, none, nextId⟩, m_activeRules := [], m_peerRules := [], calls := 0 }

theorem books_fresh {filters : List (ℕ × Filter)} {nextId : ℕ}
    (hids : ∀ entry ∈ filters, entry.1 < nextId) : Books nextId filters (fresh filters nextId) where
  accounts := ⟨fun _ hentry => Or.inl hentry, fun _ hentry => hentry⟩
  own _ hid := absurd hid not_mem_nil
  apart entry hentry := ⟨not_mem_nil, hids entry hentry⟩
  nodup := nodup_nil
  start := le_rfl

end AmneziaVpn.WindowsFirewall
