import AmneziaVpn.WindowsFirewallRecords

/-!
# When enabling the Windows firewall fails

A function that enables filters and fails disables the kill switch before it returns, but for one
case: when the transaction of a rule cannot be committed, `enableKillSwitch` returns at once.
-/

namespace AmneziaVpn.WindowsFirewall

open List

structure DisablingSucceeds (sys : Platform) (s : State) : Prop where
  begins : Begins sys s
  deletes : ∀ k < s.ids.length, sys.succeeds (s.calls + 1 + k) = true
  commits : sys.succeeds (s.calls + 1 + s.ids.length) = true

def FailsSafe (first : ℕ) (sys : Platform) (c : FirewallCall) (s : State) : Prop :=
  (perform sys c s).1 = false →
    (∀ u, disablesFrom sys c s = some u → DisablingSucceeds sys u) →
      ∀ entry ∈ (perform sys c s).2.engine.filters, entry.1 < first

def FirewallCall.Enables : FirewallCall → Prop
  | .enableKillSwitch _ | .enablePeerTraffic _ => True
  | .disablePeerTraffic _ | .disableKillSwitch => False

/-- The transaction of a rule is filled but not committed. -/
def CommitFails (sys : Platform) (rule : Op) (s : State) : Prop :=
  ∃ u v, FwpmTransactionBegin sys s = (true, u) ∧ rule u = (true, v) ∧
    (FwpmTransactionCommit0 sys v).1 = false

/-- A commit fails after which filters stay. -/
def LeftOn (first : ℕ) (sys : Platform) (c : FirewallCall) (s : State) : Prop :=
  ∃ vpnAdapterIndex before rule after t, c = .enableKillSwitch vpnAdapterIndex ∧
    killSwitchRules sys vpnAdapterIndex = before ++ rule :: after ∧
    Op.allOf (before.map (FW_OK sys)) s = (true, t) ∧ CommitFails sys rule t ∧
    (before ≠ [] ∨ ∃ entry ∈ s.engine.filters, first ≤ entry.1)

section Numbered

variable {sys : Platform} {first : ℕ} {s t : State}

/-- The identifiers are those that the engine has given out, and none is recorded twice. -/
structure Numbered (first : ℕ) (s : State) : Prop where
  filters : ∀ entry ∈ s.engine.filters, entry.1 < s.engine.nextId
  own : ∀ id ∈ s.ids, first ≤ id ∧ id < s.engine.nextId
  nodup : s.ids.Nodup
  start : first ≤ s.engine.nextId

def State.unrecorded (s : State) : List (ℕ × Filter) :=
  s.engine.filters.filter fun entry => entry.1 ∉ s.ids

theorem Numbered.books (h : Numbered first s) : Books first s.unrecorded s where
  accounts := by
    constructor
    · intro entry hentry
      by_cases hid : entry.1 ∈ s.ids
      · exact Or.inr hid
      · exact Or.inl (mem_filter.mpr ⟨hentry, decide_eq_true hid⟩)
    · exact fun entry hentry => mem_of_mem_filter hentry
  own := h.own
  apart entry hentry := by
    obtain ⟨hin, hid⟩ := mem_filter.mp hentry
    exact ⟨of_decide_eq_true hid, h.filters entry hin⟩
  nodup := h.nodup
  start := h.start

theorem Books.numbered {others : List (ℕ × Filter)} (h : Books first others s) :
    Numbered first s where
  filters entry hentry := by
    rcases h.accounts.recorded entry hentry with hother | hid
    · exact (h.apart entry hother).2
    · exact (h.own entry.1 hid).2
  own := h.own
  nodup := h.nodup
  start := h.start

theorem recorded_iff_unrecorded :
    Recorded first s ↔ ∀ entry ∈ s.unrecorded, entry.1 < first := by
  constructor
  · intro h entry hentry
    obtain ⟨hin, hid⟩ := mem_filter.mp hentry
    exact not_le.mp fun hown => of_decide_eq_true hid (h entry hin hown)
  · intro h entry hentry hown
    by_contra hid
    exact absurd (h entry (mem_filter.mpr ⟨hentry, decide_eq_true hid⟩)) (not_lt.mpr hown)

theorem Numbered.shrink (h : Numbered first s)
    (hfilters : ∀ entry ∈ t.engine.filters, entry ∈ s.engine.filters) (hids : t.ids.Sublist s.ids)
    (hnext : t.engine.nextId = s.engine.nextId) : Numbered first t where
  filters entry hentry := hnext ▸ h.filters entry (hfilters entry hentry)
  own id hid := hnext ▸ h.own id (hids.subset hid)
  nodup := h.nodup.sublist hids
  start := hnext ▸ h.start

theorem Numbered.disableKillSwitch (h : Numbered first s) :
    Numbered first (disableKillSwitch sys s).2 := by
  by_cases hloses : LosesAny sys s
  · rw [disableKillSwitch_of_begins hloses.1, if_pos hloses.2.1]
    exact h.shrink (fun entry hentry => (mem_survivors.mp hentry).1) (nil_sublist _) rfl
  · exact (h.books.disableKillSwitch hloses).numbered

theorem Numbered.disablePeerTraffic (h : Numbered first s) (pubkey : String) :
    Numbered first (disablePeerTraffic sys pubkey s).2 := by
  by_cases hbegins : Begins sys s
  · rw [disablePeerTraffic_of_begins pubkey hbegins]
    split_ifs
    · exact h.shrink (fun entry hentry => (mem_survivors.mp hentry).1)
        (ids_forgetPeer_sublist pubkey s) rfl
    · have hsame := @sameBooks_abort sys
        ({ forgetPeer pubkey (emptied sys (s.peerIds pubkey) s) with
          calls := s.calls + 1 + (s.peerIds pubkey).length + 1 })
      apply h.shrink
      · rw [hsame.filters]
        exact fun entry hentry => hentry
      · rw [hsame.ids]
        exact ids_forgetPeer_sublist pubkey s
      · exact hsame.nextId
  · exact (h.books.of_same (disablePeerTraffic_of_not_begins pubkey hbegins)).numbered

theorem Numbered.step (h : Numbered first s) (c : Platform × FirewallCall) :
    Numbered first (step s c) := by
  obtain ⟨sys, c⟩ := c
  by_cases hc : ∀ pubkey, c ≠ .disablePeerTraffic pubkey
  · rcases perform_cases h.books hc with ⟨u, -, hbooks, heq⟩ | ⟨-, hbooks⟩
    · rw [WindowsFirewall.step, heq]
      exact hbooks.numbered.disableKillSwitch
    · exact hbooks.numbered
  · push Not at hc
    obtain ⟨pubkey, rfl⟩ := hc
    exact h.disablePeerTraffic pubkey

theorem numbered_run {filters : List (ℕ × Filter)} {nextId : ℕ}
    (hids : ∀ entry ∈ filters, entry.1 < nextId) (calls : List (Platform × FirewallCall)) :
    Numbered nextId (calls.foldl WindowsFirewall.step (fresh filters nextId)) := by
  apply List.foldlRecOn
  · exact (books_fresh hids).numbered
  · exact fun s hs c _ => hs.step c

theorem numbered_run_reliable :
    Numbered 1 ([(reliable, .enablePeerTraffic (tunnelAll []))].foldl WindowsFirewall.step
      (fresh [(0, ⟨[], .permit, LOW_WEIGHT, .ALE_AUTH_CONNECT_V4⟩)] 1)) :=
  numbered_run (by simp) _

end Numbered

section Failures

variable {sys : Platform} {first : ℕ} {others : List (ℕ × Filter)} {s t u : State} {a b rule : Op}

theorem mem_filters_of_disablingSucceeds (h : Books first others u) (hok : DisablingSucceeds sys u)
    (entry : ℕ × Filter) :
    entry ∈ (disableKillSwitch sys u).2.engine.filters ↔ entry ∈ others := by
  rw [disableKillSwitch_of_begins hok.begins, if_pos hok.commits, mem_survivors]
  constructor
  · rintro ⟨hin, hfailed⟩
    rcases h.accounts.recorded entry hin with hother | hid
    · exact hother
    · obtain ⟨k, hk⟩ := mem_iff_getElem?.mp hid
      have hdeleted := hok.deletes k (List.getElem?_eq_some_iff.mp hk).1
      exact absurd (hdeleted.symm.trans (hfailed k hk)) (by simp)
  · intro hother
    exact ⟨h.accounts.kept entry hother,
      fun k hk => absurd (mem_of_getElem? hk) (h.apart entry hother).1⟩

/-- In an open transaction, success means that filters with new identifiers were appended. -/
def Numbers (a : Op) : Prop :=
  ∀ s t, a s = (true, t) → ∀ ps, s.engine.pending = some ps →
    t.engine.filters = s.engine.filters ∧ s.engine.nextId ≤ t.engine.nextId ∧
      ∃ qs, t.engine.pending = some (ps ++ qs) ∧ ∀ entry ∈ qs, s.engine.nextId ≤ entry.1

theorem numbers_enableFilter (filter : Filter) (peer : String) :
    Numbers (enableFilter sys filter peer) := by
  intro s t h ps hps
  unfold enableFilter at h
  split at h
  · cases h
  · rename_i u hu
    obtain ⟨e, he, rfl⟩ := call_eq_true hu
    cases he
    have hadd : s.engine.add filter = ⟨s.engine.filters, some (ps ++ [(s.engine.nextId, filter)]),
        s.engine.nextId + 1⟩ := by
      simp [Engine.add, Engine.edit, hps]
    have hengine : t.engine = s.engine.add filter := by
      split_ifs at h <;> cases h <;> rfl
    rw [hengine, hadd]
    exact ⟨rfl, Nat.le_succ _, [(s.engine.nextId, filter)], rfl, by simp⟩

theorem Numbers.andThen (ha : Numbers a) (hb : Numbers b) : Numbers (a.andThen b) := by
  intro s t h ps hps
  obtain ⟨u, hau, hbu⟩ := andThen_eq_true h
  obtain ⟨hfilters, hnext, qs, hqs, hnew⟩ := ha s u hau ps hps
  obtain ⟨hfilters', hnext', qs', hqs', hnew'⟩ := hb u t hbu _ hqs
  refine ⟨hfilters'.trans hfilters, hnext.trans hnext', qs ++ qs', ?_, ?_⟩
  · rw [hqs', append_assoc]
  · intro entry hentry
    rcases mem_append.mp hentry with hentry | hentry
    · exact hnew entry hentry
    · exact hnext.trans (hnew' entry hentry)

theorem numbers_composes : Composes Numbers where
  nil := by
    intro s t hs ps hps
    cases hs
    exact ⟨rfl, le_rfl, [], by rw [hps, append_nil], by simp⟩
  andThen _ _ := Numbers.andThen

theorem numbers_killSwitchRules (vpnAdapterIndex : Int32) :
    ∀ rule ∈ killSwitchRules sys vpnAdapterIndex, Numbers rule := by
  apply numbers_composes.killSwitchRules numbers_enableFilter
  intro _ s t h
  cases h

/-- A transaction that is begun, filled and committed appends filters with new identifiers. -/
theorem Numbers.fw_ok (hrule : Numbers rule) (h : FW_OK sys rule s = (true, t)) :
    s.engine.nextId ≤ t.engine.nextId ∧ ∃ qs, t.engine.filters = s.engine.filters ++ qs ∧
      ∀ entry ∈ qs, s.engine.nextId ≤ entry.1 := by
  unfold FW_OK at h
  split at h
  · cases h
  · rename_i u hbegin
    split at h
    · cases h
    · rename_i v hrun
      obtain ⟨e, he, rfl⟩ := call_eq_true hbegin
      obtain ⟨e', he', rfl⟩ := call_eq_true h
      unfold Engine.begin at he
      split at he <;> cases he
      obtain ⟨-, hnext, qs, hqs, hnew⟩ := hrule _ v hrun _ rfl
      simp only [Engine.commit, hqs, Option.some.injEq] at he'
      obtain rfl := he'
      exact ⟨hnext, qs, rfl, hnew⟩

theorem numbers_rules {rules : List Op} (hrules : ∀ rule ∈ rules, Numbers rule)
    (h : Op.allOf (rules.map (FW_OK sys)) s = (true, t)) :
    s.engine.nextId ≤ t.engine.nextId ∧ ∃ qs, t.engine.filters = s.engine.filters ++ qs ∧
      ∀ entry ∈ qs, s.engine.nextId ≤ entry.1 := by
  induction rules generalizing s with
  | nil =>
    cases h
    exact ⟨le_rfl, [], (append_nil _).symm, by simp⟩
  | cons rule rules ih =>
    obtain ⟨hrule, hrules⟩ := forall_mem_cons.mp hrules
    obtain ⟨u, hu, h⟩ := andThen_eq_true h
    obtain ⟨hnext, qs, hqs, hnew⟩ := hrule.fw_ok hu
    obtain ⟨hnext', qs', hqs', hnew'⟩ := ih hrules h
    refine ⟨hnext.trans hnext', qs ++ qs', by rw [hqs', hqs, append_assoc], ?_⟩
    intro entry hentry
    rcases mem_append.mp hentry with hentry | hentry
    · exact hnew entry hentry
    · exact hnext.trans (hnew' entry hentry)

theorem own_of_adapterRule (hs : first ≤ s.engine.nextId) {vpnAdapterIndex : Int32}
    (h : FW_OK sys (allowTrafficOfAdapter sys vpnAdapterIndex MED_WEIGHT) s = (true, t)) :
    ∃ entry ∈ t.engine.filters, first ≤ entry.1 := by
  obtain ⟨-, qs, hqs, hnew⟩ := (numbers_composes.enableFilters numbers_enableFilter _ _).fw_ok h
  have hadds : Adds (allowTrafficOfAdapter sys vpnAdapterIndex MED_WEIGHT) _ := adds_enableFilters _ _
  have hforce := hadds.fw_ok s t h
  cases qs with
  | nil =>
    rw [append_nil] at hqs
    have hlength := congrArg List.length hforce
    simp [State.inForce, hqs, adapterFilters] at hlength
  | cons entry qs =>
    refine ⟨entry, ?_, hs.trans (hnew entry mem_cons_self)⟩
    rw [hqs]
    exact mem_append_right _ mem_cons_self

theorem CommitFails.fw_ok (hrule : Numbers rule) (h : CommitFails sys rule s) :
    (FW_OK sys rule s).1 = false ∧ (FW_OK sys rule s).2.engine.filters = s.engine.filters ∧
      ruleDisables sys rule s = none := by
  obtain ⟨u, v, hbegin, hrun, hcommit⟩ := h
  have hok : FW_OK sys rule s = FwpmTransactionCommit0 sys v := by
    simp [FW_OK, hbegin, hrun]
  have hnone : ruleDisables sys rule s = none := by
    simp [ruleDisables, hbegin, hrun]
  have hfilters : v.engine.filters = s.engine.filters := by
    obtain ⟨e, he, rfl⟩ := call_eq_true hbegin
    unfold Engine.begin at he
    split at he <;> cases he
    exact (hrule _ v hrun _ rfl).1
  refine ⟨by rw [hok, hcommit], ?_, hnone⟩
  rw [hok]
  unfold FwpmTransactionCommit0 call at hcommit ⊢
  split
  · rename_i e hsucceeds he
    simp only [hsucceeds, he] at hcommit
    cases hcommit
  · exact hfilters

theorem commitFails_of_none (hnone : ruleDisables sys rule s = none)
    (hfalse : (FW_OK sys rule s).1 = false) : CommitFails sys rule s := by
  unfold ruleDisables at hnone
  split at hnone
  · cases hnone
  · rename_i u hbegin
    split at hnone
    · cases hnone
    · rename_i v hrun
      simp only [FW_OK, hbegin, hrun] at hfalse
      exact ⟨u, v, hbegin, hrun, hfalse⟩

/-- The kill switch is not disabled after a failure only if a commit failed. -/
theorem exists_commitFails {rules : List Op} (hrules : ∀ rule ∈ rules, Numbers rule)
    (hnone : rulesDisable sys rules s = none)
    (hfalse : (Op.allOf (rules.map (FW_OK sys)) s).1 = false) :
    ∃ before rule after t, rules = before ++ rule :: after ∧
      Op.allOf (before.map (FW_OK sys)) s = (true, t) ∧ CommitFails sys rule t ∧
      (Op.allOf (rules.map (FW_OK sys)) s).2.engine.filters = t.engine.filters := by
  induction rules generalizing s with
  | nil => cases hfalse
  | cons rule rules ih =>
    obtain ⟨hrule, hrules⟩ := forall_mem_cons.mp hrules
    rw [rulesDisable] at hnone
    rw [map_cons, Op.allOf, Op.andThen] at hfalse ⊢
    cases hresult : FW_OK sys rule s with
    | mk installed u =>
      rw [hresult] at hnone hfalse
      cases installed with
      | false =>
        have hfails := commitFails_of_none hnone (congrArg Prod.fst hresult)
        have hfilters := (hfails.fw_ok hrule).2.1
        rw [hresult] at hfilters
        exact ⟨[], rule, rules, s, rfl, rfl, hfails, hfilters⟩
      | true =>
        obtain ⟨before, rule', after, t, rfl, hbefore, hfails, hfilters⟩ := ih hrules hnone hfalse
        refine ⟨rule :: before, rule', after, t, rfl, ?_, hfails, hfilters⟩
        simpa only [map_cons, Op.allOf, Op.andThen, hresult] using hbefore

theorem rules_of_commitFails {before : List Op} (after : List Op) (hrule : Numbers rule)
    (hbefore : Op.allOf (before.map (FW_OK sys)) s = (true, t)) (hfails : CommitFails sys rule t) :
    rulesDisable sys (before ++ rule :: after) s = none ∧
      (Op.allOf ((before ++ rule :: after).map (FW_OK sys)) s).1 = false ∧
      (Op.allOf ((before ++ rule :: after).map (FW_OK sys)) s).2.engine.filters =
        t.engine.filters := by
  induction before generalizing s with
  | nil =>
    cases hbefore
    obtain ⟨hfalse, hfilters, hnone⟩ := hfails.fw_ok hrule
    rw [nil_append, rulesDisable, map_cons, Op.allOf, Op.andThen]
    cases hresult : FW_OK sys rule t with
    | mk installed u =>
      rw [hresult] at hfalse hfilters
      obtain rfl : installed = false := hfalse
      exact ⟨hnone, rfl, hfilters⟩
  | cons first before ih =>
    obtain ⟨u, hu, hbefore⟩ := andThen_eq_true hbefore
    have hrest := ih hbefore
    simpa only [cons_append, rulesDisable, map_cons, Op.allOf, Op.andThen, hu] using hrest

variable {c : FirewallCall}

/-- A call that enables and ends in `disableKillSwitch` returns false. -/
theorem perform_of_disables (h : Numbered first s) (hc : c.Enables)
    (hu : disablesFrom sys c s = some u) : (perform sys c s).1 = false ∧
      Books first s.unrecorded u ∧ (perform sys c s).2 = (disableKillSwitch sys u).2 := by
  cases c with
  | enableKillSwitch vpnAdapterIndex =>
    rcases rules_cases h.books (keepsStaged_killSwitchRules vpnAdapterIndex) with
      ⟨u', hu', hbooks, heq⟩ | ⟨hnone, -⟩
    · obtain rfl := Option.some.inj (hu.symm.trans hu')
      rw [perform, enableKillSwitch_eq, heq]
      exact ⟨rfl, hbooks, rfl⟩
    · exact absurd (hnone.symm.trans hu) (by simp)
  | enablePeerTraffic config =>
    rcases peer_cases h.books config with ⟨u', hu', hbooks, heq⟩ | ⟨hnone, -⟩
    · obtain rfl := Option.some.inj (hu.symm.trans hu')
      rw [perform, heq]
      exact ⟨rfl, hbooks, rfl⟩
    · exact absurd (hnone.symm.trans hu) (by simp)
  | disablePeerTraffic pubkey => exact hc.elim
  | disableKillSwitch => exact hc.elim

theorem enablePeerTraffic_of_none {config : InterfaceConfig} (hnone : peerDisables sys config s = none) :
    (enablePeerTraffic sys config s).1 = true := by
  unfold peerDisables at hnone
  unfold enablePeerTraffic
  cases hbegin : FwpmTransactionBegin sys s with
  | mk begun u =>
    rw [hbegin] at hnone
    cases begun with
    | false => cases hnone
    | true =>
      dsimp only at hnone ⊢
      cases hresult : (peerRules sys config).andThen (FwpmTransactionCommit0 sys) u with
      | mk done t =>
        rw [hresult] at hnone
        cases done with
        | false => cases hnone
        | true => rfl

theorem LeftOn.perform (hs : Numbered first s) (h : LeftOn first sys c s) :
    disablesFrom sys c s = none ∧ (perform sys c s).1 = false ∧
      ∃ entry ∈ (perform sys c s).2.engine.filters, first ≤ entry.1 := by
  obtain ⟨vpnAdapterIndex, before, rule, after, t, rfl, hrules, hbefore, hfails, hown⟩ := h
  have hnumbers := @numbers_killSwitchRules sys vpnAdapterIndex
  rw [hrules, forall_mem_append, forall_mem_cons] at hnumbers
  obtain ⟨hnumbersBefore, hrule, -⟩ := hnumbers
  obtain ⟨hnone, hfalse, hfilters⟩ := rules_of_commitFails after hrule hbefore hfails
  rw [WindowsFirewall.perform, enableKillSwitch_eq, disablesFrom, hrules, hfilters]
  refine ⟨hnone, hfalse, ?_⟩
  cases before with
  | nil =>
    cases hbefore
    exact hown.resolve_left fun h => h rfl
  | cons adapterRule before =>
    obtain rfl : allowTrafficOfAdapter sys vpnAdapterIndex MED_WEIGHT = adapterRule :=
      (List.cons.inj hrules).1
    obtain ⟨u, hu, hbefore⟩ := andThen_eq_true hbefore
    obtain ⟨entry, hentry, hown⟩ := own_of_adapterRule hs.start hu
    obtain ⟨-, qs, hqs, -⟩ := numbers_rules (forall_mem_cons.mp hnumbersBefore).2 hbefore
    exact ⟨entry, hqs ▸ mem_append_left qs hentry, hown⟩

theorem leftOn_of_none (hc : c.Enables) (hnone : disablesFrom sys c s = none)
    (hfalse : (perform sys c s).1 = false) {entry : ℕ × Filter}
    (hentry : entry ∈ (perform sys c s).2.engine.filters) (hown : first ≤ entry.1) :
    LeftOn first sys c s := by
  cases c with
  | enableKillSwitch vpnAdapterIndex =>
    obtain ⟨before, rule, after, t, hrules, hbefore, hfails, hfilters⟩ :=
      exists_commitFails (numbers_killSwitchRules vpnAdapterIndex) hnone hfalse
    refine ⟨vpnAdapterIndex, before, rule, after, t, rfl, hrules, hbefore, hfails, ?_⟩
    cases before with
    | nil =>
      cases hbefore
      rw [perform, enableKillSwitch_eq, hfilters] at hentry
      exact Or.inr ⟨entry, hentry, hown⟩
    | cons adapterRule before => exact Or.inl (cons_ne_nil _ _)
  | enablePeerTraffic config =>
    exact absurd ((enablePeerTraffic_of_none hnone).symm.trans hfalse) (by simp)
  | disablePeerTraffic pubkey => exact hc.elim
  | disableKillSwitch => exact hc.elim

/-- A failed call leaves no filter unless its commit fails or a filter is not recorded. -/
theorem failsSafe_iff (h : Numbered first s) {c : FirewallCall} (hc : c.Enables) :
    FailsSafe first sys c s ↔ ¬ LeftOn first sys c s ∧
      ((∃ u, disablesFrom sys c s = some u ∧ DisablingSucceeds sys u) → Recorded first s) := by
  constructor
  · intro hsafe
    constructor
    · intro hleft
      obtain ⟨hnone, hfalse, entry, hentry, hown⟩ := hleft.perform h
      have hvacuous : ∀ u, disablesFrom sys c s = some u → DisablingSucceeds sys u := by
        intro u hu
        exact absurd (hnone.symm.trans hu) (by simp)
      exact absurd (hsafe hfalse hvacuous entry hentry) (not_lt.mpr hown)
    · rintro ⟨u, hu, hok⟩
      obtain ⟨hfalse, hbooks, heq⟩ := perform_of_disables h hc hu
      rw [recorded_iff_unrecorded]
      intro entry hentry
      apply hsafe hfalse
      · intro u' hu'
        obtain rfl := Option.some.inj (hu.symm.trans hu')
        exact hok
      · rw [heq]
        exact (mem_filters_of_disablingSucceeds hbooks hok entry).mpr hentry
  · rintro ⟨hleft, hrecorded⟩ hfalse hok entry hentry
    cases hu : disablesFrom sys c s with
    | none => exact not_le.mp fun hown => hleft (leftOn_of_none hc hu hfalse hentry hown)
    | some u =>
      obtain ⟨-, hbooks, heq⟩ := perform_of_disables h hc hu
      rw [heq] at hentry
      have hunrecorded := (mem_filters_of_disablingSucceeds hbooks (hok u hu) entry).mp hentry
      exact recorded_iff_unrecorded.mp (hrecorded ⟨u, hu, hok u hu⟩) entry hunrecorded

end Failures

/-- The second filter of the second rule cannot be added. -/
theorem failsSafe_refused_filter :
    let refusing := { reliable with succeeds := fun n => n != 8 }
    Numbered 0 (fresh [] 0) ∧ (perform refusing (.enableKillSwitch 7) (fresh [] 0)).1 = false ∧
      FailsSafe 0 refusing (.enableKillSwitch 7) (fresh [] 0) := by
  have hnumbered : Numbered 0 (fresh [] 0) := (books_fresh (by simp)).numbered
  have henables : (FirewallCall.enableKillSwitch 7).Enables := trivial
  refine ⟨hnumbered, by decide +kernel, (failsSafe_iff hnumbered henables).mpr ⟨?_, ?_⟩⟩
  · intro hleft
    have hnone := Option.isSome_eq_false_iff.mpr (Option.isNone_iff_eq_none.mpr (hleft.perform hnumbered).1)
    exact absurd hnone (by decide +kernel)
  · exact fun _ entry hentry => absurd hentry not_mem_nil

/-- The transaction of the second rule cannot be committed. The filters of the first one stay. -/
theorem adapter_filters_left_on :
    let refusing := { reliable with succeeds := fun n => n != 11 }
    let result := perform refusing (.enableKillSwitch 7) (fresh [] 0)
    result.1 = false ∧ disablesFrom refusing (.enableKillSwitch 7) (fresh [] 0) = none ∧
      result.2.engine.filters.map Prod.fst = [0, 1, 2, 3] ∧
      ¬ FailsSafe 0 refusing (.enableKillSwitch 7) (fresh [] 0) := by
  have hresult : (perform { reliable with succeeds := fun n => n != 11 } (.enableKillSwitch 7)
      (fresh [] 0)).1 = false := by decide +kernel
  have hnone : disablesFrom { reliable with succeeds := fun n => n != 11 } (.enableKillSwitch 7)
      (fresh [] 0) = none := Option.isNone_iff_eq_none.mp (by decide +kernel)
  have hfilters : (perform { reliable with succeeds := fun n => n != 11 } (.enableKillSwitch 7)
      (fresh [] 0)).2.engine.filters.map Prod.fst = [0, 1, 2, 3] := by decide +kernel
  refine ⟨hresult, hnone, hfilters, fun hsafe => ?_⟩
  have hzero : 0 ∈ (perform { reliable with succeeds := fun n => n != 11 } (.enableKillSwitch 7)
      (fresh [] 0)).2.engine.filters.map Prod.fst := by simp [hfilters]
  obtain ⟨entry, hentry, hid⟩ := mem_map.mp hzero
  have hlt := hsafe hresult (fun u hu => absurd (hnone.symm.trans hu) (by simp)) entry hentry
  exact Nat.not_lt_zero _ hlt

end AmneziaVpn.WindowsFirewall
