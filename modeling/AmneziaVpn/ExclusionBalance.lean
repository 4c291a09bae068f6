import AmneziaVpn.DaemonFrames

/-!
# When the counts agree with the connections

Each way of an activation, and a deactivation, leaves the counts in agreement with the connections,
if they were before, under a condition on what it counts and on whether it registers the connection.
-/

namespace AmneziaVpn.Daemon

open FallibleOps FallibleOps.Op

variable {σ : Type} (qt : QtParser)

variable (d : Daemon σ)

def needed (range : IPAddress) : ℕ :=
  (d.connections.flatMap fun state => exclusions qt state.m_config).count range

def Counted : Prop :=
  ∀ range, d.m_excludedAddrSet.count range = needed qt d range

def SameBooks (d' : Daemon σ) : Prop :=
  d'.m_excludedAddrSet = d.m_excludedAddrSet ∧ d'.m_connections = d.m_connections

instance : IsPreorder (Daemon σ) SameBooks where
  refl _ := ⟨rfl, rfl⟩
  trans _ _ _ h h' := ⟨h'.1.trans h.1, h'.2.trans h.2⟩

theorem needed_congr {d d' : Daemon σ} (h : d'.m_connections = d.m_connections)
    (range : IPAddress) : needed qt d' range = needed qt d range := by
  unfold needed connections
  rw [h]

theorem SameBooks.counted_iff {d d' : Daemon σ} (h : SameBooks d d') :
    Counted qt d' ↔ Counted qt d := by
  unfold Counted
  simp [h.1, needed_congr qt h.2]

def excludedBy (state : Option ConnectionState) : List IPAddress :=
  state.elim [] fun state => exclusions qt state.m_config

theorem needed_eq (range : IPAddress) :
    needed qt d range =
      (excludedBy qt (d.m_connections .SingleHop)).count range +
        (excludedBy qt (d.m_connections .MultiHopEntry)).count range +
          (excludedBy qt (d.m_connections .MultiHopExit)).count range := by
  have hflat : ∀ hops : List HopType,
      (hops.filterMap d.m_connections).flatMap (fun state => exclusions qt state.m_config) =
        hops.flatMap fun hop => excludedBy qt (d.m_connections hop) := by
    intro hops
    induction hops with
    | nil => rfl
    | cons hop hops ih =>
      cases hstate : d.m_connections hop with
      | none => simp [hstate, excludedBy, ih]
      | some state => simp [hstate, excludedBy, ih]
  unfold needed connections
  rw [hflat]
  simp [Nat.add_assoc]

/-- Registering a connection exchanges what the one before it excludes for what it excludes. -/
theorem needed_register (config : InterfaceConfig) (d : Daemon σ) (range : IPAddress) :
    needed qt (d.register config) range +
        (excludedBy qt (d.m_connections config.m_hopType)).count range =
      needed qt d range + (exclusions qt config).count range := by
  rw [needed_eq, needed_eq]
  unfold register
  cases config.m_hopType <;> simp [Function.update, excludedBy] <;> omega

section Counting

variable (U : WireguardUtils σ)

def gained : List IPAddress → Daemon σ → List IPAddress
  | [], _ => []
  | range :: ranges, d =>
      (if (addExclusionRoute U range d).1 then [range] else []) ++
        gained ranges (addExclusionRoute U range d).2

variable (ranges : List IPAddress)

theorem gained_sublist (d : Daemon σ) : (gained U ranges d).Sublist ranges := by
  induction ranges generalizing d with
  | nil => exact List.Sublist.slnil
  | cons range ranges ih =>
    unfold gained
    split_ifs
    · exact (ih _).cons_cons range
    · exact (ih _).cons range

theorem addExclusionRoute_set (range : IPAddress) (d : Daemon σ) :
    (addExclusionRoute U range d).2.m_excludedAddrSet =
      (if (addExclusionRoute U range d).1 then [range] else []) ++ d.m_excludedAddrSet := by
  unfold addExclusionRoute
  by_cases hmem : range ∈ d.m_excludedAddrSet
  · simp [hmem]
  · rw [if_neg hmem]
    cases hadded : (U.addExclusionRoute range d.platform).1 <;> simp [hadded]

theorem count_each_addExclusionRoute (d : Daemon σ) (x : IPAddress) :
    (Op.each (addExclusionRoute U) ranges d).2.m_excludedAddrSet.count x =
      d.m_excludedAddrSet.count x + (gained U ranges d).count x := by
  induction ranges generalizing d with
  | nil => rfl
  | cons range ranges ih =>
    rw [each_cons, ih, addExclusionRoute_set, gained, List.count_append, List.count_append]
    omega

theorem count_each_delExclusionRoute (d : Daemon σ) (x : IPAddress) :
    (Op.each (delExclusionRoute U) ranges d).2.m_excludedAddrSet.count x =
      d.m_excludedAddrSet.count x - ranges.count x := by
  induction ranges generalizing d with
  | nil => rfl
  | cons range ranges ih =>
    have hset : (delExclusionRoute U range d).2.m_excludedAddrSet =
        d.m_excludedAddrSet.erase range := by
      unfold delExclusionRoute
      dsimp only
      split_ifs <;> rfl
    rw [each_cons, ih, hset, List.count_erase, Nat.sub_sub, List.count_cons, Nat.add_comm]

end Counting

open FallibleOps FallibleOps.Op

variable {σ : Type} (qt : QtParser) (P : DaemonPlatform σ)

theorem sameBooks_onPlatform (a : Op σ) : Keeps SameBooks (onPlatform a) := fun _ => ⟨rfl, rfl⟩

theorem platformKeeps_sameBooks : PlatformKeeps (fun _ => True) SameBooks P :=
  platformKeeps_of_onPlatform sameBooks_onPlatform

theorem sameBooks_ensureInterface (config : InterfaceConfig) :
    Keeps SameBooks (ensureInterface P config) :=
  (keepsWhen_ensureInterface (sameBooks_onPlatform (P.addInterface config)).when).keeps

theorem sameBooks_failureGuard (a : Op (Daemon σ)) (d : Daemon σ) :
    SameBooks (a d).2 (failureGuard a d).2 := by
  unfold failureGuard
  split_ifs <;> exact ⟨rfl, rfl⟩

section BringingUp

variable {config : InterfaceConfig} {d : Daemon σ}

/-- Behind what leaves the books as they are, the connection is registered if all went well. -/
theorem books_established (config : InterfaceConfig) {front : Op (Daemon σ)}
    (h : Keeps SameBooks front) (d : Daemon σ) :
    SameBooks (if (front.andThen (established config) d).1 then d.register config else d)
      (front.andThen (established config) d).2 := by
  cases hfront : (front d).1 with
  | false =>
    rw [andThen_of_false hfront]
    exact h d
  | true =>
    rw [andThen_of_true hfront]
    refine ⟨(h d).1, ?_⟩
    change Function.update (front d).2.m_connections _ _ = _
    rw [(h d).2]
    rfl

theorem books_bringUpPeer (config : InterfaceConfig) (d : Daemon σ) :
    SameBooks (if (bringUpPeer qt P config d).1 then
        (Op.each (addExclusionRoute P.toWireguardUtils) (exclusions qt config) d).2.register config
      else (Op.each (addExclusionRoute P.toWireguardUtils) (exclusions qt config) d).2)
      (bringUpPeer qt P config d).2 := by
  rw [bringUpPeer_eq, andThen_of_true (each_fst _ _ _)]
  exact books_established config ((platformKeeps_sameBooks P).peerSteps qt config).keeps _

theorem connections_each_addExclusionRoute (ranges : List IPAddress) (d : Daemon σ) :
    (Op.each (addExclusionRoute P.toWireguardUtils) ranges d).2.m_connections = d.m_connections :=
  (utilsKeep_of_onPlatform sameConnections_onPlatform).each_addExclusionRoute (fun _ _ => rfl) ranges d

def BalancedUp (config : InterfaceConfig) (d : Daemon σ) : Prop :=
  (ensureInterface P config d).1 = true →
    gained P.toWireguardUtils (exclusions qt config) (ensureInterface P config d).2 =
      if (bringUpPeer qt P config (ensureInterface P config d).2).1 then exclusions qt config else []

theorem eq_iff_count {l l' : List IPAddress} (h : l.Sublist l') :
    l = l' ↔ ∀ x, l.count x = l'.count x := by
  refine ⟨fun heq x => by rw [heq], fun hcount => ?_⟩
  exact h.eq_of_length (List.perm_iff_count.mpr hcount).length_eq

theorem counted_bringUpPeer_iff (h : Counted qt d) (hnone : d.m_connections config.m_hopType = none) :
    Counted qt (bringUpPeer qt P config d).2 ↔
      gained P.toWireguardUtils (exclusions qt config) d =
        if (bringUpPeer qt P config d).1 then exclusions qt config else [] := by
  have hsub := gained_sublist P.toWireguardUtils (exclusions qt config) d
  have hconnections := connections_each_addExclusionRoute P (exclusions qt config) d
  have hcount := count_each_addExclusionRoute P.toWireguardUtils (exclusions qt config) d
  rw [(books_bringUpPeer qt P config d).counted_iff]
  generalize Op.each (addExclusionRoute P.toWireguardUtils) (exclusions qt config) d = e
    at hconnections hcount
  unfold Counted
  split_ifs
  · rw [eq_iff_count hsub]
    refine forall_congr' fun x => ?_
    have hneeded := needed_register qt config e.2 x
    rw [hconnections, hnone, needed_congr qt hconnections] at hneeded
    change e.2.m_excludedAddrSet.count x = _ ↔ _
    rw [hcount, h x]
    simp only [excludedBy, Option.elim_none, List.count_nil] at hneeded
    omega
  · rw [eq_comm, eq_iff_count (List.nil_sublist _)]
    refine forall_congr' fun x => ?_
    rw [hcount, h x, needed_congr qt hconnections, List.count_nil]
    omega

theorem counted_bringUp_iff (h : Counted qt d) (hnone : d.m_connections config.m_hopType = none) :
    Counted qt (bringUp qt P config d).2 ↔ BalancedUp qt P config d := by
  have hbooks := sameBooks_ensureInterface P config d
  unfold bringUp BalancedUp
  cases hensure : (ensureInterface P config d).1 with
  | false =>
    rw [andThen_of_false hensure]
    exact iff_of_true ((hbooks.counted_iff qt).mpr h) fun hfalse => absurd hfalse Bool.false_ne_true
  | true =>
    rw [andThen_of_true hensure, counted_bringUpPeer_iff qt P ((hbooks.counted_iff qt).mpr h)
      (hbooks.2 ▸ hnone)]
    exact ⟨fun hgained _ => hgained, fun hgained => hgained rfl⟩

end BringingUp

section Switching

variable (U : WireguardUtils σ) (lastConfig config : InterfaceConfig) (d : Daemon σ)

def SameSet (d d' : Daemon σ) : Prop := d'.m_excludedAddrSet = d.m_excludedAddrSet

instance : IsPreorder (Daemon σ) SameSet where
  refl _ := rfl
  trans _ _ _ h h' := Eq.trans h' h

theorem switchServer_assoc : switchServer qt U lastConfig config =
    (Op.each (addExclusionRoute U) (exclusions qt config)).andThen
      ((onPlatform (U.updatePeer config)).andThen
        ((Op.allOf (fun ip => onPlatform (U.updateRoutePrefix ip))
            config.m_allowedIPAddressRanges).ignore.andThen
          ((Op.each (delExclusionRoute U) (switchedExclusions qt lastConfig)).andThen
            ((Op.each (fun ip => onPlatform (U.deleteRoutePrefix ip))
                (goneRanges lastConfig config)).andThen
              ((deleteOldPeer U lastConfig config).andThen
                fun d => (true, d.register config)))))) := by
  simp [switchServer, andThen_assoc]

def updated : Bool :=
  (U.updatePeer config (Op.each (addExclusionRoute U) (exclusions qt config) d).2.platform).1

theorem count_switchServer (x : IPAddress) :
    (switchServer qt U lastConfig config d).2.m_excludedAddrSet.count x =
      if updated qt U config d then
        d.m_excludedAddrSet.count x + (gained U (exclusions qt config) d).count x -
          (switchedExclusions qt lastConfig).count x
      else d.m_excludedAddrSet.count x + (gained U (exclusions qt config) d).count x := by
  have hcount := count_each_addExclusionRoute U (exclusions qt config) d x
  rw [switchServer_assoc, andThen_of_true (each_fst _ _ _)]
  unfold updated
  generalize (Op.each (addExclusionRoute U) (exclusions qt config) d).2 = e at hcount ⊢
  have hfst : (onPlatform (U.updatePeer config) e).1 = (U.updatePeer config e.platform).1 := rfl
  cases hupdated : (U.updatePeer config e.platform).1 with
  | false =>
    rw [andThen_of_false (hfst.trans hupdated), if_neg Bool.false_ne_true]
    exact hcount
  | true =>
    have hroutes : Keeps SameBooks (Op.allOf (fun ip => onPlatform (U.updateRoutePrefix ip))
        config.m_allowedIPAddressRanges) :=
      Keeps.allOf (fun ip => sameBooks_onPlatform (U.updateRoutePrefix ip)) _
    have hrest : Keeps SameSet ((Op.each (fun ip => onPlatform (U.deleteRoutePrefix ip))
        (goneRanges lastConfig config)).andThen ((deleteOldPeer U lastConfig config).andThen
          fun d => (true, d.register config))) := by
      have hdelete : ∀ ip, Keeps SameSet (onPlatform (U.deleteRoutePrefix ip)) := fun _ _ => rfl
      have hold : Keeps SameSet (deleteOldPeer U lastConfig config) :=
        ((utilsKeep_of_onPlatform fun _ _ => rfl).deleteOldPeer lastConfig config).keeps
      exact (Keeps.each hdelete _).andThen (hold.andThen fun _ => rfl)
    rw [andThen_of_true (hfst.trans hupdated), andThen_of_true (ignore_fst _ _),
      andThen_of_true (each_fst _ _ _), hrest _, count_each_delExclusionRoute, if_pos rfl,
      ignore_snd, (hroutes _).1]
    exact congrArg (· - _) hcount

/-- The rest of a switch leaves the books, as the connection is registered already. -/
theorem books_switchTo : SameBooks (switchServer qt P.toWireguardUtils lastConfig config d).2
    (switchTo qt P lastConfig config d).2 := by
  have hfront : Keeps SameBooks ((onPlatform P.restoreResolvers).andThen
      ((maybeUpdateResolvers qt P config).andThen (onPlatform (P.run .Switch config)))) :=
    (sameBooks_onPlatform P.restoreResolvers).andThen
      (((platformKeeps_sameBooks P).maybeUpdateResolvers qt config).keeps.andThen
        (sameBooks_onPlatform (P.run .Switch config)))
  have hassoc : switchTo qt P lastConfig config =
      (switchServer qt P.toWireguardUtils lastConfig config).andThen
        (((onPlatform P.restoreResolvers).andThen ((maybeUpdateResolvers qt P config).andThen
          (onPlatform (P.run .Switch config)))).andThen (established config)) := by
    simp [switchTo, andThen_assoc]
  rw [hassoc]
  cases htrue : (switchServer qt P.toWireguardUtils lastConfig config d).1 with
  | false =>
    rw [andThen_of_false htrue]
    exact ⟨rfl, rfl⟩
  | true =>
    have hconnections := connections_switchServer qt P.toWireguardUtils lastConfig config d
    rw [if_pos htrue] at hconnections
    rw [andThen_of_true htrue]
    have hbooks := books_established config hfront
      (switchServer qt P.toWireguardUtils lastConfig config d).2
    split_ifs at hbooks
    · refine ⟨hbooks.1, hbooks.2.trans ?_⟩
      change Function.update _ _ _ = _
      rw [hconnections]
      exact Function.update_idem _ _ _
    · exact hbooks

/-- What a switch counts less what it takes back is the difference between the connections. -/
def BalancedSwitch : Prop := ∀ x,
  (if updated qt P.toWireguardUtils config d then
      needed qt d x + (gained P.toWireguardUtils (exclusions qt config) d).count x -
        (switchedExclusions qt lastConfig).count x
    else needed qt d x + (gained P.toWireguardUtils (exclusions qt config) d).count x) =
  if (switchServer qt P.toWireguardUtils lastConfig config d).1 then
    needed qt d x + (exclusions qt config).count x - (exclusions qt lastConfig).count x
  else needed qt d x

variable {config d}

theorem counted_switchTo_iff (h : Counted qt d) {current : ConnectionState}
    (hcurrent : d.m_connections config.m_hopType = some current) :
    Counted qt (switchTo qt P current.m_config config d).2 ↔
      BalancedSwitch qt P current.m_config config d := by
  rw [(books_switchTo qt P current.m_config config d).counted_iff]
  have hconnections := connections_switchServer qt P.toWireguardUtils current.m_config config d
  refine forall_congr' fun x => ?_
  have hneeded : needed qt (switchServer qt P.toWireguardUtils current.m_config config d).2 x =
      if (switchServer qt P.toWireguardUtils current.m_config config d).1 then
        needed qt d x + (exclusions qt config).count x -
          (exclusions qt current.m_config).count x
      else needed qt d x := by
    split_ifs at hconnections ⊢
    · have hregister := needed_register qt config d x
      rw [hcurrent] at hregister
      rw [needed_congr qt hconnections, ← hregister]
      exact (Nat.add_sub_cancel _ _).symm
    · exact needed_congr qt hconnections x
  rw [count_switchServer, h x, hneeded]

end Switching

section Deactivation

variable (emitSignals : Bool) (d : Daemon σ)

theorem sameBooks_lookForInterface : Keeps SameBooks (lookForInterface P emitSignals) := by
  apply ((platformKeeps_sameBooks P).lookForInterface _).keeps
  intro d
  dsimp only
  split_ifs <;> exact ⟨rfl, rfl⟩

@[simp] theorem tearDown_fst : (tearDown P emitSignals d).1 = (lookForInterface P emitSignals d).1 := by
  simp [tearDown, clearExclusions]

theorem sameBooks_tearDown (h : (tearDown P emitSignals d).1 = false) :
    SameBooks d (tearDown P emitSignals d).2 := by
  rw [tearDown_fst] at h
  have hdown : tearDown P emitSignals d = (false, (lookForInterface P emitSignals d).2) := by
    simp [tearDown, andThen, h]
  rw [hdown]
  exact sameBooks_lookForInterface P emitSignals d

theorem books_tearDown (h : (tearDown P emitSignals d).1 = true) :
    (tearDown P emitSignals d).2.m_excludedAddrSet = [] ∧
      (tearDown P emitSignals d).2.m_connections = d.m_connections := by
  rw [tearDown_fst] at h
  have hdelete : Keeps SameConnections (Op.andThen (fun d =>
      Op.each (deleteConnection P) d.connections d) (clearExclusions P)) :=
    (platformKeeps_of_onPlatform sameConnections_onPlatform).deleteAll
      (fun _ => sameConnections_onPlatform _) fun _ _ => rfl
  rw [tearDown, andThen_assoc, andThen_of_true h]
  refine ⟨?_, (hdelete _).trans (sameBooks_lookForInterface P emitSignals d).2⟩
  simp [clearExclusions, andThen]

def BalancedDown : Prop :=
  (tearDown P emitSignals d).1 = true →
    (deactivate P emitSignals d).1 = true ∨ ∀ x, needed qt d x = 0

variable {d}

theorem counted_deactivate_iff (h : Counted qt d) :
    Counted qt (deactivate P emitSignals d).2 ↔ BalancedDown qt P emitSignals d := by
  unfold BalancedDown
  rw [deactivate_eq]
  cases htear : (tearDown P emitSignals d).1 with
  | false =>
    have hboth : ((tearDown P emitSignals).andThen (onPlatform P.deleteInterface) d).1 = false := by
      rw [andThen_fst, htear, Bool.false_and]
    rw [andThen_of_false hboth, andThen_of_false htear]
    refine iff_of_true ?_ fun hfalse => absurd hfalse Bool.false_ne_true
    exact ((sameBooks_tearDown P emitSignals d htear).counted_iff qt).mpr h
  | true =>
    obtain ⟨hset, hconnections⟩ := books_tearDown P emitSignals d htear
    cases hdelete : (P.deleteInterface (tearDown P emitSignals d).2.platform).1 with
    | false =>
      have hboth : ((tearDown P emitSignals).andThen (onPlatform P.deleteInterface) d).1 = false := by
        rw [andThen_of_true htear]
        exact hdelete
      rw [andThen_of_false hboth, andThen_of_true htear]
      have hcounted : Counted qt (onPlatform P.deleteInterface (tearDown P emitSignals d).2).2 ↔
          ∀ x, 0 = needed qt d x := by
        refine forall_congr' fun x => ?_
        change (tearDown P emitSignals d).2.m_excludedAddrSet.count x =
          needed qt (tearDown P emitSignals d).2 x ↔ _
        rw [hset, needed_congr qt hconnections]
        rfl
      rw [hcounted]
      refine ⟨fun hzero _ => Or.inr fun x => (hzero x).symm, fun hbalanced => ?_⟩
      rcases hbalanced rfl with hfalse | hzero
      · exact absurd hfalse Bool.false_ne_true
      · exact fun x => (hzero x).symm
    | true =>
      have hboth : ((tearDown P emitSignals).andThen (onPlatform P.deleteInterface) d).1 = true := by
        rw [andThen_of_true htear]
        exact hdelete
      rw [andThen_of_true hboth, andThen_of_true htear]
      refine iff_of_true (fun x => ?_) fun _ => Or.inl rfl
      change (tearDown P emitSignals d).2.m_excludedAddrSet.count x = _
      rw [hset]
      rfl

end Deactivation

end AmneziaVpn.Daemon
