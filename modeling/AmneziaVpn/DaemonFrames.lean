import AmneziaVpn.Daemon

/-!
# What the daemon keeps of its platform

A relation between states of the daemon that every operation of the platform keeps is kept by the
functions of the daemon.
-/

namespace AmneziaVpn.Daemon

open FallibleOps FallibleOps.Op

variable {σ : Type}

/-- A relation between platform states as one between states of the daemon. -/
def OnPlatform (R : σ → σ → Prop) (d d' : Daemon σ) : Prop := R d.platform d'.platform

instance {R : σ → σ → Prop} [IsPreorder σ R] : IsPreorder (Daemon σ) (OnPlatform R) where
  refl d := refl_of R d.platform
  trans _ _ _ h h' := trans_of R h h'

variable {R : σ → σ → Prop}

theorem keeps_onPlatform {a : Op σ} (h : Keeps R a) : Keeps (OnPlatform R) (onPlatform a) :=
  fun d => h d.platform

theorem keepsOnSuccess_onPlatform {a : Op σ} (h : KeepsOnSuccess R a) :
    KeepsWhen (· = true) (OnPlatform R) (onPlatform a) := fun d => h d.platform

@[simp] theorem failureGuard_fst (a : Op (Daemon σ)) (d : Daemon σ) :
    (failureGuard a d).1 = (a d).1 := by
  unfold failureGuard
  split_ifs with h
  · rfl
  · simpa using h

theorem failureGuard_of_true {a : Op (Daemon σ)} {d : Daemon σ} (h : (a d).1 = true) :
    failureGuard a d = a d := if_pos h

theorem updatePeer_of_switchServer {qt : QtParser} {U : WireguardUtils σ}
    {lastConfig config : InterfaceConfig} {d : Daemon σ}
    (h : (switchServer qt U lastConfig config d).1 = true) :
    (U.updatePeer config (Op.each (addExclusionRoute U) (exclusions qt config) d).2.platform).1 =
      true := by
  simp only [switchServer, andThen_fst, Bool.and_eq_true, each_fst, true_and] at h
  exact h.1.1.1.1.1

variable (qt : QtParser) (U : WireguardUtils σ) (lastConfig config : InterfaceConfig)

/-- The part of `switchServer` before the allowed ranges that are gone are deleted. -/
def switchPeer : Op (Daemon σ) :=
  Op.each (addExclusionRoute U) (exclusions qt config)
  |>.andThen (onPlatform (U.updatePeer config))
  |>.andThen (Op.allOf (fun ip => onPlatform (U.updateRoutePrefix ip))
      config.m_allowedIPAddressRanges).ignore
  |>.andThen (Op.each (delExclusionRoute U) (switchedExclusions qt lastConfig))

/-- The part of `switchServer` before the connection is registered. -/
def switchSteps : Op (Daemon σ) :=
  (switchPeer qt U lastConfig config)
  |>.andThen (Op.each (fun ip => onPlatform (U.deleteRoutePrefix ip)) (goneRanges lastConfig config))
  |>.andThen (deleteOldPeer U lastConfig config)

theorem switchServer_eq :
    switchServer qt U lastConfig config =
      (switchSteps qt U lastConfig config).andThen fun d => (true, d.register config) := rfl

theorem platform_each_onPlatform {α : Type} (f : α → Op σ) (xs : List α) (d : Daemon σ) :
    (Op.each (fun x => onPlatform (f x)) xs d).2.platform = (Op.each f xs d.platform).2 := by
  induction xs generalizing d with
  | nil => rfl
  | cons x xs ih => exact ih _

variable (P : DaemonPlatform σ) (emitSignals : Bool)

def lookForInterface : Op (Daemon σ) :=
  (runDown P)
  |>.andThen (fun d => (true, if emitSignals then d.emit .disconnected else d))
  |>.andThen (onPlatform P.restoreResolvers)
  |>.andThen (fun d => (P.interfaceExists d.platform, d))

def tearDown : Op (Daemon σ) :=
  (lookForInterface P emitSignals)
  |>.andThen (fun d => Op.each (deleteConnection P) d.connections d)
  |>.andThen (clearExclusions P)

theorem deactivate_eq :
    deactivate P emitSignals = ((tearDown P emitSignals).andThen
      (onPlatform P.deleteInterface)).andThen
        fun d => (true, { d with m_connections := fun _ => none }) := rfl

/-- The state after the deactivation that an activation may begin with. -/
def prepared (config : InterfaceConfig) (d : Daemon σ) : Daemon σ :=
  match d.m_connections config.m_hopType with
  | none => d
  | some current =>
      if supportServerSwitching current.m_config config then d else (deactivate P false d).2

def Switched (config : InterfaceConfig) (d : Daemon σ) : Prop :=
  ∃ current, d.m_connections config.m_hopType = some current ∧
    supportServerSwitching current.m_config config = true ∧
    (switchTo qt P current.m_config config d).1 = true ∧
    activate qt P config d = switchTo qt P current.m_config config d

def BroughtUp (config : InterfaceConfig) (d : Daemon σ) : Prop :=
  (∀ current, d.m_connections config.m_hopType = some current →
    supportServerSwitching current.m_config config = false ∧ (deactivate P false d).1 = true) ∧
  (bringUp qt P config (prepared P config d)).1 = true ∧
  activate qt P config d = bringUp qt P config (prepared P config d)

theorem activate_cases {qt : QtParser} {P : DaemonPlatform σ} {config : InterfaceConfig}
    {d : Daemon σ} (htrue : (activate qt P config d).1 = true) :
    Switched qt P config d ∨ BroughtUp qt P config d := by
  unfold Switched BroughtUp
  unfold activate at htrue ⊢
  rw [failureGuard_fst] at htrue
  rw [failureGuard_of_true htrue]
  unfold prepared
  cases hcurrent : d.m_connections config.m_hopType with
  | none =>
    simp only [hcurrent] at htrue ⊢
    exact Or.inr ⟨by simp, htrue, trivial⟩
  | some current =>
    simp only [hcurrent] at htrue ⊢
    by_cases hswitch : supportServerSwitching current.m_config config = true
    · simp only [hswitch, if_true] at htrue ⊢
      exact Or.inl ⟨current, rfl, hswitch, htrue, rfl⟩
    · rw [if_neg hswitch] at htrue
      rw [andThen_fst, failureGuard_fst, Bool.and_eq_true] at htrue
      obtain ⟨hdown, hup⟩ := htrue
      rw [if_neg hswitch, if_neg hswitch, andThen_of_true hdown, failureGuard_of_true hup]
      refine Or.inr ⟨fun state hstate => ?_, hup, rfl⟩
      cases hstate
      exact ⟨by simpa using hswitch, hdown⟩

theorem register_connections (d : Daemon σ) :
    (d.register config).m_connections =
      Function.update d.m_connections config.m_hopType (some ⟨config, none⟩) := rfl

def SameConnections (d d' : Daemon σ) : Prop := d'.m_connections = d.m_connections

instance : IsPreorder (Daemon σ) SameConnections where
  refl _ := rfl
  trans _ _ _ h h' := Eq.trans h' h

theorem sameConnections_onPlatform (a : Op σ) : Keeps SameConnections (onPlatform a) := fun _ => rfl

def peerSteps (config : InterfaceConfig) : Op (Daemon σ) :=
  (onPlatform (P.updatePeer config))
  |>.andThen (maybeUpdateResolvers qt P config)
  |>.andThen (onPlatform (P.addInterfaceIPs config))
  |>.andThen (onPlatform (P.setMTUAndUp config))
  |>.andThen (Op.allOf (fun ip => onPlatform (P.updateRoutePrefix ip))
      config.m_allowedIPAddressRanges)
  |>.andThen (onPlatform (P.run .Up config))

theorem bringUpPeer_eq (config : InterfaceConfig) :
    bringUpPeer qt P config =
      (Op.each (addExclusionRoute P.toWireguardUtils) (exclusions qt config)).andThen
        ((peerSteps qt P config).andThen (established config)) := by
  simp [bringUpPeer, peerSteps, andThen_assoc]

def bringUpSteps (config : InterfaceConfig) : Op (Daemon σ) :=
  (ensureInterface P config).andThen
    ((Op.each (addExclusionRoute P.toWireguardUtils) (exclusions qt config)).andThen
      (peerSteps qt P config))

theorem bringUp_eq (config : InterfaceConfig) :
    bringUp qt P config = (bringUpSteps qt P config).andThen (established config) := by
  simp [bringUp, bringUpPeer_eq, bringUpSteps, andThen_assoc]

theorem activate_of_none {qt : QtParser} {P : DaemonPlatform σ} {config : InterfaceConfig}
    {d : Daemon σ} (h : d.m_connections config.m_hopType = none) :
    activate qt P config d = failureGuard (bringUp qt P config) d := by
  simp [activate, h]

theorem platform_deactivate {P : DaemonPlatform σ} {emitSignals : Bool} {d : Daemon σ}
    (htrue : (deactivate P emitSignals d).1 = true) :
    (tearDown P emitSignals d).1 = true ∧
      (P.deleteInterface (tearDown P emitSignals d).2.platform).1 = true ∧
      (deactivate P emitSignals d).2.platform =
        (P.deleteInterface (tearDown P emitSignals d).2.platform).2 ∧
      (deactivate P emitSignals d).2.m_connections = fun _ => none := by
  rw [deactivate_eq, andThen_fst, andThen_fst, Bool.and_eq_true, Bool.and_eq_true] at htrue
  obtain ⟨⟨hdown, hdelete⟩, -⟩ := htrue
  have hboth : ((tearDown P emitSignals).andThen (onPlatform P.deleteInterface) d).1 = true := by
    rw [andThen_fst, hdown, hdelete, Bool.and_self]
  rw [deactivate_eq, andThen_of_true hboth, andThen_of_true hdown]
  exact ⟨hdown, hdelete, rfl, rfl⟩

section Relations

variable {w : Bool → Prop} {R : Daemon σ → Daemon σ → Prop} {U : WireguardUtils σ}
  {P : DaemonPlatform σ}

/-- Every operation keeps the relation, the first two if what they report is one of `w`. -/
structure UtilsKeep (w : Bool → Prop) (R : Daemon σ → Daemon σ → Prop) (U : WireguardUtils σ) :
    Prop where
  success : w true
  updatePeer : ∀ config, KeepsWhen w R (onPlatform (U.updatePeer config))
  deletePeer : ∀ config, KeepsWhen w R (onPlatform (U.deletePeer config))
  updateRoutePrefix : ∀ range, Keeps R (onPlatform (U.updateRoutePrefix range))
  deleteRoutePrefix : ∀ range, Keeps R (onPlatform (U.deleteRoutePrefix range))
  addExclusionRoute : ∀ range, Keeps R (onPlatform (U.addExclusionRoute range))
  deleteExclusionRoute : ∀ range, Keeps R (onPlatform (U.deleteExclusionRoute range))

/-- So does every other operation but those that create and delete the interface. -/
structure PlatformKeeps (w : Bool → Prop) (R : Daemon σ → Daemon σ → Prop) (P : DaemonPlatform σ) :
    Prop extends UtilsKeep w R P.toWireguardUtils where
  updateResolvers : ∀ resolvers, KeepsWhen w R (onPlatform (P.updateResolvers resolvers))
  restoreResolvers : KeepsWhen w R (onPlatform P.restoreResolvers)
  addInterfaceIPs : ∀ config, KeepsWhen w R (onPlatform (P.addInterfaceIPs config))
  setMTUAndUp : ∀ config, KeepsWhen w R (onPlatform (P.setMTUAndUp config))
  run : ∀ op config, KeepsWhen w R (onPlatform (P.run op config))

theorem utilsKeep_of_onPlatform (h : ∀ a : Op σ, Keeps R (onPlatform a)) :
    UtilsKeep (fun _ => True) R U where
  success := trivial
  updatePeer _ := (h _).when
  deletePeer _ := (h _).when
  updateRoutePrefix _ := h _
  deleteRoutePrefix _ := h _
  addExclusionRoute _ := h _
  deleteExclusionRoute _ := h _

theorem platformKeeps_of_onPlatform (h : ∀ a : Op σ, Keeps R (onPlatform a)) :
    PlatformKeeps (fun _ => True) R P where
  toUtilsKeep := utilsKeep_of_onPlatform h
  updateResolvers _ := (h _).when
  restoreResolvers := (h _).when
  addInterfaceIPs _ := (h _).when
  setMTUAndUp _ := (h _).when
  run _ _ := (h _).when

/-- The relation is not about the counts. -/
def IgnoresCounts (R : Daemon σ → Daemon σ → Prop) : Prop :=
  ∀ d set, R d { d with m_excludedAddrSet := set }

/-- The relation is about nothing but the platform. -/
def IgnoresRecords (R : Daemon σ → Daemon σ → Prop) : Prop :=
  ∀ d d', d'.platform = d.platform → R d d'

theorem IgnoresRecords.counts (h : IgnoresRecords R) : IgnoresCounts R := fun _ _ => h _ _ rfl

variable [IsPreorder (Daemon σ) R] (qt : QtParser)

namespace UtilsKeep

variable (h : UtilsKeep w R U)

include h

theorem each_addExclusionRoute (hcounts : IgnoresCounts R) (ranges : List IPAddress) :
    Keeps R (Op.each (Daemon.addExclusionRoute U) ranges) := by
  apply Keeps.each
  intro range d
  unfold Daemon.addExclusionRoute
  split_ifs
  · exact hcounts d _
  · dsimp only
    split_ifs
    · exact trans_of R (h.addExclusionRoute range d) (hcounts _ _)
    · exact h.addExclusionRoute range d

theorem each_delExclusionRoute (hcounts : IgnoresCounts R) (ranges : List IPAddress) :
    Keeps R (Op.each (Daemon.delExclusionRoute U) ranges) := by
  apply Keeps.each
  intro range d
  unfold Daemon.delExclusionRoute
  dsimp only
  split_ifs
  · exact hcounts d _
  · exact trans_of R (hcounts d _) (h.deleteExclusionRoute range _)

theorem deleteOldPeer (lastConfig config : InterfaceConfig) :
    KeepsWhen w R (deleteOldPeer U lastConfig config) := by
  intro d hd
  unfold Daemon.deleteOldPeer at hd ⊢
  split_ifs at hd ⊢
  · exact h.deletePeer lastConfig d hd
  · exact refl_of R d

theorem switchPeer (hcounts : IgnoresCounts R) (lastConfig config : InterfaceConfig) :
    KeepsWhen w R (switchPeer qt U lastConfig config) := by
  have hadd := h.each_addExclusionRoute hcounts (exclusions qt config)
  have hupdate := Keeps.allOf h.updateRoutePrefix config.m_allowedIPAddressRanges
  have hdel := h.each_delExclusionRoute hcounts (switchedExclusions qt lastConfig)
  exact hadd.when.andThen h.success (h.updatePeer config)
    |>.andThen h.success hupdate.ignore.when |>.andThen h.success hdel.when

theorem switchSteps (hcounts : IgnoresCounts R) (lastConfig config : InterfaceConfig) :
    KeepsWhen w R (switchSteps qt U lastConfig config) := by
  have hgone := Keeps.each h.deleteRoutePrefix (goneRanges lastConfig config)
  exact (h.switchPeer qt hcounts lastConfig config).andThen h.success hgone.when
    |>.andThen h.success (h.deleteOldPeer lastConfig config)

end UtilsKeep

theorem keepsWhen_ensureInterface {config : InterfaceConfig}
    (hadd : KeepsWhen w R (onPlatform (P.addInterface config))) :
    KeepsWhen w R (ensureInterface P config) := by
  intro d hd
  unfold ensureInterface at hd ⊢
  split_ifs at hd ⊢
  · exact refl_of R d
  · exact hadd d hd

namespace PlatformKeeps

variable (h : PlatformKeeps w R P)

include h

theorem maybeUpdateResolvers (config : InterfaceConfig) :
    KeepsWhen w R (maybeUpdateResolvers qt P config) := by
  intro d hd
  unfold Daemon.maybeUpdateResolvers at hd ⊢
  by_cases hhop : config.m_hopType = .MultiHopExit ∨ config.m_hopType = .SingleHop
  · rw [if_pos hhop] at hd ⊢
    exact h.updateResolvers _ d hd
  · rw [if_neg hhop]
    exact refl_of R d

theorem peerSteps (config : InterfaceConfig) : KeepsWhen w R (peerSteps qt P config) := by
  have hroutes := Keeps.allOf h.updateRoutePrefix config.m_allowedIPAddressRanges
  exact (h.updatePeer config).andThen h.success (h.maybeUpdateResolvers qt config)
    |>.andThen h.success (h.addInterfaceIPs config) |>.andThen h.success (h.setMTUAndUp config)
    |>.andThen h.success hroutes.when |>.andThen h.success (h.run .Up config)

theorem bringUpSteps {config : InterfaceConfig}
    (hadd : KeepsWhen w R (onPlatform (P.addInterface config))) (hcounts : IgnoresCounts R) :
    KeepsWhen w R (bringUpSteps qt P config) :=
  (keepsWhen_ensureInterface hadd).andThen h.success
    ((h.each_addExclusionRoute hcounts (exclusions qt config)).when.andThen h.success
      (h.peerSteps qt config))

theorem runDown : KeepsWhen w R (runDown P) := by
  intro d hd
  unfold Daemon.runDown at hd ⊢
  cases hconnections : d.connections with
  | nil => exact refl_of R d
  | cons state rest =>
    rw [hconnections] at hd
    exact h.run .Down state.m_config d hd

theorem lookForInterface {emitSignals : Bool}
    (hemit : Keeps R fun d => (true, if emitSignals then d.emit .disconnected else d)) :
    KeepsWhen w R (lookForInterface P emitSignals) := by
  have hexists : Keeps R fun d : Daemon σ => (P.interfaceExists d.platform, d) := fun d => refl_of R d
  exact h.runDown.andThen h.success hemit.when |>.andThen h.success h.restoreResolvers
    |>.andThen h.success hexists.when

/-- What a deactivation does to the connections and to the counted addresses. -/
theorem deleteAll (hdelete : ∀ config, Keeps R (onPlatform (P.deletePeer config)))
    (hcounts : IgnoresCounts R) :
    Keeps R (Op.andThen (fun d => Op.each (deleteConnection P) d.connections d)
      (clearExclusions P)) := by
  have hconnection (state : ConnectionState) : Keeps R (deleteConnection P state) :=
    (Keeps.each h.deleteRoutePrefix _).andThen (hdelete state.m_config).ignore
  have hclear : Keeps R (clearExclusions P) := fun d =>
    trans_of R (Keeps.each h.deleteExclusionRoute d.m_excludedAddrSet.dedup d) (hcounts _ _)
  exact Keeps.andThen (fun d => Keeps.each hconnection d.connections d) hclear

theorem tearDown (hdelete : ∀ config, Keeps R (onPlatform (P.deletePeer config)))
    (hcounts : IgnoresCounts R) {emitSignals : Bool}
    (hemit : Keeps R fun d => (true, if emitSignals then d.emit .disconnected else d)) :
    KeepsWhen w R (tearDown P emitSignals) := by
  rw [Daemon.tearDown, andThen_assoc]
  exact (h.lookForInterface hemit).andThen h.success (h.deleteAll hdelete hcounts).when

variable (hrecords : IgnoresRecords R)

include hrecords

theorem bringUpPeer (config : InterfaceConfig) : KeepsWhen w R (bringUpPeer qt P config) := by
  have hestablished : Keeps R (established config) := fun _ => hrecords _ _ rfl
  rw [bringUpPeer_eq]
  exact (h.each_addExclusionRoute hrecords.counts _).when.andThen h.success
    ((h.peerSteps qt config).andThen h.success hestablished.when)

theorem switchTo (lastConfig config : InterfaceConfig) :
    KeepsWhen w R (switchTo qt P lastConfig config) := by
  have hregister : Keeps R fun d : Daemon σ => (true, d.register config) :=
    fun _ => hrecords _ _ rfl
  have hestablished : Keeps R (established config) := fun _ => hrecords _ _ rfl
  exact (h.switchSteps qt hrecords.counts lastConfig config).andThen h.success hregister.when
    |>.andThen h.success h.restoreResolvers |>.andThen h.success (h.maybeUpdateResolvers qt config)
    |>.andThen h.success (h.run .Switch config) |>.andThen h.success hestablished.when

end PlatformKeeps

theorem PlatformKeeps.deactivate (h : PlatformKeeps (fun _ => True) R P)
    (hdelete : Keeps R (onPlatform P.deleteInterface)) (hcounts : IgnoresCounts R)
    {emitSignals : Bool}
    (hemit : Keeps R fun d => (true, if emitSignals then d.emit .disconnected else d))
    (hforget : Keeps R fun d => (true, { d with m_connections := fun _ => none })) :
    Keeps R (deactivate P emitSignals) := by
  rw [deactivate_eq]
  exact (h.tearDown (fun config => (h.deletePeer config).keeps) hcounts hemit).keeps.andThen hdelete
    |>.andThen hforget

theorem PlatformKeeps.activate (h : PlatformKeeps (fun _ => True) R P) (hrecords : IgnoresRecords R)
    (hadd : ∀ config, Keeps R (onPlatform (P.addInterface config)))
    (hdelete : Keeps R (onPlatform P.deleteInterface)) (config : InterfaceConfig) :
    Keeps R (activate qt P config) := by
  have hguard {a : Op (Daemon σ)} (ha : Keeps R a) : Keeps R (failureGuard a) := by
    intro d
    unfold failureGuard
    split_ifs
    · exact ha d
    · exact trans_of R (ha d) (hrecords _ ((a d).2.emit .activationFailure) rfl)
  have hup : Keeps R (bringUp qt P config) := (keepsWhen_ensureInterface (hadd config).when).keeps
    |>.andThen (h.bringUpPeer qt hrecords config).keeps
  intro d
  unfold Daemon.activate
  apply hguard
  cases d.m_connections config.m_hopType with
  | none => exact hup
  | some current =>
    dsimp only
    split_ifs
    · exact (h.switchTo qt hrecords current.m_config config).keeps
    · exact (h.deactivate hdelete hrecords.counts (fun _ => hrecords _ _ rfl)
        fun _ => hrecords _ _ rfl).andThen (hguard hup)

end Relations

/-- The connection is registered if all goes well before, and the others stay. -/
theorem connections_register {config : InterfaceConfig} {front back : Op (Daemon σ)}
    (hfront : Keeps SameConnections front) (hback : ∀ d, (back d).1 = true ∧
      (back d).2.m_connections = (d.register config).m_connections) (d : Daemon σ) :
    (front.andThen back d).2.m_connections =
      if (front.andThen back d).1 then (d.register config).m_connections else d.m_connections := by
  cases htrue : (front d).1 with
  | false =>
    rw [andThen_of_false htrue]
    exact hfront d
  | true =>
    rw [andThen_of_true htrue, (hback _).1, (hback _).2, if_pos rfl, register_connections,
      register_connections, hfront d]

theorem connections_bringUp (config : InterfaceConfig) (d : Daemon σ) :
    (bringUp qt P config d).2.m_connections =
      if (bringUp qt P config d).1 then (d.register config).m_connections
      else d.m_connections := by
  have hfront : KeepsWhen (fun _ => True) SameConnections (bringUpSteps qt P config) :=
    (platformKeeps_of_onPlatform sameConnections_onPlatform).bringUpSteps qt
      (sameConnections_onPlatform _).when fun _ _ => rfl
  rw [bringUp_eq]
  exact connections_register hfront.keeps (fun _ => ⟨rfl, rfl⟩) d

theorem connections_switchServer (d : Daemon σ) :
    (switchServer qt U lastConfig config d).2.m_connections =
      if (switchServer qt U lastConfig config d).1 then (d.register config).m_connections
      else d.m_connections := by
  have hfront := (utilsKeep_of_onPlatform sameConnections_onPlatform).switchSteps qt (U := U)
    (fun _ _ => rfl) lastConfig config
  exact connections_register hfront.keeps (fun _ => ⟨rfl, rfl⟩) d

theorem ignoresRecords_onPlatform [IsPreorder σ R] : IgnoresRecords (OnPlatform R) := by
  intro d d' heq
  rw [OnPlatform, heq]
  exact refl_of R d.platform

/-- Every operation of the platform keeps the relation, at least when it succeeds. -/
abbrev KeptByPlatform (R : σ → σ → Prop) (P : DaemonPlatform σ) : Prop :=
  PlatformKeeps (· = true) (OnPlatform R) P

theorem KeptByPlatform.tearDown [IsPreorder σ R] {P : DaemonPlatform σ} (h : KeptByPlatform R P)
    (hdelete : ∀ config, Keeps R (P.deletePeer config)) (emitSignals : Bool) :
    KeepsOnSuccess (OnPlatform R) (tearDown P emitSignals) := by
  apply PlatformKeeps.tearDown h (fun config => keeps_onPlatform (hdelete config))
    ignoresRecords_onPlatform.counts
  intro d
  dsimp only
  split_ifs <;> exact refl_of R d.platform

end AmneziaVpn.Daemon
