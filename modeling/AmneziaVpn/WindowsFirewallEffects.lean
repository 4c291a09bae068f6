import AmneziaVpn.WindowsFirewall

/-!
# What a successful operation puts in force

Inside a transaction an operation that succeeds adds its filters to those of the transaction.
-/

namespace AmneziaVpn.WindowsFirewall

open List

variable {sys : Platform} {a b : Op} {fs gs : List Filter} {s t : State}

theorem call_eq_true {f : Engine → Option Engine} (h : call sys f s = (true, t)) :
    ∃ e, f s.engine = some e ∧ t = { s with engine := e, calls := s.calls + 1 } := by
  unfold call at h
  split at h
  · rename_i e _ he
    exact ⟨e, he, (congrArg Prod.snd h).symm⟩
  · cases h

theorem andThen_eq_true (h : a.andThen b s = (true, t)) :
    ∃ u, a s = (true, u) ∧ b u = (true, t) := by
  unfold Op.andThen at h
  split at h
  · rename_i u hu
    exact ⟨u, hu, h⟩
  · cases h

/-- A property of operations that a sequence has when its parts have it. -/
structure Composes (P : Op → Prop) : Prop where
  nil : P (Op.allOf [])
  andThen : ∀ a b, P a → P b → P (a.andThen b)

def killSwitchRules (sys : Platform) (vpnAdapterIndex : Int32) : List Op :=
  [allowTrafficOfAdapter sys vpnAdapterIndex MED_WEIGHT, allowDHCPTraffic sys MED_WEIGHT,
    allowHyperVTraffic sys MED_WEIGHT,
    allowTrafficForAppOnAll sys sys.getCurrentPath MAX_WEIGHT, blockTrafficOnPort sys 53 MED_WEIGHT,
    allowLoopbackTraffic sys MED_WEIGHT]

theorem enableKillSwitch_eq (sys : Platform) (vpnAdapterIndex : Int32) :
    enableKillSwitch sys vpnAdapterIndex =
      Op.allOf ((killSwitchRules sys vpnAdapterIndex).map (FW_OK sys)) := rfl

section Composes

variable {P : Op → Prop}

theorem Composes.allOf (hP : Composes P) {l : List Op} (h : ∀ a ∈ l, P a) : P (Op.allOf l) := by
  induction l with
  | nil => exact hP.nil
  | cons a l ih =>
    obtain ⟨ha, hl⟩ := forall_mem_cons.mp h
    exact hP.andThen a _ ha (ih hl)

theorem Composes.allOf_map (hP : Composes P) {ι : Type*} (l : List ι) {op : ι → Op}
    (h : ∀ i, P (op i)) : P (Op.allOf (l.map op)) := by
  apply hP.allOf
  intro a ha
  obtain ⟨i, -, rfl⟩ := mem_map.mp ha
  exact h i

variable (hP : Composes P) (hfilter : ∀ filter peer, P (enableFilter sys filter peer))

include hP hfilter

theorem Composes.enableFilters (filters : List Filter) (peer : String) :
    P (enableFilters sys filters peer) :=
  hP.allOf_map filters fun filter => hfilter filter peer

theorem Composes.killSwitchRules
    (hunknown : sys.appIdFromFileName sys.getCurrentPath = none → P fun s => (false, s))
    (vpnAdapterIndex : Int32) : ∀ rule ∈ killSwitchRules sys vpnAdapterIndex, P rule := by
  have hfilters (filters : List Filter) := hP.enableFilters hfilter filters ""
  have happ : P (allowTrafficForAppOnAll sys sys.getCurrentPath MAX_WEIGHT) := by
    unfold allowTrafficForAppOnAll
    split
    · exact hunknown ‹_›
    · exact hfilters _
  simp only [WindowsFirewall.killSwitchRules, forall_mem_cons, not_mem_nil, false_implies,
    implies_true, and_true]
  exact ⟨hfilters _, hfilters _, hfilters _, happ, hfilters _, hP.allOf_map _ fun _ => hfilters _⟩

theorem Composes.peerRules (config : InterfaceConfig) : P (peerRules sys config) := by
  have hfilters (filters : List Filter) := hP.enableFilters hfilter filters config.m_serverPublicKey
  exact hP.andThen _ _ (hP.allOf_map _ fun _ => hfilters _)
    (hP.andThen _ _ (hP.allOf_map _ fun _ => hfilters _) (hP.allOf_map _ fun _ => hfilters _))

end Composes

/-- In an open transaction, success means that the filters were appended. -/
def Adds (a : Op) (fs : List Filter) : Prop :=
  ∀ s t, a s = (true, t) → ∀ ps, s.engine.pending = some ps →
    ∃ qs, qs.map Prod.snd = fs ∧ t.engine.pending = some (ps ++ qs)

theorem adds_enableFilter (filter : Filter) (peer : String) :
    Adds (enableFilter sys filter peer) [filter] := by
  intro s t h ps hps
  unfold enableFilter at h
  split at h
  · cases h
  · rename_i u hu
    obtain ⟨e, he, rfl⟩ := call_eq_true hu
    cases he
    have hadd : (s.engine.add filter).pending = some (ps ++ [(s.engine.nextId, filter)]) := by
      simp [Engine.add, Engine.edit, hps]
    refine ⟨[(s.engine.nextId, filter)], rfl, ?_⟩
    split_ifs at h <;> cases h <;> exact hadd

theorem Adds.andThen (ha : Adds a fs) (hb : Adds b gs) : Adds (a.andThen b) (fs ++ gs) := by
  intro s t h ps hps
  obtain ⟨u, hau, hbu⟩ := andThen_eq_true h
  obtain ⟨qs, hqs, hu⟩ := ha s u hau ps hps
  obtain ⟨rs, hrs, ht⟩ := hb u t hbu _ hu
  exact ⟨qs ++ rs, by rw [map_append, hqs, hrs], by rw [ht, append_assoc]⟩

theorem adds_allOf {ι : Type*} (l : List ι) (op : ι → Op) (filters : ι → List Filter)
    (h : ∀ i, Adds (op i) (filters i)) : Adds (Op.allOf (l.map op)) (l.flatMap filters) := by
  induction l with
  | nil =>
    intro s t hs ps hps
    cases hs
    exact ⟨[], rfl, by rw [hps, append_nil]⟩
  | cons i l ih => exact (h i).andThen ih

theorem adds_enableFilters (filters : List Filter) (peer : String) :
    Adds (enableFilters sys filters peer) filters := by
  have h := adds_allOf filters (fun filter => enableFilter sys filter peer) (fun filter => [filter])
    (fun filter => adds_enableFilter filter peer)
  rwa [flatMap_singleton'] at h

/-- Success means that the filters are in force behind those that were before. -/
def Installs (a : Op) (fs : List Filter) : Prop :=
  ∀ s t, a s = (true, t) → t.inForce = s.inForce ++ fs

theorem Installs.andThen (ha : Installs a fs) (hb : Installs b gs) :
    Installs (a.andThen b) (fs ++ gs) := by
  intro s t h
  obtain ⟨u, hau, hbu⟩ := andThen_eq_true h
  rw [hb u t hbu, ha s u hau, append_assoc]

theorem installs_nil : Installs (Op.allOf []) [] := by
  intro s t h
  cases h
  rw [append_nil]

/-- A transaction that is begun, filled and committed installs what was added in it. -/
theorem Adds.commit (ha : Adds a fs) {u v : State}
    (hbegin : FwpmTransactionBegin sys s = (true, u)) (hrun : a u = (true, v))
    (hcommit : FwpmTransactionCommit0 sys v = (true, t)) : t.inForce = s.inForce ++ fs := by
  obtain ⟨e, he, rfl⟩ := call_eq_true hbegin
  obtain ⟨e', he', rfl⟩ := call_eq_true hcommit
  have hpending : e.pending = some s.engine.filters := by
    unfold Engine.begin at he
    split at he <;> cases he
    rfl
  obtain ⟨qs, hqs, hv⟩ := ha _ v hrun _ hpending
  have hfilters : e'.filters = s.engine.filters ++ qs := by
    simp only [Engine.commit, hv, Option.some.injEq] at he'
    rw [← he']
  simp [State.inForce, hfilters, map_append, hqs]

theorem Adds.fw_ok (ha : Adds a fs) : Installs (FW_OK sys a) fs := by
  intro s t h
  unfold FW_OK at h
  split at h
  · cases h
  · rename_i u hu
    split at h
    · cases h
    · rename_i v hv
      exact ha.commit hu hv h

def appRule (sys : Platform) : List Filter :=
  match sys.appIdFromFileName sys.getCurrentPath with
  | none => []
  | some id => appFilters id MAX_WEIGHT

def loopbackRule (sys : Platform) : List Filter :=
  (sys.allInterfaces.filter (·.isLoopback)).flatMap fun iface =>
    adapterFilters iface.index MED_WEIGHT

def killSwitchFilters (sys : Platform) (vpnAdapterIndex : Int32) : List Filter :=
  adapterFilters vpnAdapterIndex MED_WEIGHT ++ (dhcpFilters MED_WEIGHT ++
    (hyperVFilters MED_WEIGHT ++ (appRule sys ++ (portFilters 53 MED_WEIGHT ++ loopbackRule sys))))

def peerFilters (sys : Platform) (config : InterfaceConfig) : List Filter :=
  config.m_allowedIPAddressRanges.flatMap (rangeFilters .block · LOW_WEIGHT) ++
    ((config.dnsServers sys.qt).flatMap (addressFilters · 53 HIGH_WEIGHT) ++
      config.m_excludedAddresses.flatMap fun i =>
        rangeFilters .permit (.ofString sys.qt i) HIGH_WEIGHT)

theorem adds_allowTrafficForAppOnAll :
    Adds (allowTrafficForAppOnAll sys sys.getCurrentPath MAX_WEIGHT) (appRule sys) := by
  unfold allowTrafficForAppOnAll appRule
  cases sys.appIdFromFileName sys.getCurrentPath with
  | none =>
    intro s t h
    cases h
  | some id => exact adds_enableFilters _ _

theorem enableKillSwitch_installs (vpnAdapterIndex : Int32) :
    Installs (enableKillSwitch sys vpnAdapterIndex) (killSwitchFilters sys vpnAdapterIndex) := by
  have hvpn : Installs (FW_OK sys (allowTrafficOfAdapter sys vpnAdapterIndex MED_WEIGHT)) _ :=
    (adds_enableFilters _ _).fw_ok
  have hdhcp : Installs (FW_OK sys (allowDHCPTraffic sys MED_WEIGHT)) _ :=
    (adds_enableFilters _ _).fw_ok
  have hyper : Installs (FW_OK sys (allowHyperVTraffic sys MED_WEIGHT)) _ :=
    (adds_enableFilters _ _).fw_ok
  have happ : Installs (FW_OK sys (allowTrafficForAppOnAll sys sys.getCurrentPath MAX_WEIGHT)) _ :=
    adds_allowTrafficForAppOnAll.fw_ok
  have hport : Installs (FW_OK sys (blockTrafficOnPort sys 53 MED_WEIGHT)) _ :=
    (adds_enableFilters _ _).fw_ok
  have hloop : Installs (FW_OK sys (allowLoopbackTraffic sys MED_WEIGHT)) (loopbackRule sys) :=
    (adds_allOf _ _ _ fun _ => adds_enableFilters _ _).fw_ok
  have hall := hvpn.andThen (hdhcp.andThen (hyper.andThen (happ.andThen (hport.andThen
    (hloop.andThen installs_nil)))))
  rw [append_nil] at hall
  exact hall

variable (config : InterfaceConfig)

theorem adds_peerRules : Adds (peerRules sys config) (peerFilters sys config) := by
  have hblock : Adds (blockTrafficToAll sys config.m_allowedIPAddressRanges LOW_WEIGHT
      config.m_serverPublicKey) _ := adds_allOf _ _ _ fun _ => adds_enableFilters _ _
  exact hblock.andThen ((adds_allOf _ _ _ fun _ => adds_enableFilters _ _).andThen
    (adds_allOf _ _ _ fun _ => adds_enableFilters _ _))

theorem enablePeerTraffic_installs :
    Installs (enablePeerTraffic sys config) (peerFilters sys config) := by
  intro s t h
  unfold enablePeerTraffic at h
  split at h
  · cases h
  · rename_i u hu
    split at h
    · cases h
    · rename_i v hv
      cases h
      obtain ⟨w, hw, hcommit⟩ := andThen_eq_true hv
      exact (adds_peerRules config).commit hu hw hcommit

section Success

variable (P : State → Prop)

/-- Success from every state with a property, which is kept. -/
def Runs (a : Op) : Prop := ∀ s, P s → (a s).1 = true ∧ P (a s).2

def State.InTransaction (s : State) : Prop := ∃ ps, s.engine.pending = some ps

def State.Idle (s : State) : Prop := s.engine.pending = none

theorem Runs.eq {P : State → Prop} (ha : Runs P a) (hs : P s) : a s = (true, (a s).2) :=
  Prod.ext (ha s hs).1 rfl

theorem Runs.andThen {P : State → Prop} (ha : Runs P a) (hb : Runs P b) :
    Runs P (a.andThen b) := by
  intro s hs
  obtain ⟨hok, hkeep⟩ := ha s hs
  have hstep : a.andThen b s = b (a s).2 := by
    unfold Op.andThen
    split
    · rename_i u hu
      rw [hu]
    · rename_i u hu
      rw [hu] at hok
      cases hok
  rw [hstep]
  exact hb _ hkeep

theorem runs_composes : Composes (Runs P) where
  nil _ hs := ⟨rfl, hs⟩
  andThen _ _ := Runs.andThen

theorem call_of_succeeds {f : Engine → Option Engine} {e : Engine}
    (hok : sys.succeeds s.calls = true) (he : f s.engine = some e) :
    call sys f s = (true, { s with engine := e, calls := s.calls + 1 }) := by
  simp [call, hok, he]

variable (hok : ∀ n, sys.succeeds n = true)

include hok

theorem runs_enableFilter (filter : Filter) (peer : String) :
    Runs State.InTransaction (enableFilter sys filter peer) := by
  rintro s ⟨ps, hps⟩
  have hadd : (s.engine.add filter).pending = some (ps ++ [(s.engine.nextId, filter)]) := by
    simp [Engine.add, Engine.edit, hps]
  have hcall := call_of_succeeds (f := fun e => some (e.add filter)) (hok s.calls) rfl
  unfold enableFilter
  rw [hcall]
  dsimp only
  split_ifs
  · exact ⟨rfl, _, hadd⟩
  · exact ⟨rfl, _, hadd⟩

theorem begin_of_idle (hs : s.Idle) :
    ∃ t, FwpmTransactionBegin sys s = (true, t) ∧ t.InTransaction := by
  have hbegin : s.engine.begin = some { s.engine with pending := some s.engine.filters } := by
    simp [Engine.begin, show s.engine.pending = none from hs]
  exact ⟨_, call_of_succeeds (hok s.calls) hbegin, _, rfl⟩

theorem commit_of_inTransaction (hs : s.InTransaction) :
    ∃ t, FwpmTransactionCommit0 sys s = (true, t) ∧ t.Idle := by
  obtain ⟨ps, hps⟩ := hs
  have hcommit : s.engine.commit = some { s.engine with filters := ps, pending := none } := by
    simp [Engine.commit, hps]
  exact ⟨_, call_of_succeeds (hok s.calls) hcommit, rfl⟩

theorem Runs.fw_ok (ha : Runs State.InTransaction a) : Runs State.Idle (FW_OK sys a) := by
  intro s hs
  obtain ⟨u, hu, hin⟩ := begin_of_idle hok hs
  obtain ⟨t, ht, hidle⟩ := commit_of_inTransaction hok (ha u hin).2
  have hall : FW_OK sys a s = (true, t) := by
    unfold FW_OK
    rw [hu]
    dsimp only
    rw [ha.eq hin]
    exact ht
  rw [hall]
  exact ⟨rfl, hidle⟩

/-- When the engine carries out every call and knows the executable, the kill switch comes on. -/
theorem enableKillSwitch_runs {id : AppId}
    (hid : sys.appIdFromFileName sys.getCurrentPath = some id) (vpnAdapterIndex : Int32) :
    Runs State.Idle (enableKillSwitch sys vpnAdapterIndex) := by
  have hrules := (runs_composes State.InTransaction).killSwitchRules (runs_enableFilter hok)
    (fun hunknown => absurd (hid.symm.trans hunknown) (by simp)) vpnAdapterIndex
  rw [enableKillSwitch_eq]
  apply (runs_composes State.Idle).allOf
  intro a ha
  obtain ⟨rule, hrule, rfl⟩ := mem_map.mp ha
  exact Runs.fw_ok hok (hrules rule hrule)

theorem enablePeerTraffic_runs (config : InterfaceConfig) :
    Runs State.Idle (enablePeerTraffic sys config) := by
  have hrules := (runs_composes State.InTransaction).peerRules (runs_enableFilter hok) config
  intro s hs
  obtain ⟨u, hu, hin⟩ := begin_of_idle hok hs
  obtain ⟨t, ht, hidle⟩ := commit_of_inTransaction hok (hrules u hin).2
  have hbody : (peerRules sys config).andThen (FwpmTransactionCommit0 sys) u = (true, t) := by
    unfold Op.andThen
    rw [hrules.eq hin]
    exact ht
  have hall : enablePeerTraffic sys config s = (true, t) := by
    unfold enablePeerTraffic
    rw [hu]
    dsimp only
    rw [hbody]
  rw [hall]
  exact ⟨rfl, hidle⟩

end Success

end AmneziaVpn.WindowsFirewall
