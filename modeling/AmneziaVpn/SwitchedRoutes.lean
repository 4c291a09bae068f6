import AmneziaVpn.TunnelRoutes

/-!
# Routes that a switch leaves behind

A switch of the server deletes the allowed ranges that only the old configuration has, in their
order.
-/

namespace AmneziaVpn.WireguardInterface.RouteTable

open FallibleOps FallibleOps.Op Daemon

variable {σ ρ : Type} {qt : QtLibrary} {M : RouteMonitor σ} {uapi : (Device → Device) → Op σ}
  (T : RouteTable ρ qt M uapi)

def Deleted (ranges : List IPAddress) (x : IPAddress) : Prop :=
  ∃ range ∈ ranges, ¬ 0 < range.m_prefixLength ∧
    ∃ half ∈ halves qt range.type, T.IsFor (T.route x) half

/-- A range of positive length in the list has the route, and no default route behind it. -/
def Inserted (ranges : List IPAddress) (x : IPAddress) : Prop :=
  ∃ before range after, ranges = before ++ range :: after ∧ 0 < range.m_prefixLength ∧
    T.Takes range ∧ T.IsFor (T.route range) x ∧ ¬ T.Deleted after x

theorem deleted_cons (range : IPAddress) (ranges : List IPAddress) (x : IPAddress) :
    T.Deleted (range :: ranges) x ↔ T.Deleted [range] x ∨ T.Deleted ranges x := by
  simp [Deleted, or_and_right, exists_or]

theorem inserted_cons (range : IPAddress) (ranges : List IPAddress) (x : IPAddress) :
    T.Inserted (range :: ranges) x ↔
      (0 < range.m_prefixLength ∧ T.Takes range ∧ T.IsFor (T.route range) x ∧
        ¬ T.Deleted ranges x) ∨ T.Inserted ranges x := by
  constructor
  · rintro ⟨before, y, after, heq, hy⟩
    cases before with
    | nil =>
      cases heq
      exact Or.inl hy
    | cons first before =>
      cases heq
      exact Or.inr ⟨before, y, after, rfl, hy⟩
  · rintro (hrange | ⟨before, y, after, rfl, hy⟩)
    · exact ⟨[], range, ranges, rfl, hrange⟩
    · exact ⟨range :: before, y, after, rfl, hy⟩

variable {T} {p : σ} (h : T.Ready p)

include h

theorem has_deleteRoutePrefix (range x : IPAddress) :
    T.Ready (deleteRoutePrefix qt M range p).2 ∧
      (T.Has x (deleteRoutePrefix qt M range p).2 ↔
        (0 < range.m_prefixLength ∧ T.Takes range ∧ T.IsFor (T.route range) x) ∨
          (T.Has x p ∧ ¬ T.Deleted [range] x)) := by
  by_cases hlength : 0 < range.m_prefixLength
  · rw [deleteRoutePrefix_pos h hlength]
    by_cases htakes : T.Takes range
    · refine ⟨(T.insertRoute h htakes).2.1, ?_⟩
      rw [has_insertRoute h htakes]
      simp [Deleted, hlength, htakes, or_comm]
    · rw [T.insertRoute_refused h htakes]
      refine ⟨h, ?_⟩
      simp [Deleted, hlength, htakes]
  · by_cases htype : range.type = .UnknownNetworkLayerProtocol
    · have hsame : deleteRoutePrefix qt M range p = (false, p) := by
        unfold deleteRoutePrefix
        rw [if_neg (by simp [T.present h]), if_neg hlength, if_pos htype]
      rw [hsame]
      refine ⟨h, ?_⟩
      simp [Deleted, hlength, htype, halves]
    · rw [deleteRoutePrefix_default h hlength htype]
      obtain ⟨hready, hroutes⟩ := allOf_deleteRoute h (T.takes_halves range.type)
      refine ⟨hready, ?_⟩
      have hdeleted : T.Deleted [range] x ↔ ∃ half ∈ halves qt range.type, T.IsFor (T.route x) half := by
        simp [Deleted, le_of_not_gt hlength]
      rw [hdeleted, or_iff_right fun hpos => hlength hpos.1]
      constructor
      · rintro ⟨r, hr, hfor⟩
        obtain ⟨hold, hkept⟩ := (hroutes r).mp hr
        refine ⟨⟨r, hold, hfor⟩, ?_⟩
        rintro ⟨half, hhalf, hroute⟩
        exact hkept half hhalf ((T.isFor_congr hfor half).mpr hroute)
      · rintro ⟨⟨r, hr, hfor⟩, hkept⟩
        refine ⟨r, (hroutes r).mpr ⟨hr, fun half hhalf hhalf' => ?_⟩, hfor⟩
        exact hkept ⟨half, hhalf, (T.isFor_congr hfor half).mp hhalf'⟩

theorem has_each_deleteRoutePrefix (ranges : List IPAddress) (x : IPAddress) :
    T.Ready (Op.each (deleteRoutePrefix qt M) ranges p).2 ∧
      (T.Has x (Op.each (deleteRoutePrefix qt M) ranges p).2 ↔
        T.Inserted ranges x ∨ (T.Has x p ∧ ¬ T.Deleted ranges x)) := by
  induction ranges generalizing p with
  | nil => exact ⟨h, by simp [Inserted, Deleted]⟩
  | cons range ranges ih =>
    obtain ⟨hready, hhas⟩ := has_deleteRoutePrefix h range x
    obtain ⟨hready', hrest⟩ := ih hready
    refine ⟨hready', ?_⟩
    rw [each_cons, hrest, hhas, inserted_cons, deleted_cons T range ranges, or_and_right, not_or, ← or_assoc,
      or_comm (a := T.Inserted ranges x)]
    simp only [and_assoc]

theorem has_each_deleteExclusionRoute (ranges : List IPAddress) (x : IPAddress) :
    T.Ready (Op.each M.deleteExclusionRoute ranges p).2 ∧
      (T.Has x (Op.each M.deleteExclusionRoute ranges p).2 ↔
        T.Has x p ∧ ∀ range ∈ ranges, ¬ T.Shares x range) := by
  induction ranges generalizing p with
  | nil => exact ⟨h, by simp⟩
  | cons range ranges ih =>
    obtain ⟨hready, hhas⟩ := T.deleteExclusionRoute h range
    obtain ⟨hready', hrest⟩ := ih hready
    refine ⟨hready', ?_⟩
    rw [each_cons, hrest, List.forall_mem_cons, ← and_assoc]
    exact and_congr_left fun _ => hhas x

/-- With the peer the routes for its server addresses are deleted where they are the same. -/
theorem has_deletePeer (config : InterfaceConfig) (x : IPAddress) :
    T.Has x (deletePeer qt M uapi config p).2 ↔
      T.Has x p ∧ ¬ (config.m_hopType ≠ .MultiHopExit ∧
        ∃ range ∈ serverAddresses qt config, T.Shares x range) := by
  have hinclude : (includeServer qt M config p).1 = true ∧
      T.Ready (includeServer qt M config p).2 ∧
      (T.Has x (includeServer qt M config p).2 ↔ T.Has x p ∧ ¬ (config.m_hopType ≠ .MultiHopExit ∧
        ∃ range ∈ serverAddresses qt config, T.Shares x range)) := by
    unfold includeServer
    by_cases hhop : config.m_hopType = .MultiHopExit
    · simpa [hhop] using h
    · obtain ⟨hready, hhas⟩ := has_each_deleteExclusionRoute h (serverAddresses qt config) x
      rw [if_pos ⟨hhop, T.present h⟩, hhas]
      refine ⟨each_fst _ _ _, hready, ?_⟩
      simp [hhop]
  obtain ⟨htrue, hready, hhas⟩ := hinclude
  rw [deletePeer, andThen_of_true htrue, ← hhas, Has, (T.uapi hready _).2]
  rfl

omit h

def StaysReady (T : RouteTable ρ qt M uapi) (p p' : σ) : Prop := T.Ready p → T.Ready p'

instance : IsPreorder σ T.StaysReady where
  refl _ := id
  trans _ _ _ h h' := h' ∘ h

theorem keptByMonitor_staysReady (T : RouteTable ρ qt M uapi) : KeptByMonitor T.StaysReady M where
  insertRoute range p h := by
    by_cases htakes : T.Takes range
    · exact (T.insertRoute h htakes).2.1
    · rw [T.insertRoute_refused h htakes]
      exact h
  deleteRoute range p h := by
    by_cases htakes : T.Takes range
    · exact (T.deleteRoute h htakes).2.1
    · rw [T.deleteRoute_refused h htakes]
      exact h
  addExclusionRoute range _ h := T.addExclusionRoute h range
  deleteExclusionRoute range _ h := (T.deleteExclusionRoute h range).1

/-- The removal of the old peer takes the routes for the range with it. -/
def Dropped (T : RouteTable ρ qt M uapi) (lastConfig config : InterfaceConfig) (x : IPAddress) :
    Prop :=
  config.m_serverPublicKey ≠ lastConfig.m_serverPublicKey ∧
    lastConfig.m_hopType ≠ .MultiHopExit ∧
      ∃ range ∈ serverAddresses qt lastConfig, T.Shares x range

section Switch

variable {lastConfig config : InterfaceConfig} {d : Daemon σ} (hd : T.Ready d.platform)
  (htrue : (switchServer qt.toQtParser (utils qt M uapi) lastConfig config d).1 = true)

include hd htrue

/-- A switch deletes the ranges that are gone from some table, and then the old peer. -/
theorem exists_has_switchServer : ∃ p, ∀ x,
    T.Has x (switchServer qt.toQtParser (utils qt M uapi) lastConfig config d).2.platform ↔
      (T.Inserted (goneRanges lastConfig config) x ∨
        (T.Has x p ∧ ¬ T.Deleted (goneRanges lastConfig config) x)) ∧
          ¬ T.Dropped lastConfig config x := by
  have hkept : UtilsKeep (· = true) (OnPlatform T.StaysReady) (utils qt M uapi) :=
    T.keptByMonitor_staysReady.utils qt (fun _ _ _ hp => (T.uapi hp _).1)
      (fun _ _ _ hp => (T.uapi hp _).1)
  rw [switchServer_eq] at htrue ⊢
  rw [andThen_fst, Bool.and_eq_true] at htrue
  rw [andThen_of_true htrue.1]
  obtain ⟨hold, -⟩ := htrue
  unfold switchSteps at hold ⊢
  rw [andThen_fst, Bool.and_eq_true] at hold
  rw [andThen_of_true hold.1]
  obtain ⟨hgone, -⟩ := hold
  rw [andThen_fst, Bool.and_eq_true] at hgone
  rw [andThen_of_true hgone.1]
  have hready := hkept.switchPeer qt.toQtParser ignoresRecords_onPlatform.counts lastConfig
    config d hgone.1 hd
  generalize (switchPeer qt.toQtParser (utils qt M uapi) lastConfig config d).2 = d' at hready ⊢
  refine ⟨d'.platform, fun x => ?_⟩
  obtain ⟨hready', hhas⟩ := has_each_deleteRoutePrefix hready (goneRanges lastConfig config) x
  rw [← platform_each_onPlatform] at hready' hhas
  rw [← hhas]
  change T.Has x (deleteOldPeer (utils qt M uapi) lastConfig config _).2.platform ↔ _
  unfold deleteOldPeer Dropped
  by_cases hkeys : config.m_serverPublicKey = lastConfig.m_serverPublicKey
  · simp only [hkeys, ne_eq, not_true_eq_false, if_false, false_and, not_false_eq_true, and_true]
    rfl
  · simp only [hkeys, ne_eq, not_false_eq_true, if_true, true_and]
    exact has_deletePeer hready' lastConfig x

end Switch

def routesFor (qt : QtLibrary) (range : IPAddress) : List IPAddress :=
  if 0 < range.m_prefixLength then [range] else halves qt range.type

def Undone (T : RouteTable ρ qt M uapi) (lastConfig config : InterfaceConfig) : Prop :=
  ∀ before range after, goneRanges lastConfig config = before ++ range :: after →
    0 < range.m_prefixLength → T.Takes range →
      T.Deleted after range ∨ T.Dropped lastConfig config range

def LeavesNone (T : RouteTable ρ qt M uapi) (lastConfig config : InterfaceConfig) (p : σ) : Prop :=
  ∀ x ∈ goneRanges lastConfig config, T.Takes x → ∀ range ∈ routesFor qt x, ¬ T.Has range p

theorem leavesNone_iff {lastConfig config : InterfaceConfig} {d : Daemon σ}
    (h : T.Ready d.platform)
    (htrue : (switchServer qt.toQtParser (utils qt M uapi) lastConfig config d).1 = true) :
    T.LeavesNone lastConfig config
        (switchServer qt.toQtParser (utils qt M uapi) lastConfig config d).2.platform ↔
      T.Undone lastConfig config := by
  obtain ⟨p, hhas⟩ := exists_has_switchServer h htrue
  constructor
  · intro hnone before range after hsplit hlength htakes
    have hgone : range ∈ goneRanges lastConfig config := by rw [hsplit]; simp
    have hrange := hnone range hgone htakes range (by simp [routesFor, hlength])
    rw [hhas, not_and_or, not_not] at hrange
    rcases hrange with hgone | hdropped
    · by_contra hkept
      rw [not_or] at hkept
      exact hgone (Or.inl ⟨before, range, after, hsplit, hlength, htakes, T.isFor_route htakes,
        hkept.1⟩)
    · exact Or.inr hdropped
  · intro hundone x hx htakes range hrange hleft
    obtain ⟨hthere, hkept⟩ := (hhas range).mp hleft
    rcases hthere with ⟨before, y, after, hsplit, hlength, htakes', hfor, hafter⟩ | ⟨-, hdeleted⟩
    · rcases hundone before y after hsplit hlength htakes' with
        ⟨z, hz, hzero, half, hhalf, hroute⟩ | ⟨hkeys, hhop, q, hq, hshares⟩
      · exact hafter ⟨z, hz, hzero, half, hhalf, (T.isFor_congr hfor half).mp hroute⟩
      · exact hkept ⟨hkeys, hhop, q, hq, T.shares_congr hfor hshares⟩
    · unfold routesFor at hrange
      split_ifs at hrange with hlength
      · obtain rfl := List.mem_singleton.mp hrange
        obtain ⟨before, after, hsplit⟩ := List.append_of_mem hx
        rcases hundone before range after hsplit hlength htakes with ⟨z, hz, hzero⟩ | hdropped
        · exact hdeleted ⟨z, by rw [hsplit]; simp [hz], hzero⟩
        · exact hkept hdropped
      · exact hdeleted ⟨x, hx, hlength, range, hrange,
          T.isFor_route (T.takes_halves _ range hrange)⟩

end AmneziaVpn.WireguardInterface.RouteTable
