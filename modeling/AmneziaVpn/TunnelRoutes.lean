import AmneziaVpn.WireguardFrames

/-!
# Routes into the tunnel

What the functions for routes do to the routing table depends on the kernel only through a few laws:
inserting a route for a range adds it unless there is one, and deleting a route removes those for
the range.
-/

namespace AmneziaVpn.WireguardInterface

open FallibleOps FallibleOps.Op Daemon List

variable {σ ρ : Type}

/-- A kernel that accepts every message. `Shares` relates ranges whose routes go together. -/
structure RouteTable (ρ : Type) (qt : QtLibrary) (M : RouteMonitor σ)
    (uapi : (Device → Device) → Op σ) where
  Ready : σ → Prop
  routes : σ → List ρ
  route : IPAddress → ρ
  IsFor : ρ → IPAddress → Prop
  Takes : IPAddress → Prop
  Shares : IPAddress → IPAddress → Prop
  present : ∀ {p}, Ready p → M.present p = true
  insertRoute : ∀ {p}, Ready p → ∀ {range}, Takes range →
    (M.insertRoute range p).1 = true ∧ Ready (M.insertRoute range p).2 ∧
      ∀ r, r ∈ routes (M.insertRoute range p).2 ↔
        r ∈ routes p ∨ (r = route range ∧ ∀ r' ∈ routes p, ¬ IsFor r' range)
  insertRoute_refused : ∀ {p}, Ready p → ∀ {range}, ¬ Takes range →
    M.insertRoute range p = (false, p)
  deleteRoute : ∀ {p}, Ready p → ∀ {range}, Takes range →
    (M.deleteRoute range p).1 = true ∧ Ready (M.deleteRoute range p).2 ∧
      ∀ r, r ∈ routes (M.deleteRoute range p).2 ↔ r ∈ routes p ∧ ¬ IsFor r range
  deleteRoute_refused : ∀ {p}, Ready p → ∀ {range}, ¬ Takes range →
    M.deleteRoute range p = (false, p)
  addExclusionRoute : ∀ {p}, Ready p → ∀ range, Ready (M.addExclusionRoute range p).2
  deleteExclusionRoute : ∀ {p}, Ready p → ∀ range, Ready (M.deleteExclusionRoute range p).2 ∧
    ∀ x, (∃ r ∈ routes (M.deleteExclusionRoute range p).2, IsFor r x) ↔
      (∃ r ∈ routes p, IsFor r x) ∧ ¬ Shares x range
  uapi : ∀ {p}, Ready p → ∀ f, Ready (uapi f p).2 ∧ routes (uapi f p).2 = routes p
  isFor_route : ∀ {range}, Takes range → IsFor (route range) range
  isFor_congr : ∀ {r x}, IsFor r x → ∀ range, IsFor r range ↔ IsFor (route x) range
  shares_congr : ∀ {x y}, IsFor (route x) y → ∀ {range}, Shares x range → Shares y range
  takes_halves : ∀ type, ∀ half ∈ halves qt type, Takes half

namespace RouteTable

variable {qt : QtLibrary} {M : RouteMonitor σ} {uapi : (Device → Device) → Op σ}
  (T : RouteTable ρ qt M uapi)

def Has (range : IPAddress) (p : σ) : Prop := ∃ r ∈ T.routes p, T.IsFor r range

def SameRoutes (p p' : σ) : Prop := ∀ r, r ∈ T.routes p' ↔ r ∈ T.routes p

variable {p : σ} (h : T.Ready p) {T} {x range : IPAddress}

include h

theorem has_insertRoute (hrange : T.Takes range) :
    T.Has x (M.insertRoute range p).2 ↔ T.Has x p ∨ T.IsFor (T.route range) x := by
  obtain ⟨-, -, hroutes⟩ := T.insertRoute h hrange
  constructor
  · rintro ⟨r, hr, hfor⟩
    rcases (hroutes r).mp hr with hold | ⟨rfl, -⟩
    · exact Or.inl ⟨r, hold, hfor⟩
    · exact Or.inr hfor
  · rintro (⟨r, hr, hfor⟩ | hfor)
    · exact ⟨r, (hroutes r).mpr (Or.inl hr), hfor⟩
    · by_cases hhas : ∃ r ∈ T.routes p, T.IsFor r range
      · obtain ⟨r, hr, hrange⟩ := hhas
        exact ⟨r, (hroutes r).mpr (Or.inl hr), (T.isFor_congr hrange x).mpr hfor⟩
      · refine ⟨_, (hroutes _).mpr (Or.inr ⟨rfl, fun r hr hrange => hhas ⟨r, hr, hrange⟩⟩), hfor⟩

theorem allOf_insertRoute {ranges : List IPAddress} (hranges : ∀ range ∈ ranges, T.Takes range) :
    (Op.allOf M.insertRoute ranges p).1 = true ∧ T.Ready (Op.allOf M.insertRoute ranges p).2 ∧
      (∀ r ∈ T.routes p, r ∈ T.routes (Op.allOf M.insertRoute ranges p).2) ∧
      ∀ r ∈ T.routes (Op.allOf M.insertRoute ranges p).2,
        r ∈ T.routes p ∨ ∃ range ∈ ranges, r = T.route range := by
  induction ranges generalizing p with
  | nil => exact ⟨rfl, h, fun r hr => hr, fun r hr => Or.inl hr⟩
  | cons range ranges ih =>
    obtain ⟨htrue, hready, hroutes⟩ := T.insertRoute h (hranges range mem_cons_self)
    obtain ⟨hrest, hready', hkept, hnew⟩ := ih hready fun y hy =>
      hranges y (mem_cons_of_mem range hy)
    rw [Op.allOf, andThen_of_true htrue]
    refine ⟨hrest, hready', fun r hr => hkept r ((hroutes r).mpr (Or.inl hr)), fun r hr => ?_⟩
    rcases hnew r hr with hold | ⟨y, hy, rfl⟩
    · rcases (hroutes r).mp hold with hold | ⟨rfl, -⟩
      · exact Or.inl hold
      · exact Or.inr ⟨range, mem_cons_self, rfl⟩
    · exact Or.inr ⟨y, mem_cons_of_mem range hy, rfl⟩

theorem allOf_deleteRoute {ranges : List IPAddress} (hranges : ∀ range ∈ ranges, T.Takes range) :
    T.Ready (Op.allOf M.deleteRoute ranges p).2 ∧
      ∀ r, r ∈ T.routes (Op.allOf M.deleteRoute ranges p).2 ↔
        r ∈ T.routes p ∧ ∀ range ∈ ranges, ¬ T.IsFor r range := by
  induction ranges generalizing p with
  | nil => exact ⟨h, fun r => by simp⟩
  | cons range ranges ih =>
    obtain ⟨htrue, hready, hroutes⟩ := T.deleteRoute h (hranges range mem_cons_self)
    obtain ⟨hready', hrest⟩ := ih hready fun y hy => hranges y (mem_cons_of_mem range hy)
    rw [Op.allOf, andThen_of_true htrue]
    refine ⟨hready', fun r => ?_⟩
    rw [hrest, hroutes, forall_mem_cons, and_assoc]

/-- Updating a range of positive length, or deleting it, inserts its route. -/
theorem updateRoutePrefix_pos (hlength : 0 < range.m_prefixLength) :
    updateRoutePrefix qt M range p = M.insertRoute range p := by
  unfold updateRoutePrefix
  rw [if_neg (by simp [T.present h]), if_pos hlength]

theorem deleteRoutePrefix_pos (hlength : 0 < range.m_prefixLength) :
    deleteRoutePrefix qt M range p = M.insertRoute range p := by
  unfold deleteRoutePrefix
  rw [if_neg (by simp [T.present h]), if_pos hlength]

section Default

variable (hlength : ¬ 0 < range.m_prefixLength)
  (htype : range.type ≠ .UnknownNetworkLayerProtocol)

include hlength htype

theorem updateRoutePrefix_default :
    updateRoutePrefix qt M range p = Op.allOf M.insertRoute (halves qt range.type) p := by
  unfold updateRoutePrefix
  rw [if_neg (by simp [T.present h]), if_neg hlength, if_neg htype]

theorem deleteRoutePrefix_default :
    deleteRoutePrefix qt M range p = Op.allOf M.deleteRoute (halves qt range.type) p := by
  unfold deleteRoutePrefix
  rw [if_neg (by simp [T.present h]), if_neg hlength, if_neg htype]

end Default

theorem updateRoutePrefix_succeeds (htakes : T.Takes range)
    (htype : range.type ≠ .UnknownNetworkLayerProtocol) :
    (updateRoutePrefix qt M range p).1 = true ∧ T.Ready (updateRoutePrefix qt M range p).2 := by
  by_cases hlength : 0 < range.m_prefixLength
  · rw [updateRoutePrefix_pos h hlength]
    obtain ⟨htrue, hready, -⟩ := T.insertRoute h htakes
    exact ⟨htrue, hready⟩
  · rw [updateRoutePrefix_default h hlength htype]
    obtain ⟨htrue, hready, -⟩ := allOf_insertRoute h (T.takes_halves range.type)
    exact ⟨htrue, hready⟩

theorem sameRoutes_iff (htakes : T.Takes range)
    (htype : range.type ≠ .UnknownNetworkLayerProtocol) :
    T.SameRoutes p (deleteRoutePrefix qt M range (updateRoutePrefix qt M range p).2).2 ↔
      if 0 < range.m_prefixLength then T.Has range p
      else ∀ half ∈ halves qt range.type, ¬ T.Has half p := by
  unfold SameRoutes
  have hready := (updateRoutePrefix_succeeds h htakes htype).2
  by_cases hlength : 0 < range.m_prefixLength
  · rw [deleteRoutePrefix_pos hready hlength, updateRoutePrefix_pos h hlength, if_pos hlength]
    rw [updateRoutePrefix_pos h hlength] at hready
    obtain ⟨-, -, hroutes⟩ := T.insertRoute h htakes
    obtain ⟨-, -, hroutes'⟩ := T.insertRoute hready htakes
    constructor
    · intro hsame
      by_contra hhas
      have hnew := (hroutes (T.route range)).mpr
        (Or.inr ⟨rfl, fun r hr hfor => hhas ⟨r, hr, hfor⟩⟩)
      have hold := (hsame _).mp ((hroutes' _).mpr (Or.inl hnew))
      exact hhas ⟨_, hold, T.isFor_route htakes⟩
    · rintro ⟨r₀, hr₀, hfor⟩ r
      rw [hroutes', hroutes]
      constructor
      · rintro ((hold | ⟨-, hnone⟩) | ⟨-, hnone⟩)
        · exact hold
        · exact absurd hfor (hnone r₀ hr₀)
        · exact absurd hfor (hnone r₀ ((hroutes r₀).mpr (Or.inl hr₀)))
      · exact fun hold => Or.inl (Or.inl hold)
  · rw [deleteRoutePrefix_default hready hlength htype, updateRoutePrefix_default h hlength htype,
      if_neg hlength]
    obtain ⟨-, hready', hkept, hnew⟩ := allOf_insertRoute h (T.takes_halves range.type)
    obtain ⟨-, hroutes⟩ := allOf_deleteRoute hready' (T.takes_halves range.type)
    constructor
    · rintro hsame half hhalf ⟨r, hr, hfor⟩
      exact ((hroutes r).mp ((hsame r).mpr hr)).2 half hhalf hfor
    · intro hnone r
      rw [hroutes]
      constructor
      · rintro ⟨hr, hother⟩
        rcases hnew r hr with hold | ⟨half, hhalf, rfl⟩
        · exact hold
        · exact absurd (T.isFor_route (T.takes_halves _ half hhalf)) (hother half hhalf)
      · exact fun hr => ⟨hkept r hr, fun half hhalf hfor => hnone half hhalf ⟨r, hr, hfor⟩⟩

end RouteTable

end AmneziaVpn.WireguardInterface
