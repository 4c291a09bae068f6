import AmneziaVpn.MozillaIpAddress
import AmneziaVpn.QtText
import AmneziaVpn.UndoLog

/-!
# The routers of the service

On each desktop platform the service adds routes and remembers them, in order to delete them later.
-/

namespace AmneziaVpn

open UndoLog

/-- What the libraries do with texts, and what a shift by an undefined count gives. -/
structure RouterRuntime where
  parse : String → QHostAddress
  inet_addr : String → UInt32
  shifted : ℤ → UInt32

namespace NetworkUtilities

variable (rt : RouterRuntime)

variable (ip : String)

def checkIPv4Format : Bool :=
  ip ≠ "" && ip.toList.count '.' == 3 && (rt.parse ip).protocol == .IPv4Protocol

def checkIpSubnetFormat : Bool :=
  if QString.contains ip "/" = false then checkIPv4Format rt ip
  else
    match QString.split ip "/" with
    | [address, subnet] =>
        match QString.toInt? subnet with
        | some n => if 0 ≤ n ∧ n ≤ 32 then checkIPv4Format rt address else false
        | none => false
    | _ => false

def dotted (a : UInt32) : String :=
  toString (a >>> 24).toNat ++ "." ++ toString ((a >>> 16) &&& 0xff).toNat ++ "." ++
    toString ((a >>> 8) &&& 0xff).toNat ++ "." ++ toString (a &&& 0xff).toNat

/-- Only the lengths from 1 to 32 give a defined shift. -/
def netMaskFromIpWithSubnet : String :=
  if QString.contains ip "/" = false then "255.255.255.255"
  else
    match QString.toInt? ((QString.split ip "/").getD 1 "") with
    | none => "255.255.255.255"
    | some n =>
        dotted (if 0 < n ∧ n ≤ 32 then 0xffffffff <<< UInt32.ofNat (32 - n.toNat) else rt.shifted n)

def ipAddressFromIpWithSubnet : String :=
  if ip.toList.count '.' ≠ 3 then "" else (QString.split ip "/").headD ""

end NetworkUtilities

open NetworkUtilities

/-- How a system decides on a new route, and what it keeps of it besides the key. -/
structure RoutingSystem (Key Value Entry : Type) where
  accepts : Table Key Value → Entry → Bool
  value : Table Key Value → Entry → Value

/-- A router tries the routes of a call one after another. -/
structure Router (Key Value Entry : Type) where
  rules : Rules Key Value Entry
  candidates : Table Key Value → String → List String → List Entry

namespace Router

variable {Key Value Entry : Type} [DecidableEq Key] (r : Router Key Value Entry)

variable (s : State Key Value Entry)

def routeAddList (gw : String) (ips : List String) : State Key Value Entry :=
  addAll r.rules s (r.candidates s.table gw ips)

def clearSavedRoutes : State Key Value Entry := clear r.rules s

/-- The calls with their gateways, from a router that has not saved any route. -/
def addLists (t : Table Key Value) (calls : List (String × List String)) : State Key Value Entry :=
  calls.foldl (fun s call => r.routeAddList s call.1 call.2) ⟨t, []⟩

end Router

/-- A route as it is saved on Linux and macOS. -/
structure SavedRoute where
  dst : String
  gw : String
  deriving DecidableEq

namespace SavedRoute

variable (rt : RouterRuntime)

variable (r : SavedRoute)

def ip : String := ipAddressFromIpWithSubnet r.dst

def valid : Bool :=
  NetworkUtilities.checkIPv4Format rt r.ip && NetworkUtilities.checkIPv4Format rt r.gw

def address : UInt32 := rt.inet_addr r.ip

def mask : UInt32 := rt.inet_addr (netMaskFromIpWithSubnet rt r.dst)

def exempt : Bool := !r.valid rt || r.dst == "0.0.0.0/0"

def candidates (gw : String) (ips : List String) : List SavedRoute :=
  (ips.map fun ip => ⟨ip, gw⟩).filter (valid rt)

end SavedRoute

section Platforms

variable (rt : RouterRuntime) {Value : Type}

/-- The metric does not distinguish routes. -/
def routerLinux (system : RoutingSystem (UInt32 × UInt32 × UInt32) Value SavedRoute) :
    Router (UInt32 × UInt32 × UInt32) Value SavedRoute where
  rules :=
    { key := fun r => (r.address rt, r.mask rt, rt.inet_addr r.gw)
      accepts := system.accepts
      value := system.value
      logs := fun outcome => outcome = .added
      exempt := SavedRoute.exempt rt
      logs_added := rfl }
  candidates _ gw ips := SavedRoute.candidates rt gw ips

/-- On macOS there is one route for a network. What `route` returns is not looked at. -/
def routerMac (system : RoutingSystem (UInt32 × UInt32) Value SavedRoute) :
    Router (UInt32 × UInt32) Value SavedRoute where
  rules :=
    { key := fun r => (r.address rt &&& r.mask rt, r.mask rt)
      accepts := system.accepts
      value := system.value
      logs := fun _ => true
      exempt := SavedRoute.exempt rt
      logs_added := rfl }
  candidates _ gw ips := SavedRoute.candidates rt gw ips

/-- The fields of a row that are not the same for all rows. -/
structure MibIpForwardRow where
  dwForwardDest : UInt32
  dwForwardMask : UInt32
  dwForwardNextHop : UInt32
  dwForwardIfIndex : ℕ
  dwForwardMetric1 : ℕ
  deriving DecidableEq

abbrev WindowsKey := UInt32 × UInt32 × UInt32 × ℕ

structure WindowsRouting (Value : Type) extends RoutingSystem WindowsKey Value MibIpForwardRow where
  getBestInterface : Table WindowsKey Value → UInt32 → Option ℕ
  getIpInterfaceMetric : ℕ → Option ℕ

/-- The rows of a call have the interface of the gateway. Rows are saved also if they exist. -/
def routerWin (system : WindowsRouting Value) : Router WindowsKey Value MibIpForwardRow where
  rules :=
    { key := fun row => (row.dwForwardDest, row.dwForwardMask, row.dwForwardNextHop,
        row.dwForwardIfIndex)
      accepts := system.accepts
      value := system.value
      logs := fun outcome => outcome = .added ∨ outcome = .taken
      exempt := fun _ => false
      logs_added := rfl }
  candidates table gw ips :=
    if NetworkUtilities.checkIPv4Format rt gw = false then []
    else
      match system.getBestInterface table (rt.inet_addr gw) with
      | none => []
      | some index =>
          let metric := match system.getIpInterfaceMetric index with
            | some metric => metric + 1
            | none => 256
          (ips.filter fun ip =>
            NetworkUtilities.checkIPv4Format rt (ipAddressFromIpWithSubnet ip)).map fun ip =>
            { dwForwardDest := rt.inet_addr (ipAddressFromIpWithSubnet ip)
              dwForwardMask := rt.inet_addr (netMaskFromIpWithSubnet rt ip)
              dwForwardNextHop := rt.inet_addr gw
              dwForwardIfIndex := index
              dwForwardMetric1 := metric }

end Platforms

namespace Router

variable {Key Value Entry : Type} [DecidableEq Key] (r : Router Key Value Entry)
  (t : Table Key Value)

theorem addLists_induction {motive : State Key Value Entry → Prop} (initial : motive ⟨t, []⟩)
    (step : ∀ s gw ips, motive s → motive (r.routeAddList s gw ips))
    (calls : List (String × List String)) : motive (r.addLists t calls) := by
  have hfold : ∀ s, motive s →
      motive (calls.foldl (fun s call => r.routeAddList s call.1 call.2) s) := by
    induction calls with
    | nil => exact fun s h => h
    | cons call calls ih => exact fun s h => ih _ (step s call.1 call.2 h)
  exact hfold _ initial

theorem extends_addLists (calls : List (String × List String)) :
    Extends r.rules ⟨t, []⟩ (r.addLists t calls) :=
  r.addLists_induction t (Extends.refl _) (fun _ _ _ h => h.trans (Extends.addAll _ _)) calls

theorem of_mem_log_addLists {P : Entry → Prop}
    (h : ∀ table gw ips, ∀ e ∈ r.candidates table gw ips, P e)
    (calls : List (String × List String)) : ∀ e ∈ (r.addLists t calls).log, P e := by
  refine r.addLists_induction t (motive := fun s => ∀ e ∈ s.log, P e) ?_ ?_ calls
  · exact fun e he => absurd he List.not_mem_nil
  · intro s gw ips hs e he
    rcases mem_log_of_mem_addAll he with he | he
    · exact hs e he
    · exact h _ _ _ e he

end Router

section Restored

variable (rt : RouterRuntime) {Value : Type}

theorem valid_of_mem_candidates (gw : String) (ips : List String) :
    ∀ e ∈ SavedRoute.candidates rt gw ips, e.valid rt = true :=
  fun _ he => (List.mem_filter.mp he).2

/-- Only the text of the default route keeps a route that was saved from being deleted. -/
theorem exempt_eq_false_iff {e : SavedRoute} (h : e.valid rt = true) :
    e.exempt rt = false ↔ e.dst ≠ "0.0.0.0/0" := by
  simp [SavedRoute.exempt, h]

theorem newOnly_linux (system : RoutingSystem (UInt32 × UInt32 × UInt32) Value SavedRoute)
    (t : Table (UInt32 × UInt32 × UInt32) Value) (calls : List (String × List String)) :
    NewOnly (routerLinux rt system).rules t ((routerLinux rt system).addLists t calls) := by
  apply (routerLinux rt system).addLists_induction t
  · exact ⟨fun e he => absurd he List.not_mem_nil, fun e he => absurd he List.not_mem_nil,
      List.nodup_nil, fun _ h => h⟩
  · intro s gw ips h
    exact h.addAll (fun outcome houtcome => of_decide_eq_true houtcome) _

/-- When deleting the saved routes restores the table, on the three platforms. -/
theorem clearSavedRoutes_restores_iff
    (linux : RoutingSystem (UInt32 × UInt32 × UInt32) Value SavedRoute)
    (macos : RoutingSystem (UInt32 × UInt32) Value SavedRoute) (windows : WindowsRouting Value)
    (tl : Table (UInt32 × UInt32 × UInt32) Value) (tm : Table (UInt32 × UInt32) Value)
    (tw : Table WindowsKey Value) (calls : List (String × List String)) :
    let routerLinux := routerLinux rt linux
    let routerMac := routerMac rt macos
    let routerWin := routerWin rt windows
    ((routerLinux.clearSavedRoutes (routerLinux.addLists tl calls)).table = tl ↔
      ∀ e ∈ (routerLinux.addLists tl calls).log, e.dst ≠ "0.0.0.0/0") ∧
    ((routerMac.clearSavedRoutes (routerMac.addLists tm calls)).table = tm ↔
      (∀ e ∈ (routerMac.addLists tm calls).log, e.dst ≠ "0.0.0.0/0" →
        tm (routerMac.rules.key e) = none) ∧
      ∀ e ∈ (routerMac.addLists tm calls).log, e.dst = "0.0.0.0/0" →
        (∃ e' ∈ (routerMac.addLists tm calls).log, e'.dst ≠ "0.0.0.0/0" ∧
          routerMac.rules.key e' = routerMac.rules.key e) ∨
        (routerMac.addLists tm calls).table (routerMac.rules.key e) =
          tm (routerMac.rules.key e)) ∧
    ((routerWin.clearSavedRoutes (routerWin.addLists tw calls)).table = tw ↔
      ∀ row ∈ (routerWin.addLists tw calls).log, tw (routerWin.rules.key row) = none) := by
  intro routerLinux routerMac routerWin
  refine ⟨?_, ?_, ?_⟩
  · have hvalid := routerLinux.of_mem_log_addLists tl
      (fun _ => valid_of_mem_candidates rt) calls
    rw [Router.clearSavedRoutes,
      (newOnly_linux rt linux tl calls).clear_eq_iff (routerLinux.extends_addLists tl calls)]
    exact forall₂_congr fun e he => exempt_eq_false_iff rt (hvalid e he)
  · have hvalid := routerMac.of_mem_log_addLists tm (fun _ => valid_of_mem_candidates rt) calls
    have hexempt : ∀ e ∈ (routerMac.addLists tm calls).log,
        (routerMac.rules.exempt e = false ↔ e.dst ≠ "0.0.0.0/0") :=
      fun e he => exempt_eq_false_iff rt (hvalid e he)
    have hdefault : ∀ e ∈ (routerMac.addLists tm calls).log,
        (routerMac.rules.exempt e = true ↔ e.dst = "0.0.0.0/0") := by
      intro e he
      rw [← Bool.not_eq_false, hexempt e he, not_not]
    rw [Router.clearSavedRoutes, clear_eq_iff (routerMac.extends_addLists tm calls)]
    refine and_congr (forall₂_congr fun e he => imp_congr_left (hexempt e he))
      (forall₂_congr fun e he => imp_congr (hdefault e he) (or_congr_left ?_))
    exact exists_congr fun e' => and_congr_right fun he' => and_congr_left' (hexempt e' he')
  · rw [Router.clearSavedRoutes, clear_eq_iff (routerWin.extends_addLists tw calls)]
    constructor
    · exact fun h row hrow => h.1 row hrow rfl
    · exact fun h => ⟨fun row hrow _ => h row hrow, fun row _ hexempt => absurd hexempt Bool.false_ne_true⟩

end Restored

def fewRoutes : RouterRuntime where
  parse _ := .ipv4 0
  inet_addr text :=
    if text = "192.168.1.1" then 0xc0a80101
    else if text = "1.1.1.1" then 0x01010101
    else if text = "255.255.255.255" then 0xffffffff
    else 0
  shifted _ := 0xffffffff

def acceptsAll (Key Entry : Type) : RoutingSystem Key Unit Entry := ⟨fun _ _ => true, fun _ _ => ()⟩

def acceptsAllRows : WindowsRouting Unit where
  toRoutingSystem := acceptsAll _ _
  getBestInterface _ _ := some 1
  getIpInterfaceMetric _ := some 25

theorem clearSavedRoutes_fewRoutes :
    let routerLinux := routerLinux fewRoutes (acceptsAll _ _)
    let routerMac := routerMac fewRoutes (acceptsAll _ _)
    let routerWin := routerWin fewRoutes acceptsAllRows
    let host : UInt32 × UInt32 := (0x01010101, 0xffffffff)
    let row : WindowsKey := (0x01010101, 0xffffffff, 0xc0a80101, 1)
    (routerLinux.clearSavedRoutes (routerLinux.addLists (fun _ => none)
      [("192.168.1.1", ["0.0.0.0/0"])])).table (0, 0xffffffff, 0xc0a80101) ≠ none ∧
    (routerMac.clearSavedRoutes (routerMac.addLists
      (Function.update (fun _ => none) host (some ())) [("192.168.1.1", ["1.1.1.1"])])).table host =
      none ∧
    (routerWin.clearSavedRoutes (routerWin.addLists
      (Function.update (fun _ => none) row (some ())) [("192.168.1.1", ["1.1.1.1"])])).table row =
      none := by
  decide +kernel

end AmneziaVpn

namespace AmneziaVpn.NetworkUtilities

variable {rt : RouterRuntime} {ip : String}

def statedLength (ip : String) : ℤ :=
  if QString.contains ip "/" = false then 32
  else (QString.toInt? ((QString.split ip "/").getD 1 "")).getD 32

def shiftCount (ip : String) : Option ℤ :=
  if QString.contains ip "/" = false then none
  else (QString.toInt? ((QString.split ip "/").getD 1 "")).map (32 - ·)

/-- Ones, as many as the length says, and zeros behind them. -/
def IsMask (length : ℤ) (mask : UInt32) : Prop :=
  ∀ i < 32, mask.toBitVec.getMsbD i = decide ((i : ℤ) < length)

/-- The text is that of the mask, made with shifts by less than 32. -/
def MaskDefined (rt : RouterRuntime) (ip : String) : Prop :=
  (∃ mask, IsMask (statedLength ip) mask ∧ netMaskFromIpWithSubnet rt ip = dotted mask) ∧
    ∀ count, shiftCount ip = some count → 0 ≤ count ∧ count < 32

theorem length_of_accepted (h : checkIpSubnetFormat rt ip = true)
    (hslash : QString.contains ip "/" = true) :
    ∃ n, QString.toInt? ((QString.split ip "/").getD 1 "") = some n ∧ 0 ≤ n ∧ n ≤ 32 := by
  unfold checkIpSubnetFormat at h
  rw [if_neg (by simp [hslash])] at h
  split at h
  · rename_i address subnet hparts
    split at h
    · rename_i n hn
      split_ifs at h with hrange
      refine ⟨n, ?_, hrange⟩
      rw [hparts]
      exact hn
    · cases h
  · cases h

theorem isMask_all : IsMask 32 0xffffffff := by
  intro i hi
  have hones : (0xffffffff : UInt32).toBitVec = BitVec.allOnes 32 := rfl
  rw [hones, BitVec.getMsbD_allOnes]
  simp [hi]

theorem isMask_shift {n : ℤ} (hpos : 0 < n) (hle : n ≤ 32) :
    IsMask n (0xffffffff <<< UInt32.ofNat (32 - n.toNat)) := by
  intro i hi
  have hones : (0xffffffff : UInt32).toBitVec = BitVec.allOnes 32 := rfl
  have hcount : ((UInt32.ofNat (32 - n.toNat)).toBitVec % 32).toNat = 32 - n.toNat := by
    have hwidth : BitVec.toNat (32 : BitVec 32) = 32 := rfl
    rw [BitVec.toNat_umod, UInt32.toNat_toBitVec, UInt32.toNat_ofNat', hwidth]
    omega
  have hiff : i + (32 - n.toNat) < 32 ↔ (i : ℤ) < n := by omega
  rw [UInt32.toBitVec_shiftLeft, hones, BitVec.shiftLeft_eq', hcount, BitVec.getMsbD_shiftLeft,
    BitVec.getMsbD_allOnes, decide_eq_decide.mpr hiff]

/-- Of the lengths that are accepted only 0 does not give its mask. -/
theorem maskDefined_iff (h : checkIpSubnetFormat rt ip = true) :
    MaskDefined rt ip ↔ statedLength ip ≠ 0 := by
  unfold MaskDefined statedLength shiftCount netMaskFromIpWithSubnet
  by_cases hslash : QString.contains ip "/" = false
  · simp only [if_pos hslash]
    refine ⟨fun _ => by decide, fun _ => ⟨⟨_, isMask_all, by decide +kernel⟩, ?_⟩⟩
    intro count hcount
    cases hcount
  · obtain ⟨n, hn, hlo, hhi⟩ := length_of_accepted h (by simpa using hslash)
    simp only [if_neg hslash, hn, Option.getD_some, Option.map_some]
    constructor
    · rintro ⟨-, hdefined⟩ rfl
      exact absurd (hdefined _ rfl).2 (by decide)
    · intro hne
      have hpos : 0 < n := lt_of_le_of_ne hlo (Ne.symm hne)
      rw [if_pos ⟨hpos, hhi⟩]
      refine ⟨⟨_, isMask_shift hpos hhi, rfl⟩, ?_⟩
      rintro count hcount
      obtain rfl := Option.some.inj hcount
      omega

theorem maskDefined_eight : checkIpSubnetFormat fewRoutes "10.0.0.0/8" = true ∧
    MaskDefined fewRoutes "10.0.0.0/8" := by
  have haccepted : checkIpSubnetFormat fewRoutes "10.0.0.0/8" = true := by decide +kernel
  exact ⟨haccepted, (maskDefined_iff haccepted).mpr (by decide +kernel)⟩

/-- The length 0 asks for a shift by 32. Where that shifts by nothing, the mask is all ones. -/
theorem default_route_mask : checkIpSubnetFormat fewRoutes "0.0.0.0/0" = true ∧
    statedLength "0.0.0.0/0" = 0 ∧ shiftCount "0.0.0.0/0" = some 32 ∧
    netMaskFromIpWithSubnet fewRoutes "0.0.0.0/0" = "255.255.255.255" := by
  decide +kernel

end AmneziaVpn.NetworkUtilities
