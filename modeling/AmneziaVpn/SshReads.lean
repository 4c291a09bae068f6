import AmneziaVpn.WireguardSections

/-!
# The reads of a command's output

The output of a command is read in pieces of at most 2048 bytes, cut wherever the data happens to
arrive.
-/

namespace AmneziaVpn

open List QString

namespace ServerController

/-- A way to cut the output into reads with a buffer of 2048 bytes. -/
structure IsReading (output : QByteArray) (reads : List QByteArray) : Prop where
  flatten : reads.flatten = output
  sized : ∀ read ∈ reads, read ≠ [] ∧ read.length ≤ 2048

/-- `QString(output.c_str())`, which ends at the first zero byte. -/
def readText (replacement : QByteArray → String) (read : QByteArray) : String :=
  fromUtf8 replacement (read.takeWhile (· ≠ 0))

section Readings

variable {output before after : QByteArray} {reads reads' : List QByteArray}

theorem isReading_bytes (output : QByteArray) : IsReading output (output.map fun b => [b]) where
  flatten := by
    induction output with
    | nil => rfl
    | cons b output ih => rw [map_cons, flatten_cons, ih, singleton_append]
  sized read hread := by
    obtain ⟨b, -, rfl⟩ := mem_map.mp hread
    exact ⟨cons_ne_nil b [], by simp⟩

theorem IsReading.append (h : IsReading before reads) (h' : IsReading after reads') :
    IsReading (before ++ after) (reads ++ reads') where
  flatten := by rw [flatten_append, h.flatten, h'.flatten]
  sized read hread := by
    rcases mem_append.mp hread with hread | hread
    · exact h.sized read hread
    · exact h'.sized read hread

theorem isReading_singleton {read : QByteArray} (hne : read ≠ []) (hlength : read.length ≤ 2048) :
    IsReading read [read] where
  flatten := append_nil read
  sized r hr := by
    rw [mem_singleton.mp hr]
    exact ⟨hne, hlength⟩

end Readings

end ServerController

namespace WireguardConfigurator

open ServerController

def allowedIPsOutput (file : String) : QByteArray := toUtf8 (grep "AllowedIPs" file)

section Reads

variable (replacement : QByteArray → String)

def lastIp (reads : List QByteArray) : Option String :=
  (ips (collected (reads.map (readText replacement)))).getLast?

def assignedFrom (containerConfig : QJsonObject) (reads : List QByteArray) :
    Except ErrorCode String :=
  assigned containerConfig (lastIp replacement reads)

/-- The bytes can be read so that no address is found in them. -/
def Silent (bytes : QByteArray) : Prop :=
  ∃ reads, IsReading bytes reads ∧ ∀ read ∈ reads, ips (readText replacement read) = []

def CanBeLast (output : QByteArray) (last : Option String) : Prop :=
  last = none ∧ Silent replacement output ∨
    ∃ before read after ip, output = before ++ (read ++ after) ∧ read ≠ [] ∧ read.length ≤ 2048 ∧
      (ips (readText replacement read)).getLast? = some ip ∧ last = some ip ∧
      Silent replacement after

end Reads

def number : Option String → ℤ
  | none => 2
  | some ip => next ip

def subnetParts (containerConfig : QJsonObject) : List String :=
  splitSkipEmpty
    ((containerConfig.value "subnet_address").toStringOr defaultSubnetAddress) "."

section Outcome

variable {α β : Type*} {f : α → List β} {l : List α} {x : β}

theorem getLast?_flatMap_eq_none_iff : (l.flatMap f).getLast? = none ↔ ∀ a ∈ l, f a = [] := by
  rw [getLast?_eq_none_iff, flatMap_eq_nil_iff]

theorem getLast?_flatMap_append_cons {a c : List α} {b : α} (hx : (f b).getLast? = some x)
    (hc : ∀ d ∈ c, f d = []) : ((a ++ b :: c).flatMap f).getLast? = some x := by
  rw [flatMap_append, flatMap_cons, flatMap_eq_nil_iff.mpr hc, append_nil,
    getLast?_append, hx, Option.some_or]

theorem exists_of_getLast?_flatMap (h : (l.flatMap f).getLast? = some x) :
    ∃ a b c, l = a ++ b :: c ∧ (f b).getLast? = some x ∧ ∀ d ∈ c, f d = [] := by
  induction l using List.reverseRecOn with
  | nil => cases h
  | append_singleton l y ih =>
    rw [flatMap_append, flatMap_singleton, getLast?_append] at h
    cases hy : (f y).getLast? with
    | none =>
      rw [hy, Option.none_or] at h
      obtain ⟨a, b, c, rfl, hb, hc⟩ := ih h
      refine ⟨a, b, c ++ [y], by simp, hb, ?_⟩
      intro d hd
      rcases mem_append.mp hd with hd | hd
      · exact hc d hd
      · rw [mem_singleton.mp hd]
        exact getLast?_eq_none_iff.mp hy
    | some z =>
      rw [hy, Option.some_or] at h
      exact ⟨l, y, [], rfl, hy.trans h, by simp⟩

end Outcome

section Last

variable {replacement : QByteArray → String} {output : QByteArray} {containerConfig : QJsonObject}

theorem lastIp_eq (reads : List QByteArray) :
    lastIp replacement reads = (reads.flatMap fun read => ips (readText replacement read)).getLast? := by
  unfold lastIp
  rw [ips_collected, flatMap_map]

theorem canBeLast_iff (last : Option String) :
    CanBeLast replacement output last ↔
      ∃ reads, IsReading output reads ∧ lastIp replacement reads = last := by
  simp only [lastIp_eq]
  constructor
  · rintro (⟨rfl, reads, hreads, hsilent⟩ |
      ⟨before, read, after, ip, rfl, hne, hlength, hip, rfl, reads, hreads, hsilent⟩)
    · exact ⟨reads, hreads, getLast?_flatMap_eq_none_iff.mpr hsilent⟩
    · refine ⟨(before.map fun b => [b]) ++ read :: reads, ?_, ?_⟩
      · exact (isReading_bytes before).append ((isReading_singleton hne hlength).append hreads)
      · exact getLast?_flatMap_append_cons hip hsilent
  · rintro ⟨reads, hreads, hlast⟩
    cases last with
    | none => exact .inl ⟨rfl, reads, hreads, getLast?_flatMap_eq_none_iff.mp hlast⟩
    | some ip =>
      obtain ⟨a, read, c, rfl, hip, hc⟩ := exists_of_getLast?_flatMap hlast
      have hsized := hreads.sized read (by simp)
      have hafter : IsReading c.flatten c :=
        ⟨rfl, fun r hr => hreads.sized r (mem_append_right a (mem_cons_of_mem read hr))⟩
      refine .inr ⟨a.flatten, read, c.flatten, ip, ?_, hsized.1, hsized.2, hip, rfl, c, hafter, hc⟩
      rw [← hreads.flatten, flatten_append, flatten_cons]

theorem canBeLast_lastIp {reads : List QByteArray} (h : IsReading output reads) :
    CanBeLast replacement output (lastIp replacement reads) := by
  rw [canBeLast_iff]
  exact ⟨reads, h, rfl⟩

theorem nextIpNumber_eq_number (last : Option String) :
    nextIpNumber last =
      if number last > 254 then .error .addressPoolError else .ok (toString (number last)) := by
  cases last <;> rfl

theorem clientIP_of_parts_nil (h : subnetParts containerConfig = []) (number : String) :
    clientIP containerConfig number = .error .addressPoolError := by
  unfold subnetParts at h
  simp [clientIP, h]

theorem clientIP_of_parts_ne_nil (h : subnetParts containerConfig ≠ []) (number : String) :
    clientIP containerConfig number =
      .ok (join ((subnetParts containerConfig).dropLast ++ [number]) ".") := by
  unfold subnetParts at h ⊢
  simp [clientIP, h]

theorem join_concat_injective {parts : List String} {m n : String}
    (h : join (parts ++ [m]) "." = join (parts ++ [n]) ".") : m = n := by
  have htext : ∀ last : String, (join (parts ++ [last]) ".").toList =
      ['.'].intercalate (parts.map String.toList ++ [last.toList]) := by
    intro last
    unfold join
    rw [String.toList_intercalate, map_append, map_singleton]
    rfl
  have h := congrArg String.toList h
  rw [htext, htext] at h
  apply String.toList_inj.mp
  by_cases hnil : parts.map String.toList = []
  · simpa [hnil] using h
  · rw [Pieces.intercalate_concat hnil, Pieces.intercalate_concat hnil] at h
    exact (List.cons.inj (append_cancel_left h)).2

theorem assigned_of_parts_nil (h : subnetParts containerConfig = []) (last : Option String) :
    assigned containerConfig last = .error .addressPoolError := by
  unfold assigned
  rw [nextIpNumber_eq_number]
  split_ifs
  · rfl
  · exact clientIP_of_parts_nil h _

theorem assigned_eq_iff (h : subnetParts containerConfig ≠ []) (last last' : Option String) :
    assigned containerConfig last = assigned containerConfig last' ↔
      min (number last) 255 = min (number last') 255 := by
  unfold assigned
  rw [nextIpNumber_eq_number, nextIpNumber_eq_number]
  by_cases hlast : number last > 254 <;> by_cases hlast' : number last' > 254
  · rw [if_pos hlast, if_pos hlast', min_eq_right (by omega), min_eq_right (by omega)]
    exact iff_of_true rfl rfl
  · rw [if_pos hlast, if_neg hlast']
    dsimp only
    rw [clientIP_of_parts_ne_nil h]
    exact iff_of_false (fun heq => by cases heq) (by omega)
  · rw [if_neg hlast, if_pos hlast']
    dsimp only
    rw [clientIP_of_parts_ne_nil h]
    exact iff_of_false (fun heq => by cases heq) (by omega)
  · rw [if_neg hlast, if_neg hlast']
    dsimp only
    rw [clientIP_of_parts_ne_nil h, clientIP_of_parts_ne_nil h, min_eq_left (by omega),
      min_eq_left (by omega)]
    constructor
    · intro heq
      exact toString_injective (join_concat_injective (Except.ok.inj heq))
    · intro heq
      rw [heq]

end Last

end WireguardConfigurator

end AmneziaVpn
