import AmneziaVpn.MozillaIpAddress
import Mathlib.Data.List.AList
import Mathlib.Data.List.TakeWhile

/-!
# Resolvers on macOS

An update of the resolvers saves the DNS settings of every network service as texts and replaces
them.
-/

namespace AmneziaVpn

open List

inductive CFScalar
  | string (text : String)
  | other (id : ℕ)
deriving DecidableEq

inductive CFValue
  | scalar (value : CFScalar)
  | array (values : List CFScalar)
deriving DecidableEq

/-- The properties of the DNS settings that are saved. -/
@[ext] structure DnsSettings where
  domainName : Option CFValue := none
  searchDomains : Option CFValue := none
  serverAddresses : Option CFValue := none
  sortList : Option CFValue := none
deriving DecidableEq

def IsByteOrderMark (c : Char) : Prop := c = '\ufeff' ∨ c = '\ufffe'

/-- How Qt decodes UTF-16 and prints addresses. -/
structure QtUnicode where
  fromUtf16 : String → String
  print : QHostAddress → String
  fromUtf16_eq : ∀ text, (∀ c ∈ text.toList.head?, ¬ IsByteOrderMark c) → fromUtf16 text = text
  print_head : ∀ address, ∀ c ∈ (print address).toList.head?, ¬ IsByteOrderMark c

/-- A text without a value is a null `QString`. -/
structure DnsBackup where
  m_domain : Option String := none
  m_search : List (Option String) := []
  m_servers : List (Option String) := []
  m_sortlist : List (Option String) := []

namespace DnsBackup

variable (backup : DnsBackup)

def isValid : Bool :=
  backup.m_domain.getD "" ≠ "" || backup.m_search ≠ [] || backup.m_servers ≠ [] ||
    backup.m_sortlist ≠ []

theorem isValid_iff : backup.isValid = true ↔
    backup.m_domain.getD "" ≠ "" ∨ backup.m_search ≠ [] ∨ backup.m_servers ≠ [] ∨
      backup.m_sortlist ≠ [] := by
  simp [isValid, or_assoc]

end DnsBackup

/-- The network services and what the dynamic store has under their keys for DNS. -/
structure MacosNetwork where
  services : List String
  dns : String → Option DnsSettings
  nodup_services : services.Nodup

def MacosNetwork.settings (n : MacosNetwork) (uuid : String) : DnsSettings := (n.dns uuid).getD {}

structure DnsUtilsMacos where
  network : MacosNetwork
  m_prevServices : AList fun _ : String => DnsBackup := ∅

inductive ResolverCall
  | update (resolvers : List QHostAddress)
  | restore
deriving DecidableEq

namespace DnsUtilsMacos

variable (qt : QtUnicode)

def cfParseString : CFScalar → Option String
  | .string text => if text = "" then none else some (qt.fromUtf16 text)
  | .other _ => none

def cfParseText : CFValue → Option String
  | .scalar value => cfParseString qt value
  | .array _ => none

def cfParseStringList : CFValue → List (Option String)
  | .scalar _ => []
  | .array values => values.map (cfParseString qt)

/-- `qUtf8Printable` as a C string, which ends at the first zero. -/
def cString (text : String) : String := String.ofList (text.toList.takeWhile (· ≠ '\x00'))

def cfDictSetString (value : Option String) : Option CFValue :=
  value.map fun text => .scalar (.string (cString text))

def cfDictSetStringList (valueList : List (Option String)) : Option CFValue :=
  if valueList = [] then none
  else some (.array (valueList.map fun text => .string (cString (text.getD ""))))

def backup : Option DnsSettings → DnsBackup
  | none => {}
  | some config =>
      { m_domain := config.domainName.bind (cfParseText qt)
        m_servers := (config.serverAddresses.map (cfParseStringList qt)).getD []
        m_search := (config.searchDomains.map (cfParseStringList qt)).getD []
        m_sortlist := (config.sortList.map (cfParseStringList qt)).getD [] }

variable (resolvers : List QHostAddress)

def dnsConfig : DnsSettings :=
  { serverAddresses := cfDictSetStringList (resolvers.map fun addr => some (qt.print addr))
    domainName := cfDictSetString (some "lan") }

def restored (backup : DnsBackup) : Option DnsSettings :=
  if backup.isValid then
    some
      { domainName := cfDictSetString backup.m_domain
        searchDomains := cfDictSetStringList backup.m_search
        serverAddresses := cfDictSetStringList backup.m_servers
        sortList := cfDictSetStringList backup.m_sortlist }
  else none

def setDns (uuid : String) (value : Option DnsSettings) (d : DnsUtilsMacos) : DnsUtilsMacos :=
  { d with network.dns := Function.update d.network.dns uuid value }

def backupService (uuid : String) (d : DnsUtilsMacos) : DnsUtilsMacos :=
  { d with m_prevServices := d.m_prevServices.insert uuid (backup qt (d.network.dns uuid)) }

variable (d : DnsUtilsMacos)

/-- The update once the keys of the services have been listed. -/
def updateResolvers : DnsUtilsMacos :=
  d.network.services.foldl
    (fun d uuid => setDns uuid (some (dnsConfig qt resolvers)) (backupService qt uuid d)) d

def restoreResolvers : DnsUtilsMacos :=
  { d.m_prevServices.entries.foldl (fun d e => setDns e.1 (restored e.2) d) d with
    m_prevServices := ∅ }

def step : ResolverCall → DnsUtilsMacos
  | .update resolvers => updateResolvers qt resolvers d
  | .restore => restoreResolvers d

def run (calls : List ResolverCall) (d : DnsUtilsMacos) : DnsUtilsMacos := calls.foldl (step qt) d

def Restored (n : MacosNetwork) (calls : List ResolverCall) : Prop :=
  ∀ before after, calls = before ++ .restore :: after → ∀ uuid ∈ n.services,
    (run qt (before ++ [.restore]) { network := n }).network.settings uuid = n.settings uuid

section RoundTrip

/-- The text is the same after it has been read and written. -/
def KeptText (text : String) : Prop := cString (qt.fromUtf16 text) = text

variable (config : DnsSettings)

def roundTrip : DnsSettings := (restored (backup qt (some config))).getD {}

/-- The values are texts and lists of texts. None of them is empty, and all of them can be kept. -/
structure Readable (config : DnsSettings) : Prop where
  domainName : ∀ v ∈ config.domainName, ∃ text, text ≠ "" ∧ KeptText qt text ∧
    v = .scalar (.string text)
  lists : ∀ list ∈ [config.searchDomains, config.serverAddresses, config.sortList],
    ∀ v ∈ list, ∃ texts : List String, texts ≠ [] ∧ (∀ text ∈ texts, KeptText qt text) ∧
      v = .array (texts.map .string)

variable {qt}

theorem keptText_of_unmarked {text : String} (hzero : '\x00' ∉ text.toList)
    (hmark : ∀ c ∈ text.toList.head?, ¬ IsByteOrderMark c) : KeptText qt text := by
  have hall : text.toList.takeWhile (· ≠ '\x00') = text.toList := by
    apply takeWhile_eq_self_iff.mpr
    intro c hc
    exact decide_eq_true fun heq => hzero (heq ▸ hc)
  rw [KeptText, qt.fromUtf16_eq text hmark, cString, hall, String.ofList_toList]

theorem keptText_empty : KeptText qt "" := keptText_of_unmarked (by simp) (by simp)

theorem keptText_cString {text : String} (hmark : ∀ c ∈ text.toList.head?, ¬ IsByteOrderMark c) :
    KeptText qt (cString text) := by
  have hlist : (cString text).toList = text.toList.takeWhile (· ≠ '\x00') := String.toList_ofList
  apply keptText_of_unmarked
  · rw [hlist]
    intro hmem
    simpa using mem_takeWhile_imp hmem
  · rw [hlist]
    intro c hc
    cases htext : text.toList with
    | nil => simp [htext] at hc
    | cons first rest =>
      apply hmark
      rw [htext] at hc ⊢
      by_cases hfirst : first = '\x00'
      · simp [hfirst] at hc
      · simpa [takeWhile_cons, hfirst] using hc

variable (value : Option CFValue)

theorem domainName_roundTrip_iff :
    cfDictSetString (value.bind (cfParseText qt)) = value ↔
      ∀ v ∈ value, ∃ text, text ≠ "" ∧ KeptText qt text ∧ v = .scalar (.string text) := by
  rcases value with - | (text | id) | values
  · simp [cfDictSetString]
  · by_cases hempty : text = ""
    · simp [cfDictSetString, cfParseText, cfParseString, hempty]
    · simp [cfDictSetString, cfParseText, cfParseString, hempty, KeptText]
  · simp [cfDictSetString, cfParseText, cfParseString]
  · simp [cfDictSetString, cfParseText]

theorem map_cfParseString_eq_iff (values : List CFScalar) :
    (values.map (cfParseString qt)).map (fun text => CFScalar.string (cString (text.getD ""))) =
      values ↔ ∃ texts : List String, (∀ text ∈ texts, KeptText qt text) ∧
        values = texts.map .string := by
  induction values with
  | nil => exact iff_of_true rfl ⟨[], by simp, rfl⟩
  | cons v values ih =>
    have hv : CFScalar.string (cString ((cfParseString qt v).getD "")) = v ↔
        ∃ text, KeptText qt text ∧ v = .string text := by
      rcases v with text | id
      · by_cases hempty : text = ""
        · subst hempty
          exact iff_of_true rfl ⟨"", keptText_empty, rfl⟩
        · simp [cfParseString, hempty, KeptText]
      · simp
    rw [map_cons, map_cons, List.cons.injEq, hv, ih]
    constructor
    · rintro ⟨⟨text, htext, rfl⟩, texts, htexts, rfl⟩
      exact ⟨text :: texts, forall_mem_cons.mpr ⟨htext, htexts⟩, rfl⟩
    · rintro ⟨texts, htexts, heq⟩
      cases texts with
      | nil => cases heq
      | cons text texts =>
        obtain ⟨rfl, rfl⟩ := List.cons.inj heq
        obtain ⟨htext, htexts⟩ := forall_mem_cons.mp htexts
        exact ⟨⟨text, htext, rfl⟩, texts, htexts, rfl⟩

theorem list_roundTrip_iff :
    cfDictSetStringList ((value.map (cfParseStringList qt)).getD []) = value ↔
      ∀ v ∈ value, ∃ texts : List String, texts ≠ [] ∧ (∀ text ∈ texts, KeptText qt text) ∧
        v = .array (texts.map .string) := by
  rcases value with - | v | values
  · simp [cfDictSetStringList]
  · simp [cfDictSetStringList, cfParseStringList]
  · cases values with
    | nil => simp [cfDictSetStringList, cfParseStringList]
    | cons v values =>
      have hlist := @map_cfParseString_eq_iff qt (v :: values)
      rw [Option.map_some, Option.getD_some, cfParseStringList, cfDictSetStringList,
        if_neg (by simp), Option.some.injEq, CFValue.array.injEq, hlist]
      constructor
      · rintro ⟨texts, htexts, heq⟩ v' hv'
        obtain rfl := Option.some.inj hv'
        refine ⟨texts, ?_, htexts, congrArg CFValue.array heq⟩
        rintro rfl
        cases heq
      · intro h
        obtain ⟨texts, -, htexts, heq⟩ := h _ rfl
        exact ⟨texts, htexts, CFValue.array.inj heq⟩

theorem readable_iff : Readable qt config ↔
    cfDictSetString (config.domainName.bind (cfParseText qt)) = config.domainName ∧
    cfDictSetStringList ((config.searchDomains.map (cfParseStringList qt)).getD []) =
      config.searchDomains ∧
    cfDictSetStringList ((config.serverAddresses.map (cfParseStringList qt)).getD []) =
      config.serverAddresses ∧
    cfDictSetStringList ((config.sortList.map (cfParseStringList qt)).getD []) =
      config.sortList := by
  rw [domainName_roundTrip_iff, list_roundTrip_iff, list_roundTrip_iff, list_roundTrip_iff]
  constructor
  · rintro ⟨hdomain, hlists⟩
    exact ⟨hdomain, hlists _ (by simp), hlists _ (by simp), hlists _ (by simp)⟩
  · rintro ⟨hdomain, hsearch, hservers, hsort⟩
    refine ⟨hdomain, fun list hlist => ?_⟩
    simp only [mem_cons, not_mem_nil, or_false] at hlist
    rcases hlist with rfl | rfl | rfl
    · exact hsearch
    · exact hservers
    · exact hsort

theorem domainName_roundTrip_of_empty {value : Option CFValue}
    (hempty : (value.bind (cfParseText qt)).getD "" = "") :
    cfDictSetString (value.bind (cfParseText qt)) = value ↔ none = value := by
  constructor
  · intro hkept
    cases hparsed : value.bind (cfParseText qt) with
    | none =>
      rw [hparsed] at hkept
      exact hkept
    | some text =>
      rw [hparsed, Option.getD_some] at hempty
      rw [hparsed, hempty] at hkept
      obtain ⟨text', hne, -, heq⟩ := (@domainName_roundTrip_iff qt value).mp
        (by rw [hparsed, hempty, hkept]) _ hkept.symm
      cases heq
      exact absurd rfl hne
  · rintro rfl
    rfl

theorem roundTrip_eq_iff : roundTrip qt config = config ↔ Readable qt config := by
  rw [readable_iff, roundTrip, restored]
  by_cases hvalid : (backup qt (some config)).isValid = true
  · rw [if_pos hvalid, Option.getD_some, DnsSettings.ext_iff]
    rfl
  · rw [if_neg hvalid, Option.getD_none]
    simp only [DnsBackup.isValid_iff, not_or, not_not] at hvalid
    obtain ⟨hdomain, hsearch, hservers, hsort⟩ := hvalid
    dsimp only [backup] at hdomain hsearch hservers hsort
    rw [hsearch, hservers, hsort, domainName_roundTrip_of_empty hdomain, DnsSettings.ext_iff]
    rfl

variable (resolvers : List QHostAddress)

theorem readable_dnsConfig : Readable qt (dnsConfig qt resolvers) := by
  have hlan : KeptText qt "lan" := by
    apply keptText_of_unmarked
    · decide
    · simp [IsByteOrderMark]
  refine ⟨?_, ?_⟩
  · rintro v ⟨⟩
    exact ⟨"lan", by decide, hlan, by decide⟩
  · intro list hlist v hv
    simp only [dnsConfig, mem_cons, not_mem_nil, or_false] at hlist
    rcases hlist with rfl | rfl | rfl
    · cases hv
    · unfold cfDictSetStringList at hv
      split_ifs at hv with hnil
      · cases hv
      · obtain rfl := Option.some.inj hv
        refine ⟨resolvers.map fun addr => cString (qt.print addr), ?_, ?_, ?_⟩
        · simpa using hnil
        · intro text htext
          obtain ⟨addr, -, rfl⟩ := mem_map.mp htext
          exact keptText_cString (qt.print_head addr)
        · simp
    · cases hv

theorem roundTrip_dnsConfig : roundTrip qt (dnsConfig qt resolvers) = dnsConfig qt resolvers :=
  (roundTrip_eq_iff _).mpr (readable_dnsConfig resolvers)

end RoundTrip

section Loops

variable {qt} {d : DnsUtilsMacos} {uuid : String}

theorem foldl_update (config : DnsSettings) {services : List String} (hnodup : services.Nodup)
    (d : DnsUtilsMacos) (uuid : String) :
    let d' := services.foldl (fun d uuid => setDns uuid (some config) (backupService qt uuid d)) d
    d'.network.services = d.network.services ∧
      d'.network.dns uuid = (if uuid ∈ services then some config else d.network.dns uuid) ∧
      d'.m_prevServices.lookup uuid =
        if uuid ∈ services then some (backup qt (d.network.dns uuid))
        else d.m_prevServices.lookup uuid := by
  induction services generalizing d with
  | nil => simp
  | cons first services ih =>
    obtain ⟨hfirst, hnodup⟩ := nodup_cons.mp hnodup
    obtain ⟨hservices, hdns, hprev⟩ := ih hnodup (setDns first (some config) (backupService qt first d))
    refine ⟨hservices, hdns.trans ?_, hprev.trans ?_⟩
    · by_cases heq : uuid = first
      · subst heq
        simp [hfirst, setDns]
      · simp [heq, setDns, backupService]
    · by_cases heq : uuid = first
      · subst heq
        simp [hfirst, setDns, backupService]
      · simp [heq, setDns, backupService]

variable (resolvers : List QHostAddress)

theorem services_updateResolvers :
    (updateResolvers qt resolvers d).network.services = d.network.services :=
  (foldl_update _ d.network.nodup_services d "").1

theorem settings_updateResolvers (h : uuid ∈ d.network.services) :
    (updateResolvers qt resolvers d).network.settings uuid = dnsConfig qt resolvers := by
  obtain ⟨-, hdns, -⟩ :=
    @foldl_update qt (dnsConfig qt resolvers) _ d.network.nodup_services d uuid
  rw [MacosNetwork.settings, updateResolvers, hdns, if_pos h, Option.getD_some]

theorem lookup_updateResolvers (h : uuid ∈ d.network.services) :
    (updateResolvers qt resolvers d).m_prevServices.lookup uuid =
      some (backup qt (d.network.dns uuid)) := by
  obtain ⟨-, -, hprev⟩ :=
    @foldl_update qt (dnsConfig qt resolvers) _ d.network.nodup_services d uuid
  rw [updateResolvers, hprev, if_pos h]

/-- The loop of a restore: a service that has been saved gets what was saved. -/
theorem foldl_restore {entries : List (Sigma fun _ : String => DnsBackup)}
    (hnodup : entries.NodupKeys) (d : DnsUtilsMacos) (uuid : String) :
    let d' := entries.foldl (fun d e => setDns e.1 (restored e.2) d) d
    d'.network.services = d.network.services ∧
      d'.network.dns uuid = ((entries.dlookup uuid).map restored).getD (d.network.dns uuid) := by
  induction entries generalizing d with
  | nil => simp
  | cons e entries ih =>
    obtain ⟨he, hnodup⟩ := nodupKeys_cons.mp hnodup
    obtain ⟨hservices, hdns⟩ := ih hnodup (setDns e.1 (restored e.2) d)
    refine ⟨hservices, hdns.trans ?_⟩
    obtain ⟨key, saved⟩ := e
    by_cases heq : uuid = key
    · subst heq
      rw [dlookup_cons_eq, dlookup_eq_none.mpr he]
      simp [setDns]
    · rw [dlookup_cons_ne _ _ heq]
      simp [setDns, heq]

theorem services_restoreResolvers : d.restoreResolvers.network.services = d.network.services :=
  (foldl_restore d.m_prevServices.nodupKeys d "").1

theorem settings_restoreResolvers (uuid : String) : d.restoreResolvers.network.settings uuid =
    (((d.m_prevServices.lookup uuid).map restored).getD (d.network.dns uuid)).getD {} := by
  obtain ⟨-, hdns⟩ := foldl_restore d.m_prevServices.nodupKeys d uuid
  rw [MacosNetwork.settings, restoreResolvers]
  exact congrArg (Option.getD · {}) hdns

theorem settings_restore_update (h : uuid ∈ d.network.services) :
    (updateResolvers qt resolvers d).restoreResolvers.network.settings uuid =
      roundTrip qt (d.network.settings uuid) := by
  rw [settings_restoreResolvers, lookup_updateResolvers resolvers h, MacosNetwork.settings]
  cases d.network.dns uuid with
  | none => rfl
  | some config => rfl

end Loops

section Calls

variable {qt} {n : MacosNetwork} {uuid : String}

variable (calls : List ResolverCall)

theorem run_append (calls' : List ResolverCall) (d : DnsUtilsMacos) :
    run qt (calls ++ calls') d = run qt calls' (run qt calls d) := foldl_append

theorem services_run (d : DnsUtilsMacos) :
    (run qt calls d).network.services = d.network.services := by
  induction calls generalizing d with
  | nil => rfl
  | cons call calls ih =>
    refine (ih (step qt d call)).trans ?_
    cases call with
    | update resolvers => exact services_updateResolvers resolvers
    | restore => exact services_restoreResolvers

def Clear : Prop :=
  calls = [] ∨ ∃ before, calls = before ++ [.restore]

theorem clear_or_update :
    Clear calls ∨ ∃ before resolvers, calls = before ++ [.update resolvers] := by
  rcases eq_nil_or_concat calls with rfl | ⟨before, call, rfl⟩
  · exact Or.inl (Or.inl rfl)
  · cases call with
    | update resolvers => exact Or.inr ⟨before, resolvers, concat_eq_append⟩
    | restore => exact Or.inl (Or.inr ⟨before, concat_eq_append⟩)

theorem m_prevServices_run_of_clear {calls : List ResolverCall} (h : Clear calls) :
    (run qt calls { network := n }).m_prevServices = ∅ := by
  rcases h with rfl | ⟨before, rfl⟩
  · rfl
  · rw [run_append]
    rfl

theorem settings_run_restore {calls : List ResolverCall} (h : Clear calls) (uuid : String) :
    (run qt (calls ++ [.restore]) { network := n }).network.settings uuid =
      (run qt calls { network := n }).network.settings uuid := by
  rw [run_append]
  refine (settings_restoreResolvers uuid).trans ?_
  rw [m_prevServices_run_of_clear h, AList.lookup_empty]
  rfl

variable (before : List ResolverCall) (resolvers : List QHostAddress)

theorem settings_run_update (h : uuid ∈ n.services) :
    (run qt (before ++ [.update resolvers]) { network := n }).network.settings uuid =
      dnsConfig qt resolvers := by
  rw [run_append]
  apply settings_updateResolvers
  rwa [services_run]

theorem settings_run_update_restore (h : uuid ∈ n.services) :
    (run qt (before ++ [.update resolvers] ++ [.restore]) { network := n }).network.settings uuid =
      roundTrip qt ((run qt before { network := n }).network.settings uuid) := by
  rw [run_append, run_append]
  apply settings_restore_update
  rwa [services_run]

def Restorable (qt : QtUnicode) (n : MacosNetwork) (calls : List ResolverCall) : Prop :=
  ∀ before resolvers after, calls = before ++ .update resolvers :: .restore :: after →
    ∀ uuid ∈ n.services,
      (Clear before → Readable qt (n.settings uuid)) ∧
      ∀ earlier resolvers', before = earlier ++ [.update resolvers'] →
        n.settings uuid = dnsConfig qt resolvers'

theorem settings_run_of_clear {calls before : List ResolverCall} (h : Restorable qt n calls)
    (hclear : Clear before) {after : List ResolverCall} (hcalls : calls = before ++ after)
    (huuid : uuid ∈ n.services) :
    (run qt before { network := n }).network.settings uuid = n.settings uuid := by
  rcases hclear with rfl | ⟨before, rfl⟩
  · rfl
  rcases clear_or_update before with hbefore | ⟨before, resolvers, rfl⟩
  · rw [settings_run_restore hbefore]
    exact settings_run_of_clear h hbefore (hcalls.trans (append_assoc ..)) huuid
  · have hsplit : calls = before ++ .update resolvers :: .restore :: after := by
      simp [hcalls]
    obtain ⟨hreadable, hsame⟩ := h before resolvers after hsplit uuid huuid
    rw [settings_run_update_restore before resolvers huuid]
    rcases clear_or_update before with hbefore | ⟨earlier, resolvers', rfl⟩
    · rw [settings_run_of_clear h hbefore hsplit huuid]
      exact (roundTrip_eq_iff _).mpr (hreadable hbefore)
    · rw [settings_run_update earlier resolvers' huuid, roundTrip_dnsConfig]
      exact (hsame earlier resolvers' rfl).symm
termination_by before.length

theorem restored_iff_restorable (n : MacosNetwork) (calls : List ResolverCall) :
    Restored qt n calls ↔ Restorable qt n calls := by
  constructor
  · intro h before resolvers after hcalls uuid huuid
    have hend := h (before ++ [.update resolvers]) after (by simp [hcalls]) uuid huuid
    rw [settings_run_update_restore before resolvers huuid] at hend
    constructor
    · intro hclear
      have hbefore : (run qt before { network := n }).network.settings uuid = n.settings uuid := by
        rcases hclear with rfl | ⟨before, rfl⟩
        · rfl
        · exact h before (.update resolvers :: .restore :: after) (by simp [hcalls]) uuid huuid
      rw [hbefore] at hend
      exact (roundTrip_eq_iff _).mp hend
    · rintro earlier resolvers' rfl
      rw [settings_run_update earlier resolvers' huuid, roundTrip_dnsConfig] at hend
      exact hend.symm
  · intro h before after hcalls uuid huuid
    have hsplit : calls = (before ++ [.restore]) ++ after := by simp [hcalls]
    exact settings_run_of_clear h (Or.inr ⟨before, rfl⟩) hsplit huuid

end Calls

end DnsUtilsMacos

end AmneziaVpn
