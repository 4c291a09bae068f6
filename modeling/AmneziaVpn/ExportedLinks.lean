import AmneziaVpn.ExportController
import AmneziaVpn.ImportController

/-!
# Importing what was exported

The link of an export is no share link and, apart from chance hits in its Base64 text, has none of
the patterns, so the import decodes it.
-/

namespace AmneziaVpn

open ExportController QString ImportController

variable {config : String}

theorem checkConfigFormat_of_patterns
    (h : ∀ pattern ∈ formatPatterns, contains config pattern = false) :
    checkConfigFormat config = .Invalid := by
  simp only [formatPatterns, List.mem_cons, List.not_mem_nil, or_false, forall_eq_or_imp,
    forall_eq] at h
  simp [checkConfigFormat, h]

theorem checkConfigFormat_of_containers (h : contains config amneziaConfigPattern = true) :
    checkConfigFormat config =
      if contains config backupPattern then .Backup else .Amnezia := by
  simp [checkConfigFormat, h]

theorem linkKind_vpn (t : String) : linkKind ("vpn://" ++ t) = none := by
  simp [linkKind, startsWith, String.toList_append]

theorem indented_ne_empty (qt : QtRuntime) (o : QJsonObject) : qt.indented o ≠ "" := by
  intro h
  have hlist := congrArg String.toList h
  simp [QtRuntime.indented, JsonWriter.toJson, JsonWriter.valueToJson] at hlist

theorem decoded_vpnLink {qt : QtRuntime}
    (hcompress : ∀ bytes, qt.qUncompress (qt.qCompress bytes) = bytes) (exported : QJsonObject) :
    decoded qt (vpnLink qt exported) = qt.indented exported := by
  have hcolon : ':' ∉ (Utils.toBase64Url
      (qt.qCompress (toUtf8 (qt.indented exported)))).toList :=
    Utils.not_mem_toBase64Url (by decide) _
  unfold decoded vpnLink
  rw [replace_append (by decide) hcolon, Utils.fromBase64Url_toBase64Url]
  dsimp only
  rw [hcompress, isEmpty_toUtf8 (indented_ne_empty qt exported)]
  exact fromUtf8_toUtf8 _ _

theorem extractConfigFromData_vpnLink {context : ImportContext}
    (hcompress : ∀ bytes, context.qt.qUncompress (context.qt.qCompress bytes) = bytes)
    {exported : QJsonObject}
    (hpatterns : ∀ pattern ∈ formatPatterns,
      contains (vpnLink context.qt exported) pattern = false) (c : ImportController) :
    c.extractConfigFromData context (vpnLink context.qt exported) =
      { c with m_configType := checkConfigFormat (context.qt.indented exported) }.extractByType
        context (context.qt.indented exported) := by
  rw [extractConfigFromData, vpnLink, linkKind_vpn, ← vpnLink]
  dsimp only
  rw [if_pos (checkConfigFormat_of_patterns hpatterns), decoded_vpnLink hcompress]

/-- A link is imported as it was exported unless its text has the pattern of a backup. -/
theorem extracted_export_iff (context : ImportContext) (c : ImportController)
    {serverConfig exported : QJsonObject} {link : String}
    (hexport : Exports context.qt serverConfig exported link)
    (hcompress : ∀ bytes, context.qt.qUncompress (context.qt.qCompress bytes) = bytes)
    (hjson : context.qt.fromJson (toUtf8 (context.qt.indented exported)) =
      .ok (.object exported))
    (hpatterns : ∀ pattern ∈ formatPatterns, contains link pattern = false) :
    ((c.extractConfigFromData context link).1 = true ∧
        (c.extractConfigFromData context link).2.m_configType = .Amnezia ∧
        (c.extractConfigFromData context link).2.m_config = exported) ↔
      contains (context.qt.indented exported) backupPattern = false := by
  obtain ⟨items, hitems⟩ := hexport.value_containers
  have hmem : ("containers", .array items) ∈ exported :=
    QJsonObject.mem_of_value_eq hitems rfl
  have hcontainers : contains (context.qt.indented exported) amneziaConfigPattern = true :=
    JsonWriter.contains_toJson_of_mem hmem (by decide)
  have hnonempty : exported.isEmpty = false :=
    List.isEmpty_eq_false_iff.mpr (List.ne_nil_of_mem hmem)
  have hobject : context.qt.objectFromJson (toUtf8 (context.qt.indented exported)) =
      exported := by
    rw [QtRuntime.objectFromJson, hjson]
    rfl
  obtain rfl := hexport.link_eq
  rw [extractConfigFromData_vpnLink hcompress hpatterns, checkConfigFormat_of_containers hcontainers]
  cases hbackup : contains (context.qt.indented exported) backupPattern with
  | true =>
    simp only [if_true, extractByType]
    split_ifs <;> simp
  | false =>
    simp [extractByType, offerChecked, hobject, hnonempty]

/-- The substrings of a link in terms of its characters, for runs on concrete servers. -/
theorem contains_vpnLink (qt : QtRuntime) (exported : QJsonObject) (pattern : String) :
    contains (vpnLink qt exported) pattern = decide (pattern.toList <:+: "vpn://".toList ++
      Base64.encode Base64.url (qt.qCompress (toUtf8 (qt.indented exported)))) := by
  simp only [contains, vpnLink, Utils.toBase64Url, String.toList_append,
    String.toList_ofList]

def namedServer (description : String) : QJsonObject := [("description", .string description)]

variable (serverConfig : QJsonObject)

def exportContext : ImportContext where
  qt := .plain QtRuntime.noUrl (fullAccessConfig serverConfig)
  serversCount := 1
  nextAvailableServerName := "Server 2"
  unsetPort := 0
  captured := none

def importedFullAccess : Bool × ImportController :=
  idleController.extractConfigFromData (exportContext serverConfig)
    (generateFullAccessConfig (exportContext serverConfig).qt serverConfig)

theorem extracted_export_home :
    ((importedFullAccess (namedServer "Home")).1 = true ∧
      (importedFullAccess (namedServer "Home")).2.m_configType = .Amnezia ∧
      (importedFullAccess (namedServer "Home")).2.m_config =
        fullAccessConfig (namedServer "Home")) ∧
    contains ((exportContext (namedServer "Home")).qt.indented
      (fullAccessConfig (namedServer "Home"))) backupPattern = false := by
  have hfree : contains ((exportContext (namedServer "Home")).qt.indented
      (fullAccessConfig (namedServer "Home"))) backupPattern = false := by decide +kernel
  have hpatterns : ∀ pattern ∈ formatPatterns, contains (generateFullAccessConfig
      (exportContext (namedServer "Home")).qt (namedServer "Home")) pattern = false := by
    simp only [generateFullAccessConfig, contains_vpnLink]
    decide +kernel
  have hlast : ((toUtf8 ((exportContext (namedServer "Home")).qt.indented
      (fullAccessConfig (namedServer "Home")))).reverse.dropWhile (· == 10)).head? =
      some 0x7d := by decide +kernel
  have hexport := @Exports.fullAccess (exportContext (namedServer "Home")).qt (namedServer "Home")
  unfold importedFullAccess
  exact ⟨(extracted_export_iff (exportContext (namedServer "Home")) idleController hexport
    (fun _ => rfl) (QtRuntime.fromJson_plain hlast) hpatterns).mpr hfree, hfree⟩

/-- A server that is named like the list of servers in a backup is taken for a backup. -/
theorem export_taken_for_backup :
    (importedFullAccess (namedServer "Servers/serversList")).1 = false ∧
      (importedFullAccess (namedServer "Servers/serversList")).2.m_configType = .Backup := by
  have hformat : checkConfigFormat ((exportContext (namedServer "Servers/serversList")).qt.indented
      (fullAccessConfig (namedServer "Servers/serversList"))) = .Backup := by decide +kernel
  have hpatterns : ∀ pattern ∈ formatPatterns, contains (vpnLink
      (exportContext (namedServer "Servers/serversList")).qt
      (fullAccessConfig (namedServer "Servers/serversList"))) pattern = false := by
    simp only [contains_vpnLink]
    decide +kernel
  have hcompress : ∀ bytes, (exportContext (namedServer "Servers/serversList")).qt.qUncompress
      ((exportContext (namedServer "Servers/serversList")).qt.qCompress bytes) = bytes :=
    fun _ => rfl
  rw [importedFullAccess, generateFullAccessConfig, extractConfigFromData_vpnLink hcompress hpatterns,
    hformat]
  exact ⟨rfl, rfl⟩

end AmneziaVpn
