import AmneziaVpn.ConnectionController
import AmneziaVpn.ImportController

/-!
# The import of an API configuration

An API configuration is stored as a server, together with a checksum of its text.
-/

namespace AmneziaVpn

open List

def ServerCredentials.isValid (c : ServerCredentials) : Bool :=
  c.hostName ≠ "" && c.userName ≠ "" && c.secretData ≠ "" && 0 < c.port

/-- `static_cast<quint16>(server.value("crc").toInt())` -/
def storedCrc (server : QJsonObject) : UInt16 := .ofInt (server.value "crc").toInt

def ServersModel.isServerFromApiAlreadyExists (m : ServersModel) (crc : UInt16) : Bool :=
  m.servers.any fun server => storedCrc server = crc

namespace ImportController

def credentials (config : QJsonObject) : ServerCredentials where
  hostName := (config.value "hostName").toString
  userName := (config.value "userName").toString
  secretData := (config.value "password").toString
  port := (config.value "port").toInt

section Import

/-! The library's `qChecksum` is any function to 16 bits. -/

variable (qt : QtRuntime) (qChecksum : QByteArray → UInt16)

def crc (config : QJsonObject) : UInt16 := qChecksum (QString.toUtf8 (qt.indented config))

def withCrc (config : QJsonObject) : QJsonObject :=
  config.insert "crc" (.double (crc qt qChecksum config).toNat)

def importConfig (m : ServersModel) (c : ImportController) : ServersModel × ImportController :=
  let (m, signal) :=
    if (credentials c.m_config).isValid || c.m_config.contains "containers" then
      (m.addServer c.m_config, ImportSignal.importFinished)
    else if c.m_config.contains "config_version" then
      if m.isServerFromApiAlreadyExists (crc qt qChecksum c.m_config) then
        (m, .apiConfigAlreadyAdded true)
      else (m.addServer (withCrc qt qChecksum c.m_config), .importFinished)
    else (m, .importInvalidConfigError false)
  (m, { c with m_config := [], m_maliciousWarningText := "" }.emit signal)

def isApiConfig (config : QJsonObject) : Bool :=
  !(credentials config).isValid && !config.contains "containers" && config.contains "config_version"

variable {qt qChecksum} {config : QJsonObject} {m : ServersModel} {c : ImportController}

theorem importConfig_eq (h : isApiConfig c.m_config = true) :
    importConfig qt qChecksum m c =
      if m.isServerFromApiAlreadyExists (crc qt qChecksum c.m_config) then
        (m, { c with m_config := [], m_maliciousWarningText := "" }.emit (.apiConfigAlreadyAdded true))
      else (m.addServer (withCrc qt qChecksum c.m_config),
        { c with m_config := [], m_maliciousWarningText := "" }.emit .importFinished) := by
  simp only [isApiConfig, Bool.and_eq_true, Bool.not_eq_true'] at h
  unfold importConfig
  rw [h.1.1, h.1.2, if_neg (by decide), if_pos h.2]
  split_ifs <;> rfl

theorem toInt_toNat (n : UInt16) : (QJsonValue.double n.toNat).toInt = n.toNat := by
  have hlt := n.toNat_lt
  have hrange : ¬ 2 ^ 31 ≤ n.toNat := by omega
  simpa [QJsonValue.toInt] using fun h => absurd h hrange

theorem storedCrc_withCrc : storedCrc (withCrc qt qChecksum config) = crc qt qChecksum config := by
  have hmod : ((crc qt qChecksum config).toNat : ℤ) % 2 ^ 16 = (crc qt qChecksum config).toNat :=
    Int.emod_eq_of_lt (Int.natCast_nonneg _) (by exact_mod_cast UInt16.toNat_lt _)
  rw [storedCrc, withCrc, QJsonObject.value_insert_self, toInt_toNat, UInt16.ofInt, hmod,
    Int.toNat_natCast, UInt16.ofNat_toNat]

/-- A stored server with the configuration it was imported from. -/
structure StoredServer (qt : QtRuntime) (qChecksum : QByteArray → UInt16) where
  server : QJsonObject
  origin : Option QJsonObject
  crc_eq : ∀ config ∈ origin, storedCrc server = crc qt qChecksum config

namespace StoredServer

def imported (qt : QtRuntime) (qChecksum : QByteArray → UInt16) (config : QJsonObject) :
    StoredServer qt qChecksum where
  server := withCrc qt qChecksum config
  origin := some config
  crc_eq := by
    intro _ h
    rw [storedCrc_withCrc, Option.mem_some_iff.mp h]

end StoredServer

theorem servers_importConfig {stored : List (StoredServer qt qChecksum)}
    (hm : m.servers = stored.map StoredServer.server) (h : isApiConfig c.m_config = true) :
    (importConfig qt qChecksum m c).1.servers = (if m.isServerFromApiAlreadyExists
      (crc qt qChecksum c.m_config) then stored
      else stored ++ [.imported qt qChecksum c.m_config]).map StoredServer.server := by
  rw [importConfig_eq h]
  split_ifs
  · exact hm
  · rw [map_append, ← hm]
    rfl

end Import

def keyConfig (key : String) : QJsonObject :=
  [("api_key", .string key), ("config_version", .double 1)]

theorem isApiConfig_keyConfig (key : String) : isApiConfig (keyConfig key) = true := rfl

def offering (config : QJsonObject) : ImportController := { idleController with m_config := config }

/-- The CRC of ISO 3309, which `qChecksum` computes, bit by bit. -/
def iso3309 (bytes : QByteArray) : UInt16 :=
  let bit (crc : ℕ) : ℕ := if crc % 2 = 1 then crc / 2 ^^^ 0x8408 else crc / 2
  .ofNat (0xffff ^^^ bytes.foldl (fun crc b => bit^[8] (crc ^^^ b.toNat)) 0xffff)

end ImportController

end AmneziaVpn
