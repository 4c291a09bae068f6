import AmneziaVpn.ExportController
import AmneziaVpn.ServerController

/-!
# The servers of the application

The stored servers are a list that is accessed by index. One index is that of the default server,
another one that of the server which is being processed in the user interface.
-/

namespace AmneziaVpn

structure ServersModel where
  servers : List QJsonObject
  defaultServerIndex : ℤ
  processedServerIndex : ℤ

namespace ServersModel

variable (m : ServersModel)

/-- `QJsonArray::at`: there is nothing at an index out of range. -/
def getServerConfig (index : ℤ) : QJsonObject :=
  if 0 ≤ index then m.servers.getD index.toNat [] else []

def addServer (server : QJsonObject) : ServersModel :=
  { m with servers := m.servers ++ [server] }

/-- Nothing is stored at an index out of range. -/
def editServer (server : QJsonObject) (serverIndex : ℤ) : ServersModel :=
  if 0 ≤ serverIndex then { m with servers := m.servers.set serverIndex.toNat server } else m

def setProcessedServerIndex (index : ℤ) : ServersModel :=
  { m with processedServerIndex := index }

/-- `Settings::removeServer` -/
def withoutServer (servers : List QJsonObject) (index : ℤ) : List QJsonObject :=
  if 0 ≤ index then servers.eraseIdx index.toNat else servers

/-- The processed server is removed, and the default server becomes the processed one. -/
def removeServer : ServersModel :=
  let servers := withoutServer m.servers m.processedServerIndex
  let default :=
    if servers.isEmpty then -1
    else if m.defaultServerIndex = m.processedServerIndex then 0
    else if m.defaultServerIndex > m.processedServerIndex then m.defaultServerIndex - 1
    else m.defaultServerIndex
  { servers := servers, defaultServerIndex := default, processedServerIndex := default }

end ServersModel

end AmneziaVpn
