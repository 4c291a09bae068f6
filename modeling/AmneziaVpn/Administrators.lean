import AmneziaVpn.RevocationRuns
import AmneziaVpn.WireguardClientRuns

/-!
# Administrators of one server

Several applications append, rename and revoke clients on the same server.
-/

namespace AmneziaVpn

open ServerController WireguardConfigurator ClientManagementModel

namespace WireguardConfigurator

def connectionData (c : Creation) (stdOut : String) : Except ErrorCode ConnectionData :=
  if c.clientPrivKey = "" ∨ c.clientPubKey = "" then .error .internalError
  else
    match c.scriptError, assigned c.containerConfig (ips stdOut).getLast?, c.serverPubKeyFile,
      c.pskKeyFile with
    | some e, _, _, _ => .error e
    | none, .error e, _, _ => .error e
    | none, .ok _, .error e, _ => .error e
    | none, .ok _, .ok _, .error e => .error e
    | none, .ok clientIP, .ok serverPubKey, .ok pskKey =>
        .ok
          { clientPrivKey := c.clientPrivKey
            clientPubKey := c.clientPubKey
            clientIP := clientIP
            serverPubKey := QString.replace serverPubKey "\n" ""
            pskKey := QString.replace pskKey "\n" ""
            host := c.hostName
            port := port c.isAwg c.containerConfig }

def withClient (d : ConnectionData) (file : String) : String :=
  file ++ configPart d.clientPubKey d.pskKey d.clientIP

end WireguardConfigurator

namespace ClientManagementModel

variable (clientsTable : List QJsonValue)

/-- `renameClient`, up to the upload. -/
def renamed (row : ℕ) (clientName : String) (timeStamp : Option String) : List QJsonValue :=
  let client := (clientsTable.getD row .undefined).toObject
  let userData := (client.value "userData").toObject.insert "clientName" (.string clientName)
  let userData := match timeStamp with
    | some date => userData.insert "creationDate" (.string date)
    | none => userData
  clientsTable.set row (.object (client.insert "userData" (.object userData)))

def hasValue (entry : QJsonValue) (clientId : String) : Bool :=
  match entry.toObject.value "clientId" with
  | .string id => id == clientId
  | _ => false

/-- `appendClient` after the refresh, up to the upload. -/
def appended (clientId clientName date : String) : List QJsonValue :=
  match clientsTable.findIdx? (hasValue · clientId) with
  | some row => renamed clientsTable row clientName (some date)
  | none =>
      let userData := (QJsonObject.insert [] "clientName" (.string clientName)).insert "creationDate"
        (.string date)
      clientsTable ++ [client clientId userData]

/-- A new client with its entry in the table, and what the operations on the server return. -/
structure Append where
  creation : Creation
  refresh : Refresh
  clientName : String
  date : String
  upload : Upload

inductive Next
  | finish
  | append (a : Append) (d : ConnectionData)
  | revoke (clientId : String) (r : Revoke)

/-- The next read, upload or command of an operation. -/
inductive Task
  | idle
  | readAddresses (a : Append)
  | uploadSection (a : Append) (d : ConnectionData)
  | syncAppended (a : Append) (d : ConnectionData)
  | readTable (r : Refresh) (next : Next)
  | readKeys (r : Refresh) (table : TableFile) (next : Next)
  | uploadKeys (r : Refresh) (next : Next)
  | wgShow (r : Refresh) (error : Option ErrorCode) (next : Next)
  | uploadTable (upload : Upload) (new : Option (String × String))
  | readConfig (row : ℕ) (r : Revoke)
  | uploadConfig (row : ℕ) (newConfig : String) (r : Revoke)
  | uploadRemaining (r : Revoke)
  | syncRevoked (r : Revoke)

structure Administrator where
  clientsTable : List QJsonValue
  task : Task

/-- The server, and the clients appended and not yet revoked. -/
structure World where
  server : Server
  live : List (String × String)

def Next.task (next : Next) (clientsTable : List QJsonValue) : Administrator :=
  match next with
  | .finish => ⟨clientsTable, .idle⟩
  | .append a d =>
      ⟨appended clientsTable d.clientPubKey a.clientName a.date,
        .uploadTable a.upload (some (d.clientPubKey, d.clientIP))⟩
  | .revoke clientId r =>
      match clientsTable.findIdx? fun entry =>
        (entry.toObject.value "clientId").toString == clientId with
      | some row => ⟨clientsTable, .readConfig row r⟩
      | none => ⟨clientsTable, .idle⟩

variable (w : World)

/-- A client is new when the table with it is uploaded without an error. -/
def Task.advance (clientsTable : List QJsonValue) : Task → World × Administrator
  | idle => (w, ⟨clientsTable, idle⟩)
  | readAddresses a =>
      match connectionData a.creation
        (collected (inOnePiece (grep "AllowedIPs" w.server.wgConf))) with
      | .error _ => (w, ⟨clientsTable, idle⟩)
      | .ok d => (w, ⟨clientsTable, uploadSection a d⟩)
  | uploadSection a d =>
      let wgConf := a.creation.upload.stored (withClient d w.server.wgConf) w.server.wgConf
      ({ w with server := { w.server with wgConf := wgConf } },
        match a.creation.upload.error with
        | some _ => ⟨clientsTable, idle⟩
        | none => ⟨clientsTable, syncAppended a d⟩)
  | syncAppended a d =>
      match a.creation.syncError with
      | some _ => (w, ⟨clientsTable, idle⟩)
      | none =>
          ({ w with server := { w.server with running := peerKeys w.server.wgConf } },
            ⟨clientsTable, readTable a.refresh (.append a d)⟩)
  | readTable r next =>
      match r.tableError with
      | some _ => (w, ⟨[], idle⟩)
      | none =>
          match w.server.clientsTable.toArray with
          | entry :: rest => (w, ⟨entry :: rest, wgShow r none next⟩)
          | [] =>
              (w, ⟨migration w.server.clientsTable.toObject,
                readKeys r w.server.clientsTable next⟩)
  | readKeys r table next =>
      match r.configError with
      | some _ => (w, ⟨clientsTable, idle⟩)
      | none =>
          let clientsTable := getWireGuardClients clientsTable w.server.wgConf
          if table.isEmptyArray && clientsTable.isEmpty && r.sameText then
            (w, ⟨clientsTable, wgShow r none next⟩)
          else (w, ⟨clientsTable, uploadKeys r next⟩)
  | uploadKeys r next =>
      ({ w with server := w.server.withTable r.upload clientsTable },
        ⟨clientsTable, wgShow r r.upload.error next⟩)
  | wgShow r error next =>
      let clientsTable := r.data.foldl showData clientsTable
      match error with
      | some _ => (w, ⟨clientsTable, idle⟩)
      | none => (w, next.task clientsTable)
  | uploadTable upload new =>
      ({ server := w.server.withTable upload clientsTable
         live := if upload.error = none then new.toList ++ w.live else w.live },
        ⟨clientsTable, idle⟩)
  | readConfig row r =>
      match r.configError with
      | some _ => (w, ⟨clientsTable, idle⟩)
      | none =>
          (w, ⟨clientsTable, uploadConfig row
            (newWireGuardConfig (clientIdAt clientsTable row) w.server.wgConf) r⟩)
  | uploadConfig row newConfig r =>
      let wgConf := r.configUpload.stored newConfig w.server.wgConf
      ({ w with server := { w.server with wgConf := wgConf } },
        match r.configUpload.error with
        | some _ => ⟨clientsTable, idle⟩
        | none => ⟨clientsTable.eraseIdx row, uploadRemaining r⟩)
  | uploadRemaining r =>
      ({ w with server := w.server.withTable r.tableUpload clientsTable },
        match r.tableUpload.error with
        | some _ => ⟨clientsTable, idle⟩
        | none => ⟨clientsTable, syncRevoked r⟩)
  | syncRevoked r =>
      let server := if r.sync.executed then { w.server with running := peerKeys w.server.wgConf }
        else w.server
      ({ w with server := server }, ⟨clientsTable, idle⟩)

/-- A client is revoked by its row, or by its id when its container is removed. -/
inductive Request
  | append (a : Append)
  | rename (row : ℕ) (clientName : String) (upload : Upload)
  | revoke (row : ℕ) (r : Revoke)
  | revokeOwn (clientId : String) (reads : Refresh) (r : Revoke)
  | refresh (r : Refresh)

def World.without (clientId : String) : World :=
  { w with live := w.live.filter (·.1 ≠ clientId) }

def Request.start (clientsTable : List QJsonValue) : Request → World × Administrator
  | append a => (w, ⟨clientsTable, .readAddresses a⟩)
  | rename row clientName upload =>
      (w, ⟨renamed clientsTable row clientName none, .uploadTable upload none⟩)
  | revoke row r => (w.without (clientIdAt clientsTable row), ⟨clientsTable, .readConfig row r⟩)
  | revokeOwn clientId reads r =>
      (w.without clientId, ⟨clientsTable, .readTable reads (.revoke clientId r)⟩)
  | refresh r => (w, ⟨clientsTable, .readTable r .finish⟩)

section Alone

variable (w : World) (clientsTable : List QJsonValue)

def alone (x : World × Administrator) : World × Administrator :=
  x.2.task.advance x.1 x.2.clientsTable

end Alone

structure System (ι : Type) where
  world : World
  admins : ι → Administrator

/-- An administrator starts an operation, or does the next step of the one that is in progress. -/
inductive Action (ι : Type)
  | start (i : ι) (request : Request)
  | advance (i : ι)

def System.put {ι : Type} [DecidableEq ι] (s : System ι) (i : ι) (x : World × Administrator) :
    System ι :=
  ⟨x.1, Function.update s.admins i x.2⟩

def Action.run {ι : Type} [DecidableEq ι] (s : System ι) : Action ι → System ι
  | start i request =>
      match (s.admins i).task with
      | .idle => s.put i (request.start s.world (s.admins i).clientsTable)
      | _ => s
  | advance i => s.put i (alone (s.world, s.admins i))

end ClientManagementModel

end AmneziaVpn
