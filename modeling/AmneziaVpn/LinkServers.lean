import AmneziaVpn.ImportController

/-!
# The server of a share link

A share link writes the address, the port and the credentials of a server, each kind of link in its
own way.
-/

namespace AmneziaVpn

open List Outbounds QJsonObject

open QJsonIO (getValue getValue_object_cons)

inductive Credentials
  | id (id : String)
  | password (password : String)
  | cipher (method password : String)

structure LinkServer where
  address : String
  port : ℤ
  credentials : Credentials

namespace LinkServer

def path : Credentials → QJsonIO.Path
  | .id _ => ["settings", "vnext", 0]
  | .password _ | .cipher _ _ => ["settings", "servers", 0]

def CarriesCredentials (outbound : QJsonValue) : Credentials → Prop
  | .id id => getValue outbound ["settings", "vnext", 0, "users", 0, "id"] = .string id
  | .password password =>
      getValue outbound ["settings", "servers", 0, "password"] = .string password
  | .cipher method password =>
      getValue outbound ["settings", "servers", 0, "method"] = .string method ∧
        getValue outbound ["settings", "servers", 0, "password"] = .string password

def CarriedBy (s : LinkServer) (outbound : QJsonValue) : Prop :=
  getValue outbound (path s.credentials ++ [.key "address"]) = .string s.address ∧
    getValue outbound (path s.credentials ++ [.key "port"]) = .double s.port ∧
    CarriesCredentials outbound s.credentials

end LinkServer

def Carries (root : QJsonObject) (s : LinkServer) : Prop :=
  (root.value "inbounds").isArray = true ∧
    ∃ outbound rest, root.value "outbounds" = .array (outbound :: rest) ∧ s.CarriedBy outbound

section Entries

variable {key other tag protocol : String} {settings stream outbound o : QJsonObject}
  {p : QJsonIO.Path} {s : LinkServer}

variable {v : QJsonValue}

@[simp] theorem QJsonObject.value_field_self {isDefault : Bool} :
    (o.field key isDefault v).value key = if isDefault then o.value key else v := by
  unfold field
  split_ifs
  · rfl
  · exact value_insert_self

@[simp] theorem QJsonObject.value_field_of_ne {isDefault : Bool} (h : other ≠ key) :
    (o.field key isDefault v).value other = o.value other := by
  unfold field
  split_ifs
  · rfl
  · exact value_insert_of_ne h

theorem Outbounds.value_outbounds (h : key ≠ "outbounds") :
    (rootWith key outbound).value "outbounds" = .array [.object outbound] := by
  rw [rootWith, value_insert_of_ne h.symm, value_insert_self]

theorem Outbounds.carries_rootWith (h : key ≠ "outbounds") :
    Carries (rootWith key outbound) s ↔ key = "inbounds" ∧ s.CarriedBy (.object outbound) := by
  have hfirst : (∃ first rest, QJsonValue.array [.object outbound] = .array (first :: rest) ∧
      s.CarriedBy first) ↔ s.CarriedBy (.object outbound) := by simp
  rw [Carries, value_outbounds h, hfirst]
  apply and_congr_left
  intro _
  by_cases hkey : key = "inbounds"
  · simp [hkey, rootWith, QJsonValue.isArray]
  · rw [rootWith, value_insert_of_ne (Ne.symm hkey)]
    simp [hkey, QJsonValue.isArray]

theorem Outbounds.getValue_settings :
    getValue (.object (generateOutboundEntry tag protocol settings stream)) ("settings" :: p) =
      getValue (.object settings) p := by
  rw [getValue_object_cons, generateOutboundEntry]
  simp

theorem getValue_insert_settings (h : "settings" ≠ key) :
    getValue (.object (o.insert key v)) ("settings" :: p) =
      getValue (.object o) ("settings" :: p) := by
  rw [getValue_object_cons, getValue_object_cons, value_insert_of_ne h]

theorem LinkServer.carriedBy_insert (h : "settings" ≠ key) :
    s.CarriedBy (.object (o.insert key v)) ↔ s.CarriedBy (.object o) := by
  obtain ⟨address, port, credentials⟩ := s
  cases credentials with
  | id | password | cipher =>
    simp [CarriedBy, path, CarriesCredentials, cons_append, getValue_insert_settings h]

theorem Vless.carriedBy_outbound (url : QUrl) :
    LinkServer.CarriedBy ⟨unbracketed url.host, url.port, .id url.userInfo⟩
      (.object (Vless.outbound url)) := by
  unfold Vless.outbound
  dsimp only
  split_ifs
  all_goals
    refine ⟨?_, ?_, ?_⟩
    · simp [LinkServer.path]
    · simp [LinkServer.path]
    · simp [LinkServer.CarriesCredentials]

/-- A field with the default value is not in the entry, not even if it is the one of the link. -/
theorem Outbounds.carriedBy_vmessOutbound_iff {unsetPort port : ℤ} {address : String}
    {user : UserObject} {stream : StreamSettingsObject} :
    LinkServer.CarriedBy ⟨address, port, .id user.id⟩
        (.object (vmessOutbound unsetPort ⟨address, port, [user]⟩ stream)) ↔
      address ≠ "" ∧ port ≠ unsetPort ∧ user.id ≠ "" := by
  have hserver : ∀ p, getValue (.object (vmessOutbound unsetPort ⟨address, port, [user]⟩ stream))
      ("settings" :: "vnext" :: 0 :: p) =
        getValue (.object (VMessServerObject.toJson unsetPort ⟨address, port, [user]⟩)) p := by
    intro p
    rw [vmessOutbound, getValue_settings]
    simp
  simp only [LinkServer.CarriedBy, LinkServer.path, LinkServer.CarriesCredentials,
    cons_append, nil_append, hserver]
  refine and_congr ?_ (and_congr ?_ ?_)
  · simp [VMessServerObject.toJson]
  · simp [VMessServerObject.toJson]
  · simp [VMessServerObject.toJson, UserObject.toJson]

theorem Outbounds.getValue_server {server : QJsonValue} :
    getValue (.object (generateOutboundEntry tag protocol
      (insert [] "servers" (.array [server])) stream)) ("settings" :: "servers" :: 0 :: p) =
      getValue server p := by
  rw [getValue_settings]
  simp

theorem Outbounds.carriedBy_trojan (server : TrojanObject) :
    LinkServer.CarriedBy ⟨server.address, server.port.toNat, .password server.password⟩
      (.object (generateOutboundEntry tag protocol (generateTrojanOUT [server]) stream)) := by
  simp only [LinkServer.CarriedBy, LinkServer.path, LinkServer.CarriesCredentials,
    cons_append, nil_append, generateTrojanOUT, map_cons, map_nil,
    getValue_server]
  simp [generateTrojanServerOUT]

theorem Outbounds.carries_shadowSocksRoot (server : ShadowSocksServerObject) :
    Carries (shadowSocksRoot server)
      ⟨server.address, server.port, .cipher server.method server.password⟩ := by
  refine (carries_rootWith (by decide)).mpr ⟨rfl, ?_⟩
  simp only [LinkServer.CarriedBy, LinkServer.path, LinkServer.CarriesCredentials,
    cons_append, nil_append, generateShadowSocksOUT, map_cons, map_nil,
    getValue_server]
  simp [generateShadowSocksServerOUT]

end Entries

end AmneziaVpn
