import AmneziaVpn.ApiController

/-!
# Replies that arrive late

The configuration of a server from Telegram is requested over the network, and the reply is handled
later with the index of the server at the time of the request.
-/

namespace AmneziaVpn

namespace ServersModel

/-- What can happen to the servers while a request is pending. -/
inductive Edit
  | add (server : QJsonObject)
  | edit (server : QJsonObject) (serverIndex : ℤ)
  | process (index : ℤ)
  | remove

namespace Edit

def run (m : ServersModel) : Edit → ServersModel
  | add server => m.addServer server
  | edit server serverIndex => m.editServer server serverIndex
  | process index => m.setProcessedServerIndex index
  | remove => m.removeServer

def track (m : ServersModel) (i : ℕ) : Edit → Option ℕ
  | remove =>
      if m.processedServerIndex < 0 ∨ i < m.processedServerIndex then some i
      else if m.processedServerIndex = i then none
      else some (i - 1)
  | _ => some i

end Edit

def trackAll (m : ServersModel) (i : ℕ) : List Edit → Option ℕ
  | [] => some i
  | e :: edits =>
      match e.track m i with
      | some j => trackAll (e.run m) j edits
      | none => none

def KeepsUpTo (m : ServersModel) (i : ℕ) : List Edit → Prop
  | [] => True
  | e :: edits =>
      (e = .remove → m.processedServerIndex < 0 ∨ i < m.processedServerIndex) ∧
        KeepsUpTo (e.run m) i edits

variable {m : ServersModel}

theorem track_le {i j : ℕ} {e : Edit} (h : e.track m i = some j) : j ≤ i := by
  cases e with
  | remove =>
    unfold Edit.track at h
    split_ifs at h
    · exact (Option.some.inj h).ge
    · exact (Option.some.inj h).symm.le.trans (Nat.sub_le i 1)
  | _ => exact (Option.some.inj h).ge

theorem track_eq_self_iff {i : ℕ} {e : Edit} :
    e.track m i = some i ↔
      (e = .remove → m.processedServerIndex < 0 ∨ i < m.processedServerIndex) := by
  cases e with
  | remove =>
    unfold Edit.track
    split_ifs with hbefore hself
    · simpa using hbefore
    · simpa using hbefore
    · simp only [Option.some.injEq, forall_const]
      omega
  | _ => simp [Edit.track]

theorem trackAll_le {i j : ℕ} {edits : List Edit} (h : trackAll m i edits = some j) : j ≤ i := by
  induction edits generalizing m i with
  | nil => exact (Option.some.inj h).ge
  | cons e edits ih =>
    rw [trackAll] at h
    cases htrack : e.track m i with
    | none =>
      rw [htrack] at h
      cases h
    | some k =>
      rw [htrack] at h
      exact (ih h).trans (track_le htrack)

theorem trackAll_eq_self_iff {i : ℕ} {edits : List Edit} :
    trackAll m i edits = some i ↔ KeepsUpTo m i edits := by
  induction edits generalizing m with
  | nil => simp [trackAll, KeepsUpTo]
  | cons e edits ih =>
    rw [trackAll, KeepsUpTo, ← track_eq_self_iff, ← ih]
    cases htrack : e.track m i with
    | none => simp
    | some k =>
      by_cases hk : k = i
      · rw [hk]
        simp
      · have hless : k < i := lt_of_le_of_ne (track_le htrack) hk
        constructor
        · intro h
          exact absurd (trackAll_le h) (by omega)
        · intro h
          exact absurd (Option.some.inj h.1) hk

end ServersModel

namespace InstallController

open ApiController ServersModel

/-- It is only sent for a server with a configuration version. -/
structure TelegramRequest where
  model : ServersModel
  serverIndex : ℕ
  apiPayloadData : ApiPayloadData
  fromApi : ((model.getServerConfig serverIndex).value "config_version").toInt ≠ 0

namespace TelegramRequest

variable (qt : QtRuntime) (request : TelegramRequest) (reply : QNetworkReply)

def config : QJsonObject :=
  let serverConfig := request.model.getServerConfig request.serverIndex
  let protocol := (serverConfig.value "protocol").toString
  (fillServerConfig qt protocol request.apiPayloadData reply.body serverConfig).1

def finished (now : ServersModel) : ServersModel :=
  match reply.error with
  | .noError => now.editServer (request.config qt reply) request.serverIndex
  | _ => now

end TelegramRequest

def ChangesOnly (position : Option ℕ) (before after : ServersModel) : Prop :=
  ∀ j, after.servers[j]? ≠ before.servers[j]? → position = some j

theorem changesOnly_editServer_iff {m : ServersModel} {server : QJsonObject} {i : ℕ}
    {position : Option ℕ} :
    ChangesOnly position m (m.editServer server i) ↔
      m.servers.length ≤ i ∨ position = some i ∨ m.servers[i]? = some server := by
  have hservers : (m.editServer server i).servers = m.servers.set i server := by
    unfold editServer
    rw [if_pos (Int.natCast_nonneg i), Int.toNat_natCast]
  unfold ChangesOnly
  rw [hservers]
  constructor
  · intro h
    by_cases hi : i < m.servers.length
    · by_cases hsame : m.servers[i]? = some server
      · exact .inr (.inr hsame)
      · refine .inr (.inl (h i ?_))
        rw [List.getElem?_set_self hi]
        exact Ne.symm hsame
    · exact .inl (Nat.le_of_not_lt hi)
  · intro h j hj
    have hij : i = j := by
      by_contra hne
      exact hj (List.getElem?_set_ne hne)
    subst hij
    rcases h with hlength | hposition | hsame
    · exact absurd (by rw [List.set_eq_of_length_le hlength]) hj
    · exact hposition
    · have hi : i < m.servers.length := (List.getElem?_eq_some_iff.mp hsame).1
      exact absurd ((List.getElem?_set_self hi).trans hsame.symm) hj

def removedRequest : TelegramRequest where
  model := ⟨[[("config_version", .double 1)], [("hostName", .string "example.org")]], 0, 0⟩
  serverIndex := 0
  apiPayloadData := ⟨"", ""⟩
  fromApi := by decide

end InstallController

end AmneziaVpn
