import AmneziaVpn.ApiReplies
import AmneziaVpn.ConnectionController
import AmneziaVpn.OpenVpnProtocol
import AmneziaVpn.RunInvariants

/-!
# Preparing a connection

Opening a connection sets its state to Preparing. If the configuration of the server is missing or
has expired it is refreshed first, and `continueConnection` is called when that has succeeded.
-/

namespace AmneziaVpn

open ApiController RunInvariants List QJsonObject

def Qt.AutoConnection : ℕ := 0

def Qt.SingleShotConnection : ℕ := 0x100

/-- The handlers attached to `installationErrorOccurred`, by number. -/
structure ReloadHandlers where
  attached : List ℕ := []
  current : Option ℕ := none
  next : ℕ := 0
  fired : List ℕ := []

open ReloadHandlers

namespace ReloadHandlers

/-- `static_cast<Qt::ConnectionType>(Qt::AutoConnection || Qt::SingleShotConnection)` -/
def connectionType : ℕ :=
  (decide (Qt.AutoConnection ≠ 0) || decide (Qt.SingleShotConnection ≠ 0)).toNat

def connect (h : ReloadHandlers) : ReloadHandlers :=
  { h with attached := h.attached ++ [h.next], current := some h.next, next := h.next + 1 }

/-- All handlers run. A connection for a single shot is removed. -/
def installationErrorOccurred (h : ReloadHandlers) : ReloadHandlers :=
  { h with
    attached := if connectionType &&& Qt.SingleShotConnection = 0 then h.attached else []
    fired := h.fired ++ h.attached }

/-- `disconnect(m_reloadConfigErrorOccurredConnection)` -/
def disconnect (h : ReloadHandlers) : ReloadHandlers :=
  { h with attached := h.attached.filter fun id => some id ≠ h.current }

@[simp] theorem fired_installationErrorOccurred (h : ReloadHandlers) :
    h.installationErrorOccurred.fired = h.fired ++ h.attached := rfl

end ReloadHandlers

structure Preparation where
  m_state : Vpn.ConnectionState
  handlers : ReloadHandlers
  /-- The requests to Telegram whose replies are not finished. -/
  requests : List (ConfigRequest × Lifetime)
  /-- The calls of `updateServiceFromApi` that wait for the gateway. -/
  gatewayCalls : ℕ
  /-- The calls of `continueConnection` that have not returned. -/
  continuing : ℕ
  /-- The starts that are queued, up to their first report. -/
  starts : ℕ

namespace Preparation

def idle : Preparation := ⟨.disconnected, {}, [], 0, 0, 0⟩

section Controllers

inductive Refresh
  | telegram
  | gateway

variable (serverConfig : QJsonObject)

def refresh (isApiKeyExpired : Bool) : Option Refresh :=
  let configVersion := (serverConfig.value "config_version").toInt
  if configVersion = 1 ∧ ServersModel.serverHasInstalledContainers serverConfig = false then
    some .telegram
  else if configVersion ≠ 0 ∧ isApiKeyExpired then
    if configVersion = 1 then some .telegram else some .gateway
  else none

def removeApiConfig : QJsonObject :=
  let serverConfig := ["dns1", "dns2", "containers", "hostName"].foldl remove serverConfig
  let apiConfig := remove (serverConfig.value "api_config").toObject "public_key"
  let serverConfig := serverConfig.insert "api_config" (.object apiConfig)
  serverConfig.insert "defaultContainer" (.string "none")

variable (s : Preparation)

/-- An error is reported to the application, which sets the state to Disconnected. -/
def onConnectionStateChanged (state : Vpn.ConnectionState) : Preparation :=
  { s with m_state := if state = .error ∨ state = .unknown then .disconnected else state }

def installationErrorOccurred : Preparation :=
  { s with
    m_state := if s.handlers.attached = [] then s.m_state else .disconnected
    handlers := s.handlers.installationErrorOccurred }

def updateServerFromApiFinished : Preparation :=
  { s with handlers := s.handlers.disconnect, continuing := s.continuing + 1 }

def receive (s : Preparation) : ApiSignal → Preparation
  | .finished _ _ => s.updateServerFromApiFinished
  | .errorOccurred _ => s.installationErrorOccurred

variable (r : ConfigRequest)

def openConnection (isApiKeyExpired : Bool) : Preparation :=
  let s := s.onConnectionStateChanged .preparing
  match refresh r.serverConfig isApiKeyExpired with
  | some .telegram =>
      let r := { r with serverConfig := removeApiConfig r.serverConfig }
      { s with
        handlers := s.handlers.connect
        requests := if r.isPosted then s.requests ++ [(r, .alive)] else s.requests }
  | some .gateway => { s with handlers := s.handlers.connect, gatewayCalls := s.gatewayCalls + 1 }
  | none => { s with continuing := s.continuing + 1 }

def isConnectionInProgress : Bool :=
  s.m_state ∈ [.connecting, .reconnecting, .disconnecting, .preparing]

/-- A connection that is there or in progress is closed by the thread of the VPN. -/
def toggleConnection (isApiKeyExpired : Bool) : Preparation :=
  if s.m_state = .preparing then s
  else if s.isConnectionInProgress || s.m_state = .connected then s
  else s.openConnection r isApiKeyExpired

def onCurrentContainerUpdated (isApiKeyExpired : Bool) : Preparation :=
  if s.m_state = .connected || s.isConnectionInProgress then s.openConnection r isApiKeyExpired else s

end Controllers

/-- The events of the event loop. The server of a request is the default server. -/
inductive Event
  | toggleConnection (r : ConfigRequest) (isApiKeyExpired : Bool)
  | currentContainerUpdated (r : ConfigRequest) (isApiKeyExpired : Bool)
  | translationsUpdated
  /-- An installation error that no refresh has raised. -/
  | installationErrorOccurred
  /-- `updateServiceFromApi` returns. -/
  | gatewayReplied (error : Option ErrorCode)
  | reply (i : ℕ) (event : ReplyEvent)
  | deferredDelete (i : ℕ)
  /-- `continueConnection` returns. Unless it has emitted `connectToVpn`, it has reported an error or
  that there is no container. -/
  | continueConnectionReturned (connects : Bool)
  /-- A start is carried out, and it fails at once or not. -/
  | connectToVpn (fails : Bool)
  /-- The VPN reports a state. -/
  | connectionStateChanged (state : Vpn.ConnectionState)

section Steps

variable (s : Preparation)

def gatewayReplied (error : Option ErrorCode) : Preparation :=
  if s.gatewayCalls = 0 then s
  else
    let s := { s with gatewayCalls := s.gatewayCalls - 1 }
    if error.isSome then s.installationErrorOccurred else s.updateServerFromApiFinished

/-- The signals of a destroyed `ApiController` have no receiver. -/
def replied (qt : QtRuntime) (i : ℕ) (event : ReplyEvent) : Preparation :=
  match s.requests[i]? with
  | none => s
  | some (r, lifetime) =>
      let signals := if lifetime = .destroyed then [] else r.callback qt event
      { signals.foldl receive s with
        requests :=
          match event with
          | .sslErrors => s.requests.set i (r, lifetime.emitted)
          | .finished _ => s.requests.eraseIdx i }

def deferredDelete (i : ℕ) : Preparation :=
  match s.requests[i]? with
  | none => s
  | some (r, lifetime) => { s with requests := s.requests.set i (r, lifetime.deferredDelete) }

def continueConnectionReturned (connects : Bool) : Preparation :=
  if s.continuing = 0 then s
  else
    let s := { s with continuing := s.continuing - 1 }
    if connects then { s with starts := s.starts + 1 }
    else s.onConnectionStateChanged .disconnected

def connectToVpn (fails : Bool) : Preparation :=
  if s.starts = 0 then s
  else
    { s with starts := s.starts - 1 }.onConnectionStateChanged
      (if fails then .error else .connecting)

def step (qt : QtRuntime) (s : Preparation) : Event → Preparation
  | .toggleConnection r isApiKeyExpired => s.toggleConnection r isApiKeyExpired
  | .currentContainerUpdated r isApiKeyExpired => s.onCurrentContainerUpdated r isApiKeyExpired
  | .translationsUpdated => s.onConnectionStateChanged s.m_state
  | .installationErrorOccurred => s.installationErrorOccurred
  | .gatewayReplied error => s.gatewayReplied error
  | .reply i event => s.replied qt i event
  | .deferredDelete i => s.deferredDelete i
  | .continueConnectionReturned connects => s.continueConnectionReturned connects
  | .connectToVpn fails => s.connectToVpn fails
  | .connectionStateChanged state => s.onConnectionStateChanged state

end Steps

variable (s : Preparation)

def Awaits : Prop :=
  0 < s.gatewayCalls ∨ ∃ x ∈ s.requests, x.2 = Lifetime.alive

/-- The state is not Preparing, or `continueConnection` is running or a start is queued. -/
def Settled : Prop := s.m_state ≠ .preparing ∨ 0 < s.continuing ∨ 0 < s.starts

section Inversion

variable {e : Event} {s s' : Preparation}

/-- What one event can do to the handlers. -/
inductive Change (e : Event) (s s' : Preparation) : Prop
  | connected (handlers : s'.handlers = s.handlers.connect) (awaits : s'.Awaits)
  | kept (handlers : s'.handlers = s.handlers) (awaits : s.Awaits → s'.Awaits)
      (settled : e ≠ .connectionStateChanged .preparing → s.Settled → s'.Settled)
  | raised (handlers : s'.handlers = s.handlers.installationErrorOccurred)
      (settled : s.Settled ∨ s.handlers.attached ≠ [] → s'.Settled)
  | updated (handlers : s'.handlers = s.handlers.disconnect) (settled : s'.Settled)
  | raisedAndUpdated (handlers : s'.handlers = s.handlers.installationErrorOccurred.disconnect)
      (settled : s'.Settled)

theorem Change.refl : Change e s s := .kept rfl id fun _ => id

theorem settled_onConnectionStateChanged (s : Preparation) {state : Vpn.ConnectionState}
    (h : state ≠ .preparing) : (s.onConnectionStateChanged state).Settled := by
  left
  unfold onConnectionStateChanged
  dsimp only
  split_ifs
  · decide
  · exact h

theorem settled_installationErrorOccurred (h : s.Settled ∨ s.handlers.attached ≠ []) :
    s.installationErrorOccurred.Settled := by
  unfold Settled installationErrorOccurred
  dsimp only
  split_ifs with hattached
  · exact h.resolve_right (not_not_intro hattached)
  · exact .inl (by decide)

variable {r : ConfigRequest}

theorem isPosted_removeApiConfig (h : (r.serverConfig.value "config_version").toInt = 1) :
    ConfigRequest.isPosted { r with serverConfig := removeApiConfig r.serverConfig } = true := by
  have hvalue : (removeApiConfig r.serverConfig).value "config_version" =
      r.serverConfig.value "config_version" := by
    unfold removeApiConfig
    simp only [foldl_cons, foldl_nil]
    rw [value_insert_of_ne (by decide), value_insert_of_ne (by decide)]
    unfold value
    rw [lookup_remove_of_ne (by decide), lookup_remove_of_ne (by decide),
      lookup_remove_of_ne (by decide), lookup_remove_of_ne (by decide)]
  unfold ConfigRequest.isPosted
  rw [hvalue, h]
  rfl

theorem refresh_telegram {serverConfig : QJsonObject} {isApiKeyExpired : Bool}
    (h : refresh serverConfig isApiKeyExpired = some .telegram) :
    (serverConfig.value "config_version").toInt = 1 := by
  unfold refresh at h
  dsimp only at h
  split_ifs at h with hfirst hexpired hversion
  · exact hfirst.1
  · exact hversion
  · cases h

theorem change_openConnection (r : ConfigRequest) (isApiKeyExpired : Bool) :
    Change e s (s.openConnection r isApiKeyExpired) := by
  unfold openConnection
  cases hrefresh : refresh r.serverConfig isApiKeyExpired with
  | none => exact .kept rfl id fun _ _ => .inr (.inl (Nat.succ_pos _))
  | some refreshed =>
    cases refreshed with
    | telegram =>
      dsimp only
      rw [if_pos (isPosted_removeApiConfig (refresh_telegram hrefresh))]
      exact .connected rfl (.inr ⟨_, mem_append_right _ mem_cons_self, rfl⟩)
    | gateway => exact .connected rfl (.inl (Nat.succ_pos _))

variable {i : ℕ} {x : ConfigRequest × Lifetime}

theorem exists_alive_beside {requests : List (ConfigRequest × Lifetime)}
    (hi : requests[i]? = some x) (hx : x.2 ≠ .alive) (h : ∃ z ∈ requests, z.2 = Lifetime.alive) :
    ∃ j z, j ≠ i ∧ requests[j]? = some z ∧ z.2 = Lifetime.alive := by
  obtain ⟨z, hz, halive⟩ := h
  obtain ⟨j, hj⟩ := mem_iff_getElem?.mp hz
  refine ⟨j, z, ?_, hj, halive⟩
  rintro rfl
  exact hx (by rw [Option.some.inj (hi.symm.trans hj), halive])

theorem awaits_set {lifetime lifetime' : Lifetime} (hi : s.requests[i]? = some (r, lifetime))
    (hkept : lifetime = .alive → lifetime' = .alive) (h : s.Awaits) :
    { s with requests := s.requests.set i (r, lifetime') }.Awaits := by
  rcases h with hgateway | halive
  · exact .inl hgateway
  · right
    by_cases hlifetime : lifetime = .alive
    · exact ⟨_, mem_set (List.getElem?_eq_some_iff.mp hi).1 _, hkept hlifetime⟩
    · obtain ⟨j, z, hj, hz, hzalive⟩ := exists_alive_beside hi hlifetime halive
      exact ⟨z, mem_iff_getElem?.mpr ⟨j, by rwa [getElem?_set_ne hj.symm]⟩, hzalive⟩

theorem awaits_eraseIdx (hi : s.requests[i]? = some x) (hx : x.2 ≠ .alive) (h : s.Awaits) :
    { s with requests := s.requests.eraseIdx i }.Awaits := by
  rcases h with hgateway | halive
  · exact .inl hgateway
  · obtain ⟨j, z, hj, hz, hzalive⟩ := exists_alive_beside hi hx halive
    exact .inr ⟨z, mem_eraseIdx_iff_getElem?.mpr ⟨j, hj, hz⟩, hzalive⟩

theorem callback_cases (qt : QtRuntime) (r : ConfigRequest) (event : ReplyEvent) :
    (∃ code, r.callback qt event = [.errorOccurred code]) ∨
      (∃ config, r.callback qt event = [.finished config r.serverIndex]) ∨
      ∃ code config,
        r.callback qt event = [.errorOccurred code, .finished config r.serverIndex] := by
  cases event with
  | sslErrors => exact .inl ⟨_, rfl⟩
  | finished reply =>
    obtain ⟨sslErrors, error, body⟩ := reply
    cases error with
    | noError =>
      unfold ConfigRequest.callback
      dsimp only
      cases (fillServerConfig qt _ _ body r.serverConfig).2 with
      | none => exact .inr (.inl ⟨_, rfl⟩)
      | some code => exact .inr (.inr ⟨_, _, rfl⟩)
    | operationCanceledError => exact .inl ⟨_, rfl⟩
    | timeoutError => exact .inl ⟨_, rfl⟩
    | otherError => exact .inl ⟨_, rfl⟩

variable (qt : QtRuntime)

theorem change_reply (s : Preparation) (i : ℕ) (event : ReplyEvent) :
    Change (.reply i event) s (s.replied qt i event) := by
  unfold replied
  cases hi : s.requests[i]? with
  | none => exact .refl
  | some x =>
    obtain ⟨r, lifetime⟩ := x
    by_cases hdestroyed : lifetime = .destroyed
    · subst hdestroyed
      refine .kept rfl (fun h => ?_) fun _ => id
      cases event with
      | sslErrors => exact awaits_set hi (fun h => by cases h) h
      | finished reply => exact awaits_eraseIdx hi (fun h => by cases h) h
    · dsimp only
      rw [if_neg hdestroyed]
      rcases callback_cases qt r event with ⟨code, h⟩ | ⟨config, h⟩ | ⟨code, config, h⟩
      · rw [h]
        exact .raised rfl settled_installationErrorOccurred
      · rw [h]
        exact .updated rfl (.inr (.inl (Nat.succ_pos _)))
      · rw [h]
        exact .raisedAndUpdated rfl (.inr (.inl (Nat.succ_pos _)))

theorem change (s : Preparation) (e : Event) : Change e s (s.step qt e) := by
  cases e with
  | toggleConnection r isApiKeyExpired =>
    unfold step toggleConnection
    dsimp only
    split_ifs
    · exact .refl
    · exact .refl
    · exact change_openConnection r isApiKeyExpired
  | currentContainerUpdated r isApiKeyExpired =>
    unfold step onCurrentContainerUpdated
    dsimp only
    split_ifs
    · exact change_openConnection r isApiKeyExpired
    · exact .refl
  | translationsUpdated =>
    refine .kept rfl id fun _ h => ?_
    by_cases hpreparing : s.m_state = .preparing
    · exact .inr (h.resolve_left (not_not_intro hpreparing))
    · exact settled_onConnectionStateChanged s hpreparing
  | installationErrorOccurred => exact .raised rfl settled_installationErrorOccurred
  | gatewayReplied error =>
    unfold step gatewayReplied
    dsimp only
    split_ifs
    · exact .refl
    · exact .raised rfl settled_installationErrorOccurred
    · exact .updated rfl (.inr (.inl (Nat.succ_pos _)))
  | reply i event => exact change_reply qt s i event
  | deferredDelete i =>
    unfold step deferredDelete
    dsimp only
    cases hi : s.requests[i]? with
    | none => exact .refl
    | some x => exact .kept rfl (awaits_set hi fun h => by rw [h]; rfl) fun _ => id
  | continueConnectionReturned connects =>
    unfold step continueConnectionReturned
    dsimp only
    split_ifs
    · exact .refl
    · exact .kept rfl id fun _ _ => .inr (.inr (Nat.succ_pos _))
    · exact .kept rfl id fun _ _ => settled_onConnectionStateChanged _ (by decide)
  | connectToVpn fails =>
    unfold step connectToVpn
    dsimp only
    split_ifs
    · exact .refl
    · exact .kept rfl id fun _ _ => settled_onConnectionStateChanged _ (by decide)
    · exact .kept rfl id fun _ _ => settled_onConnectionStateChanged _ (by decide)
  | connectionStateChanged state =>
    exact .kept rfl id fun h _ => settled_onConnectionStateChanged s fun hp => h (hp ▸ rfl)

end Inversion

def Pending : Prop :=
  0 < s.continuing ∨ 0 < s.starts ∨ (s.handlers.attached ≠ [] ∧ s.Awaits)

/-- The state is Preparing only while something will change it. -/
def Prepared : Prop := s.m_state = .preparing → s.Pending

theorem prepared_iff {s : Preparation} :
    s.Prepared ↔ s.Settled ∨ (s.handlers.attached ≠ [] ∧ s.Awaits) := by
  unfold Prepared Pending Settled
  tauto

theorem prepared_step (qt : QtRuntime) {s : Preparation} {e : Event}
    (he : e ≠ .connectionStateChanged .preparing) (h : s.Prepared) : (s.step qt e).Prepared := by
  rw [prepared_iff] at h ⊢
  cases change qt s e with
  | connected handlers awaits =>
    refine .inr ⟨?_, awaits⟩
    rw [handlers]
    exact append_ne_nil_of_right_ne_nil _ (cons_ne_nil _ _)
  | kept handlers awaits settled =>
    rcases h with hsettled | ⟨hattached, hawaits⟩
    · exact .inl (settled he hsettled)
    · exact .inr ⟨by rwa [handlers], awaits hawaits⟩
  | raised handlers settled => exact .inl (settled (h.imp_right And.left))
  | updated handlers settled => exact .inl settled
  | raisedAndUpdated handlers settled => exact .inl settled

/-- Something is pending whenever the state is Preparing, unless the VPN reports it by itself. -/
theorem preparing_only_while_pending_iff (qt : QtRuntime) (events : List Event) :
    Throughout (step qt) Prepared events idle ↔
      NoneOf (step qt) (fun s e => e = .connectionStateChanged .preparing ∧ ¬ s.Pending) events
        idle := by
  refine throughout_iff_noneOf (fun s e h => ?_) (fun h => absurd h (by decide))
  by_cases he : e = .connectionStateChanged .preparing
  · subst he
    rw [not_and_not_right]
    exact ⟨fun hprepared _ => hprepared rfl, fun hpending _ => hpending rfl⟩
  · simp [he, prepared_step qt he h]

def ipsecServer : ConfigRequest :=
  ⟨0, [("containers", .array [.object [("container", .string "amnezia-ipsec")]])], ⟨"", ""⟩⟩

/-- The dialler of Windows reports Preparing and then an error. -/
theorem preparing_while_nothing_pending :
    [.toggleConnection ipsecServer false, .continueConnectionReturned true, .connectToVpn false,
      .connectionStateChanged .preparing].foldl (step (.plain QtRuntime.noUrl [])) idle =
      ⟨.preparing, {}, [], 0, 0, 0⟩ := by
  rfl

section Handlers

def Orderly (s : Preparation) : Prop := s.handlers.attached.length ≤ 1 ∧ s.handlers.fired.Nodup

def Disturbs (qt : QtRuntime) (s : Preparation) (e : Event) : Prop :=
  e = .installationErrorOccurred ∧ s.gatewayCalls = 0 ∧ s.requests = [] ∧
    (s.step qt e).m_state ≠ s.m_state

def Misfires (qt : QtRuntime) (s : Preparation) (e : Event) : Prop :=
  (s.handlers.attached ≠ [] ∧ (s.step qt e).handlers.next ≠ s.handlers.next) ∨
    ((∃ id ∈ s.handlers.attached, id ∈ s.handlers.fired) ∧
      (s.step qt e).handlers.fired ≠ s.handlers.fired)

/-- A handler that is attached and has not run belongs to a refresh that is under way. -/
structure Tended (s : Preparation) : Prop where
  orderly : s.Orderly
  current : ∀ id ∈ s.handlers.attached, some id = s.handlers.current
  awaited : ∀ id ∈ s.handlers.attached, id ∉ s.handlers.fired → s.Awaits

variable {qt : QtRuntime} {s s' : Preparation} {e : Event}

theorem attached_disconnect (h : ∀ id ∈ s.handlers.attached, some id = s.handlers.current) :
    s.handlers.disconnect.attached = [] := by
  unfold disconnect
  dsimp only
  rw [filter_eq_nil_iff]
  intro id hid
  simp [h id hid]

theorem tended_of_attached_eq_nil (hattached : s'.handlers.attached = [])
    (hnodup : s'.handlers.fired.Nodup) : s'.Tended := by
  refine ⟨⟨by simp [hattached], hnodup⟩, ?_, ?_⟩
  · simp [hattached]
  · simp [hattached]

theorem Tended.nodup_raised (h : s.Tended)
    (hfired : s.handlers.attached ≠ [] → ¬ ∃ id ∈ s.handlers.attached, id ∈ s.handlers.fired) :
    s.handlers.installationErrorOccurred.fired.Nodup := by
  obtain ⟨⟨hlength, hnodup⟩, -, -⟩ := h
  match hattached : s.handlers.attached, hlength with
  | [], _ => simpa [hattached] using hnodup
  | [id], _ =>
    rw [hattached] at hfired
    have hid : id ∉ s.handlers.fired := by simpa using hfired (cons_ne_nil id [])
    rw [fired_installationErrorOccurred, hattached, ← concat_eq_append]
    exact hnodup.concat hid

theorem fired_ne_of_attached (h : s.handlers.attached ≠ []) :
    s.handlers.installationErrorOccurred.fired ≠ s.handlers.fired := by
  simpa using h

theorem Tended.step (h : s.Tended) (he : ¬ Misfires qt s e) : (s.step qt e).Tended := by
  unfold Misfires at he
  rw [not_or, not_and_not_right, not_and'] at he
  cases change qt s e with
  | connected handlers awaits =>
    rw [handlers] at he
    have hattached : s.handlers.attached = [] := by
      by_contra hne
      exact absurd (he.1 hne) (Nat.succ_ne_self _)
    refine ⟨⟨?_, ?_⟩, ?_, fun _ _ _ => awaits⟩
    · simp [handlers, connect, hattached]
    · rw [handlers]
      exact h.orderly.2
    · simp [handlers, connect, hattached]
  | kept handlers awaits settled =>
    refine ⟨?_, ?_, ?_⟩
    · unfold Orderly
      rw [handlers]
      exact h.orderly
    · rw [handlers]
      exact h.current
    · rw [handlers]
      exact fun id hid hfired => awaits (h.awaited id hid hfired)
  | raised handlers settled =>
    rw [handlers] at he
    refine ⟨⟨?_, ?_⟩, ?_, ?_⟩
    · rw [handlers]
      exact h.orderly.1
    · rw [handlers]
      exact h.nodup_raised fun hne => he.2 (fired_ne_of_attached hne)
    · rw [handlers]
      exact h.current
    · rw [handlers]
      intro id hid hfired
      exact absurd (mem_append_right _ hid) hfired
  | updated handlers settled =>
    apply tended_of_attached_eq_nil
    · rw [handlers]
      exact attached_disconnect h.current
    · rw [handlers]
      exact h.orderly.2
  | raisedAndUpdated handlers settled =>
    rw [handlers] at he
    apply tended_of_attached_eq_nil
    · rw [handlers]
      exact attached_disconnect h.current
    · rw [handlers]
      exact h.nodup_raised fun hne => he.2 (fired_ne_of_attached hne)

theorem not_orderly_step (h : Misfires qt s e) : ¬ (s.step qt e).Orderly := by
  rintro ⟨hlength, hnodup⟩
  rcases h with ⟨hattached, hnext⟩ | ⟨⟨id, hid, hfired⟩, hne⟩
  · cases change qt s e with
    | connected handlers awaits =>
      have hpos := length_pos_of_ne_nil hattached
      rw [handlers, connect, length_append, length_singleton] at hlength
      omega
    | _ handlers =>
      rw [handlers] at hnext
      exact hnext rfl
  · have hagain (hraised : (s.step qt e).handlers.fired = s.handlers.fired ++ s.handlers.attached) :
        False := by
      rw [hraised] at hnodup
      exact (nodup_append.mp hnodup).2.2 id hfired id hid rfl
    cases change qt s e with
    | raised handlers settled => exact hagain (congrArg fired handlers)
    | raisedAndUpdated handlers settled => exact hagain (congrArg fired handlers)
    | _ handlers =>
      rw [handlers] at hne
      exact hne rfl

theorem Tended.not_disturbs (h : s.Tended) (he : ¬ Misfires qt s e) : ¬ Disturbs qt s e := by
  rintro ⟨rfl, hgateway, hrequests, hstate⟩
  by_cases hattached : s.handlers.attached = []
  · exact hstate (if_pos hattached)
  · obtain ⟨id, hid⟩ := exists_mem_of_ne_nil _ hattached
    refine he (.inr ⟨⟨id, hid, ?_⟩, fired_ne_of_attached hattached⟩)
    by_contra hfired
    rcases h.awaited id hid hfired with hcalls | ⟨x, hx, -⟩
    · omega
    · simp [hrequests] at hx

def failedRefresh : List Event :=
  [.toggleConnection .fromTelegram false, .reply 0 (.finished ⟨false, .otherError, []⟩)]

end Handlers

end Preparation

end AmneziaVpn
