import AmneziaVpn.ApiController

/-!
# The callbacks of a reply

`updateServerConfigFromApi` posts a request and attaches callbacks to the events of its reply.
-/

namespace AmneziaVpn.ApiController

open List

inductive ApiSignal
  | finished (config : QJsonObject) (serverIndex : ℤ)
  | errorOccurred (errorCode : ErrorCode)

inductive ReplyEvent
  | sslErrors
  | finished (reply : QNetworkReply)

/-- A call of `updateServerConfigFromApi`, with the keys that are made for it. -/
structure ConfigRequest where
  serverIndex : ℤ
  serverConfig : QJsonObject
  apiPayloadData : ApiPayloadData

namespace ConfigRequest

variable (qt : QtRuntime) (r : ConfigRequest)

def isPosted : Bool := (r.serverConfig.value "config_version").toInt ≠ 0

def callback : ReplyEvent → List ApiSignal
  | .sslErrors => [.errorOccurred .apiConfigSslError]
  | .finished reply =>
      match reply.error with
      | .noError =>
          let protocol := (r.serverConfig.value "protocol").toString
          let (serverConfig, error) :=
            fillServerConfig qt protocol r.apiPayloadData reply.body r.serverConfig
          error.toList.map .errorOccurred ++ [.finished serverConfig r.serverIndex]
      | .operationCanceledError | .timeoutError => [.errorOccurred .apiConfigTimeoutError]
      | .otherError => [.errorOccurred .apiConfigDownloadError]

/-- The signals of a call whose reply reports errors of TLS so many times before it is finished. -/
def updateServerConfigFromApi (tlsErrors : ℕ) (reply : QNetworkReply) : List ApiSignal :=
  if r.isPosted then
    (List.replicate tlsErrors ReplyEvent.sslErrors).flatMap (r.callback qt) ++
      r.callback qt (.finished reply)
  else []

variable {qt r} {reply : QNetworkReply}

theorem error_fillServerConfig (qt : QtRuntime) (protocol : String) (data : ApiPayloadData)
    (body : QByteArray) (serverConfig : QJsonObject) :
    (fillServerConfig qt protocol data body serverConfig).2 =
      if (linkedConfig qt body).isEmpty then some .apiConfigEmptyError else none := by
  unfold fillServerConfig
  dsimp only
  split_ifs <;> rfl

/-- An empty configuration is reported as an error, and as a success as well. -/
theorem length_callback_finished : (r.callback qt (.finished reply)).length =
    if reply.error = .noError ∧ linkedConfig qt reply.body = [] then 2 else 1 := by
  obtain ⟨sslErrors, error, body⟩ := reply
  cases error with
  | noError =>
    by_cases hbody : linkedConfig qt body = []
    · simp [callback, error_fillServerConfig, hbody]
    · simp [callback, error_fillServerConfig, hbody]
  | _ => rfl

theorem length_updateServerConfigFromApi (h : r.isPosted) (tlsErrors : ℕ) :
    (r.updateServerConfigFromApi qt tlsErrors reply).length =
      tlsErrors + (r.callback qt (.finished reply)).length := by
  unfold updateServerConfigFromApi
  rw [if_pos h, length_append, length_flatMap, map_replicate]
  simp [callback]

/-- There is exactly one signal for a version, a reply without an error of TLS, and a configuration. -/
theorem one_signal_iff (qt : QtRuntime) (r : ConfigRequest) (tlsErrors : ℕ)
    (reply : QNetworkReply) :
    (r.updateServerConfigFromApi qt tlsErrors reply).length = 1 ↔
      r.isPosted ∧ tlsErrors = 0 ∧
        (reply.error = .noError → linkedConfig qt reply.body ≠ []) := by
  by_cases hposted : r.isPosted
  · rw [length_updateServerConfigFromApi hposted, length_callback_finished]
    split_ifs with hempty
    · simp [hempty]
    · simp only [hposted, Nat.add_eq_right, true_and, iff_self_and]
      exact fun _ herror hbody => hempty ⟨herror, hbody⟩
  · simp [updateServerConfigFromApi, hposted]

def fromTelegram : ConfigRequest := ⟨0, [("config_version", .double 1)], ⟨"", ""⟩⟩

theorem other_than_one_signal :
    let qt := QtRuntime.plain QtRuntime.noUrl []
    fromTelegram.updateServerConfigFromApi qt 0 ⟨false, .noError, []⟩ =
        [.errorOccurred .apiConfigEmptyError, .finished fromTelegram.serverConfig 0] ∧
      fromTelegram.updateServerConfigFromApi qt 1 ⟨true, .otherError, []⟩ =
        [.errorOccurred .apiConfigSslError, .errorOccurred .apiConfigDownloadError] ∧
      ConfigRequest.updateServerConfigFromApi qt ⟨0, [], ⟨"", ""⟩⟩ 0 ⟨false, .noError, []⟩ = [] := by
  exact ⟨rfl, rfl, rfl⟩

end ConfigRequest

section Lifetime

/-- An event of the reply, or the return to the event loop. -/
inductive PendingEvent
  | reply (event : ReplyEvent)
  | deferredDelete

inductive Lifetime
  | alive
  | scheduled
  | destroyed
  deriving DecidableEq

open Lifetime

def Lifetime.emitted : Lifetime → Lifetime
  | alive => scheduled
  | l => l

def Lifetime.deferredDelete : Lifetime → Lifetime
  | scheduled => destroyed
  | l => l

/-- The callbacks that run, with the state of the `ApiController`. -/
def callbacks : Lifetime → List PendingEvent → List (Lifetime × ReplyEvent)
  | _, [] => []
  | l, .deferredDelete :: events => callbacks l.deferredDelete events
  | l, .reply .sslErrors :: events => (l, .sslErrors) :: callbacks l.emitted events
  | l, .reply (.finished reply) :: _ => [(l, .finished reply)]

def untilFinished : List PendingEvent → List PendingEvent
  | [] => []
  | .reply (.finished reply) :: _ => [.reply (.finished reply)]
  | event :: events => event :: untilFinished events

variable {events : List PendingEvent}

theorem destroyed_callbacks_iff : (∃ e, (destroyed, e) ∈ callbacks .destroyed events) ↔
    ∃ e, [.reply e].Sublist (untilFinished events) := by
  induction events with
  | nil => simp [callbacks, untilFinished]
  | cons event events ih =>
    match event with
    | .deferredDelete =>
      rw [callbacks]
      exact ih.trans (by simp [untilFinished])
    | .reply .sslErrors => simp [callbacks, untilFinished]
    | .reply (.finished reply) => simp [callbacks, untilFinished]

theorem scheduled_callbacks_iff : (∃ e, (destroyed, e) ∈ callbacks .scheduled events) ↔
    ∃ e, [.deferredDelete, .reply e].Sublist (untilFinished events) := by
  induction events with
  | nil => simp [callbacks, untilFinished]
  | cons event events ih =>
    match event with
    | .deferredDelete =>
      rw [callbacks, deferredDelete, destroyed_callbacks_iff]
      simp [untilFinished]
    | .reply .sslErrors =>
      simpa [callbacks, untilFinished, emitted, cons_sublist_cons'] using ih
    | .reply (.finished reply) => simp [callbacks, untilFinished]

theorem alive_callbacks_iff : (∃ e, (destroyed, e) ∈ callbacks .alive events) ↔
    ∃ e, [.reply .sslErrors, .deferredDelete, .reply e].Sublist (untilFinished events) := by
  induction events with
  | nil => simp [callbacks, untilFinished]
  | cons event events ih =>
    match event with
    | .deferredDelete =>
      simpa [callbacks, untilFinished, deferredDelete, cons_sublist_cons'] using ih
    | .reply .sslErrors =>
      simp [callbacks, untilFinished, emitted, scheduled_callbacks_iff]
    | .reply (.finished reply) => simp [callbacks, untilFinished]

def ConfigRequest.callbacks (r : ConfigRequest) (events : List PendingEvent) :
    List (Lifetime × ReplyEvent) :=
  if r.isPosted then ApiController.callbacks .alive events else []

/-- No callback meets a destroyed controller if nothing follows an error of TLS and a return. -/
theorem no_callback_on_destroyed_iff (r : ConfigRequest) (events : List PendingEvent) :
    (∀ e, (destroyed, e) ∉ r.callbacks events) ↔
      (r.isPosted → ∀ e,
        ¬ [.reply .sslErrors, .deferredDelete, .reply e].Sublist (untilFinished events)) := by
  unfold ConfigRequest.callbacks
  by_cases hposted : r.isPosted
  · rw [if_pos hposted, ← not_exists, alive_callbacks_iff]
    simp [hposted]
  · simp [hposted]

/-- The handshake fails: the error of TLS is reported, and the reply is finished later. -/
theorem failed_handshake_runs_on_destroyed :
    (destroyed, ReplyEvent.finished ⟨true, .otherError, []⟩) ∈
      ConfigRequest.fromTelegram.callbacks
        [.reply .sslErrors, .deferredDelete, .reply (.finished ⟨true, .otherError, []⟩)] := by
  exact mem_cons_of_mem _ mem_cons_self

end Lifetime

end AmneziaVpn.ApiController
