import AmneziaVpn.RunInvariants
import AmneziaVpn.SecureQSettings

/-!
# The cache and the lock of the settings

Values are cached when they are read and when they are written. `value` and `setValue` hold a mutex
that is not recursive, also while they wait for the keychain in a nested event loop.
-/

namespace AmneziaVpn.SettingsCache

open RunInvariants

/-- A stored value is marked if it is encrypted. -/
structure Cipher where
  marked : QVariant → Bool
  encrypt : QVariant → QVariant
  decrypt : QVariant → QVariant
  marked_encrypt : ∀ v, marked (encrypt v) = true
  decrypt_encrypt : ∀ v, decrypt (encrypt v) = v

structure Settings where
  store : String → Option QVariant
  cache : String → Option QVariant

inductive Call
  | value (key : String) (defaultValue : QVariant)
  | setValue (key : String) (value : QVariant)
  | remove (key : String)
  | clearSettings

/-- `QSettings::remove` takes the keys below a key with it. -/
def removes (key other : String) : Bool :=
  key = "" || other = key || QString.startsWith other (key ++ "/")

section Cache

variable (cipher : Cipher) (encryptionRequired keyAvailable : Bool)

/-- What a stored value is read as. -/
def decode (v : QVariant) : QVariant :=
  if cipher.marked v then if keyAvailable then cipher.decrypt v else .invalid else v

def mustEncrypt (key : String) : Bool := encryptionRequired && key ∈ SecureQSettings.encryptedKeys

def Settings.value (s : Settings) (key : String) (defaultValue : QVariant) : QVariant × Settings :=
  match s.cache key, s.store key with
  | some v, _ => (v, s)
  | none, none => (defaultValue, s)
  | none, some v =>
      if cipher.marked v && !keyAvailable then (.invalid, s)
      else
        (decode cipher keyAvailable v,
          { s with cache := Function.update s.cache key (some (decode cipher keyAvailable v)) })

def Settings.set (s : Settings) (key : String) (stored value : QVariant) : Settings :=
  ⟨Function.update s.store key (some stored), Function.update s.cache key (some value)⟩

def step (s : Settings) : Call → Settings
  | .value key defaultValue => (s.value cipher keyAvailable key defaultValue).2
  | .setValue key v =>
      if mustEncrypt encryptionRequired key then
        if keyAvailable then s.set key (cipher.encrypt v) v else s
      else s.set key v v
  | .remove key =>
      ⟨fun other => if removes key other then none else s.store other,
        Function.update s.cache key none⟩
  | .clearSettings => ⟨fun _ => none, fun _ => none⟩

def fresh (store : String → Option QVariant) : Settings := ⟨store, fun _ => none⟩

/-- Every value is the one that a new object over the same storage returns. -/
def Agrees (s : Settings) : Prop :=
  ∀ key defaultValue, (s.value cipher keyAvailable key defaultValue).1 =
    ((fresh s.store).value cipher keyAvailable key defaultValue).1

/-- A key below another one is cached when that is removed, or a value that is not to be encrypted
looks as if it were. -/
def Stale (s : Settings) : Call → Prop
  | .setValue key v => mustEncrypt encryptionRequired key = false ∧ decode cipher keyAvailable v ≠ v
  | .remove key => ∃ other, other ≠ key ∧ removes key other = true ∧ (s.cache other).isSome = true
  | _ => False

variable {cipher encryptionRequired keyAvailable} {s : Settings}

theorem value_fst (key : String) (defaultValue : QVariant) :
    (s.value cipher keyAvailable key defaultValue).1 =
      ((s.cache key).or ((s.store key).map (decode cipher keyAvailable))).getD defaultValue := by
  unfold Settings.value
  cases s.cache key with
  | some v => rfl
  | none =>
    cases s.store key with
    | none => rfl
    | some v =>
      dsimp only
      split_ifs with h
      · simp_all [decode]
      · rfl

theorem agrees_iff : Agrees cipher keyAvailable s ↔
    ∀ key v, s.cache key = some v → (s.store key).map (decode cipher keyAvailable) = some v := by
  unfold Agrees
  simp only [value_fst, fresh, Option.none_or]
  constructor
  · intro h key v hcache
    have hsame : ∀ d, v = ((s.store key).map (decode cipher keyAvailable)).getD d := fun d => by
      simpa [hcache] using h key d
    cases hstore : (s.store key).map (decode cipher keyAvailable) with
    | some w => rw [hsame .invalid, hstore]; rfl
    | none =>
      have htrue := hsame (.bool true)
      rw [hsame (.bool false), hstore] at htrue
      cases htrue
  · intro h key d
    cases hcache : s.cache key with
    | none => rfl
    | some v => simp [h key v hcache]

theorem agrees_set (h : Agrees cipher keyAvailable s) (key : String) (stored v : QVariant) :
    Agrees cipher keyAvailable (s.set key stored v) ↔ decode cipher keyAvailable stored = v := by
  rw [agrees_iff] at h ⊢
  constructor
  · intro hset
    simpa [Settings.set] using hset key v (by simp [Settings.set])
  · intro heq other w hw
    by_cases ho : other = key
    · simp_all [Settings.set]
    · simp_all [Settings.set]

theorem agrees_value (h : Agrees cipher keyAvailable s) (key : String) (d : QVariant) :
    Agrees cipher keyAvailable (s.value cipher keyAvailable key d).2 := by
  unfold Settings.value
  cases hcache : s.cache key with
  | some v => exact h
  | none =>
    cases hstore : s.store key with
    | none => exact h
    | some v =>
      dsimp only
      split_ifs
      · exact h
      · rw [agrees_iff] at h ⊢
        intro other w hw
        by_cases ho : other = key
        · simp_all
        · simp_all

theorem agrees_remove (h : Agrees cipher keyAvailable s) (key : String) :
    Agrees cipher keyAvailable (step cipher encryptionRequired keyAvailable s (.remove key)) ↔
      ¬ Stale cipher encryptionRequired keyAvailable s (.remove key) := by
  rw [agrees_iff] at h ⊢
  constructor
  · rintro hremove ⟨other, hne, hremoves, hsome⟩
    obtain ⟨v, hv⟩ := Option.isSome_iff_exists.mp hsome
    simpa [step, hremoves] using hremove other v (by simp [step, hne, hv])
  · intro hkept other v hv
    by_cases ho : other = key
    · simp [step, ho] at hv
    · have hv : s.cache other = some v := by simpa [step, ho] using hv
      have hremoves : removes key other = false := by
        by_contra hremoves
        exact hkept ⟨other, ho, by simpa using hremoves, by simp [hv]⟩
      simpa [step, hremoves] using h other v hv

theorem agrees_step (h : Agrees cipher keyAvailable s) (call : Call) :
    Agrees cipher keyAvailable (step cipher encryptionRequired keyAvailable s call) ↔
      ¬ Stale cipher encryptionRequired keyAvailable s call := by
  cases call with
  | value key d => exact iff_of_true (agrees_value h key d) id
  | setValue key v =>
    rw [step, Stale]
    cases mustEncrypt encryptionRequired key with
    | false => rw [if_neg (by simp), agrees_set h]; simp
    | true =>
      refine iff_of_true ?_ (by simp)
      rw [if_pos rfl]
      split_ifs with hkey
      · rw [agrees_set h, decode, cipher.marked_encrypt, if_pos rfl, if_pos hkey,
          cipher.decrypt_encrypt]
      · exact h
  | remove key => exact agrees_remove h key
  | clearSettings => exact iff_of_true (agrees_iff.mpr fun _ _ hv => by cases hv) id

end Cache

/-- In a run that starts with an empty cache every value is up to date if and only if no call makes
one stale. -/
theorem agrees_throughout_iff (cipher : Cipher) (encryptionRequired keyAvailable : Bool)
    (store : String → Option QVariant) (calls : List Call) :
    Throughout (step cipher encryptionRequired keyAvailable) (Agrees cipher keyAvailable) calls
        (fresh store) ↔
      NoneOf (step cipher encryptionRequired keyAvailable)
        (Stale cipher encryptionRequired keyAvailable) calls (fresh store) :=
  throughout_iff_noneOf (fun _ call h => agrees_step h call) fun _ _ => rfl

/-- A setting is written and removed with the group that it is in. -/
theorem removed_setting_returned :
    let cipher : Cipher := ⟨fun _ => true, id, id, fun _ => rfl, fun _ => rfl⟩
    let s := [.setValue "Conf/autoConnect" (.bool true), .remove "Conf"].foldl
      (step cipher false true) (fresh fun _ => none)
    (s.value cipher true "Conf/autoConnect" (.bool false)).1 = .bool true ∧
      ((fresh s.store).value cipher true "Conf/autoConnect" (.bool false)).1 = .bool false :=
  ⟨rfl, rfl⟩

section Lock

variable (cipher : Cipher) (encryptionRequired : Bool)

/-- The call asks the keychain for the key. -/
def waits (s : Settings) : Call → Bool
  | .value key _ => (s.cache key).isNone && (s.store key).any cipher.marked
  | .setValue key _ => mustEncrypt encryptionRequired key
  | _ => false

/-- The call that holds the mutex and waits, and whether a handler tried to lock it as well. -/
structure Thread where
  settings : Settings
  waiting : Option Call
  relocks : Bool

/-- A handler calls, or a job of the keychain is finished. A call has several jobs one after the
other; the last one gives the key or fails. -/
inductive Event
  | call (call : Call)
  | jobFinished (last keyAvailable : Bool)

/-- A thread that locks the mutex again is blocked. -/
def Thread.step (t : Thread) : Event → Thread
  | .call call =>
      if t.relocks then t
      else if t.waiting.isSome then { t with relocks := true }
      else if waits cipher encryptionRequired t.settings call then { t with waiting := some call }
      else { t with settings := SettingsCache.step cipher encryptionRequired true t.settings call }
  | .jobFinished last keyAvailable =>
      match t.waiting with
      | none => t
      | some call =>
          if last && !t.relocks then
            { t with
              settings := SettingsCache.step cipher encryptionRequired keyAvailable t.settings call
              waiting := none }
          else t

def CallsWhileWaiting (t : Thread) (event : Event) : Prop :=
  ∃ waiting call, t.waiting = some waiting ∧ event = .call call

/-- The mutex is not locked twice in any run if and only if no handler that runs in a nested event
loop calls the settings. -/
theorem not_relocks_iff (settings : Settings) (events : List Event) :
    Throughout (Thread.step cipher encryptionRequired) (fun t => t.relocks = false) events
        ⟨settings, none, false⟩ ↔
      NoneOf (Thread.step cipher encryptionRequired) CallsWhileWaiting events
        ⟨settings, none, false⟩ := by
  refine throughout_iff_noneOf (fun t event ht => ?_) rfl
  cases event with
  | call call =>
    rw [Thread.step, ht]
    cases hwaiting : t.waiting with
    | some waiting => exact iff_of_false (by simp) (not_not.mpr ⟨waiting, call, hwaiting, rfl⟩)
    | none =>
      refine iff_of_true ?_ fun ⟨waiting, _, hsome, _⟩ => by simp [hwaiting] at hsome
      simp only [Bool.false_eq_true, if_false, Option.isSome_none]
      split_ifs <;> rfl
  | jobFinished last keyAvailable =>
    refine iff_of_true ?_ fun ⟨_, _, _, hcall⟩ => Event.noConfusion hcall
    rw [Thread.step]
    cases t.waiting with
    | none => exact ht
    | some call =>
      dsimp only
      split_ifs <;> exact ht

end Lock

/-- The list of servers is read, and a handler reads another setting meanwhile. -/
theorem locked_twice :
    let cipher : Cipher := ⟨fun _ => true, id, id, fun _ => rfl, fun _ => rfl⟩
    ([.call (.value "Servers/serversList" .invalid), .call (.value "Conf/autoConnect" .invalid)].foldl
      (Thread.step cipher true)
      ⟨fresh fun key => if key = "Servers/serversList" then some .invalid else none, none,
        false⟩).relocks = true := by
  decide

end AmneziaVpn.SettingsCache
