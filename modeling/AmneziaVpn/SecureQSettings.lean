import Mathlib.Data.List.AList
import AmneziaVpn.QtJson
import AmneziaVpn.QtText

/-!
# The stored settings

The value of a key that is to be encrypted is stored only if the encryption key can be had from the
keychain. The cache in front of the store is left out here. A backup is a JSON object with the
values under `Conf/` and `Servers/`.
-/

namespace AmneziaVpn

open List

inductive QVariant
  | invalid
  | bool (b : Bool)
  | int (n : ℤ)
  | double (d : ℚ)
  | string (s : String)
  | byteArray (bytes : QByteArray)
  | map (members : QJsonObject)
  | list (items : List QJsonValue)
  | locale (name : String)
  | dateTime (text : String)

/-- An array that was read is read the same after it is written. -/
structure SettingsRuntime where
  /-- The text that bytes are read as which are not UTF-8. -/
  replacement : QByteArray → String
  number : ℚ → String
  /-- `QVariant(locale).toString()` -/
  localeText : String → String
  systemLocale : String
  /-- `QDateTime::fromString`, empty if the text is no date. -/
  dateFromText : String → String
  toJson : List QJsonObject → QByteArray
  /-- `QJsonDocument::fromJson(bytes).array()` -/
  fromJson : QByteArray → List QJsonObject
  /-- What an element of an array is read as after it was written. -/
  readBack : QJsonObject → QJsonObject
  fromJson_toJson : ∀ servers, fromJson (toJson servers) = servers.map readBack
  readBack_of_mem : ∀ bytes, ∀ o ∈ fromJson bytes, readBack o = o
  /-- What a member of the backup is read as from the file. -/
  fileReadBack : QJsonValue → QJsonValue

def emptyObjectsText : List QJsonObject → QByteArray
  | [] => [93]
  | [_] => [123, 125, 93]
  | _ :: servers => [123, 125, 44] ++ emptyObjectsText servers

theorem count_emptyObjectsText (servers : List QJsonObject) :
    (emptyObjectsText servers).count 123 = servers.length := by
  fun_induction emptyObjectsText servers with
  | case1 => rfl
  | case2 => rfl
  | case3 _ servers _ ih =>
    rw [count_append, ih, length_cons]
    exact Nat.add_comm _ _

def SettingsRuntime.emptyObjects : SettingsRuntime where
  replacement _ := ""
  number d := toString d.num
  localeText name := name
  systemLocale := "en_US"
  dateFromText text := text
  toJson servers := 91 :: emptyObjectsText servers
  fromJson bytes := List.replicate (bytes.count 123) []
  readBack _ := []
  fromJson_toJson servers := by
    rw [count_cons, count_emptyObjectsText, map_const']
    rfl
  readBack_of_mem bytes o ho := (eq_of_mem_replicate ho).symm
  fileReadBack v := v

namespace QVariant

variable (qt : SettingsRuntime)

/-- A text is true unless it is empty, `0` or `false`. -/
def textToBool (s : String) : Bool :=
  !(s.toList.map Char.toLower = "".toList || s.toList.map Char.toLower = "0".toList ||
    s.toList.map Char.toLower = "false".toList)

def toBool : QVariant → Bool
  | bool b => b
  | int n => n ≠ 0
  | double d => d ≠ 0
  | string s => textToBool s
  | byteArray bytes => textToBool (QString.fromUtf8 qt.replacement bytes)
  | _ => false

/-- A whole number is cut to 32 bits, any other one is rounded. -/
def toInt : QVariant → ℤ
  | bool b => if b then 1 else 0
  | int n => n.bmod (2 ^ 32)
  | double d => (if 0 ≤ d then ⌊d + 1 / 2⌋ else ⌈d - 1 / 2⌉).bmod (2 ^ 32)
  | string s => QString.toInt s
  | byteArray bytes => QString.toInt (QString.fromUtf8 qt.replacement bytes)
  | _ => 0

def toString : QVariant → String
  | bool b => if b then "true" else "false"
  | int n => ToString.toString n
  | double d => qt.number d
  | string s => s
  | byteArray bytes => QString.fromUtf8 qt.replacement bytes
  | dateTime text => text
  | locale name => qt.localeText name
  | invalid | map _ | list _ => ""

def toByteArray : QVariant → QByteArray
  | byteArray bytes => bytes
  | v => QString.toUtf8 (v.toString qt)

def toMap : QVariant → QJsonObject
  | map members => members
  | _ => []

def toJsonArray : QVariant → List QJsonValue
  | list items => items
  | _ => []

/-- Only a locale is converted to a locale. -/
def toLocale : QVariant → String
  | locale name => name
  | _ => qt.systemLocale

def toDateTime : QVariant → String
  | dateTime text => text
  | string s => qt.dateFromText s
  | _ => ""

/-- `QJsonValue::fromVariant`: what JSON has no type for becomes its text. -/
def toJsonValue : QVariant → QJsonValue
  | invalid => .null
  | bool b => .bool b
  | int n => .double n
  | double d => .double d
  | map members => .object members
  | list items => .array items
  | v => .string (v.toString qt)

/-- `QJsonValue::toVariant` -/
def ofJsonValue : QJsonValue → QVariant
  | .undefined | .null => invalid
  | .bool b => bool b
  | .double d => if d.den = 1 then int d.num else double d
  | .string s => string s
  | .array items => list items
  | .object members => map members

def throughBackup (v : QVariant) : QVariant := ofJsonValue (qt.fileReadBack (v.toJsonValue qt))

theorem isUndefined_toJsonValue (v : QVariant) : (v.toJsonValue qt).isUndefined = false := by
  cases v <;> rfl

end QVariant

abbrev SecureQSettings := AList fun _ : String => QVariant

namespace SecureQSettings

variable (qt : SettingsRuntime)

def value (s : SecureQSettings) (key : String) (defaultValue : QVariant) : QVariant :=
  (s.lookup key).getD defaultValue

def encryptedKeys : List String := ["Servers/serversList"]

/-- `keyAvailable` is false where encryption is required and the keychain has no key. -/
def setValue (keyAvailable : Bool) (s : SecureQSettings) (key : String) (v : QVariant) :
    SecureQSettings :=
  if key ∈ encryptedKeys ∧ keyAvailable = false then s else s.insert key v

def fieldsToBackup : List String := ["Conf/", "Servers/"]

def needToBackup (key : String) : Bool :=
  fieldsToBackup.any fun item => key ≠ "Conf/installationUuid" && QString.startsWith key item

def backupAppConfig (s : SecureQSettings) : QJsonObject :=
  (s.keys.filter needToBackup).foldl
    (fun cfg key => cfg.insert key ((s.value key .invalid).toJsonValue qt)) []

def backupData (s : SecureQSettings) : QJsonObject :=
  (s.backupAppConfig qt).map fun m => (m.1, qt.fileReadBack m.2)

/-- The result is false for an empty object. -/
def restoreAppConfig (keyAvailable : Bool) (s : SecureQSettings) (cfg : QJsonObject) :
    Bool × SecureQSettings :=
  if cfg.isEmpty then (false, s)
  else (true, (cfg.map (·.1)).foldl (fun s key =>
    if key = "Conf/installationUuid" then s
    else s.setValue keyAvailable key (QVariant.ofJsonValue (cfg.value key))) s)

variable {s : SecureQSettings} {key other : String} {v : QVariant} {keyAvailable : Bool}

def Writable (keyAvailable : Bool) (key : String) : Prop :=
  ¬ (key ∈ encryptedKeys ∧ keyAvailable = false)

instance (keyAvailable : Bool) (key : String) : Decidable (Writable keyAvailable key) :=
  inferInstanceAs (Decidable (¬ _))

theorem lookup_setValue_self (h : Writable keyAvailable key) :
    (s.setValue keyAvailable key v).lookup key = some v := by
  rw [setValue, if_neg h, AList.lookup_insert]

theorem setValue_of_not_writable (h : ¬ Writable keyAvailable key) :
    s.setValue keyAvailable key v = s := if_pos (not_not.mp h)

theorem lookup_setValue_of_ne (h : other ≠ key) :
    (s.setValue keyAvailable key v).lookup other = s.lookup other := by
  unfold setValue
  split_ifs
  · rfl
  · exact AList.lookup_insert_ne h

theorem lookup_foldl_insert (f : String → QJsonValue) (hf : ∀ key, (f key).isUndefined = false)
    (keys : List String) (cfg : QJsonObject) (key : String) :
    (keys.foldl (fun cfg key => cfg.insert key (f key)) cfg).lookup key =
      if key ∈ keys then some (f key) else cfg.lookup key := by
  induction keys generalizing cfg with
  | nil => rfl
  | cons k keys ih =>
    rw [foldl_cons, ih]
    have hinsert : cfg.insert k (f k) = QJsonObject.place k (f k) cfg := by
      rw [QJsonObject.insert, hf]
      rfl
    by_cases hmem : key ∈ keys
    · rw [if_pos hmem, if_pos (mem_cons_of_mem _ hmem)]
    · rw [if_neg hmem, hinsert]
      by_cases hk : key = k
      · rw [hk, QJsonObject.lookup_place_self, if_pos mem_cons_self]
      · rw [QJsonObject.lookup_place_of_ne hk, if_neg (by simp [hk, hmem])]

theorem lookup_map_snd (f : QJsonValue → QJsonValue) (o : QJsonObject) (key : String) :
    (o.map fun m => (m.1, f m.2)).lookup key = (o.lookup key).map f := by
  induction o with
  | nil => rfl
  | cons m o ih =>
    rw [map_cons, lookup_cons, lookup_cons, ih]
    cases key == m.1 <;> rfl

theorem lookup_backupData (s : SecureQSettings) (key : String) :
    (s.backupData qt).lookup key =
      if needToBackup key then (s.lookup key).map fun v => qt.fileReadBack (v.toJsonValue qt)
      else none := by
  have hbackup := lookup_foldl_insert (fun key => (s.value key .invalid).toJsonValue qt)
    (fun key => QVariant.isUndefined_toJsonValue qt _) (s.keys.filter needToBackup) [] key
  rw [backupData, lookup_map_snd, backupAppConfig, hbackup]
  simp only [mem_filter]
  by_cases hneed : needToBackup key = true
  · rw [if_pos hneed]
    cases hlookup : s.lookup key with
    | none =>
      have hmem : key ∉ s.keys := AList.lookup_eq_none.mp hlookup
      rw [if_neg fun h => hmem h.1]
      rfl
    | some v =>
      have hmem : key ∈ s.keys := AList.lookup_isSome.mp (by rw [hlookup]; rfl)
      rw [if_pos ⟨hmem, hneed⟩, value, hlookup]
      rfl
  · rw [if_neg hneed, if_neg fun h => hneed h.2]
    rfl

theorem lookup_foldl_setValue (skipped : String) (f : String → QVariant) (keys : List String)
    (s : SecureQSettings) (key : String) :
    (keys.foldl (fun s key => if key = skipped then s
        else s.setValue keyAvailable key (f key)) s).lookup key =
      if key ∈ keys ∧ key ≠ skipped ∧ Writable keyAvailable key then some (f key)
      else s.lookup key := by
  induction keys generalizing s with
  | nil => rw [if_neg (by simp), foldl_nil]
  | cons k keys ih =>
    rw [foldl_cons, ih]
    by_cases hmem : key ∈ keys ∧ key ≠ skipped ∧ Writable keyAvailable key
    · rw [if_pos hmem, if_pos ⟨mem_cons_of_mem _ hmem.1, hmem.2⟩]
    · rw [if_neg hmem]
      by_cases hk : key = k
      · subst hk
        by_cases hskipped : key = skipped
        · rw [if_pos hskipped, if_neg fun h => h.2.1 hskipped]
        · rw [if_neg hskipped]
          by_cases hwritable : Writable keyAvailable key
          · rw [lookup_setValue_self hwritable, if_pos ⟨mem_cons_self, hskipped, hwritable⟩]
          · rw [setValue_of_not_writable hwritable, if_neg fun h => hwritable h.2.2]
      · have hcons : ¬ (key ∈ k :: keys ∧ key ≠ skipped ∧ Writable keyAvailable key) := by
          rintro ⟨hin, hrest⟩
          exact hmem ⟨(mem_cons.mp hin).resolve_left hk, hrest⟩
        rw [if_neg hcons]
        split_ifs
        · rfl
        · exact lookup_setValue_of_ne hk

theorem mem_map_fst_iff (o : QJsonObject) (key : String) :
    key ∈ o.map (·.1) ↔ (o.lookup key).isSome = true := by
  induction o with
  | nil => simp
  | cons m o ih =>
    rw [map_cons, mem_cons, ih, lookup_cons]
    by_cases hm : key = m.1
    · simp [hm]
    · simp [hm, beq_false_of_ne hm]

theorem ne_of_needToBackup (h : needToBackup key = true) : key ≠ "Conf/installationUuid" := by
  obtain ⟨item, -, hitem⟩ := any_eq_true.mp h
  exact of_decide_eq_true (Bool.and_eq_true_iff.mp hitem).1

theorem lookup_restore (b s : SecureQSettings) (key : String) :
    (s.restoreAppConfig keyAvailable (b.backupData qt)).2.lookup key =
      if needToBackup key = true ∧ Writable keyAvailable key then
        ((b.lookup key).map (QVariant.throughBackup qt)).or (s.lookup key)
      else s.lookup key := by
  have hdata := lookup_backupData qt b key
  have hmem : key ∈ (b.backupData qt).map (·.1) ↔
      needToBackup key = true ∧ (b.lookup key).isSome = true := by
    rw [mem_map_fst_iff, hdata]
    split_ifs with hneed <;> simp [hneed]
  rw [restoreAppConfig]
  split_ifs with hempty hneed hneed
  · rw [List.isEmpty_iff.mp hempty, if_pos hneed.1] at hdata
    cases hlookup : b.lookup key with
    | none => rfl
    | some v => simp [hlookup] at hdata
  · rfl
  · rw [lookup_foldl_setValue, QJsonObject.value, hdata, if_pos hneed.1]
    cases hlookup : b.lookup key with
    | none => exact if_neg fun h => by simpa [hlookup] using (hmem.mp h.1).2
    | some v => exact if_pos ⟨hmem.mpr ⟨hneed.1, by rw [hlookup]; rfl⟩, ne_of_needToBackup hneed.1,
        hneed.2⟩
  · rw [lookup_foldl_setValue]
    exact if_neg fun h => hneed ⟨(hmem.mp h.1).1, h.2.2⟩

end SecureQSettings

end AmneziaVpn
