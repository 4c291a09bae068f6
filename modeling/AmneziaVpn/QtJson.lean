import Mathlib.Tactic

/-!
# JSON values of the Qt library

The conversions of `QJsonValue` return a default value when the type is not the one asked for. A
member that an object does not have is undefined.
-/

namespace AmneziaVpn

open List

inductive QJsonValue
  | undefined
  | null
  | bool (b : Bool)
  | double (d : ℚ)
  | string (s : String)
  | array (items : List QJsonValue)
  | object (members : List (String × QJsonValue))

abbrev QJsonObject := List (String × QJsonValue)

namespace QJsonValue

/-- A whole number in the range of `int`, and zero for any other value. -/
def toInt : QJsonValue → ℤ
  | double d => if d.den = 1 ∧ -2 ^ 31 ≤ d.num ∧ d.num < 2 ^ 31 then d.num else 0
  | _ => 0

/-- `toInt(defaultValue)` -/
def toIntOr (defaultValue : ℤ) : QJsonValue → ℤ
  | double d => if d.den = 1 ∧ -2 ^ 31 ≤ d.num ∧ d.num < 2 ^ 31 then d.num else defaultValue
  | _ => defaultValue

def toDoubleOr (defaultValue : ℚ) : QJsonValue → ℚ
  | double d => d
  | _ => defaultValue

def toArray : QJsonValue → List QJsonValue
  | array items => items
  | _ => []

def toString : QJsonValue → String
  | string s => s
  | _ => ""

/-- `toString(defaultValue)` -/
def toStringOr (defaultValue : String) : QJsonValue → String
  | string s => s
  | _ => defaultValue

def toObject : QJsonValue → QJsonObject
  | object members => members
  | _ => []

def isUndefined : QJsonValue → Bool
  | undefined => true
  | _ => false

def isNull : QJsonValue → Bool
  | null => true
  | _ => false

def isString : QJsonValue → Bool
  | string _ => true
  | _ => false

def isArray : QJsonValue → Bool
  | array _ => true
  | _ => false

def isObject : QJsonValue → Bool
  | object _ => true
  | _ => false

/-- `QJsonArray::fromStringList` -/
def ofStringList (texts : List String) : QJsonValue := array (texts.map string)

end QJsonValue

def QJsonObject.value (o : QJsonObject) (key : String) : QJsonValue :=
  (o.lookup key).getD .undefined

namespace QJsonObject

def contains (o : QJsonObject) (key : String) : Bool := (o.lookup key).isSome

def remove (o : QJsonObject) (key : String) : QJsonObject := o.filter fun m => m.1 ≠ key

/-- The members are kept in the order of their keys. -/
def place (key : String) (v : QJsonValue) : QJsonObject → QJsonObject
  | [] => [(key, v)]
  | m :: rest =>
      if m.1 = key then (key, v) :: rest
      else if key < m.1 then (key, v) :: m :: rest
      else m :: place key v rest

/-- A member that is set to the undefined value is removed. -/
def insert (o : QJsonObject) (key : String) (v : QJsonValue) : QJsonObject :=
  if v.isUndefined then o.remove key else place key v o

variable {o : QJsonObject} {key other : String} {v : QJsonValue}

@[simp] theorem value_nil : value [] key = .undefined := rfl

theorem lookup_remove_self : (o.remove key).lookup key = none := by
  unfold remove
  induction o with
  | nil => rfl
  | cons m rest ih =>
    rw [filter_cons]
    split_ifs with h
    · have hne : ¬ key = m.1 := fun he => by simp [he] at h
      rw [lookup_cons, beq_false_of_ne hne]
      exact ih
    · exact ih

theorem lookup_remove_of_ne (h : other ≠ key) :
    (o.remove key).lookup other = o.lookup other := by
  unfold remove
  induction o with
  | nil => rfl
  | cons m rest ih =>
    rw [filter_cons]
    split_ifs with hm
    · rw [lookup_cons, lookup_cons, ih]
    · have hkey : m.1 = key := by simpa using hm
      rw [lookup_cons, hkey, beq_false_of_ne h]
      exact ih

theorem lookup_place_self : (place key v o).lookup key = some v := by
  induction o with
  | nil => simp [place]
  | cons m rest ih =>
    rw [place]
    split_ifs with h h'
    · simp
    · simp
    · rw [lookup_cons, beq_false_of_ne (Ne.symm h)]
      exact ih

theorem lookup_place_of_ne (h : other ≠ key) :
    (place key v o).lookup other = o.lookup other := by
  induction o with
  | nil => simpa [place] using h
  | cons m rest ih =>
    rw [place]
    split_ifs with hm hlt
    · rw [lookup_cons, lookup_cons, hm, beq_false_of_ne h]
    · rw [lookup_cons, beq_false_of_ne h]
    · rw [lookup_cons, lookup_cons, ih]

@[simp] theorem value_insert_self : (o.insert key v).value key = v := by
  unfold insert value
  split_ifs with h
  · rw [lookup_remove_self]
    cases v with
    | undefined => rfl
    | _ => simp [QJsonValue.isUndefined] at h
  · rw [lookup_place_self]
    rfl

@[simp] theorem value_insert_of_ne (h : other ≠ key) :
    (o.insert key v).value other = o.value other := by
  unfold insert value
  split_ifs
  · rw [lookup_remove_of_ne h]
  · rw [lookup_place_of_ne h]

theorem value_foldl_insert {f : String → QJsonValue} {keys : List String} :
    (keys.foldl (fun (o : QJsonObject) key => o.insert key (f key)) o).value key =
      if key ∈ keys then f key else o.value key := by
  induction keys generalizing o with
  | nil => simp
  | cons k keys ih =>
    rw [foldl_cons, ih]
    by_cases hk : key = k
    · simp [hk]
    · simp [hk]

theorem mem_of_value_eq (h : o.value key = v) (hv : v.isUndefined = false) : (key, v) ∈ o := by
  unfold value at h
  induction o with
  | nil =>
    rw [← h] at hv
    simp [QJsonValue.isUndefined] at hv
  | cons m rest ih =>
    rw [lookup_cons] at h
    by_cases hm : key = m.1
    · rw [hm, beq_self_eq_true] at h
      exact mem_cons.mpr (Or.inl (Prod.ext hm h.symm))
    · rw [beq_false_of_ne hm] at h
      exact mem_cons_of_mem m (ih h)

end QJsonObject

end AmneziaVpn

namespace AmneziaVpn.QJsonIO

/-- A step of a path, `QJsonIONodeType` in the source. -/
inductive Node
  | index (i : ℕ)
  | key (k : String)

abbrev Path := List Node

instance : Coe String Node := ⟨.key⟩

instance (n : ℕ) : OfNat Node n := ⟨.index n⟩

def child (v : QJsonValue) : Node → QJsonValue
  | .index i => v.toArray.getD i .undefined
  | .key k => v.toObject.value k

def filled (items : List QJsonValue) (i : ℕ) : List QJsonValue :=
  items ++ List.replicate (i + 1 - items.length) .null

def put (v : QJsonValue) (c : QJsonValue) : Node → QJsonValue
  | .index i => .array ((filled v.toArray i).set i c)
  | .key k => .object (v.toObject.insert k c)

def getValue (v : QJsonValue) : Path → QJsonValue
  | [] => v
  | n :: rest => getValue (child v n) rest

def setIn (v t : QJsonValue) : Path → QJsonValue
  | [] => t
  | n :: rest => put v (setIn (child v n) t rest) n

def setValue (parent : QJsonObject) (t : QJsonValue) (path : Path) : QJsonObject :=
  (setIn (.object parent) t path).toObject

theorem child_put_self (v c : QJsonValue) (n : Node) : child (put v c n) n = c := by
  cases n with
  | index i =>
    have hlen : i < (filled v.toArray i).length := by
      rw [filled, List.length_append, List.length_replicate]
      omega
    change ((filled v.toArray i).set i c).getD i .undefined = c
    rw [List.getD, List.getElem?_set_self hlen]
    rfl
  | key k => simp [child, put, QJsonValue.toObject]

theorem child_put_of_ne (v c : QJsonValue) {a b : String} (h : b ≠ a) :
    child (put v c (.key a)) (.key b) = child v (.key b) := by
  simp [child, put, QJsonValue.toObject, h]

variable {v t : QJsonValue} {o : QJsonObject} {p q : Path} {n : Node} {a b : String}

@[simp] theorem getValue_nil : getValue v [] = v := rfl

@[simp] theorem setIn_nil : setIn v t [] = t := rfl

@[simp] theorem child_setIn_self : child (setIn v t (n :: p)) n = setIn (child v n) t p :=
  child_put_self v _ n

@[simp] theorem child_setIn_of_ne (h : b ≠ a) :
    child (setIn v t (.key a :: p)) (.key b) = child v (.key b) :=
  child_put_of_ne v _ h

@[simp] theorem getValue_setIn_cons :
    getValue (setIn v t (n :: p)) (n :: q) = getValue (setIn (child v n) t p) q := by
  rw [getValue, child_setIn_self]

@[simp] theorem getValue_setIn_of_ne (h : b ≠ a) :
    getValue (setIn v t (.key a :: p)) (.key b :: q) = getValue v (.key b :: q) := by
  rw [getValue, child_setIn_of_ne h, ← getValue]

@[simp] theorem object_setValue :
    QJsonValue.object (setValue o t (.key a :: p)) = setIn (.object o) t (.key a :: p) := rfl

@[simp] theorem getValue_object_cons :
    getValue (.object o) (.key a :: p) = getValue (o.value a) p := rfl

@[simp] theorem getValue_array_zero (items : List QJsonValue) (item : QJsonValue) :
    getValue (.array (item :: items)) (0 :: p) = getValue item p := rfl

end AmneziaVpn.QJsonIO
