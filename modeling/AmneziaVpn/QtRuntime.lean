import AmneziaVpn.Base64
import AmneziaVpn.QtJson
import AmneziaVpn.QtText

/-!
# What import and export use of the Qt library

Compression, the JSON reader and the URL parser are parameters. A result that needs one of them to
undo another says so in its hypotheses.
-/

namespace AmneziaVpn

open List QString

inductive QJsonDocument
  | object (members : QJsonObject)
  | array (items : List QJsonValue)

/-- `QJsonDocument::object()`: empty for an array. -/
def QJsonDocument.toObject : QJsonDocument → QJsonObject
  | object members => members
  | array _ => []

namespace JsonWriter

def hexDigit (n : ℕ) : Char := if n < 10 then Char.ofNat (n + 48) else Char.ofNat (n + 87)

def escapedChar (c : Char) : List Char :=
  if c = '"' then ['\\', '"']
  else if c = '\\' then ['\\', '\\']
  else if c.toNat = 8 then ['\\', 'b']
  else if c.toNat = 12 then ['\\', 'f']
  else if c.toNat = 10 then ['\\', 'n']
  else if c.toNat = 13 then ['\\', 'r']
  else if c.toNat = 9 then ['\\', 't']
  else if c.toNat < 32 then ['\\', 'u', '0', '0', hexDigit (c.toNat / 16), hexDigit (c.toNat % 16)]
  else [c]

def escapedString (s : String) : List Char := s.toList.flatMap escapedChar

def quoted (s : String) : List Char := '"' :: escapedString s ++ ['"']

section

variable (number : ℚ → String) (compact : Bool)

def newline : List Char := if compact then [] else ['\n']

def spaces (indent : ℕ) : List Char := if compact then [] else List.replicate (4 * indent) ' '

mutual

def valueToJson (indent : ℕ) : QJsonValue → List Char
  | .bool b => if b then "true".toList else "false".toList
  | .double d => (number d).toList
  | .string s => quoted s
  | .array items =>
      '[' :: newline compact ++ arrayContentToJson (indent + 1) items ++
        spaces compact indent ++ [']']
  | .object members =>
      '\x7b' :: newline compact ++ objectContentToJson (indent + 1) members ++
        spaces compact indent ++ ['\x7d']
  | .null | .undefined => "null".toList

def arrayContentToJson (indent : ℕ) : List QJsonValue → List Char
  | [] => []
  | [v] => spaces compact indent ++ valueToJson indent v ++ newline compact
  | v :: rest =>
      spaces compact indent ++ valueToJson indent v ++ ',' :: newline compact ++
        arrayContentToJson indent rest

def objectContentToJson (indent : ℕ) : List (String × QJsonValue) → List Char
  | [] => []
  | [(key, v)] =>
      spaces compact indent ++ quoted key ++ ':' :: (if compact then [] else [' ']) ++
        valueToJson indent v ++ newline compact
  | (key, v) :: rest =>
      spaces compact indent ++ quoted key ++ ':' :: (if compact then [] else [' ']) ++
        valueToJson indent v ++ ',' :: newline compact ++ objectContentToJson indent rest

end

/-- `QJsonDocument::toJson(format)`. Only the indented form ends in a newline. -/
def toJson : QJsonDocument → String
  | .object members =>
      String.ofList (valueToJson number compact 0 (.object members) ++ newline compact)
  | .array items => String.ofList (valueToJson number compact 0 (.array items) ++ newline compact)

variable {number compact}

theorem quoted_infix_objectContentToJson {members : QJsonObject} {key : String} {v : QJsonValue}
    (indent : ℕ) (h : (key, v) ∈ members) :
    quoted key <:+: objectContentToJson number compact indent members := by
  induction members with
  | nil => simp at h
  | cons m rest ih =>
    obtain ⟨key', v'⟩ := m
    cases rest with
    | nil =>
      obtain rfl : key = key' := by simp_all
      rw [objectContentToJson, append_assoc, append_assoc]
      exact infix_append _ _ _
    | cons m' rest =>
      rw [objectContentToJson]
      · rcases mem_cons.mp h with heq | hrest
        · obtain rfl : key = key' := congrArg Prod.fst heq
          rw [append_assoc, append_assoc, append_assoc]
          exact infix_append _ _ _
        · exact (ih hrest).trans (suffix_append _ _).isInfix
      · simp

theorem contains_toJson_of_mem {members : QJsonObject} {key : String} {v : QJsonValue}
    (h : (key, v) ∈ members) (hkey : escapedString key = key.toList) :
    contains (toJson number compact (.object members)) key = true := by
  rw [contains_iff, toJson, String.toList_ofList, valueToJson]
  have hquoted : key.toList <:+: quoted key := ⟨['"'], ['"'], by rw [quoted, hkey]; rfl⟩
  have hcontent : key.toList <:+: objectContentToJson number compact 1 members :=
    hquoted.trans (quoted_infix_objectContentToJson 1 h)
  apply hcontent.trans
  rw [append_assoc, append_assoc]
  exact infix_append _ _ _

end

end JsonWriter

/-- An item of the query of a URL, with its value as it is shown and fully decoded. -/
structure QueryItem where
  key : String
  value : String
  decoded : String

abbrev QUrlQuery := List QueryItem

namespace QUrlQuery

def hasQueryItem (query : QUrlQuery) (key : String) : Bool := query.any (·.key == key)

def queryItemValue (query : QUrlQuery) (key : String) : String :=
  ((query.find? (·.key == key)).map QueryItem.value).getD ""

/-- `queryItemValue(key, QUrl::FullyDecoded)` -/
def queryItemDecoded (query : QUrlQuery) (key : String) : String :=
  ((query.find? (·.key == key)).map QueryItem.decoded).getD ""

end QUrlQuery

/-- The parts of a URL. `writtenPort` is the port if the URL has one. -/
structure QUrl where
  isValid : Bool
  errorString : String
  userInfo : String
  userName : String
  password : String
  host : String
  writtenPort : Option UInt16
  query : QUrlQuery
  fragment : String
  fragmentDecoded : String

/-- `QUrl::port()` -/
def QUrl.port (url : QUrl) : ℤ := (url.writtenPort.map fun p => (p.toNat : ℤ)).getD (-1)

structure QtRuntime where
  /-- A number as text, shortest form. -/
  number : ℚ → String
  /-- The text that bytes are read as which are not UTF-8. -/
  replacement : QByteArray → String
  toLower : String → String
  toLocal8Bit : String → QByteArray
  /-- `QJsonDocument::fromJson`, or the text of its error. -/
  fromJson : QByteArray → Except String QJsonDocument
  qCompress : QByteArray → QByteArray
  /-- `qUncompress`, empty if the data cannot be uncompressed. -/
  qUncompress : QByteArray → QByteArray
  url : String → QUrl
  /-- `QUrl::fromUserInput` -/
  urlFromUserInput : String → QUrl
  fromPercentEncoding : String → String

namespace QtRuntime

variable (qt : QtRuntime)

/-- `QString(bytes)` -/
def text (bytes : QByteArray) : String := fromUtf8 qt.replacement bytes

/-- `QJsonDocument(object).toJson()` -/
def indented (o : QJsonObject) : String := JsonWriter.toJson qt.number false (.object o)

def objectFromJson (bytes : QByteArray) : QJsonObject :=
  match qt.fromJson bytes with
  | .ok document => document.toObject
  | .error _ => []

/-- `value.toVariant().toString()` -/
def variantText : QJsonValue → String
  | .bool b => if b then "true" else "false"
  | .double d => qt.number d
  | .string s => s
  | .undefined | .null | .array _ | .object _ => ""

def noUrl : QUrl := ⟨false, "", "", "", "", "", none, [], "", ""⟩

/-- A library for concrete texts. -/
def plain (url : QUrl) (document : QJsonObject) : QtRuntime where
  number d := toString d.num
  replacement _ := ""
  toLower := id
  toLocal8Bit := toUtf8
  fromJson bytes :=
    if (bytes.reverse.dropWhile (· == 10)).head? = some 0x7d then .ok (.object document)
    else .error "illegal value"
  qCompress := id
  qUncompress := id
  url _ := url
  urlFromUserInput _ := url
  fromPercentEncoding := id

theorem fromJson_plain {url : QUrl} {document : QJsonObject} {bytes : QByteArray}
    (h : (bytes.reverse.dropWhile (· == 10)).head? = some 0x7d) :
    (plain url document).fromJson bytes = .ok (.object document) := if_pos h

end QtRuntime

/-- `value.toVariant().toInt()`: a whole number is cut to 32 bits, any other one is rounded. -/
def QJsonValue.variantInt : QJsonValue → ℤ
  | .bool b => if b then 1 else 0
  | .double d =>
      if d.den = 1 then d.num.bmod (2 ^ 32)
      else if 0 ≤ d then ⌊d + 1 / 2⌋.bmod (2 ^ 32)
      else ⌈d - 1 / 2⌉.bmod (2 ^ 32)
  | .string s => QString.toInt s
  | .undefined | .null | .array _ | .object _ => 0

namespace Utils

/-- `QByteArray::toBase64(Base64UrlEncoding | OmitTrailingEquals)` -/
def toBase64Url (bytes : QByteArray) : String := String.ofList (Base64.encode Base64.url bytes)

def fromBase64Url (s : String) : QByteArray := Base64.decode Base64.url s.toList

/-- `QByteArray::fromBase64(.., OmitTrailingEquals)` -/
def fromBase64 (s : String) : QByteArray := Base64.decode Base64.standard s.toList

variable (qt : QtRuntime)

def verifyJsonString (source : String) : String :=
  match qt.fromJson (toUtf8 source) with
  | .ok _ => ""
  | .error message => message

def jsonFromString (s : String) : QJsonObject :=
  qt.objectFromJson (toUtf8 (trimmed s))

def safeBase64Decode (s : String) : String :=
  qt.text (fromBase64 (replace (replace s "-" "+") "_" "/"))

/-- `JsonToString(json, Compact)` -/
def jsonToString (json : QJsonObject) : String := JsonWriter.toJson qt.number true (.object json)

@[simp] theorem fromBase64Url_toBase64Url (bytes : QByteArray) :
    fromBase64Url (toBase64Url bytes) = bytes := by
  rw [fromBase64Url, toBase64Url, String.toList_ofList, Base64.decode_encode]

theorem not_mem_toBase64Url {x : Char} (hx : ∀ n < 64, Base64.url.digit n ≠ x)
    (bytes : QByteArray) : x ∉ (toBase64Url bytes).toList := by
  rw [toBase64Url, String.toList_ofList]
  intro h
  obtain ⟨n, hn, rfl⟩ := Base64.exists_digit_of_mem_encode h
  exact hx n hn rfl

end Utils

end AmneziaVpn
