import Kaede.ConversationReplica
import Kaede.JsonText
import Kaede.TrackerBoard

/-!
# Custom fields of a tracker

`tracker/fields.py`: the fields a board defines and the values a task may
have for them, both JSON that clients and other servers send.

A value of a number field is an integer or a float; no other field has
floats. What the module uses of other libraries (case folding, URL
splitting, the date parser and the arithmetic of floats) is a parameter.
-/

namespace Kaede

namespace TrackerFields

open Replication (strip domainPattern lowerDomain)

/-- `urlsplit`, as far as it is looked at. -/
structure SplitUrl where
  scheme : String
  hostname : Option String
  username : Option String
  password : Option String
deriving DecidableEq, Repr

/-- What the module uses of Python's libraries. `urlsplit` is `none` where it
raises, `isDate` is whether `date.fromisoformat` accepts, `small` is
`abs(x) <= 1e15 and isfinite(x)`. -/
structure FieldLibrary (F : Type) where
  casefold : String → String
  urlsplit : String → Option SplitUrl
  isDate : String → Bool
  floatRepr : F → String
  small : F → Bool

variable {F : Type}

/-! ## The length of `json.dumps` -/

/-- The characters of a string literal with `ensure_ascii`. -/
def asciiLength (s : String) : Nat :=
  2 + (s.toList.map fun c =>
    if c ∈ ['"', '\\', '\n', '\r', '\t', '\x0c', '\x08'] then 2
    else if ' ' ≤ c ∧ c ≤ '~' then 1
    else if c.toNat < 0x10000 then 6
    else 12).sum

section

variable (lib : FieldLibrary F)

mutual

/-- The length of the text with the default separators. -/
def dumpsLength : Json F → Nat
  | .null | .bool true => 4
  | .bool false => 5
  | .int n => (Json.writeInt n).length
  | .float x => (lib.floatRepr x).length
  | .str s => asciiLength s
  | .arr items => 2 + itemsLength items + 2 * (items.length - 1)
  | .obj members => 2 + membersLength members + 2 * (members.length - 1)

def itemsLength : List (Json F) → Nat
  | [] => 0
  | v :: vs => dumpsLength v + itemsLength vs

def membersLength : List (String × Json F) → Nat
  | [] => 0
  | (key, v) :: ms => asciiLength key + 2 + dumpsLength v + membersLength ms

end

end

/-! ## Fields -/

/-- What a validation that fails raises is a `ValueError`, with a text. -/
abbrev Checked (α : Type) := Except String α

def cleanedNonempty (value : String) : Checked String := do
  ensure (strip value ≠ "") "must contain a non-whitespace character"
  .ok (strip value)

def fieldKinds : List (String × FieldKind) :=
  [("text", .text), ("textarea", .textarea), ("select", .select), ("multiselect", .multiselect),
   ("number", .number), ("date", .date), ("checkbox", .checkbox), ("url", .url),
   ("users", .users), ("channels", .channels), ("attachments", .attachments)]

def fieldKindText (kind : FieldKind) : String :=
  match fieldKinds.find? fun entry => entry.2 = kind with
  | some entry => entry.1
  | none => ""

def idLetter (c : Char) : Bool := c.isAlphanum || c = '_' || c = '-'

mutual

/-- `reject_nul`. -/
def nulFree : Json F → Bool
  | .str s => '\x00' ∉ s.toList
  | .arr items => nulFreeItems items
  | .obj members => nulFreeMembers members
  | _ => true

def nulFreeItems : List (Json F) → Bool
  | [] => true
  | v :: vs => nulFree v && nulFreeItems vs

def nulFreeMembers : List (String × Json F) → Bool
  | [] => true
  | (key, v) :: ms => '\x00' ∉ key.toList && nulFree v && nulFreeMembers ms

end

/-- The items of a list of strings. -/
def strings? : Json F → Option (List String)
  | .arr items => items.mapM Json.str?
  | _ => none

/-- The options of a field, an empty list by default. -/
def fieldOptions (raw : Json F) : Checked (List String) :=
  match raw.get? "options" with
  | none => .ok []
  | some options => found (strings? options) "options must be a list of strings"

/-- `TrackerField.model_validate`. -/
def trackerField (raw : Json F) : Checked TrackerField := do
  ensure (raw.isObj = true ∧ nulFree raw = true) "must be an object without NUL characters"
  let id ← found (raw.get "id").str? "id must be a string"
  ensure (1 ≤ id.length ∧ id.length ≤ 64 ∧ id.toList.all idLetter = true) "id has the wrong form"
  ensure (id ∉ ["__proto__", "constructor", "prototype"]) "reserved field ID"
  let name ← found (raw.get "name").str? "name must be a string"
  ensure (1 ≤ name.length ∧ name.length ≤ 100) "name has the wrong length"
  let name ← cleanedNonempty name
  let kind ← found ((raw.get "type").str?.bind fun s => fieldKinds.lookup s) "unknown field type"
  let options ← fieldOptions raw
  ensure (options.length ≤ 100) "too many choices"
  let options ← options.mapM cleanedNonempty
  ensure (∀ option ∈ options, option.length ≤ 100) "choices must be at most 100 characters"
  ensure options.Nodup "choices must be unique"
  if kind = .select ∨ kind = .multiselect then
    ensure (options ≠ []) "choice fields need at least one choice"
  else
    ensure (options = []) "only choice fields may have choices"
  .ok ⟨id, name, kind, options⟩

/-- `model_dump`. -/
def dumpField (field : TrackerField) : Json F :=
  .obj [("id", .str field.id), ("name", .str field.name), ("type", .str (fieldKindText field.type)),
    ("options", .arr (field.options.map .str))]

section

variable (lib : FieldLibrary F)

def fieldDefinitions (value : Json F) : Checked (List TrackerField) := do
  let items ← (match value with
    | .arr items => .ok items
    | _ => .error "must be a list")
  let fields ← items.mapM trackerField
  ensure (fields.length ≤ 50 ∧ (fields.map TrackerField.id).Nodup)
    "a board supports up to 50 fields with unique IDs"
  ensure (fields.map fun field => lib.casefold field.name).Nodup "field names must be unique"
  ensure (dumpsLength lib (.arr (fields.map dumpField)) ≤ 64000) "field definitions exceed 64 KB"
  .ok fields

/-! ## Values -/

def safeUrl (value : Json F) : Bool :=
  match value with
  | .str s =>
      if 2048 < s.length ∨ s.toList.any Replication.isSpace then false
      else
        match lib.urlsplit s with
        | some url =>
            (url.scheme = "http" || url.scheme = "https") && url.hostname.getD "" ≠ "" &&
              url.username.getD "" = "" && url.password.getD "" = ""
        | none => false
  | _ => false

/-- The text of a canonical reference `<id>@<domain>`. -/
def canonicalRef (ref : String) : Bool :=
  let id := ref.toList.takeWhile (· ≠ '@')
  let domain := (ref.toList.dropWhile (· ≠ '@')).drop 1
  '@' ∈ ref.toList ∧ decimalDigits (String.ofList id) ∧
    Nat.ofDigitChars 10 id 0 ≤ Replication.maxDatabaseSnowflake ∧
    lowerDomain (String.ofList domain) = domain ∧ domainPattern domain

def keysAre (members : List (String × Json F)) (keys : List String) : Bool :=
  members.length = keys.length ∧ ∀ key ∈ keys, key ∈ members.map Prod.fst

def validAttachment (item : Json F) : Bool :=
  match item with
  | .obj members =>
      (keysAre members ["name", "url", "type"] || keysAre members ["id", "name", "type"]) &&
        (match item.get "name" with
          | .str name => 0 < name.length && name.length ≤ 255
          | _ => false) &&
        (match item.get "type" with
          | .str type => type ∈ ["file", "image", "video"]
          | _ => false) &&
        (match item.get? "url" with
          | some url => safeUrl lib url
          | none => (item.get "id").str?.any canonicalRef)
  | _ => false

/-- The strings of a choice or reference field. -/
def validStrings (field : TrackerField) (value : Json F) : Bool :=
  match strings? value with
  | some strings => strings.length ≤ 100 && decide strings.Nodup &&
      (if field.type = .multiselect then strings.all (· ∈ field.options)
      else strings.all canonicalRef)
  | none => false

def validValue (field : TrackerField) (value : Json F) : Bool :=
  match field.type with
  | .text => value.str?.any (·.length ≤ 500)
  | .textarea => value.str?.any (·.length ≤ 10000)
  | .number =>
      match value with
      | .int n => n.natAbs ≤ 1000000000000000
      | .float x => lib.small x
      | _ => false
  | .checkbox =>
      match value with
      | .bool _ => true
      | _ => false
  | .date => value.str?.any fun s => s.length = 10 && lib.isDate s
  | .url => safeUrl lib value
  | .select => value.str?.any (· ∈ field.options)
  | .multiselect | .users | .channels => validStrings field value
  | .attachments =>
      match value with
      | .arr items => items.length ≤ 10 && items.all (validAttachment lib)
      | _ => false

/-- A value that stands for no value. -/
def isBlank : Json F → Bool
  | .null => true
  | .str s => s = ""
  | .arr items => items.isEmpty
  | _ => false

/-- The loop body; a blank value is passed over. -/
def validateEntry (fields : List TrackerField) (entry : String × Json F) :
    Checked (Option (String × Json F)) := do
  let field ← found (lookupBy TrackerField.id entry.1 fields)
    "a custom field no longer exists; refresh the board"
  if isBlank entry.2 then .ok none
  else do
    ensure (validValue lib field entry.2 = true) ("Invalid value for " ++ field.name)
    .ok (some entry)

def validateValues (fields : List TrackerField) (values : Json F) :
    Checked (List (String × Json F)) := do
  let members ← (match values with
    | .obj members => .ok members
    | _ => .error "custom fields must be an object with at most 50 entries")
  ensure (members.length ≤ 50) "custom fields must be an object with at most 50 entries"
  let kept ← members.mapM (validateEntry lib fields)
  let result := kept.filterMap id
  ensure (dumpsLength lib (.obj result) ≤ 32000) "custom field values exceed 32 KB"
  .ok result

end

end TrackerFields

end Kaede
