/-
# Deferral.Item -- items of content

An item is a piece of content with twelve fields. Each of them may hold a value of
any kind, since documents and updates are not checked. An item without a path
gets its id as one. `Item.get` and `Item.set` are the view of an item as a
function from fields to values.
-/

import Deferral.Value.Text

namespace Deferral

/-- The fields of an item. -/
inductive Field where
  | id
  | createdAt
  | text
  | title
  | url
  | pollCost
  | deletedAt
  | scheduledAt
  | pinned
  | bio
  | path
  | maxBid
deriving DecidableEq, Repr

namespace Field

/-- The fields, in the order of a record. -/
def all : List Field :=
  [id, createdAt, text, title, url, pollCost, deletedAt, scheduledAt, pinned, bio, path, maxBid]

/-- The name of a field in records and updates. -/
def name : Field → String
  | id => "id"
  | createdAt => "created_at"
  | text => "text"
  | title => "title"
  | url => "url"
  | pollCost => "poll_cost"
  | deletedAt => "deleted_at"
  | scheduledAt => "scheduled_at"
  | pinned => "pinned"
  | bio => "bio"
  | path => "path"
  | maxBid => "max_bid"

/-- The field of a name. -/
def ofName? (name : String) : Option Field := all.find? (·.name == name)

/-- The fields that hold instants. -/
def holdsInstant : Field → Bool
  | createdAt | deletedAt | scheduledAt => true
  | _ => false

/-- The fields that may not change once an item is deleted. -/
def frozen : List Field := [deletedAt, text, title, url, pollCost]

/-- The value of a field that is left out; two fields have none. -/
def default? : Field → Option Value
  | id | createdAt => none
  | pinned | bio => some (.bool false)
  | path => some (.text "")
  | _ => some .null

end Field

/-- An item of content. -/
structure Item where
  id : Value
  createdAt : Value
  text : Value
  title : Value
  url : Value
  pollCost : Value
  deletedAt : Value
  scheduledAt : Value
  pinned : Value
  bio : Value
  path : Value
  maxBid : Value

namespace Item

/-- The value of a field. -/
def get (item : Item) : Field → Value
  | .id => item.id
  | .createdAt => item.createdAt
  | .text => item.text
  | .title => item.title
  | .url => item.url
  | .pollCost => item.pollCost
  | .deletedAt => item.deletedAt
  | .scheduledAt => item.scheduledAt
  | .pinned => item.pinned
  | .bio => item.bio
  | .path => item.path
  | .maxBid => item.maxBid

/-- The item with another value of a field. -/
def set (item : Item) (field : Field) (value : Value) : Item :=
  match field with
  | .id => { item with id := value }
  | .createdAt => { item with createdAt := value }
  | .text => { item with text := value }
  | .title => { item with title := value }
  | .url => { item with url := value }
  | .pollCost => { item with pollCost := value }
  | .deletedAt => { item with deletedAt := value }
  | .scheduledAt => { item with scheduledAt := value }
  | .pinned => { item with pinned := value }
  | .bio => { item with bio := value }
  | .path => { item with path := value }
  | .maxBid => { item with maxBid := value }

@[simp] theorem get_set_self (item : Item) (field : Field) (value : Value) :
    (item.set field value).get field = value := by
  cases field <;> rfl

theorem get_set_of_ne (item : Item) {field other : Field} (value : Value) (h : other ≠ field) :
    (item.set field value).get other = item.get other := by
  cases field <;> cases other <;> simp_all [get, set]

/-- The item with the values that a function gives to its fields. -/
def ofFunction (value : Field → Value) : Item where
  id := value .id
  createdAt := value .createdAt
  text := value .text
  title := value .title
  url := value .url
  pollCost := value .pollCost
  deletedAt := value .deletedAt
  scheduledAt := value .scheduledAt
  pinned := value .pinned
  bio := value .bio
  path := value .path
  maxBid := value .maxBid

@[simp] theorem get_ofFunction (value : Field → Value) (field : Field) :
    (ofFunction value).get field = value field := by
  cases field <;> rfl

/-- The item whose path is its id if it had none. -/
def withPath (item : Item) : Except Failure Item :=
  if item.path.isPresent then .ok item
  else item.id.plainString.map fun path => { item with path := .text path }

/-- The last value that a list of changes gives to a field. -/
def lastChange? (changes : List (Field × Value)) (field : Field) : Option Value :=
  (changes.reverse.find? (·.1 == field)).map Prod.snd

/-- The item with the given fields; those left out take their defaults. -/
def ofFields (fields : List (Field × Value)) : Except Failure Item :=
  let value? (field : Field) : Option Value := (lastChange? fields field).or field.default?
  if Field.all.all fun field => (value? field).isSome then
    (ofFunction fun field => (value? field).getD .null).withPath
  else .error .wrongType

/-- The fields of names, all of which must be known. -/
def fieldsOfNames : List (String × Value) → Except Failure (List (Field × Value))
  | [] => .ok []
  | (name, value) :: rest =>
    match Field.ofName? name with
    | none => .error .wrongType
    | some field => (fieldsOfNames rest).map ((field, value) :: ·)

/-- The item with the fields of the given names. -/
def ofNames (entries : List (String × Value)) : Except Failure Item := do
  ofFields (← fieldsOfNames entries)

/-- The item after changes of fields, one after the other. -/
def setAll (item : Item) (changes : List (Field × Value)) : Item :=
  changes.foldl (fun item change => item.set change.1 change.2) item

/-- The text in which directives are looked for. -/
def directiveText (item : Item) : Except Failure (Option (List Char)) :=
  match item.text with
  | .text text => .ok (some text.toList)
  | text => if text.isPresent then .error .missingOperation else .ok none

/-- Job offers are the items with a bid. -/
def isJob (item : Item) : Bool := !item.maxBid.isNull

end Item

end Deferral
