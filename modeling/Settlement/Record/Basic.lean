import Settlement.Text.Json.Reader

namespace Settlement

/-- What can be read from JSON. Reading gives no reason when it fails. -/
class OfJson (α : Type) where
  ofJson? : Json → Option α

/-- What can be written as JSON, in the form in which it is read again. -/
class ToJson (α : Type) where
  toJson : α → Json

export OfJson (ofJson?)
export ToJson (toJson)

/-- Reads a value from a JSON text, which may hold nothing else but blanks. -/
def ofJsonText? {α : Type} [OfJson α] (text : String) : Option α := do ofJson? (← Json.ofText? text)

def toJsonText {α : Type} [ToJson α] (a : α) : String := (toJson a).toText

/-- The fields of a record by their names. They are written as members of an object and read from
such an object or from an array of the fields in their order. -/
structure Fields where
  values : List (String × Option Json)
  /-- Whether they stand in an array. -/
  positional : Bool

namespace Fields

/-- The value of the only member with this key. No field may occur twice, so there is no answer if
there are several. -/
def member? (members : List (String × Json)) (name : String) : Option (Option Json) :=
  match members.filter (·.1 = name) with
  | [] => some none
  | [(_, value)] => some (some value)
  | _ => none

/-- The fields with these names. Other members of an object are passed over; an array may be shorter
than the record but not longer. -/
def ofJson? (names : List String) : Json → Option Fields
  | .object members => do
    let members ← members.mapM fun (key, value) => do return (← key.text?, value)
    let values ← names.mapM (member? members)
    return ⟨names.zip values, false⟩
  | .array items =>
    if items.length ≤ names.length then
      some ⟨names.zipIdx.map fun (name, i) => (name, items[i]?), true⟩
    else none
  | _ => none

def value? (f : Fields) (name : String) : Option Json := (f.values.lookup name).join

/-- A field that has to be there, and has to be readable. -/
def required {α : Type} [OfJson α] (f : Fields) (name : String) : Option α :=
  (f.value? name).bind OfJson.ofJson?

/-- A field whose value may be `null`, and which may be missing from an object. -/
def optional {α : Type} [OfJson α] (f : Fields) (name : String) : Option (Option α) :=
  match f.value? name with
  | some .null => some none
  | some json => (OfJson.ofJson? json).map some
  | none => if f.positional then none else some none

/-- A field that may be missing and then has its default. One that is there has to be readable. -/
def orDefault {α : Type} [OfJson α] (f : Fields) (name : String) (default : α) : Option α :=
  match f.value? name with
  | some json => OfJson.ofJson? json
  | none => some default

end Fields

/-- Reads one of several names, written as a string or as the only key of an object with the value
`null`. -/
def ofName? {α : Type} (name : α → String) (all : List α) : Json → Option α
  | .string s => find? s
  | .object [(key, .null)] => find? key
  | _ => none
where
  find? (s : Written) : Option α := do
    let text ← s.text?
    all.find? (name · = text)

end Settlement
