import Settlement.Identity
import Settlement.Record.Basic
import Settlement.Time.Text

namespace Settlement

instance {α : Type} [ToJson α] : ToJson (Option α) where
  toJson
    | some a => toJson a
    | none => .null

instance {α : Type} [OfJson α] : OfJson (List α) where
  ofJson?
    | .array items => items.mapM ofJson?
    | _ => none

instance {α : Type} [ToJson α] : ToJson (List α) := ⟨fun items => .array (items.map toJson)⟩

instance : OfJson Bool where
  ofJson?
    | .bool b => some b
    | _ => none

instance : ToJson Bool := ⟨.bool⟩

/-- Reads a number without a sign of a given width. Larger numbers and fractions are refused. -/
def Word.ofJson? {w : Nat} : Json → Option (Word w)
  | .number n => n.nat?.bind Word.ofNat?
  | _ => none

/-- Writes a number with all its digits, however wide it is. -/
def Word.toJson {w : Nat} (a : Word w) : Json := .ofNat a.val

instance : OfJson (Word 16) := ⟨Word.ofJson?⟩
instance : ToJson (Word 16) := ⟨Word.toJson⟩

instance : OfJson (Word 32) := ⟨Word.ofJson?⟩
instance : ToJson (Word 32) := ⟨Word.toJson⟩

instance : OfJson Count := ⟨Word.ofJson?⟩
instance : ToJson Count := ⟨Word.toJson⟩

instance : OfJson Amount := ⟨Word.ofJson?⟩
instance : ToJson Amount := ⟨Word.toJson⟩

instance : OfJson UInt8 := ⟨fun json => (Word.ofJson? json).map fun (b : Word 8) => UInt8.ofNat b.val⟩
instance : ToJson UInt8 := ⟨fun b => .ofNat b.toNat⟩

/-- A digest is read from exactly 32 bytes. -/
instance : OfJson (Word 256) where
  ofJson? json := do
    let bytes : Bytes ← ofJson? json
    if bytes.length = 32 then Word.ofNat? (ofBigEndian bytes) else none

instance : ToJson (Word 256) := ⟨fun a => toJson (bigEndian 32 a.val)⟩

instance : OfJson Address := ⟨fun json => (ofJson? json).map Address.mk⟩
instance : ToJson Address := ⟨fun a => toJson a.key⟩

instance : OfJson PeriodId := ⟨fun json => (ofJson? json).map PeriodId.mk⟩
instance : ToJson PeriodId := ⟨fun p => toJson p.number⟩

/-- Reads a value from a string, if it can be read and the JSON value is a string. -/
def ofString? {α : Type} (read : String → Option α) : Json → Option α
  | .string s => s.text?.bind read
  | _ => none

instance : OfJson OperationId := ⟨ofString? fun text => (Uuid.ofText? text).map OperationId.mk⟩
instance : ToJson OperationId := ⟨fun id => .ofText id.uuid.toText⟩

instance : OfJson Timestamp := ⟨ofString? Timestamp.ofText?⟩
instance : ToJson Timestamp := ⟨fun t => .ofText t.toText⟩

instance : OfJson Decimal where
  ofJson?
    | .number n => n.decimal?
    | json => ofString? Decimal.ofText? json

instance : ToJson Decimal := ⟨fun a => .ofText a.toText⟩

namespace Span

def fieldNames : List String := ["secs", "nanos"]

/-- Whether an object has no other members than those of a length of time. -/
def hasOnlyFields : Json → Bool
  | .object members => members.all fun (key, _) => key.text?.any (· ∈ fieldNames)
  | _ => true

end Span

/-- Nanoseconds beyond a second are carried. -/
instance : OfJson Span where
  ofJson? json := do
    let f ← Fields.ofJson? Span.fieldNames json
    let seconds : Count ← f.required "secs"
    let nanos : Word 32 ← f.required "nanos"
    if Span.hasOnlyFields json then Span.ofParts? seconds.val nanos.val else none

instance : ToJson Span :=
  ⟨fun d => .ofMembers [("secs", .ofNat d.seconds), ("nanos", .ofNat d.subsecond)]⟩

namespace PeriodId

/-- Reads the number of a period from a key, which is written without a backslash. -/
def ofKey? (key : Written) : Option PeriodId := do
  let n ← Numeral.ofChars? (← key.plainChars?)
  return ⟨← Word.ofNat? (← n.nat?)⟩

end PeriodId

/-- Of several rows with one key the last one counts. -/
instance {ν : Type} [OfJson ν] : OfJson (Table PeriodId ν) where
  ofJson?
    | .object members =>
      members.foldlM (fun t (key, value) => do
        return t.insert (← PeriodId.ofKey? key) (← ofJson? value)) .empty
    | _ => none

instance {ν : Type} [ToJson ν] : ToJson (Table PeriodId ν) :=
  ⟨fun t => .ofMembers (t.rows.map fun (p, value) => (toString p.number.val, toJson value))⟩

end Settlement
