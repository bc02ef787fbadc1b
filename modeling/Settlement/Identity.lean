import Settlement.Number.Bytes
import Settlement.Table
import Settlement.Text.Uuid

namespace Settlement

attribute [local instance (high)] instPowNat

/-- A participant, an authority or a contract: a public key of 32 bytes, kept as the number that
they write, most significant first. -/
structure Address where
  key : Word 256
deriving DecidableEq

namespace Address

/-- The address that nobody holds. It is never a valid authority, guardian or treasury. -/
def zero : Address := ⟨0⟩

instance : Inhabited Address := ⟨zero⟩

def isZero (a : Address) : Bool := a.key.val = 0

/-- The 32 bytes of the key, as they go into digests. -/
def bytes (a : Address) : Bytes := bigEndian 32 a.key.val

/-- The first four bytes in hexadecimal digits, as they are shown in names of accounts. -/
def short (a : Address) : String := hexText (a.bytes.take 4)

/-- The first eight bytes after `0x`, as addresses are written in the texts of errors. -/
def toText (a : Address) : String := "0x" ++ hexText (a.bytes.take 8)

instance : ToString Address := ⟨toText⟩

instance : Ranked Address := ⟨fun a => a.key.val, fun {a b} h => by
  cases a; cases b; exact congrArg Address.mk (Word.ext h)⟩

end Address

/-- The number of an accounting period. Periods are counted from zero without gaps, and a period is
named by its number in every book of the ledger. -/
structure PeriodId where
  number : Word 64
deriving DecidableEq

namespace PeriodId

instance : Inhabited PeriodId := ⟨⟨0⟩⟩

/-- The period that follows, unless this is the last number. The era cannot go beyond it. -/
def next? (p : PeriodId) : Option PeriodId := p.number.succ?.map PeriodId.mk

def toText (p : PeriodId) : String := s!"period:{p.number.val}"

instance : ToString PeriodId := ⟨toText⟩

instance : LE PeriodId := ⟨fun a b => a.number ≤ b.number⟩

instance : LT PeriodId := ⟨fun a b => a.number < b.number⟩

instance (a b : PeriodId) : Decidable (a ≤ b) := inferInstanceAs (Decidable (a.number ≤ b.number))

instance (a b : PeriodId) : Decidable (a < b) := inferInstanceAs (Decidable (a.number < b.number))

theorem le_def {a b : PeriodId} : a ≤ b ↔ a.number.val ≤ b.number.val := Iff.rfl

theorem lt_def {a b : PeriodId} : a < b ↔ a.number.val < b.number.val := Iff.rfl

instance : Ranked PeriodId := ⟨fun p => p.number.val, fun {a b} h => by
  cases a; cases b; exact congrArg PeriodId.mk (Word.ext h)⟩

end PeriodId

/-- A claim is known by who makes it and for which period: there is at most one for each of these
pairs. -/
structure ClaimKey where
  claimant : Address
  period : PeriodId
deriving DecidableEq

instance : Ranked ClaimKey :=
  ⟨fun c => c.claimant.key.val * 2 ^ (64 : Nat) + c.period.number.val, fun {a b} h => by
    obtain ⟨⟨ka⟩, ⟨pa⟩⟩ := a
    obtain ⟨⟨kb⟩, ⟨pb⟩⟩ := b
    have hpa := pa.isLt
    have hpb := pb.isLt
    simp only at h hpa hpb
    have hk : ka.val = kb.val := by omega
    have hp : pa.val = pb.val := by omega
    rw [Word.ext hk, Word.ext hp]⟩

/-- The number of a sealed batch. Batches are numbered in the order in which they are sealed. -/
structure BatchId where
  number : Word 64
deriving DecidableEq

namespace BatchId

instance : Inhabited BatchId := ⟨⟨0⟩⟩

/-- The number of the batch that follows. The last number is used again, so that sealing a batch
never fails for want of a number. -/
def next (b : BatchId) : BatchId := ⟨b.number.satAdd 1⟩

def toText (b : BatchId) : String := s!"batch:{b.number.val}"

instance : ToString BatchId := ⟨toText⟩

end BatchId

/-- The identifier of one operation, under which the relay and the reports on batches know it. -/
structure OperationId where
  uuid : Uuid
deriving DecidableEq

namespace OperationId

instance : Inhabited OperationId := ⟨⟨0⟩⟩

/-- The 16 bytes of the identifier, as they go into the message that is signed. -/
def bytes (id : OperationId) : Bytes := bigEndian 16 id.uuid.val

/-- A new identifier for an operation made at a time in milliseconds. Different random bits give
different identifiers, and later ones sort after earlier ones. -/
def generate (millis : Word 48) (random : Word 74) : OperationId := ⟨Uuid.version7 millis random⟩

def toText (id : OperationId) : String := "op:" ++ id.uuid.toText

instance : ToString OperationId := ⟨toText⟩

end OperationId

end Settlement
