import Settlement.Hash.Sha256
import Settlement.Operation

namespace Settlement

/-- Operations that are settled together, in the order in which they were taken from the queue. -/
structure Batch where
  id : BatchId
  operations : List SignedOperation
  sealedAt : Timestamp
deriving DecidableEq

namespace Batch

/-- The byte string that stands for a batch. It holds the number, the count and the operations in
their order, with their signatures, which have no length of their own in it. -/
def message (id : BatchId) (operations : List SignedOperation) : Bytes :=
  tagBytes "fisher:batch:v1:" ++ littleEndian 8 id.number.val ++
    littleEndian 8 operations.length ++
    operations.flatMap fun op => op.operation.payload ++ op.signature

/-- The hash of a batch, which its results are bound to. -/
def hash (b : Batch) : Digest := sha256 (message b.id b.operations)

def size (b : Batch) : Nat := b.operations.length

/-- The number of weak operations, whether or not the era path is open to them. -/
def periodBoundCount (b : Batch) : Nat := b.operations.countP SignedOperation.isPeriodBound

/-- A batch of operations and signatures that are given apart, in two lists of equal length. -/
def ofParts (id : BatchId) (operations : List Operation) (signatures : List Bytes)
    (sealedAt : Timestamp) : Result Batch := do
  require (operations.length = signatures.length)
    (.lengthMismatch operations.length signatures.length)
  return { id, operations := (operations.zip signatures).map fun (op, s) => ⟨op, s⟩, sealedAt }

end Batch

/-- Eight flags a byte, the first in the lowest bit. What is missing in the last byte is filled up
with zeros. -/
def packFlags (flags : List Bool) : Bytes :=
  match flags with
  | [] => []
  | flag :: rest =>
    let byte := (flag :: rest.take 7).foldr (fun flag n => 2 * n + flag.toNat) 0
    UInt8.ofNat byte :: packFlags (rest.drop 7)
termination_by flags.length
decreasing_by simp only [List.length_cons, List.length_drop]; omega

/-- The byte string that stands for the results of a batch: the hash of the batch, their number and
the flags. -/
def resultsMessage (batchHash : Digest) (results : List Bool) : Bytes :=
  tagBytes "fisher:results:v1:" ++ bigEndian 32 batchHash.val ++
    littleEndian 8 results.length ++ packFlags results

/-- Binds the results of a batch, in their order, to the batch. Whoever has the root can check a
list of results against it. -/
def resultsRoot (batchHash : Digest) (results : List Bool) : Digest :=
  sha256 (resultsMessage batchHash results)

/-- Whether these are the results of which a root was published. -/
def verifyResultsRoot (batchHash : Digest) (results : List Bool) (expected : Digest) : Bool :=
  resultsRoot batchHash results = expected

end Settlement
