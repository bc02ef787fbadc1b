import Settlement.Batch.Chunk

namespace Settlement

/-- Operations that are settled the same way, with their positions in the batch. -/
structure OperationGroup where
  kind : OperationKind
  members : List (SignedOperation × Nat)
deriving DecidableEq

namespace OperationGroup

def operations (g : OperationGroup) : List SignedOperation := g.members.map Prod.fst

/-- The positions in the batch, which lead the results of the group back to their operations. -/
def indexMap (g : OperationGroup) : List Nat := g.members.map Prod.snd

def size (g : OperationGroup) : Nat := g.members.length

end OperationGroup

/-- A batch in two groups, which together have each of its operations once. -/
structure Partition where
  weak : OperationGroup
  strong : OperationGroup
deriving DecidableEq

namespace Partition

/-- The size of the batch, which is that of both groups together. -/
def total (p : Partition) : Nat := p.weak.size + p.strong.size

/-- The results of the groups in the order of the batch. The two lists of positions are increasing,
so that a merge by position restores the order. -/
def reassemble (p : Partition) (weakResults strongResults : List Bool) : Result (List Bool) := do
  require (weakResults.length = p.weak.size) (.lengthMismatch p.weak.size weakResults.length)
  require (strongResults.length = p.strong.size)
    (.lengthMismatch p.strong.size strongResults.length)
  let weak := p.weak.indexMap.zip weakResults
  let strong := p.strong.indexMap.zip strongResults
  return (weak.merge strong fun a b => a.1 ≤ b.1).map Prod.snd

end Partition

/-- The groups of a batch. Without the era path all operations are strong, whatever their payers
signed. -/
def classify (eraPath : Bool) (operations : List SignedOperation) : Partition :=
  let isWeak (member : SignedOperation × Nat) : Bool := eraPath && member.1.isPeriodBound
  { weak := ⟨.weak, operations.zipIdx.filter isWeak⟩
    strong := ⟨.strong, operations.zipIdx.filter (!isWeak ·)⟩ }

/-- What became of a group, and how many of its operations are to be counted. -/
structure GroupOutcome where
  report : ChunkReport
  /-- The operations to count in the current period. -/
  eraOperations : Nat
deriving DecidableEq

/-- Settles a group. Of a weak group the settled operations count in the current period. -/
def OperationGroup.settle {σ : Type} [SettlementClient σ] (g : OperationGroup) (chunking : Bool)
    (client : σ) : Result GroupOutcome × σ :=
  match settleChunked chunking client g.operations with
  | (.error e, client) => (.error e, client)
  | (.ok report, client) =>
    let eraOperations := match g.kind with
      | .weak => report.succeeded
      | .strong => 0
    (.ok ⟨report, eraOperations⟩, client)

end Settlement
