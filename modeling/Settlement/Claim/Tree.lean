import Settlement.Claim.Encoding

namespace Settlement

/-- The byte string of an inner node. The smaller child comes first, so that a proof need not say on
which side a sibling stands. -/
def nodeMessage (a b : Digest) : Bytes :=
  tagBytes "fisher:node:v1:" ++ bigEndian 32 (Word.least a b).val ++
    bigEndian 32 (Word.greatest a b).val

/-- The node above two nodes, the same for both orders of the two. -/
def hashPair (a b : Digest) : Digest := sha256 (nodeMessage a b)

/-- The root that a proof leads to from a leaf, by hashing with one sibling after the other. -/
def foldProof (leaf : Digest) (proof : List Digest) : Digest := proof.foldl hashPair leaf

/-- Whether a proof leads from a leaf to the root. The proof is the list of siblings on the way
up. -/
def verifyProof (leaf : Digest) (proof : List Digest) (root : Digest) : Bool :=
  foldProof leaf proof = root

/-- The layer above a layer of nodes. The odd node at the end of a layer is carried up as it is. -/
def layerAbove : List Digest → List Digest
  | a :: b :: rest => hashPair a b :: layerAbove rest
  | layer => layer

/-- The layer above has half the length, rounded up, so that the layers come down to a single
root. -/
theorem length_layerAbove (layer : List Digest) :
    (layerAbove layer).length = (layer.length + 1) / 2 := by
  fun_induction layerAbove layer with
  | case1 a b rest ih => simp only [List.length_cons, ih]; omega
  | case2 layer hlayer =>
    match layer with
    | [] => simp
    | [_] => simp
    | a :: b :: rest => exact absurd rfl (hlayer a b rest)

/-- The claims of one period, as the leaves of a tree whose root commits to all of them. -/
structure ClaimTree where
  leaves : List Digest

namespace ClaimTree

/-- The tree over the claims of a period, with a leaf for each claimant and amount in the given
order. -/
def ofEntries (domain : Domain) (period : PeriodId) (entries : List (Address × Amount)) :
    ClaimTree :=
  ⟨entries.map fun (claimant, amount) => Claim.leaf { domain, claimant, period, amount }⟩

/-- The root above a layer. That of no claims is zero, and that of a single claim is its leaf. -/
def rootOf (layer : List Digest) : Digest :=
  match layer with
  | [] => 0
  | [root] => root
  | a :: b :: rest => rootOf (layerAbove (a :: b :: rest))
termination_by layer.length
decreasing_by rw [length_layerAbove]; simp only [List.length_cons]; omega

/-- The siblings on the way from the node at `index` of a layer to the root. A node that is carried
up has none in its layer, so a proof may be shorter than the tree is high. -/
def siblings (layer : List Digest) (index : Nat) : List Digest :=
  if layer.length ≤ 1 then []
  else layer[index ^^^ 1]?.toList ++ siblings (layerAbove layer) (index / 2)
termination_by layer.length
decreasing_by rw [length_layerAbove]; omega

def root (t : ClaimTree) : Digest := rootOf t.leaves

/-- The proof for the claim at `index`, which leads from its leaf to the root of the tree. -/
def proof (t : ClaimTree) (index : Nat) : List Digest := siblings t.leaves index

end ClaimTree

end Settlement
