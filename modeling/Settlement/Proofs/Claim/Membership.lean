import Mathlib.Data.List.Induction
import Settlement.Proofs.Claim.Encoding
import Settlement.Proofs.Digest

namespace Settlement

/-- The byte strings that are hashed for the layer above a layer. -/
def pairMessages : List Digest → List Bytes
  | a :: b :: rest => nodeMessage a b :: pairMessages rest
  | _ => []

/-- The byte strings that are hashed along a proof, from the leaf up. Collisions are excluded among
these and the ones behind the root. -/
def proofMessages (leaf : Digest) : List Digest → List Bytes
  | [] => []
  | sibling :: rest => nodeMessage leaf sibling :: proofMessages (hashPair leaf sibling) rest

namespace ClaimTree

/-- The byte strings that are hashed from a layer up to the root. -/
def messagesAbove (layer : List Digest) : List Bytes :=
  match layer with
  | [] => []
  | [_] => []
  | a :: b :: rest => pairMessages (a :: b :: rest) ++ messagesAbove (layerAbove (a :: b :: rest))
termination_by layer.length
decreasing_by rw [length_layerAbove]; simp only [List.length_cons]; omega

/-- The claims that the entries of a period stand for. The domain and the period are the same for
all of them. -/
def claims (domain : Domain) (period : PeriodId) (entries : List (Address × Amount)) : List Claim :=
  entries.map fun (claimant, amount) => { domain, claimant, period, amount }

/-- The byte strings that are hashed for the tree over the claims of a period. -/
def messages (domain : Domain) (period : PeriodId) (entries : List (Address × Amount)) :
    List Bytes :=
  (claims domain period entries).map Claim.leafMessage ++
    messagesAbove (ofEntries domain period entries).leaves

theorem leaves_ofEntries (domain : Domain) (period : PeriodId)
    (entries : List (Address × Amount)) :
    (ofEntries domain period entries).leaves = (claims domain period entries).map Claim.leaf := by
  rw [claims, List.map_map]
  rfl

end ClaimTree

section proof

variable (leaf sibling : Digest) (proof : List Digest)

theorem foldProof_concat :
    foldProof leaf (proof ++ [sibling]) = hashPair (foldProof leaf proof) sibling := by
  rw [foldProof, List.foldl_append]
  rfl

theorem proofMessages_concat :
    proofMessages leaf (proof ++ [sibling]) =
      proofMessages leaf proof ++ [nodeMessage (foldProof leaf proof) sibling] := by
  induction proof generalizing leaf with
  | nil => rfl
  | cons first rest ih =>
    rw [List.cons_append, proofMessages, ih, proofMessages, List.cons_append]
    rfl

end proof

/-- The nodes of trees over these claims that are hashed from these byte strings. -/
inductive Node (claims : List Claim) (messages : List Bytes) : Digest → Prop
  | leaf {claim : Claim} (hclaim : claim ∈ claims) (hmem : claim.leafMessage ∈ messages) :
    Node claims messages claim.leaf
  | pair {a b : Digest} (ha : Node claims messages a) (hb : Node claims messages b)
      (hmem : nodeMessage a b ∈ messages) : Node claims messages (hashPair a b)

namespace Node

variable {claims : List Claim} {messages : List Bytes} {claim : Claim} {a b : Digest}
  {layer : List Digest}

/-- A leaf among the nodes is that of a claim, since a claim is never written like a node. -/
theorem mem_of_leaf (h : Node claims messages claim.leaf) (hfree : CollisionFree messages)
    (hmem : claim.leafMessage ∈ messages) : claim ∈ claims := by
  generalize hdigest : claim.leaf = digest at h
  cases h with
  | @leaf other hother hmem' =>
    have hmessage := hfree _ hmem _ hmem' hdigest
    rwa [Claim.leafMessage_inj.1 hmessage]
  | pair _ _ hmem' =>
    exact absurd (hfree _ hmem _ hmem' hdigest) (leafMessage_ne_nodeMessage _ _ _)

/-- The children of an inner node are those of the tree, in one order or the other. -/
theorem of_pair (h : Node claims messages (hashPair a b)) (hfree : CollisionFree messages)
    (hmem : nodeMessage a b ∈ messages) : Node claims messages a ∧ Node claims messages b := by
  generalize hdigest : hashPair a b = digest at h
  cases h with
  | leaf _ hmem' =>
    exact absurd (hfree _ hmem' _ hmem hdigest.symm) (leafMessage_ne_nodeMessage _ _ _)
  | pair hc hd hmem' =>
    have hmessage := hfree _ hmem _ hmem' hdigest
    rcases nodeMessage_inj.1 hmessage with ⟨rfl, rfl⟩ | ⟨rfl, rfl⟩
    · exact ⟨hc, hd⟩
    · exact ⟨hd, hc⟩

/-- A proof that ends in a node of the tree began at one of its claims. A proof has no directions
and any length, so it is followed down from the root: where the tree has an inner node the proof has
hashed the same two children, and where the tree has a leaf the proof is at its start. -/
theorem mem_of_foldProof {proof : List Digest}
    (h : Node claims messages (foldProof claim.leaf proof)) (hfree : CollisionFree messages)
    (hclaim : claim.leafMessage ∈ messages) (hproof : proofMessages claim.leaf proof ⊆ messages) :
    claim ∈ claims := by
  -- from the end of the proof, which is the root, to its start
  induction proof using List.reverseRecOn with
  | nil => exact h.mem_of_leaf hfree hclaim
  | append_singleton proof sibling ih =>
    rw [foldProof_concat] at h
    rw [proofMessages_concat, List.append_subset] at hproof
    have hmem := hproof.2 (List.mem_singleton.2 rfl)
    exact ih (h.of_pair hfree hmem).1 hproof.1

theorem of_layerAbove (h : ∀ digest ∈ layer, Node claims messages digest)
    (hpairs : pairMessages layer ⊆ messages) :
    ∀ digest ∈ layerAbove layer, Node claims messages digest := by
  fun_induction layerAbove layer with
  | case1 a b rest ih =>
    rw [List.forall_mem_cons, List.forall_mem_cons] at h
    obtain ⟨ha, hb, hrest⟩ := h
    rw [pairMessages, List.cons_subset] at hpairs
    rw [List.forall_mem_cons]
    exact ⟨.pair ha hb hpairs.1, ih hrest hpairs.2⟩
  | case2 => exact h

theorem of_rootOf (h : ∀ digest ∈ layer, Node claims messages digest) (hne : layer ≠ [])
    (habove : ClaimTree.messagesAbove layer ⊆ messages) :
    Node claims messages (ClaimTree.rootOf layer) := by
  fun_induction ClaimTree.rootOf layer with
  | case1 => exact absurd rfl hne
  | case2 root => exact h root (List.mem_singleton.2 rfl)
  | case3 a b rest ih =>
    rw [ClaimTree.messagesAbove, List.append_subset] at habove
    exact ih (of_layerAbove h habove.1) (List.cons_ne_nil _ _) habove.2

end Node

namespace ClaimTree

/-- Whatever claim is proved against the root of a period, by a proof of any length, is one of the
claims that the root was built over: of the same domain and period, with its claimant and amount
among the entries. Only a collision among the byte strings that are hashed for the tree and along
the proof could make it another. -/
theorem mem_entries_of_verifyProof {domain : Domain} {period : PeriodId}
    {entries : List (Address × Amount)} {claim : Claim} {proof : List Digest} (hne : entries ≠ [])
    (hverified : verifyProof claim.leaf proof (ofEntries domain period entries).root = true)
    (hfree : CollisionFree
      (messages domain period entries ++ claim.leafMessage :: proofMessages claim.leaf proof)) :
    claim.domain = domain ∧ claim.period = period ∧ (claim.claimant, claim.amount) ∈ entries := by
  have hroot : Node (claims domain period entries)
      (messages domain period entries ++ claim.leafMessage :: proofMessages claim.leaf proof)
      (ofEntries domain period entries).root := by
    apply Node.of_rootOf
    · rw [leaves_ofEntries, List.forall_mem_map]
      intro claim hclaim
      exact .leaf hclaim (List.mem_append_left _ (List.mem_append_left _ (List.mem_map_of_mem hclaim)))
    · rw [leaves_ofEntries, claims]
      simpa using hne
    · exact fun m hm => List.mem_append_left _ (List.mem_append_right _ hm)
  rw [← of_decide_eq_true hverified] at hroot
  have hmem := hroot.mem_of_foldProof hfree (List.mem_append_right _ (List.mem_cons_self ..))
    fun m hm => List.mem_append_right _ (List.mem_cons_of_mem _ hm)
  obtain ⟨⟨claimant, amount⟩, hentry, rfl⟩ := List.mem_map.1 hmem
  exact ⟨rfl, rfl, hentry⟩

section two

theorem layerAbove_pair (a b : Digest) : layerAbove [a, b] = [hashPair a b] := rfl

def twoEntries : List (Address × Amount) := [(⟨1⟩, 10), (⟨2⟩, 20)]

def firstClaim : Claim := { domain := {}, claimant := ⟨1⟩, period := ⟨0⟩, amount := 10 }

def secondClaim : Claim := { domain := {}, claimant := ⟨2⟩, period := ⟨0⟩, amount := 20 }

theorem leaf_firstClaim : firstClaim.leaf =
    0xdf54eb05f4fef257c6b36423b17246586d009cf897c240e5d35bbe79bfa4f041 := by decide +kernel

theorem leaf_secondClaim : secondClaim.leaf =
    0x1a9aab87dcf74600c21dccff927a49c021be0a19b5ca1ad3782a2b438584a612 := by decide +kernel

theorem hashPair_claims : hashPair firstClaim.leaf secondClaim.leaf =
    0xc18f50f95cde12b5cb6c5731e94105b96e56340442d376acbcb0de40d35a5b68 := by
  rw [leaf_firstClaim, leaf_secondClaim]
  decide +kernel

theorem messages_two : messages {} ⟨0⟩ twoEntries = [firstClaim.leafMessage,
    secondClaim.leafMessage, nodeMessage firstClaim.leaf secondClaim.leaf] := by
  have habove : messagesAbove (ofEntries {} ⟨0⟩ twoEntries).leaves =
      [nodeMessage firstClaim.leaf secondClaim.leaf] := by
    change messagesAbove [firstClaim.leaf, secondClaim.leaf] = _
    rw [messagesAbove, layerAbove_pair, messagesAbove]
    rfl
  rw [messages, habove]
  rfl

theorem verifyProof_two : verifyProof secondClaim.leaf [firstClaim.leaf]
    (ofEntries {} ⟨0⟩ twoEntries).root = true := by
  have hroot : (ofEntries {} ⟨0⟩ twoEntries).root =
      hashPair firstClaim.leaf secondClaim.leaf := by
    change rootOf [firstClaim.leaf, secondClaim.leaf] = _
    rw [rootOf, layerAbove_pair, rootOf]
  rw [hroot, hashPair_comm]
  exact decide_eq_true rfl

/-- The byte strings that are hashed for this tree and for the proof have different digests. -/
theorem collisionFree_two : CollisionFree (messages {} ⟨0⟩ twoEntries ++
    secondClaim.leafMessage :: proofMessages secondClaim.leaf [firstClaim.leaf]) := by
  have hdistinct : ((messages {} ⟨0⟩ twoEntries).map sha256).Nodup := by
    rw [messages_two]
    change [firstClaim.leaf, secondClaim.leaf, hashPair firstClaim.leaf secondClaim.leaf].Nodup
    rw [hashPair_claims, leaf_firstClaim, leaf_secondClaim]
    decide
  have hsubset : messages {} ⟨0⟩ twoEntries ++
      secondClaim.leafMessage :: proofMessages secondClaim.leaf [firstClaim.leaf] ⊆
        messages {} ⟨0⟩ twoEntries := by
    have hnode : nodeMessage secondClaim.leaf firstClaim.leaf =
        nodeMessage firstClaim.leaf secondClaim.leaf := nodeMessage_inj.2 (.inr ⟨rfl, rfl⟩)
    rw [messages_two, proofMessages, proofMessages, hnode]
    simp
  exact (CollisionFree.of_nodup hdistinct).of_subset hsubset

/-- The claim that was proved by the leaf of the other is among the two. -/
theorem mem_entries_of_verifyProof_of_two : twoEntries ≠ [] ∧
    verifyProof secondClaim.leaf [firstClaim.leaf] (ofEntries {} ⟨0⟩ twoEntries).root = true ∧
    CollisionFree (messages {} ⟨0⟩ twoEntries ++
      secondClaim.leafMessage :: proofMessages secondClaim.leaf [firstClaim.leaf]) ∧
    secondClaim.domain = {} ∧ secondClaim.period = ⟨0⟩ ∧
    (secondClaim.claimant, secondClaim.amount) ∈ twoEntries :=
  have hne : twoEntries ≠ [] := List.cons_ne_nil _ _
  ⟨hne, verifyProof_two, collisionFree_two,
    mem_entries_of_verifyProof hne verifyProof_two collisionFree_two⟩

end two

end ClaimTree

end Settlement
