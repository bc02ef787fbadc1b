import Settlement.Proofs.Batch.Content
import Settlement.Proofs.Claim.Membership

namespace Settlement

/-- The kinds of byte strings that are hashed. Each begins with a tag of its own, and no tag begins
another one. -/
inductive HashKind
  | leaf
  | commitment
  | node
  | batch
  | results
deriving DecidableEq

namespace HashKind

/-- What the byte strings of a kind begin with. No tag begins with another one, so byte strings of
two kinds differ. -/
def tag : HashKind → Bytes
  | leaf => tagBytes "fisher:claim-leaf:v1:"
  | commitment => tagBytes "fisher:claim-commit:v1:"
  | node => tagBytes "fisher:node:v1:"
  | batch => tagBytes "fisher:batch:v1:"
  | results => tagBytes "fisher:results:v1:"

/-- No tag begins another one, so that strings of different kinds differ whatever follows their tags
and however long they are. -/
theorem eq_of_tag_prefix {k k' : HashKind} (h : k.tag <+: k'.tag) : k = k' := by
  revert h
  cases k <;> cases k' <;> decide

end HashKind

/-- All that is hashed, and as what it is hashed. One statement about injectivity then covers all
encodings. -/
inductive Hashed
  | leaf (claim : Claim)
  | commitment (claim : Claim) (nonce : Digest)
  | node (a b : Digest)
  | batch (batch : Batch)
  | results (batchHash : Digest) (flags : List Bool)

namespace Hashed

/-- As what something is hashed, which decides the tag. -/
def kind : Hashed → HashKind
  | leaf _ => .leaf
  | commitment _ _ => .commitment
  | node _ _ => .node
  | batch _ => .batch
  | results _ _ => .results

/-- The byte string that is hashed for something, with its tag in front. -/
def message : Hashed → Bytes
  | leaf claim => claim.leafMessage
  | commitment claim nonce => claim.commitMessage nonce
  | node a b => nodeMessage a b
  | batch b => Batch.message b.id b.operations
  | results batchHash flags => resultsMessage batchHash flags

/-- The digest, as the part of the program that uses it computes it. -/
def digest : Hashed → Digest
  | leaf claim => claim.leaf
  | commitment claim nonce => claim.commitment nonce
  | node a b => hashPair a b
  | batch b => b.hash
  | results batchHash flags => resultsRoot batchHash flags

theorem sha256_message (x : Hashed) : sha256 x.message = x.digest := by
  cases x <;> rfl

theorem tag_prefix_message (x : Hashed) : x.kind.tag <+: x.message := by
  have htag (tag rest : Bytes) : tag <+: tag ++ rest := List.prefix_append ..
  cases x with
  | leaf claim => exact (htag ..).trans (htag ..)
  | commitment claim nonce => exact (htag ..).trans ((htag ..).trans (htag ..))
  | node a b => exact (htag ..).trans (htag ..)
  | batch b => exact (htag ..).trans ((htag ..).trans (htag ..))
  | results batchHash flags => exact (htag ..).trans ((htag ..).trans (htag ..))

variable {x y : Hashed}

theorem message_ne (h : x.kind ≠ y.kind) : x.message ≠ y.message := by
  intro hmessage
  have hx : x.kind.tag <+: y.message := hmessage ▸ x.tag_prefix_message
  rcases List.prefix_or_prefix_of_prefix hx y.tag_prefix_message with htag | htag
  · exact h (HashKind.eq_of_tag_prefix htag)
  · exact h (HashKind.eq_of_tag_prefix htag).symm

/-- A digest of one kind passes for one of another only where two byte strings collide. -/
theorem digest_ne (h : x.kind ≠ y.kind) (hfree : CollisionFree [x.message, y.message]) :
    x.digest ≠ y.digest := by
  rw [← x.sha256_message, ← y.sha256_message]
  exact fun hdigest => message_ne h (hfree.sha256_eq_iff.1 hdigest)

/-- Claims, claims with a nonce, and the signed parts of operations are known from their bytes, and
all that is hashed shows its kind: no byte string of one kind is one of another, and no digest of
one kind is one of another unless the two byte strings collide. -/
theorem known_from_bytes :
    (∀ c d : Claim, c.leafMessage = d.leafMessage ↔ c = d) ∧
    (∀ (c d : Claim) (nonce nonce' : Digest),
      c.commitMessage nonce = d.commitMessage nonce' ↔ c = d ∧ nonce = nonce') ∧
    (∀ a b : Operation, a.payload = b.payload ↔ a.SignedAlike b) ∧
    ∀ x y : Hashed, x.kind ≠ y.kind →
      x.message ≠ y.message ∧ (CollisionFree [x.message, y.message] → x.digest ≠ y.digest) :=
  ⟨fun _ _ => Claim.leafMessage_inj, fun _ _ _ _ => Claim.commitMessage_inj,
    fun _ _ => Operation.payload_inj, fun _ _ h => ⟨message_ne h, digest_ne h⟩⟩

section claim

open ClaimTree

/-- A leaf does not pass for the node above it. -/
theorem known_from_bytes_of_leaf :
    (leaf firstClaim).kind ≠ (node firstClaim.leaf secondClaim.leaf).kind ∧
    CollisionFree [(leaf firstClaim).message, (node firstClaim.leaf secondClaim.leaf).message] ∧
    (leaf firstClaim).message ≠ (node firstClaim.leaf secondClaim.leaf).message ∧
    (leaf firstClaim).digest ≠ (node firstClaim.leaf secondClaim.leaf).digest := by
  have hkind : (leaf firstClaim).kind ≠ (node firstClaim.leaf secondClaim.leaf).kind := nofun
  have hfree : CollisionFree
      [(leaf firstClaim).message, (node firstClaim.leaf secondClaim.leaf).message] := by
    apply CollisionFree.of_nodup
    rw [List.map_cons, List.map_singleton, sha256_message, sha256_message]
    change [firstClaim.leaf, hashPair firstClaim.leaf secondClaim.leaf].Nodup
    rw [hashPair_claims, leaf_firstClaim]
    decide
  obtain ⟨hmessage, hdigest⟩ := known_from_bytes.2.2.2 _ _ hkind
  exact ⟨hkind, hfree, hmessage, hdigest hfree⟩

end claim

end Hashed

end Settlement
