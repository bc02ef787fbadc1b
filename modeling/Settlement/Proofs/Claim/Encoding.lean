import Settlement.Claim.Tree
import Settlement.Proofs.Bytes
import Settlement.Proofs.Word

namespace Settlement

namespace Claim

variable {c d : Claim}

/-- A claim is determined by the parts that its encodings have in common and by the version. -/
theorem ext_core (hcore : c.core = d.core) (hversion : c.version = d.version) : c = d := by
  obtain ⟨hcore, hamount⟩ := List.append_inj' hcore
    (by rw [length_littleEndian, length_littleEndian])
  obtain ⟨hcore, hperiod⟩ := List.append_inj' hcore
    (by rw [length_littleEndian, length_littleEndian])
  obtain ⟨hcore, hclaimant⟩ := List.append_inj' hcore
    (by rw [Address.length_bytes, Address.length_bytes])
  obtain ⟨hchain, hcontract⟩ := List.append_inj' hcore
    (by rw [Address.length_bytes, Address.length_bytes])
  obtain ⟨⟨chainId, contract, version⟩, claimant, ⟨period⟩, amount⟩ := c
  obtain ⟨⟨chainId', contract', version'⟩, claimant', ⟨period'⟩, amount'⟩ := d
  obtain rfl := (littleEndian_val_inj (by decide)).1 hchain
  obtain rfl := Address.bytes_inj.1 hcontract
  obtain rfl := Address.bytes_inj.1 hclaimant
  obtain rfl := (littleEndian_val_inj (by decide)).1 hperiod
  obtain rfl := (littleEndian_val_inj (by decide)).1 hamount
  obtain rfl := (littleEndian_val_inj (by decide)).1 hversion
  rfl

/-- A claim is known from the byte string of its leaf. All parts after the tag have a fixed width,
so the string is taken apart from its end, part by part. -/
theorem leafMessage_inj : c.leafMessage = d.leafMessage ↔ c = d := by
  refine ⟨fun h => ?_, fun h => h ▸ rfl⟩
  unfold leafMessage at h
  obtain ⟨h, hversion⟩ := List.append_inj' h (by rw [version, version, length_littleEndian,
    length_littleEndian])
  exact ext_core (List.append_cancel_left h) hversion

theorem commitMessage_inj {nonce nonce' : Digest} :
    c.commitMessage nonce = d.commitMessage nonce' ↔ c = d ∧ nonce = nonce' := by
  constructor
  · intro h
    unfold commitMessage at h
    obtain ⟨h, hversion⟩ := List.append_inj' h (by rw [version, version, length_littleEndian,
      length_littleEndian])
    obtain ⟨h, hnonce⟩ := List.append_inj' h (by rw [length_bigEndian, length_bigEndian])
    exact ⟨ext_core (List.append_cancel_left h) hversion, (bigEndian_val_inj (by decide)).1 hnonce⟩
  · rintro ⟨rfl, rfl⟩
    rfl

end Claim

/-- The two nodes below are known from the byte string of a node, up to their order, since they are
sorted before they are hashed. -/
theorem nodeMessage_inj {a b c d : Digest} :
    nodeMessage a b = nodeMessage c d ↔ a = c ∧ b = d ∨ a = d ∧ b = c := by
  rw [← Word.least_greatest_inj]
  constructor
  · intro h
    unfold nodeMessage at h
    obtain ⟨h, hgreatest⟩ := List.append_inj' h (by rw [length_bigEndian, length_bigEndian])
    have hleast := List.append_cancel_left h
    exact ⟨(bigEndian_val_inj (by decide)).1 hleast, (bigEndian_val_inj (by decide)).1 hgreatest⟩
  · rintro ⟨hleast, hgreatest⟩
    rw [nodeMessage, nodeMessage, hleast, hgreatest]

theorem hashPair_comm (a b : Digest) : hashPair a b = hashPair b a :=
  congrArg sha256 (nodeMessage_inj.2 (.inr ⟨rfl, rfl⟩))

theorem leafMessage_ne_nodeMessage (c : Claim) (a b : Digest) :
    c.leafMessage ≠ nodeMessage a b := by
  unfold Claim.leafMessage nodeMessage
  rw [List.append_assoc, List.append_assoc]
  exact append_ne_of_getElem?_ne (i := 7) (by decide) (by decide) (by decide)

end Settlement
