import Mathlib.Data.List.Forall2
import Settlement.Batch.Basic
import Settlement.Proofs.Bytes
import Settlement.Proofs.Result

namespace Settlement

namespace Operation

/-- The operations agree in all that is signed. The time of submission is not. -/
structure SignedAlike (a b : Operation) : Prop where
  id : a.id = b.id
  payer : a.payer = b.payer
  payee : a.payee = b.payee
  amount : a.amount = b.amount
  periodBound : a.periodBound = b.periodBound
  nonce : a.nonce = b.nonce

/-- What is signed has a fixed length, since all parts of an operation stand at fixed places. -/
@[simp] theorem length_payload (op : Operation) : op.payload.length = 105 := by
  simp [payload]

private theorem flag_inj {a b : Bool} :
    [if a then (1 : UInt8) else 0] = [if b then (1 : UInt8) else 0] ↔ a = b := by
  cases a <;> cases b <;> decide

theorem payload_inj {a b : Operation} : a.payload = b.payload ↔ a.SignedAlike b := by
  constructor
  · intro h
    unfold payload at h
    obtain ⟨h, hnonce⟩ := List.append_inj' h (by simp)
    obtain ⟨h, hflag⟩ := List.append_inj' h (by simp)
    obtain ⟨h, hamount⟩ := List.append_inj' h (by simp)
    obtain ⟨h, hpayee⟩ := List.append_inj' h (by simp)
    obtain ⟨hid, hpayer⟩ := List.append_inj' h (by simp)
    exact {
      id := OperationId.bytes_inj.1 hid
      payer := Address.bytes_inj.1 hpayer
      payee := Address.bytes_inj.1 hpayee
      amount := (littleEndian_val_inj (by decide)).1 hamount
      periodBound := flag_inj.1 hflag
      nonce := (littleEndian_val_inj (by decide)).1 hnonce }
  · rintro ⟨hid, hpayer, hpayee, hamount, hflag, hnonce⟩
    simp only [payload, hid, hpayer, hpayee, hamount, hflag, hnonce]

end Operation

namespace SignedOperation

/-- The operations agree in all that is signed, and they have the same signature. -/
structure Agrees (a b : SignedOperation) : Prop where
  operation : a.operation.SignedAlike b.operation
  signature : a.signature = b.signature

/-- What an operation adds to the bytes that are hashed for a batch: its content and its signature,
with no length in front of the latter. -/
def written (op : SignedOperation) : Bytes := op.operation.payload ++ op.signature

/-- A signature has any length, and no mark at its end. -/
def signatureLength (op : SignedOperation) : Nat := op.signature.length

/-- Where two operations are followed by more, their signatures have to be equally long for the
bytes to tell them apart: where a signature ends the next operation begins, and the bytes do not say
where that is. -/
theorem agrees_of_append {a b : SignedOperation} {rest rest' : Bytes}
    (hlength : a.signatureLength = b.signatureLength)
    (h : a.written ++ rest = b.written ++ rest') : a.Agrees b ∧ rest = rest' := by
  obtain ⟨hwritten, hrest⟩ := List.append_inj h (by
    simp only [written, List.length_append, Operation.length_payload]
    exact congrArg (105 + ·) hlength)
  obtain ⟨hpayload, hsignature⟩ := List.append_inj hwritten (by simp)
  exact ⟨⟨Operation.payload_inj.1 hpayload, hsignature⟩, hrest⟩

end SignedOperation

theorem Authorizer.length_of_ed25519 {op : Operation} {signature : Bytes}
    (h : Authorizer.ed25519 op signature = .ok ()) : signature.length = 64 := by
  have hverified : Ed25519.verify op.payer.bytes op.payload signature = true :=
    require_eq_ok_iff.1 h
  unfold Ed25519.verify at hverified
  rw [Bool.and_eq_true, Bool.and_eq_true] at hverified
  exact of_decide_eq_true hverified.1.1

namespace Batch

variable {id id' : BatchId} {ops ops' : List SignedOperation}

/-- The number of the batch and the count are known from the bytes, since they stand at fixed
places, and so is what all operations are written to together. -/
theorem message_inj (h : message id ops = message id' ops') :
    id = id' ∧ littleEndian 8 ops.length = littleEndian 8 ops'.length ∧
      ops.flatMap SignedOperation.written = ops'.flatMap SignedOperation.written := by
  unfold message at h
  obtain ⟨h, hwritten⟩ := List.append_inj h (by simp)
  obtain ⟨h, hcount⟩ := List.append_inj' h (by simp)
  have hid := (littleEndian_val_inj (by decide)).1 (List.append_cancel_left h)
  obtain ⟨number⟩ := id
  obtain ⟨number'⟩ := id'
  exact ⟨congrArg BatchId.mk hid, hcount, hwritten⟩

/-- Once it is known how long each signature is, the bytes are taken apart operation by
operation. -/
theorem forall₂_agrees_of_written (hlengths : ops.map SignedOperation.signatureLength =
      ops'.map SignedOperation.signatureLength)
    (h : ops.flatMap SignedOperation.written = ops'.flatMap SignedOperation.written) :
    List.Forall₂ SignedOperation.Agrees ops ops' := by
  induction ops generalizing ops' with
  | nil =>
    rw [List.map_nil, eq_comm, List.map_eq_nil_iff] at hlengths
    subst hlengths
    exact .nil
  | cons op ops ih =>
    cases ops' with
    | nil => simp at hlengths
    | cons op' ops' =>
      obtain ⟨hlength, hlengths⟩ := List.cons.inj hlengths
      obtain ⟨hagrees, hrest⟩ := SignedOperation.agrees_of_append hlength h
      exact .cons hagrees (ih hlengths hrest)

theorem map_signatureLength_of_forall₂ (h : List.Forall₂ SignedOperation.Agrees ops ops') :
    ops.map SignedOperation.signatureLength = ops'.map SignedOperation.signatureLength := by
  induction h with
  | nil => rfl
  | cons hagrees _ ih =>
    rw [List.map_cons, List.map_cons, ih, SignedOperation.signatureLength, hagrees.signature]
    rfl

/-- What all operations are written to together tells them apart exactly if it is known how long
each signature is. -/
theorem forall₂_agrees_iff
    (h : ops.flatMap SignedOperation.written = ops'.flatMap SignedOperation.written) :
    List.Forall₂ SignedOperation.Agrees ops ops' ↔
      ops.map SignedOperation.signatureLength = ops'.map SignedOperation.signatureLength :=
  ⟨map_signatureLength_of_forall₂, fun hlengths => forall₂_agrees_of_written hlengths h⟩

theorem length_flatMap_written {n : Nat} (h : ∀ op ∈ ops, op.signatureLength = n) :
    (ops.flatMap SignedOperation.written).length = ops.length * (105 + n) := by
  have hlength : ∀ op ∈ ops, op.written.length = 105 + n := fun op hop => by
    rw [SignedOperation.written, List.length_append, Operation.length_payload, ← h op hop]
    rfl
  rw [List.length_flatMap, List.map_eq_replicate_iff.2 hlength, List.sum_replicate_nat]

/-- Batches of operations that their payers have signed are known by their bytes: those signatures
all have the same length. -/
theorem agrees_of_authorized (h : message id ops = message id' ops')
    (hauthorized : ∀ op ∈ ops ++ ops', Authorizer.ed25519 op.operation op.signature = .ok ()) :
    id = id' ∧ List.Forall₂ SignedOperation.Agrees ops ops' := by
  obtain ⟨hid, -, hwritten⟩ := message_inj h
  have hlength : ∀ op ∈ ops ++ ops', op.signatureLength = 64 := fun op hop =>
    Authorizer.length_of_ed25519 (hauthorized op hop)
  obtain ⟨hlengths, hlengths'⟩ := List.forall_mem_append.1 hlength
  have hcount : ops.length = ops'.length := by
    have hbytes := congrArg List.length hwritten
    rw [length_flatMap_written hlengths, length_flatMap_written hlengths'] at hbytes
    omega
  refine ⟨hid, (forall₂_agrees_iff hwritten).2 ?_⟩
  rw [List.map_eq_replicate_iff.2 hlengths, List.map_eq_replicate_iff.2 hlengths', hcount]

/-- Two batches of the same bytes have the same number and equally many operations. Their operations
agree in their order, with their signatures, exactly if the signatures are equally long one by
one. -/
theorem agrees_iff_of_message_eq (h : message id ops = message id' ops') :
    id = id' ∧
      (ops.length < 2 ^ 64 → ops'.length < 2 ^ 64 → ops.length = ops'.length) ∧
      (List.Forall₂ SignedOperation.Agrees ops ops' ↔
        ops.map SignedOperation.signatureLength = ops'.map SignedOperation.signatureLength) := by
  obtain ⟨hid, hcount, hwritten⟩ := message_inj h
  exact ⟨hid, fun hlt hlt' => (littleEndian_inj hlt hlt').1 hcount, forall₂_agrees_iff hwritten⟩

def unsignedPayment : SignedOperation :=
  ⟨{ id := ⟨1⟩, payer := ⟨1⟩, payee := ⟨2⟩, amount := 10, periodBound := false, nonce := 1,
     submittedAt := .epoch }, []⟩

/-- A strong payment of 256, its signature a single byte. -/
def largePayment : SignedOperation :=
  ⟨{ id := ⟨2⟩, payer := ⟨1⟩, payee := ⟨2⟩, amount := 256, periodBound := false, nonce := 1,
     submittedAt := .epoch }, [0]⟩

/-- A weak payment of 1: the bytes of the large one, read one byte later. -/
def smallPayment : SignedOperation :=
  ⟨{ id := ⟨512⟩, payer := ⟨256⟩, payee := ⟨512⟩, amount := 1, periodBound := true, nonce := 0,
     submittedAt := .epoch }, []⟩

def resubmitted : SignedOperation :=
  ⟨{ unsignedPayment.operation with submittedAt := Timestamp.epoch.after (.ofSeconds 3600) }, []⟩

/-- A payment that is handed in again an hour later is not told apart, since the time of submission
is not in the bytes. -/
theorem agrees_iff_of_message_eq_of_resubmitted :
    message ⟨1⟩ [unsignedPayment, largePayment] = message ⟨1⟩ [resubmitted, largePayment] ∧
      unsignedPayment ≠ resubmitted ∧
      List.Forall₂ SignedOperation.Agrees [unsignedPayment, largePayment]
        [resubmitted, largePayment] := by
  have hmessage : message ⟨1⟩ [unsignedPayment, largePayment] =
      message ⟨1⟩ [resubmitted, largePayment] := rfl
  exact ⟨hmessage, by decide, (agrees_iff_of_message_eq hmessage).2.2.2 rfl⟩

/-- The first payment with the byte that the small one leaves to its signature. -/
def lengthened : SignedOperation := { unsignedPayment with signature := [0] }

/-- Two batches of the same bytes, and so of the same hash, of which one pays 256 where the other
pays 1 between other parties. -/
theorem not_agrees_of_shifted :
    message ⟨1⟩ [unsignedPayment, largePayment] = message ⟨1⟩ [lengthened, smallPayment] ∧
      Batch.hash ⟨⟨1⟩, [unsignedPayment, largePayment], .epoch⟩ =
        Batch.hash ⟨⟨1⟩, [lengthened, smallPayment], .epoch⟩ ∧
      largePayment.operation.amount ≠ smallPayment.operation.amount ∧
      largePayment.operation.periodBound ≠ smallPayment.operation.periodBound ∧
      ¬ List.Forall₂ SignedOperation.Agrees [unsignedPayment, largePayment]
        [lengthened, smallPayment] := by
  have hmessage : message ⟨1⟩ [unsignedPayment, largePayment] =
      message ⟨1⟩ [lengthened, smallPayment] := by decide +kernel
  refine ⟨hmessage, congrArg sha256 hmessage, by decide, by decide, fun hagrees => ?_⟩
  cases hagrees with
  | cons hfirst _ =>
    have hsignature : ([] : Bytes) = [0] := hfirst.signature
    cases hsignature

end Batch

end Settlement
