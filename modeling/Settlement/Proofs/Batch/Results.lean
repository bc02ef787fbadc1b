import Settlement.Batch.Basic
import Settlement.Proofs.Bytes
import Settlement.Proofs.Digest

namespace Settlement

/-- The number whose binary digits these flags are, the least significant first. -/
def flagNumber (flags : List Bool) : Nat := flags.foldr (fun flag n => 2 * n + flag.toNat) 0

theorem flagNumber_cons (flag : Bool) (flags : List Bool) :
    flagNumber (flag :: flags) = 2 * flagNumber flags + flag.toNat := rfl

theorem flagNumber_lt (flags : List Bool) : flagNumber flags < 2 ^ flags.length := by
  induction flags with
  | nil => exact Nat.one_pos
  | cons flag flags ih =>
    have hflag : flag.toNat ≤ 1 := Bool.toNat_le flag
    rw [flagNumber_cons, List.length_cons, Nat.pow_succ]
    omega

theorem flagNumber_inj {flags flags' : List Bool} (hlength : flags.length = flags'.length) :
    flagNumber flags = flagNumber flags' ↔ flags = flags' := by
  refine ⟨fun h => ?_, congrArg flagNumber⟩
  induction flags generalizing flags' with
  | nil => exact (List.eq_nil_of_length_eq_zero hlength.symm).symm
  | cons flag flags ih =>
    cases flags' with
    | nil => cases hlength
    | cons flag' flags' =>
      -- the lowest digit is the first flag, and the other digits are the rest
      rw [flagNumber_cons, flagNumber_cons] at h
      have hle : flag.toNat ≤ 1 := Bool.toNat_le flag
      have hle' : flag'.toNat ≤ 1 := Bool.toNat_le flag'
      have hbit : flag.toNat = flag'.toNat := by omega
      have hflag : flag = flag' := by
        revert hbit
        cases flag <;> cases flag' <;> decide
      have hflags : flags = flags' := ih (Nat.succ.inj hlength) (by omega)
      rw [hflag, hflags]

theorem packFlags_cons (flag : Bool) (flags : List Bool) :
    packFlags (flag :: flags) =
      UInt8.ofNat (flagNumber (flag :: flags.take 7)) :: packFlags (flags.drop 7) := by
  rw [packFlags]
  rfl

/-- The last byte is filled up, so lists of different lengths can be packed to the same number of
bytes. -/
theorem length_packFlags (flags : List Bool) :
    (packFlags flags).length = (flags.length + 7) / 8 := by
  fun_induction packFlags flags with
  | case1 => rfl
  | case2 flag flags byte ih =>
    rw [List.length_cons, ih, List.length_drop, List.length_cons]
    omega

/-- The flags of one byte are known from it once it is known how many they are. -/
theorem byte_inj {flags flags' : List Bool} (hlength : flags.length = flags'.length)
    (hshort : flags.length ≤ 8) :
    UInt8.ofNat (flagNumber flags) = UInt8.ofNat (flagNumber flags') ↔ flags = flags' := by
  have hpow : 2 ^ flags.length ≤ 2 ^ 8 := Nat.pow_le_pow_right Nat.two_pos hshort
  have hlt : flagNumber flags < 2 ^ 8 := Nat.lt_of_lt_of_le (flagNumber_lt flags) hpow
  have hlt' : flagNumber flags' < 2 ^ 8 := Nat.lt_of_lt_of_le (flagNumber_lt flags') (hlength ▸ hpow)
  rw [← flagNumber_inj hlength, ← UInt8.toNat_inj, UInt8.toNat_ofNat_of_lt' hlt,
    UInt8.toNat_ofNat_of_lt' hlt']

/-- Flags are known from their bytes once it is known how many they are, by induction on the
bytes. -/
theorem packFlags_inj {flags flags' : List Bool} (hlength : flags.length = flags'.length) :
    packFlags flags = packFlags flags' ↔ flags = flags' := by
  refine ⟨fun h => ?_, congrArg packFlags⟩
  induction flags using packFlags.induct generalizing flags' with
  | case1 => exact (List.eq_nil_of_length_eq_zero hlength.symm).symm
  | case2 flag flags ih =>
    cases flags' with
    | nil => cases hlength
    | cons flag' flags' =>
      have hrest : flags.length = flags'.length := Nat.succ.inj hlength
      rw [packFlags_cons, packFlags_cons] at h
      obtain ⟨hbyte, hpacked⟩ := List.cons.inj h
      have hsame : (flag :: flags.take 7).length = (flag' :: flags'.take 7).length := by
        rw [List.length_cons, List.length_cons, List.length_take, List.length_take, hrest]
      have height : (flag :: flags.take 7).length ≤ 8 :=
        Nat.succ_le_succ (List.length_take_le 7 flags)
      have hfirst : flag :: flags.take 7 = flag' :: flags'.take 7 := (byte_inj hsame height).1 hbyte
      have hlater : flags.drop 7 = flags'.drop 7 := ih (by simp [hrest]) hpacked
      calc
        flag :: flags = (flag :: flags.take 7) ++ flags.drop 7 := by
          rw [List.cons_append, List.take_append_drop]
        _ = (flag' :: flags'.take 7) ++ flags'.drop 7 := by rw [hfirst, hlater]
        _ = flag' :: flags' := by rw [List.cons_append, List.take_append_drop]

/-- The batch and its results are known from the byte string, however many results there are. The
number of flags stands before them, modulo its width; together with the number of bytes that is
enough to take the flags out again. -/
theorem resultsMessage_inj {batchHash batchHash' : Digest} {results results' : List Bool} :
    resultsMessage batchHash results = resultsMessage batchHash' results' ↔
      batchHash = batchHash' ∧ results = results' := by
  constructor
  · intro h
    unfold resultsMessage at h
    obtain ⟨h, hpacked⟩ := List.append_inj h (by simp)
    obtain ⟨h, hcount⟩ := List.append_inj' h (by simp)
    have hhash := (bigEndian_val_inj (by decide)).1 (List.append_cancel_left h)
    have hlength : results.length = results'.length := by
      have hmod := mod_eq_of_littleEndian hcount
      have hbytes := congrArg List.length hpacked
      rw [length_packFlags, length_packFlags] at hbytes
      omega
    exact ⟨hhash, (packFlags_inj hlength).1 hpacked⟩
  · rintro ⟨rfl, rfl⟩
    rfl

/-- The root of results binds the batch and the results, in their order and number: the byte string
that is hashed for them is that of no others, so the root is verified for exactly these unless their
byte strings collide. -/
theorem verifyResultsRoot_iff (batchHash batchHash' : Digest) (results results' : List Bool) :
    (resultsMessage batchHash results = resultsMessage batchHash' results' ↔
      batchHash = batchHash' ∧ results = results') ∧
    (CollisionFree [resultsMessage batchHash results, resultsMessage batchHash' results'] →
      (verifyResultsRoot batchHash' results' (resultsRoot batchHash results) = true ↔
        batchHash = batchHash' ∧ results = results')) := by
  refine ⟨resultsMessage_inj, fun hfree => ?_⟩
  calc
    verifyResultsRoot batchHash' results' (resultsRoot batchHash results) = true ↔
        resultsRoot batchHash' results' = resultsRoot batchHash results := decide_eq_true_iff
    _ ↔ resultsRoot batchHash results = resultsRoot batchHash' results' := eq_comm
    _ ↔ resultsMessage batchHash results = resultsMessage batchHash' results' := hfree.sha256_eq_iff
    _ ↔ batchHash = batchHash' ∧ results = results' := resultsMessage_inj

/-- One flag and two flags that are packed to the same byte. -/
theorem verifyResultsRoot_iff_of_padded :
    packFlags [true] = packFlags [true, false] ∧
    CollisionFree [resultsMessage 1 [true], resultsMessage 1 [true, false]] ∧
    (verifyResultsRoot 1 [true, false] (resultsRoot 1 [true]) = true ↔
      (1 : Digest) = 1 ∧ [true] = [true, false]) := by
  have hfree : CollisionFree [resultsMessage 1 [true], resultsMessage 1 [true, false]] :=
    .of_nodup (by decide +kernel)
  exact ⟨by decide +kernel, hfree, (verifyResultsRoot_iff 1 1 [true] [true, false]).2 hfree⟩

end Settlement
