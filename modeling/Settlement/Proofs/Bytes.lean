import Mathlib.Algebra.Group.Nat.Defs
import Settlement.Identity

namespace Settlement

theorem littleEndian_inj {k m n : Nat} (hm : m < 256 ^ k) (hn : n < 256 ^ k) :
    littleEndian k m = littleEndian k n ↔ m = n := by
  refine ⟨fun h => ?_, fun h => h ▸ rfl⟩
  rw [← ofLittleEndian_littleEndian hm, h, ofLittleEndian_littleEndian hn]

theorem ofLittleEndian_littleEndian_mod (k n : Nat) :
    ofLittleEndian (littleEndian k n) = n % 256 ^ k := by
  induction k generalizing n with
  | zero => rw [Nat.pow_zero, Nat.mod_one, littleEndian, ofLittleEndian]
  | succ k ih =>
    have hbyte : n % 256 % 2 ^ 8 = n % 256 := Nat.mod_eq_of_lt (Nat.mod_lt n (by decide))
    rw [littleEndian, ofLittleEndian, ih, UInt8.toNat_ofNat', hbyte, Nat.pow_succ', Nat.mod_mul]

theorem mod_eq_of_littleEndian {k m n : Nat} (h : littleEndian k m = littleEndian k n) :
    m % 256 ^ k = n % 256 ^ k := by
  rw [← ofLittleEndian_littleEndian_mod, h, ofLittleEndian_littleEndian_mod]

section width

variable {w k : Nat} {a b : Word w}

theorem littleEndian_val_inj (hw : 2 ^ w = 256 ^ k) :
    littleEndian k a.val = littleEndian k b.val ↔ a = b := by
  rw [littleEndian_inj (hw ▸ a.isLt) (hw ▸ b.isLt), Word.ext_iff]

theorem bigEndian_val_inj (hw : 2 ^ w = 256 ^ k) :
    bigEndian k a.val = bigEndian k b.val ↔ a = b := by
  rw [bigEndian, bigEndian, List.reverse_inj, littleEndian_val_inj hw]

end width

@[simp] theorem Address.length_bytes (a : Address) : a.bytes.length = 32 := length_bigEndian ..

theorem Address.bytes_inj {a b : Address} : a.bytes = b.bytes ↔ a = b := by
  obtain ⟨a⟩ := a
  obtain ⟨b⟩ := b
  rw [bytes, bytes, bigEndian_val_inj (by decide), Address.mk.injEq]

@[simp] theorem OperationId.length_bytes (id : OperationId) : id.bytes.length = 16 :=
  length_bigEndian ..

theorem OperationId.bytes_inj {a b : OperationId} : a.bytes = b.bytes ↔ a = b := by
  obtain ⟨a⟩ := a
  obtain ⟨b⟩ := b
  rw [bytes, bytes, bigEndian_val_inj (by decide), OperationId.mk.injEq]

/-- Two tags that differ at some byte make all that they begin differ, whatever follows them. -/
theorem append_ne_of_getElem?_ne {tag tag' rest rest' : Bytes} {i : Nat} (hi : i < tag.length)
    (hi' : i < tag'.length) (hne : tag[i]? ≠ tag'[i]?) : tag ++ rest ≠ tag' ++ rest' := by
  intro h
  apply hne
  rw [← List.getElem?_append_left hi, h, List.getElem?_append_left hi']

end Settlement
