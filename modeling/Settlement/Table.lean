import Settlement.Number.Word

namespace Settlement

/-- Keys that are told apart and ordered by a natural number. Addresses, periods and pairs of the
two are keys of this kind, so that one table serves all books. -/
class Ranked (κ : Type) where
  rank : κ → Nat
  rank_inj : ∀ {a b : κ}, rank a = rank b → a = b

export Ranked (rank rank_inj)

instance {w : Nat} : Ranked (Word w) := ⟨Word.val, Word.ext⟩

/-- A finite table, kept in the order of its keys: rows with strictly increasing ranks. Two tables
with the same look-ups are equal, and the order in which rows were inserted leaves no trace. -/
structure Table (κ ν : Type) [Ranked κ] where
  rows : List (κ × ν)
  sorted : rows.Pairwise fun a b => rank a.1 < rank b.1

namespace Table

variable {κ ν : Type} [Ranked κ]

def empty : Table κ ν := ⟨[], List.Pairwise.nil⟩

instance : Inhabited (Table κ ν) := ⟨empty⟩

/-- The value in the row of `k`, found by going through the rows from the first one on. -/
def lookup (k : κ) : List (κ × ν) → Option ν
  | [] => none
  | (k', v) :: rest => if rank k' = rank k then some v else lookup k rest

/-- The rows with `v` in the row of `k`, which is replaced if there is one and otherwise put where
the order of the keys has its place. -/
def place (k : κ) (v : ν) : List (κ × ν) → List (κ × ν)
  | [] => [(k, v)]
  | (k', v') :: rest =>
    if rank k < rank k' then (k, v) :: (k', v') :: rest
    else if rank k' < rank k then (k', v') :: place k v rest
    else (k, v) :: rest

theorem mem_place {k : κ} {v : ν} {row : κ × ν} {rows : List (κ × ν)} (h : row ∈ place k v rows) :
    row = (k, v) ∨ row ∈ rows := by
  induction rows with
  | nil => exact Or.inl (by simpa [place] using h)
  | cons head rest ih =>
    obtain ⟨k', v'⟩ := head
    simp only [place] at h
    split at h
    · simpa using h
    · split at h
      · rcases List.mem_cons.1 h with rfl | h
        · simp
        · rcases ih h with rfl | h <;> simp [*]
      · rcases List.mem_cons.1 h with rfl | h <;> simp [*]

/-- Placing a row keeps the keys strictly increasing. This is what `insert` needs to build a table
again. -/
theorem sorted_place (k : κ) (v : ν) {rows : List (κ × ν)}
    (h : rows.Pairwise fun a b => rank a.1 < rank b.1) :
    (place k v rows).Pairwise fun a b => rank a.1 < rank b.1 := by
  induction rows with
  | nil => simp [place]
  | cons head rest ih =>
    obtain ⟨k', v'⟩ := head
    obtain ⟨hhead, hrest⟩ := List.pairwise_cons.1 h
    simp only [place]
    split
    · next hlt =>
      refine List.pairwise_cons.2 ⟨fun row hrow => ?_, h⟩
      rcases List.mem_cons.1 hrow with rfl | hrow
      · exact hlt
      · exact Nat.lt_trans hlt (hhead row hrow)
    · split
      · next hlt =>
        refine List.pairwise_cons.2 ⟨fun row hrow => ?_, ih hrest⟩
        rcases mem_place hrow with rfl | hrow
        · exact hlt
        · exact hhead row hrow
      · next hnot hnot' =>
        have heq : rank k = rank k' := by omega
        refine List.pairwise_cons.2 ⟨fun row hrow => ?_, hrest⟩
        simpa [heq] using hhead row hrow

/-- The value that the table has for `k`, if it has a row for it. -/
def get? (t : Table κ ν) (k : κ) : Option ν := lookup k t.rows

/-- The value that the table has for `k`, and `v` where it has no row. -/
def getD (t : Table κ ν) (k : κ) (v : ν) : ν := (t.get? k).getD v

def contains (t : Table κ ν) (k : κ) : Bool := (t.get? k).isSome

/-- The table with `v` in the row of `k`, which is new if the table had none. -/
def insert (t : Table κ ν) (k : κ) (v : ν) : Table κ ν := ⟨place k v t.rows, sorted_place k v t.sorted⟩

/-- The table without the row of `k`, which is the same table if there was none. -/
def erase (t : Table κ ν) (k : κ) : Table κ ν :=
  ⟨t.rows.filter fun row => rank row.1 ≠ rank k, t.sorted.filter _⟩

def size (t : Table κ ν) : Nat := t.rows.length

def isEmpty (t : Table κ ν) : Bool := t.rows.isEmpty

/-- The values in the order of their keys. -/
def values (t : Table κ ν) : List ν := t.rows.map Prod.snd

/-- The keys in order. -/
def keys (t : Table κ ν) : List κ := t.rows.map Prod.fst

theorem lookup_place_self (k : κ) (v : ν) (rows : List (κ × ν)) :
    lookup k (place k v rows) = some v := by
  induction rows with
  | nil => simp [place, lookup]
  | cons head rest ih =>
    obtain ⟨k', v'⟩ := head
    simp only [place]
    split
    · simp [lookup]
    · split
      · next hlt => simp [lookup, Nat.ne_of_lt hlt, ih]
      · simp [lookup]

theorem lookup_place_of_ne {k j : κ} (hne : j ≠ k) (v : ν) (rows : List (κ × ν)) :
    lookup j (place k v rows) = lookup j rows := by
  have hrank : rank k ≠ rank j := fun h => hne (rank_inj h).symm
  induction rows with
  | nil => simp [place, lookup, hrank]
  | cons head rest ih =>
    obtain ⟨k', v'⟩ := head
    simp only [place]
    split
    · simp [lookup, hrank]
    · split
      · simp [lookup, ih]
      · next hnot hnot' =>
        have heq : rank k' = rank k := by omega
        simp [lookup, hrank, heq]

@[simp] theorem get?_empty (k : κ) : (empty : Table κ ν).get? k = none := rfl

@[simp] theorem get?_insert_self (t : Table κ ν) (k : κ) (v : ν) : (t.insert k v).get? k = some v :=
  lookup_place_self k v t.rows

theorem get?_insert_of_ne (t : Table κ ν) {k j : κ} (h : j ≠ k) (v : ν) :
    (t.insert k v).get? j = t.get? j :=
  lookup_place_of_ne h v t.rows

end Table

end Settlement
