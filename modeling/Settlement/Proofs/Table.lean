import Settlement.Table

namespace Settlement.Table

variable {κ ν : Type} [Ranked κ]

/-- In rows with increasing keys a look-up finds a value exactly if its row is there, since there is
no other row with the key. -/
theorem lookup_eq_some_iff {rows : List (κ × ν)}
    (hsorted : rows.Pairwise fun a b => rank a.1 < rank b.1) {k : κ} {v : ν} :
    lookup k rows = some v ↔ (k, v) ∈ rows := by
  induction rows with
  | nil => simp [lookup]
  | cons head rest ih =>
    obtain ⟨k', v'⟩ := head
    obtain ⟨hhead, hrest⟩ := List.pairwise_cons.1 hsorted
    by_cases hk : rank k' = rank k
    · obtain rfl : k' = k := rank_inj hk
      have hnot : (k', v) ∉ rest := fun hmem => Nat.lt_irrefl _ (hhead (k', v) hmem)
      simp [lookup, hnot, eq_comm]
    · have hne : k ≠ k' := fun h => hk (h ▸ rfl)
      simp [lookup, hk, hne, ih hrest]

theorem get?_eq_some_iff {t : Table κ ν} {k : κ} {v : ν} : t.get? k = some v ↔ (k, v) ∈ t.rows :=
  lookup_eq_some_iff t.sorted

private theorem nodup_rows (t : Table κ ν) : t.rows.Nodup := by
  apply t.sorted.imp
  intro a b hlt heq
  subst b
  exact Nat.lt_irrefl _ hlt

/-- A table is determined by what its look-ups give, so two changes cancel as soon as they cancel at
every key. The rows agree up to their order, and both orders are that of the keys. -/
theorem ext_get? {a b : Table κ ν} (h : ∀ k, a.get? k = b.get? k) : a = b := by
  have hperm : a.rows.Perm b.rows := by
    rw [List.perm_ext_iff_of_nodup (nodup_rows a) (nodup_rows b)]
    rintro ⟨k, v⟩
    rw [← get?_eq_some_iff, ← get?_eq_some_iff, h k]
  have hrows : a.rows = b.rows := by
    refine List.Perm.eq_of_pairwise (fun x y _ _ hxy hyx => ?_) a.sorted b.sorted hperm
    omega
  cases a
  cases b
  cases hrows
  rfl

theorem get?_insert [DecidableEq κ] (t : Table κ ν) (k j : κ) (v : ν) :
    (t.insert k v).get? j = if j = k then some v else t.get? j := by
  by_cases h : j = k
  · rw [if_pos h, h, get?_insert_self]
  · rw [if_neg h, get?_insert_of_ne t h]

theorem get?_erase [DecidableEq κ] (t : Table κ ν) (k j : κ) :
    (t.erase k).get? j = if j = k then none else t.get? j := by
  apply Option.ext
  intro v
  rw [get?_eq_some_iff]
  by_cases h : j = k
  · simp [erase, h]
  · have hrank : rank j ≠ rank k := fun heq => h (rank_inj heq)
    simp [erase, h, hrank, get?_eq_some_iff]

theorem insert_eq_self {t : Table κ ν} {k : κ} {v : ν} (h : t.get? k = some v) :
    t.insert k v = t := by
  classical
  apply ext_get?
  intro j
  rw [get?_insert]
  split
  · next heq => rw [heq, h]
  · rfl

theorem place_of_forall_lt {k : κ} (v : ν) {rows : List (κ × ν)}
    (h : ∀ row ∈ rows, rank row.1 < rank k) : place k v rows = rows ++ [(k, v)] := by
  induction rows with
  | nil => rfl
  | cons head rest ih =>
    obtain ⟨k', v'⟩ := head
    obtain ⟨hhead, hrest⟩ := List.forall_mem_cons.1 h
    rw [place, if_neg (Nat.lt_asymm hhead), if_pos hhead, ih hrest, List.cons_append]

/-- A row with the largest key is put at the end, as rows with counted keys are. -/
theorem rows_insert_of_forall_lt {t : Table κ ν} {k : κ} (v : ν)
    (h : ∀ row ∈ t.rows, rank row.1 < rank k) : (t.insert k v).rows = t.rows ++ [(k, v)] :=
  place_of_forall_lt v h

theorem mem_keys_iff {t : Table κ ν} {k : κ} : k ∈ t.keys ↔ ∃ v, t.get? k = some v := by
  simp [keys, get?_eq_some_iff]

theorem contains_iff {t : Table κ ν} {k : κ} : t.contains k = true ↔ ∃ v, t.get? k = some v :=
  Option.isSome_iff_exists

end Settlement.Table
