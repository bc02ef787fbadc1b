import Mathlib.Data.List.Nodup
import Settlement.Hash.Sha256

namespace Settlement

/-- No two different ones of these byte strings have the same digest. Digests are shorter than what
is hashed, so byte strings of one digest exist; where those in question have none among them, a
digest stands for its byte string. -/
def CollisionFree (messages : List Bytes) : Prop :=
  ∀ m ∈ messages, ∀ m' ∈ messages, sha256 m = sha256 m' → m = m'

namespace CollisionFree

variable {messages messages' : List Bytes}

/-- Digests that are all different show that none of these strings collide. For given strings this
can be computed. -/
theorem of_nodup (h : (messages.map sha256).Nodup) : CollisionFree messages :=
  fun _ hm _ hm' => List.inj_on_of_nodup_map h hm hm'

theorem of_subset (h : CollisionFree messages) (hsubset : messages' ⊆ messages) :
    CollisionFree messages' :=
  fun m hm m' hm' => h m (hsubset hm) m' (hsubset hm')

theorem sha256_eq_iff {m m' : Bytes} (h : CollisionFree [m, m']) : sha256 m = sha256 m' ↔ m = m' := by
  constructor
  · exact h m (List.mem_cons_self ..) m' (List.mem_cons_of_mem _ (List.mem_singleton.2 rfl))
  · exact congrArg sha256

end CollisionFree

end Settlement
