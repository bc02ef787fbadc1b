import Mathlib.Data.Nat.Bitwise
import Mathlib.Data.Nat.Log
import Settlement.Proofs.Claim.Encoding

namespace Settlement

/-- The sibling of a node stands in the same pair, on the other side, so two positions further on it
does as well. -/
theorem sibling_add_two (i : Nat) : (i + 2) ^^^ 1 = (i ^^^ 1) + 2 := by
  rcases Nat.even_or_odd i with heven | hodd
  · rw [Nat.xor_one_of_even heven, Nat.xor_one_of_even (heven.add even_two)]
  · rw [Nat.xor_one_of_odd hodd, Nat.xor_one_of_odd (hodd.add_even even_two)]
    obtain ⟨k, rfl⟩ := hodd
    omega

/-- One step of a proof leads from a node to the one above it: with its sibling, on whichever side
that stands, or without one where the node ends an odd layer and is carried up. -/
theorem foldProof_sibling {layer : List Digest} {i : Nat} {node : Digest}
    (hnode : layer[i]? = some node) :
    (layerAbove layer)[i / 2]? = some (foldProof node layer[i ^^^ 1]?.toList) := by
  fun_induction layerAbove layer generalizing i with
  | case1 a b rest ih =>
    obtain _ | _ | i := i
    · obtain rfl : a = node := Option.some.inj hnode
      rfl
    · obtain rfl : b = node := Option.some.inj hnode
      exact congrArg some (hashPair_comm a b)
    · rw [sibling_add_two, Nat.add_div_right i Nat.two_pos]
      exact ih hnode
  | case2 layer hlayer =>
    -- at most one node is left, and it has no sibling
    obtain _ | ⟨root, _ | ⟨b, rest⟩⟩ := layer
    · cases hnode
    · cases i with
      | zero => exact hnode
      | succ i => cases hnode
    · exact absurd rfl (hlayer root b rest)

namespace ClaimTree

variable {layer : List Digest} {i : Nat}

theorem rootOf_layerAbove (hlong : 1 < layer.length) : rootOf (layerAbove layer) = rootOf layer := by
  match layer with
  | [] => simp at hlong
  | [_] => simp at hlong
  | a :: b :: rest => rw [rootOf]

/-- The siblings of a node lead from it to the root, by induction on the layers. -/
theorem foldProof_siblings {node : Digest} (hnode : layer[i]? = some node) :
    foldProof node (siblings layer i) = rootOf layer := by
  fun_induction siblings layer i generalizing node with
  | case1 layer i hshort =>
    obtain _ | ⟨root, _ | ⟨b, rest⟩⟩ := layer
    · cases hnode
    · cases i with
      | zero =>
        rw [rootOf]
        exact (Option.some.inj hnode).symm
      | succ i => cases hnode
    · simp at hshort
  | case2 layer i hlong ih =>
    calc
      _ = foldProof (foldProof node layer[i ^^^ 1]?.toList) (siblings (layerAbove layer) (i / 2)) :=
        List.foldl_append
      _ = rootOf (layerAbove layer) := ih (foldProof_sibling hnode)
      _ = rootOf layer := rootOf_layerAbove (Nat.lt_of_not_le hlong)

/-- The layers halve, so a proof is no longer than the logarithm of the number of claims. -/
theorem length_siblings_le (layer : List Digest) (i : Nat) :
    (siblings layer i).length ≤ Nat.clog 2 layer.length := by
  fun_induction siblings layer i with
  | case1 layer i hshort => exact Nat.zero_le _
  | case2 layer i hlong ih =>
    rw [length_layerAbove] at ih
    have hsibling : layer[i ^^^ 1]?.toList.length ≤ 1 := Option.length_toList_le
    rw [List.length_append, Nat.clog_of_one_lt Nat.one_lt_two (Nat.lt_of_not_le hlong)]
    calc
      _ ≤ 1 + Nat.clog 2 ((layer.length + 1) / 2) := Nat.add_le_add hsibling ih
      _ = Nat.clog 2 ((layer.length + 1) / 2) + 1 := Nat.add_comm ..

/-- The tree over the claims of a period has a proof for each of them, of no more siblings than the
logarithm of their number to base two, rounded up. -/
theorem verifyProof_proof (domain : Domain) (period : PeriodId)
    {entries : List (Address × Amount)} {i : Nat} (hi : i < entries.length) :
    verifyProof (Claim.leaf ⟨domain, entries[i].1, period, entries[i].2⟩)
        ((ofEntries domain period entries).proof i) (ofEntries domain period entries).root = true ∧
      ((ofEntries domain period entries).proof i).length ≤ Nat.clog 2 entries.length := by
  constructor
  · have hleaf : (ofEntries domain period entries).leaves[i]? =
        some (Claim.leaf ⟨domain, entries[i].1, period, entries[i].2⟩) := by
      rw [ofEntries, List.getElem?_map, List.getElem?_eq_getElem hi]
      rfl
    exact decide_eq_true (foldProof_siblings hleaf)
  · have hlength := length_siblings_le (ofEntries domain period entries).leaves i
    rwa [ofEntries, List.length_map] at hlength

/-- Five claims, two of which are the same. The last one is carried up twice. -/
def fiveEntries : List (Address × Amount) := [(⟨1⟩, 10), (⟨2⟩, 20), (⟨1⟩, 10), (⟨3⟩, 30), (⟨4⟩, 40)]

/-- The proof of the claim that is carried up has one sibling only, at the top. -/
theorem verifyProof_proof_of_carried : 4 < fiveEntries.length ∧
    verifyProof (Claim.leaf ⟨{}, ⟨4⟩, ⟨0⟩, 40⟩) ((ofEntries {} ⟨0⟩ fiveEntries).proof 4)
      (ofEntries {} ⟨0⟩ fiveEntries).root = true ∧
    ((ofEntries {} ⟨0⟩ fiveEntries).proof 4).length ≤ Nat.clog 2 5 :=
  have hlast : 4 < fiveEntries.length := by decide
  ⟨hlast, verifyProof_proof {} ⟨0⟩ hlast⟩

end ClaimTree

end Settlement
