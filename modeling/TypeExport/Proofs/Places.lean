import Mathlib.Data.List.Lex

/-!
# Places in trees

The place of something in a tree is the list of the branches that lead to it, each by its number. `inBranches`
puts lists for the branches together.

* `mem_inBranches_iff`: the things in the branches, and their places.
* `pairwise_inBranches`: they stay in the order of their places.
-/

namespace TypeExport

variable {β : Type}

/-- All things in some branches with their places, the first branch being the `i`th one. -/
def inBranches (i : Nat) : List (List (List Nat × β)) → List (List Nat × β)
  | [] => []
  | b :: bs => b.map (fun p => (i :: p.1, p.2)) ++ inBranches (i + 1) bs

variable {i : Nat} {bs : List (List (List Nat × β))} {place : List Nat} {x : β}

theorem mem_inBranches_iff : (place, x) ∈ inBranches i bs ↔
    ∃ k b rest, bs[k]? = some b ∧ place = (i + k) :: rest ∧ (rest, x) ∈ b := by
  induction bs generalizing i with
  | nil => simp [inBranches]
  | cons b bs ih =>
    rw [inBranches, List.mem_append, ih]
    constructor
    · rintro (h | ⟨k, b', rest, hk, rfl, hmem⟩)
      · obtain ⟨⟨rest, y⟩, hmem, h⟩ := List.mem_map.mp h
        cases h
        exact ⟨0, b, rest, rfl, rfl, hmem⟩
      · exact ⟨k + 1, b', rest, hk, by rw [Nat.add_assoc, Nat.add_comm 1 k], hmem⟩
    · rintro ⟨k, b', rest, hk, rfl, hmem⟩
      cases k with
      | zero =>
        cases hk
        exact .inl (List.mem_map.mpr ⟨_, hmem, rfl⟩)
      | succ k => exact .inr ⟨k, b', rest, hk, by rw [Nat.add_assoc, Nat.add_comm 1 k], hmem⟩

theorem pairwise_inBranches (h : ∀ b ∈ bs, b.Pairwise fun p q => p.1 < q.1) (i : Nat) :
    (inBranches i bs).Pairwise fun p q => p.1 < q.1 := by
  induction bs generalizing i with
  | nil => exact .nil
  | cons b bs ih =>
    obtain ⟨hb, hbs⟩ := List.forall_mem_cons.mp h
    refine List.pairwise_append.mpr ⟨?_, ih hbs (i + 1), ?_⟩
    · exact List.pairwise_map.mpr (hb.imp fun hlt => .cons hlt)
    · rintro p hp ⟨place, x⟩ hq
      obtain ⟨p, -, rfl⟩ := List.mem_map.mp hp
      obtain ⟨k, b', rest, -, rfl, -⟩ := mem_inBranches_iff.mp hq
      exact .rel (by omega)

end TypeExport
