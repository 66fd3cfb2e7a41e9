import Mathlib.Data.Finset.Card
import TaskDiscovery.Lib.Rotation

/-!
# One cursor for several clients

Clients that go round lists of their own may share the counter that says where they are. A client
then reads at the places at which its requests find the counter (`places`), and what it is given are
the elements of its list at these places, taken modulo the length of the list (`map_some_given`).

As many requests as the list is long reach every position of the list exactly when their places are
different modulo its length (`nodup_mod_iff`). Between two requests of one client the others may
move the counter as they like, so nothing makes them different.
-/

namespace SharedCursor

variable {α ρ : Type*} [DecidableEq α] (moves : α → Bool) (client : α)

/-- The values of the counter at the requests of a client. A request of `a` moves the counter if
`moves a` holds. -/
def places : ℕ → List α → List ℕ
  | _, [] => []
  | c, a :: acts =>
    let rest := places (if moves a then c + 1 else c) acts
    if a = client then c :: rest else rest

/-- The replies that go to a client. -/
def given (acts : List α) (replies : List ρ) : List ρ :=
  ((acts.zip replies).filter fun p ↦ p.1 = client).map Prod.snd

variable {moves client}

theorem length_places [BEq α] [LawfulBEq α] (c : ℕ) (acts : List α) :
    (places moves client c acts).length = acts.count client := by
  induction acts generalizing c with
  | nil => rfl
  | cons a acts ih =>
    rw [places]
    by_cases ha : a = client
    · rw [if_pos ha, List.length_cons, ih, ha, List.count_cons_self]
    · rw [if_neg ha, ih, List.count_cons_of_ne ha]

section Given

variable {σ : Type*} {call : σ → α → σ × ρ} {s : σ} {acts : List α}

theorem given_outputs_self :
    given client (client :: acts) (Run.outputs call s (client :: acts))
      = (call s client).2 :: given client acts (Run.outputs call (call s client).1 acts) := by
  rw [Run.outputs, given, List.zip_cons_cons, List.filter_cons, if_pos (by simp), List.map_cons,
    given]

theorem given_outputs_of_ne {a : α} (ha : a ≠ client) :
    given client (a :: acts) (Run.outputs call s (a :: acts))
      = given client acts (Run.outputs call (call s a).1 acts) := by
  rw [Run.outputs, given, List.zip_cons_cons, List.filter_cons, if_neg (by simpa using ha), given]

theorem length_given [BEq α] [LawfulBEq α] :
    (given client acts (Run.outputs call s acts)).length = acts.count client := by
  induction acts generalizing s with
  | nil => rfl
  | cons a acts ih =>
    by_cases ha : a = client
    · subst ha
      rw [given_outputs_self, List.length_cons, ih, List.count_cons_self]
    · rw [given_outputs_of_ne ha, ih, List.count_cons_of_ne ha]

/-- **What a client is given.** If each request of the client returns the element of its list at the
place of the counter, and each request moves the counter as `moves` says, the client is given the
elements at its places. -/
theorem map_some_given (At : ℕ → σ → Prop) {l : List ρ} {bound : ℕ}
    (hmoves : ∀ c s a, c < bound → At c s → At (if moves a then c + 1 else c) (call s a).1)
    (hreply : ∀ c s, c < bound → At c s → some (call s client).2 = l[c % l.length]?)
    {c : ℕ} (hs : At c s) (hbound : c + acts.length ≤ bound) :
    (given client acts (Run.outputs call s acts)).map some
      = (places moves client c acts).map fun c ↦ l[c % l.length]? := by
  induction acts generalizing c s with
  | nil => rfl
  | cons a acts ih =>
    rw [List.length_cons] at hbound
    have hnext := ih (hmoves c s a (by omega) hs) (by split <;> omega)
    rw [places]
    by_cases ha : a = client
    · subst ha
      rw [given_outputs_self, if_pos rfl, List.map_cons, List.map_cons, hnext,
        hreply c s (by omega) hs]
    · rw [given_outputs_of_ne ha, if_neg ha, hnext]

/-- **A counter of its own.** If only the requests of the client move the counter, each by one, and
each returns the element of its list at the counter, the client is given one element after the
other. -/
theorem reads_given [BEq α] [LawfulBEq α] (At : ℕ → σ → Prop) {l : List ρ} (bound : ℕ)
    (hother : ∀ c s a, a ≠ client → At c s → At c (call s a).1)
    (hown : ∀ c s, c < bound → At c s →
      some (call s client).2 = l[c % l.length]? ∧ At (c + 1) (call s client).1)
    {c : ℕ} (hs : At c s) (hbound : c + acts.count client ≤ bound) :
    (given client acts (Run.outputs call s acts)).Reads (l.turn c) := by
  induction acts generalizing c s with
  | nil => exact List.reads_nil _
  | cons a acts ih =>
    by_cases ha : a = client
    · subst ha
      rw [List.count_cons_self] at hbound
      obtain ⟨hnow, hnext⟩ := hown c s (by omega) hs
      rw [given_outputs_self]
      refine List.reads_cons.mpr ⟨hnow, ?_⟩
      rw [← List.turn_succ]
      exact ih hnext (by omega)
    · rw [List.count_cons_of_ne ha] at hbound
      rw [given_outputs_of_ne ha]
      exact ih (hother c s a ha hs) hbound

end Given

/-- **Different places.** As many places as there are residues are different modulo their number
exactly when every residue is reached. -/
theorem nodup_mod_iff {n : ℕ} {ns : List ℕ} (hlength : ns.length = n) :
    (ns.map (· % n)).Nodup ↔ ∀ i < n, ∃ c ∈ ns, c % n = i := by
  have hsub : (ns.map (· % n)).toFinset ⊆ Finset.range n := by
    intro i hi
    obtain ⟨c, hc, rfl⟩ := List.mem_map.mp (List.mem_toFinset.mp hi)
    exact Finset.mem_range.mpr (Nat.mod_lt _ (hlength ▸ List.length_pos_of_mem hc))
  have hcard : (ns.map (· % n)).Nodup ↔ (ns.map (· % n)).toFinset.card = n := by
    have hiff := Multiset.toFinset_card_eq_card_iff_nodup (m := (↑(ns.map (· % n)) : Multiset ℕ))
    rw [Multiset.coe_card, List.length_map, hlength, Multiset.coe_nodup] at hiff
    exact hiff.symm
  rw [hcard]
  constructor
  · intro h i hi
    have heq : (ns.map (· % n)).toFinset = Finset.range n :=
      Finset.eq_of_subset_of_card_le hsub (by rw [Finset.card_range, h])
    have hmem := Finset.mem_range.mpr hi
    rw [← heq, List.mem_toFinset] at hmem
    exact List.mem_map.mp hmem
  · intro h
    have heq : (ns.map (· % n)).toFinset = Finset.range n := by
      refine hsub.antisymm fun i hi ↦ ?_
      rw [List.mem_toFinset, List.mem_map]
      exact h i (Finset.mem_range.mp hi)
    rw [heq, Finset.card_range]

end SharedCursor
