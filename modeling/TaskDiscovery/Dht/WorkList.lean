import Mathlib.Data.Prod.Lex
import Mathlib.Data.Finset.Card
import TaskDiscovery.Dht.Store
import TaskDiscovery.Lib.Run

/-!
# The work list of `Store`

The queue of `Store` gets longer while it is worked through. A peer may name the same address twice
in one reply, and name it again in every reply, and each time it is queued as long as it has not
been tried. So the length of the queue says nothing about when the loop ends.

What does is the set of attempted addresses. A turn either drops an address that has been attempted,
and then the queue is shorter, or it attempts one that had not been, and there are only so many of
those: the nodes the loop started with, and the addresses that peers suggest. The measure is the
number of addresses that are left to attempt, and then the length of the queue.

Nothing is assumed about the host here. The peers may reply as they like and change their minds, and
other threads may change the node between two turns.
-/

namespace TaskDiscovery

namespace Host

variable {W : Type} (host : Host W)

/-- Whatever is sent, the addresses that replies suggest are among those of `A`. -/
def SuggestsWithin (A : Finset String) : Prop :=
  ∀ addr msg w w' resp fields, host.send addr msg w = (w', .ok resp) →
    resp.payload.decode = some fields → ∀ a ∈ fields.closest.getD [], a ∈ A

/-! ## A record of the requests -/

/-- The same host with a record of where requests were sent, the latest first. -/
def recorded : Host (List String × W) where
  dht w := host.dht w.2
  setDht dht w := (w.1, host.setDht dht w.2)
  now w := host.now w.2
  send addr msg w := ((addr :: w.1, (host.send addr msg w.2).1), (host.send addr msg w.2).2)

variable (cfg : Config) (task address : String)

/-- The addresses that the loop has contacted after some turns, the latest first. -/
def contacts (turns : ℕ) (w : W) : List String :=
  (host.recorded.storeTurns cfg task address turns ([], w)).2.1

/-- Forget the record. -/
def unrecorded (s : StoreState × (List String × W)) : StoreState × W := (s.1, s.2.2)

variable {host cfg task address}

theorem unrecorded_storeReply (resp : Message) (st : StoreState) (w : List String × W) :
    unrecorded (host.recorded.storeReply task resp st w) = host.storeReply task resp st w.2
      ∧ (host.recorded.storeReply task resp st w).2.1 = w.1 := by
  rw [storeReply, storeReply]
  split
  · exact ⟨rfl, rfl⟩
  · split <;> exact ⟨rfl, rfl⟩
  · exact ⟨rfl, rfl⟩

theorem unrecorded_storeAt (addr : String) (st : StoreState) (w : List String × W) :
    unrecorded (host.recorded.storeAt task address addr st w)
      = host.storeAt task address addr st w.2 := by
  by_cases hseen : addr ∈ st.attempted
  · simp only [storeAt, if_pos hseen]
    rfl
  simp only [storeAt, if_neg hseen]
  by_cases hlocal : addr = (host.dht w.2).self.address
  · rw [if_pos (show addr = (host.recorded.dht w).self.address from hlocal), if_pos hlocal]
    rfl
  · rw [if_neg (show addr ≠ (host.recorded.dht w).self.address from hlocal), if_neg hlocal]
    -- both loops get the same reply
    simp only [recorded]
    rcases host.send addr (storeMessage (host.dht w.2).self.address task address) w.2 with
      ⟨w', err | resp⟩
    · rfl
    · exact (unrecorded_storeReply resp _ _).1

theorem unrecorded_storeStep (s : StoreState × (List String × W)) :
    unrecorded (host.recorded.storeStep task address s)
      = host.storeStep task address (unrecorded s) := by
  have hqueue : (unrecorded s).1.queue = s.1.queue := rfl
  rw [storeStep, storeStep, hqueue]
  rcases s.1.queue with _ | ⟨addr, queue⟩
  · rfl
  · exact unrecorded_storeAt addr _ s.2

/-- Keeping a record does not change what the loop does. -/
theorem unrecorded_storeTurns (turns : ℕ) (w : W) :
    unrecorded (host.recorded.storeTurns cfg task address turns ([], w))
      = host.storeTurns cfg task address turns w :=
  (Function.Semiconj.iterate_right unrecorded_storeStep turns) _

/-! ## One turn -/

/-- What a reply makes of the lists: some of the suggested addresses are queued. -/
theorem storeReply_lists (host : Host W) (task : String) {A : Finset String} {resp : Message}
    (st : StoreState) (w : W)
    (hA : ∀ fields, resp.payload.decode = some fields → ∀ a ∈ fields.closest.getD [], a ∈ A) :
    (host.storeReply task resp st w).1.attempted = st.attempted
      ∧ ∃ more, (host.storeReply task resp st w).1.queue = st.queue ++ more
        ∧ ∀ a ∈ more, a ∈ A := by
  rw [storeReply]
  split
  · exact ⟨rfl, [], by simp⟩
  · split
    · exact ⟨rfl, [], by simp⟩
    · rename_i fields hfields
      exact ⟨rfl, _, rfl, fun a ha ↦ hA fields hfields a (List.mem_filter.mp ha).1⟩
  · exact ⟨rfl, [], by simp⟩

/-- **One turn** drops an address that has been attempted, or attempts one that has not been; then
it sends one request at most, and queues suggested addresses. -/
theorem storeStep_lists {A : Finset String} (hA : host.SuggestsWithin A) (task address : String)
    {s : StoreState × (List String × W)} {addr : String} {queue : List String}
    (hq : s.1.queue = addr :: queue) :
    let s' := host.recorded.storeStep task address s
    addr ∈ s.1.attempted ∧ s'.1.attempted = s.1.attempted ∧ s'.1.queue = queue ∧ s'.2.1 = s.2.1
      ∨ addr ∉ s.1.attempted ∧ s'.1.attempted = addr :: s.1.attempted
        ∧ (∃ more, s'.1.queue = queue ++ more ∧ ∀ a ∈ more, a ∈ A)
        ∧ (s'.2.1 = s.2.1 ∨ s'.2.1 = addr :: s.2.1) := by
  obtain ⟨st, contacts, w⟩ := s
  have hq : st.queue = addr :: queue := hq
  simp only [storeStep, hq, storeAt]
  split_ifs with hseen hlocal
  · exact .inl ⟨hseen, rfl, rfl, rfl⟩
  · exact .inr ⟨hseen, rfl, ⟨[], by simp [StoreState.attempt]⟩, .inl rfl⟩
  · refine .inr ⟨hseen, ?_⟩
    simp only [recorded]
    rcases hsend : host.send addr (storeMessage (host.dht w).self.address task address) w with
      ⟨w', err | resp⟩
    · exact ⟨rfl, ⟨[], by simp [StoreState.attempt]⟩, .inr rfl⟩
    · obtain ⟨hattempted, hqueue⟩ := storeReply_lists host.recorded task
        (StoreState.attempt addr { st with queue := queue }) (addr :: contacts, w')
        (hA addr _ w w' resp · hsend)
      exact ⟨hattempted, hqueue, .inr (unrecorded_storeReply resp _ _).2⟩

/-! ## The run -/

/-- The invariant: the loop keeps to the addresses it started with and to those of `A`, attempts
each once, and contacts only what it attempts. -/
structure Confined (initial : List String) (A : Finset String)
    (s : StoreState × (List String × W)) : Prop where
  within : ∀ a, a ∈ s.1.queue ∨ a ∈ s.1.attempted → a ∈ initial ∨ a ∈ A
  nodup : s.1.attempted.Nodup
  contacted : s.2.1.Sublist s.1.attempted

namespace Confined

variable {initial : List String} {A : Finset String} {s : StoreState × (List String × W)}

theorem length_attempted_le (h : Confined initial A s) :
    s.1.attempted.length ≤ initial.length + A.card := by
  have hsub : s.1.attempted.toFinset ⊆ initial.toFinset ∪ A := by
    intro a ha
    rw [Finset.mem_union, List.mem_toFinset]
    exact h.within a (.inr (List.mem_toFinset.mp ha))
  calc s.1.attempted.length = s.1.attempted.toFinset.card :=
        (List.toFinset_card_of_nodup h.nodup).symm
    _ ≤ (initial.toFinset ∪ A).card := Finset.card_le_card hsub
    _ ≤ initial.toFinset.card + A.card := Finset.card_union_le ..
    _ ≤ initial.length + A.card := Nat.add_le_add_right initial.toFinset_card_le _

/-- How much the loop still has to do: the addresses that are left to attempt, and the queue. -/
def remaining (initial : List String) (A : Finset String) (s : StoreState × (List String × W)) :
    ℕ ×ₗ ℕ :=
  toLex (initial.length + A.card - s.1.attempted.length, s.1.queue.length)

/-- **One turn** keeps the invariant and leaves less to do. -/
theorem step (hA : host.SuggestsWithin A) (task address : String) (h : Confined initial A s)
    (hne : s.1.queue ≠ []) :
    Confined initial A (host.recorded.storeStep task address s)
      ∧ remaining initial A (host.recorded.storeStep task address s) < remaining initial A s := by
  obtain ⟨addr, queue, hq⟩ := List.exists_cons_of_ne_nil hne
  have hlists := storeStep_lists hA task address hq
  generalize host.recorded.storeStep task address s = s' at hlists ⊢
  have hqueued : ∀ a ∈ queue, a ∈ initial ∨ a ∈ A := fun a ha ↦
    h.within a (.inl (hq ▸ List.mem_cons_of_mem _ ha))
  rcases hlists with ⟨hseen, hattempted, hqueue, hcontacts⟩ |
    ⟨hnew, hattempted, ⟨more, hqueue, hmore⟩, hcontacts⟩
  · refine ⟨⟨fun a ha ↦ ?_, hattempted ▸ h.nodup, ?_⟩, ?_⟩
    · rw [hqueue, hattempted] at ha
      exact ha.elim (hqueued a) fun ha ↦ h.within a (.inr ha)
    · rw [hcontacts, hattempted]
      exact h.contacted
    · rw [remaining, remaining, hattempted, hqueue, hq, Prod.Lex.toLex_lt_toLex]
      exact .inr ⟨rfl, Nat.lt_succ_self _⟩
  · have h' : Confined initial A s' := by
      refine ⟨fun a ha ↦ ?_, hattempted ▸ List.nodup_cons.mpr ⟨hnew, h.nodup⟩, ?_⟩
      · rw [hqueue, hattempted, List.mem_append, List.mem_cons] at ha
        rcases ha with (ha | ha) | rfl | ha
        · exact hqueued a ha
        · exact .inr (hmore a ha)
        · exact h.within a (.inl (hq ▸ List.mem_cons_self))
        · exact h.within a (.inr ha)
      · rw [hattempted]
        rcases hcontacts with hcontacts | hcontacts
        · exact hcontacts ▸ h.contacted.cons addr
        · exact hcontacts ▸ h.contacted.cons_cons addr
    have hle := h'.length_attempted_le
    refine ⟨h', ?_⟩
    rw [hattempted, List.length_cons] at hle
    rw [remaining, remaining, hattempted, Prod.Lex.toLex_lt_toLex]
    left
    simp only [List.length_cons]
    omega

theorem init (host : Host W) (cfg : Config) (task : String) (A : Finset String) (w : W) :
    Confined ((host.dht w).closestAddrs cfg task) A
      (host.recorded.storeInit cfg task ([], w), ([], w)) where
  within a ha := by
    rcases ha with ha | ha
    · exact .inl ha
    · simp [storeInit] at ha
  nodup := List.nodup_nil
  contacted := List.Sublist.refl []

theorem storeTurns (hA : host.SuggestsWithin A) (cfg : Config) (task address : String) (turns : ℕ)
    (w : W) :
    Confined ((host.dht w).closestAddrs cfg task) A
      (host.recorded.storeTurns cfg task address turns ([], w)) := by
  refine Function.Iterate.rec (Confined _ A) (init host cfg task A w) (fun s h ↦ ?_) turns
  by_cases hq : s.1.queue = []
  · rwa [storeStep_of_nil hq]
  · exact (h.step hA task address hq).1

end Confined

/-- **Store ends, and asks nobody twice.** Whatever the peers reply, as long as the addresses they
suggest are among those of a finite set, a call of `Store` returns. At every turn it has contacted
no address twice, and has not attempted more addresses, its own included, than there were nearest
nodes when it started and addresses to suggest. -/
theorem store_contacts_bounded (host : Host W) (cfg : Config) (task address : String)
    (A : Finset String) (hA : host.SuggestsWithin A) (w : W) :
    (∃ fuel, (host.store cfg task address fuel w).isSome = true)
      ∧ ∀ turns, (host.contacts cfg task address turns w).Nodup
        ∧ (host.contacts cfg task address turns w).length
          ≤ (host.storeTurns cfg task address turns w).1.attempted.length
        ∧ (host.storeTurns cfg task address turns w).1.attempted.length
          ≤ ((host.dht w).findKClosestNodes task cfg.replicationFactor).length + A.card := by
  refine ⟨?_, fun turns ↦ ?_⟩
  · obtain ⟨fuel, hdone, -⟩ := Run.exists_iterate
      (fun s (h : Confined ((host.dht w).closestAddrs cfg task) A s) hne ↦
        h.step hA task address hne)
      (Confined.init host cfg task A w)
    refine ⟨fuel, ?_⟩
    have hqueue : (host.storeTurns cfg task address fuel w).1.queue = [] := by
      rw [← unrecorded_storeTurns]
      exact hdone
    simp [store, hqueue]
  · have h := Confined.storeTurns hA cfg task address turns w
    rw [← unrecorded_storeTurns]
    refine ⟨h.nodup.sublist h.contacted, h.contacted.length_le, ?_⟩
    exact h.length_attempted_le.trans_eq (by rw [DHT.closestAddrs, List.length_map])

/-- A network in which everyone refers to the same two addresses, one of them twice. -/
def referring : Host (DHT × Unit) :=
  ofReplies (fun _ ↦ 0) fun _ _ n ↦ (n, .ok ⟨.notResponsible, "",
    .object { closest := some ["10.0.0.8:6001", "10.0.0.9:6001", "10.0.0.8:6001"] }⟩)

/-- A node that knows one peer, which refers it to others. -/
theorem referring_bounded :
    (∃ fuel, (referring.store ⟨2, 60⟩ "scan" "10.1.0.1:80" fuel
        ((DHT.new "10.0.0.1:6001" 0).addPeer 0 "10.0.0.2:6001", ())).isSome = true)
      ∧ (referring.contacts ⟨2, 60⟩ "scan" "10.1.0.1:80" 9
        ((DHT.new "10.0.0.1:6001" 0).addPeer 0 "10.0.0.2:6001", ())).Nodup := by
  have hA : referring.SuggestsWithin {"10.0.0.8:6001", "10.0.0.9:6001"} := by
    intro addr msg w w' resp fields hsend hdecode a ha
    obtain rfl := Except.ok.inj (congrArg Prod.snd hsend)
    obtain rfl := Option.some.inj hdecode
    simp only [Option.getD_some, List.mem_cons, List.not_mem_nil, or_false] at ha
    simp only [Finset.mem_insert, Finset.mem_singleton]
    tauto
  obtain ⟨hends, hbound⟩ := store_contacts_bounded referring ⟨2, 60⟩ "scan" "10.1.0.1:80" _ hA
    ((DHT.new "10.0.0.1:6001" 0).addPeer 0 "10.0.0.2:6001", ())
  exact ⟨hends, (hbound 9).1⟩

end Host

end TaskDiscovery
