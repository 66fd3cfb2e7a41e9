import TaskDiscovery.Lib.SharedCursor
import TaskDiscovery.Registry.Rotation

/-!
# Requestors that share a cursor

A task of the in-memory registry has one cursor. Every requestor that is given an instance moves it,
and each requestor goes round the slots of the instances that the firewall lets it reach, taking the
cursor modulo their number. Alone, a requestor meets all its slots in a round. Among others it does
not: two requestors that take turns each see every second value of the cursor, and over two slots
that is always the same slot (`lockStep_starves`).

A query takes its value of the cursor in one atomic addition. While the entries stay as they are,
queries that run side by side are therefore queries one after the other, in the order of their
additions.

Which instances a requestor meets is decided by the places of its queries, the values of the cursor
that they find (`queryPlaces`). In a round of its own queries all of its instances are returned
exactly when the places reach a slot of each of them; places that differ modulo the number of slots
reach every slot, and where every instance has one slot there is no other way
(`returned_iff_places`).
-/

namespace TaskDiscovery

open Go (IP)

namespace MemoryRegistry

variable (reg : MemoryRegistry) (task : String)

/-- A query of the requestor moves the cursor: it finds a positive weight. -/
def movesCursor (requestor : Option IP) : Bool :=
  decide (0 < totalServiceWeight (reg.offered task requestor))

/-- The values of the cursor that the queries of a requestor find. -/
def queryPlaces (requestor : Option IP) (queries : List (Option IP)) : List ℕ :=
  SharedCursor.places (reg.movesCursor task) requestor (reg.cursor task).toNatClampNeg queries

/-- The replies to a requestor in a sequence of queries. -/
def repliesTo (requestor : Option IP) (queries : List (Option IP)) :
    List (Except RegistryError String) :=
  SharedCursor.given requestor queries
    (Run.outputs (fun reg ip ↦ reg.getServiceForRequestor task ip) reg queries)

variable {reg task} {requestor : Option IP} {queries : List (Option IP)}

theorem getServiceForRequestor_of_not_pos {ip : Option IP} (ht : Go.Trimmed task)
    (h : ¬0 < totalServiceWeight (reg.offered task ip)) :
    (reg.getServiceForRequestor task ip).1 = reg := by
  rcases hget : reg.getServiceForRequestor task ip with ⟨reg', err | addr⟩
  · exact getServiceForRequestor_error hget
  · have hpos := weight_pos_of_ok hget
    rw [ht.trimSpace_eq] at hpos
    exact absurd hpos h

/-- The registry between the queries: what it was, with the cursor somewhere else. -/
structure CursorAt (reg : MemoryRegistry) (task : String) (c : ℕ) (reg' : MemoryRegistry) :
    Prop where
  services : reg'.services = reg.services
  firewall : reg'.firewall = reg.firewall
  cursor : (reg'.cursor task).toInt = c

theorem CursorAt.offered_eq {c : ℕ} {reg' : MemoryRegistry} (h : CursorAt reg task c reg')
    (ip : Option IP) : reg'.offered task ip = reg.offered task ip := by
  rw [offered, offered, h.services, h.firewall]

theorem CursorAt.query {c : ℕ} {reg' : MemoryRegistry} (h : CursorAt reg task c reg')
    (ht : Go.Trimmed task) (hc : c + 1 < 2 ^ 63) (ip : Option IP) :
    CursorAt reg task (if reg.movesCursor task ip then c + 1 else c)
      (reg'.getServiceForRequestor task ip).1 := by
  have hcursor := h.cursor
  rw [movesCursor, ← h.offered_eq]
  by_cases hpos : 0 < totalServiceWeight (reg'.offered task ip)
  · have hrange : InRange (reg'.cursor task) := ⟨by omega, by omega⟩
    obtain ⟨after, addr, hget, -, hservices, hfw, hnext⟩ := getServiceForRequestor_advances ht hpos
    rw [hget, if_pos (by simpa using hpos)]
    refine ⟨hservices.trans h.services, hfw.trans h.firewall, ?_⟩
    rw [hnext, hrange.toInt_succ, hcursor]
    rfl
  · rw [getServiceForRequestor_of_not_pos ht hpos, if_neg (by simpa using hpos)]
    exact h

/-- A query of a requestor whose weight does not overflow returns the slot at its place. -/
theorem CursorAt.reply {c : ℕ} {reg' : MemoryRegistry} (h : CursorAt reg task c reg')
    (ht : Go.Trimmed task) (hne : reg.offered task requestor ≠ [])
    (hweight : (slots (reg.offered task requestor)).length < 2 ^ 63) :
    some (reg'.getServiceForRequestor task requestor).2
      = ((slots (reg.offered task requestor)).map .ok)[c
        % ((slots (reg.offered task requestor)).map
          (.ok : String → Except RegistryError String)).length]? := by
  rw [← h.offered_eq] at hne hweight ⊢
  obtain ⟨after, addr, hget, hselect, -⟩ :=
    getServiceForRequestor_advances ht (totalServiceWeight_pos hweight hne)
  have hcursor := h.cursor
  have hslot := selectWeightedAddress_eq_rotation hweight (by omega : 0 ≤ (reg'.cursor task).toInt)
  rw [rotation_zero hcursor] at hslot
  rw [hget, List.length_map, List.getElem?_map, ← hslot]
  exact congrArg (Option.map Except.ok) hselect.symm

/-! ## Rounds -/

/-- A round of a requestor: queries of a task, by anybody, among which the requestor makes as many
as it has slots. Neither its weight nor the cursor overflows. -/
structure Round (reg : MemoryRegistry) (task : String) (requestor : Option IP)
    (queries : List (Option IP)) : Prop where
  trimmed : Go.Trimmed task
  ne_nil : reg.offered task requestor ≠ []
  weight : (slots (reg.offered task requestor)).length < 2 ^ 63
  count : queries.count requestor = (slots (reg.offered task requestor)).length
  cursor : 0 ≤ (reg.cursor task).toInt
  limit : (reg.cursor task).toInt + queries.length < 2 ^ 63

variable (h : reg.Round task requestor queries)
include h

theorem Round.map_some_repliesTo :
    (reg.repliesTo task requestor queries).map some
      = (reg.queryPlaces task requestor queries).map fun c ↦
        ((slots (reg.offered task requestor)).map .ok)[c
          % ((slots (reg.offered task requestor)).map
            (.ok : String → Except RegistryError String)).length]? := by
  have hstart : (reg.cursor task).toInt = (reg.cursor task).toNatClampNeg := by
    rw [← Int64.toNat_toInt, Int.toNat_of_nonneg h.cursor]
  have hplaces : (reg.cursor task).toNatClampNeg + queries.length ≤ 2 ^ 63 - 1 := by
    have hlimit := h.limit
    omega
  exact SharedCursor.map_some_given (CursorAt reg task)
    (fun c reg' ip hc hat ↦ hat.query h.trimmed (by omega) ip)
    (fun c reg' _ hat ↦ hat.reply h.trimmed h.ne_nil h.weight) ⟨rfl, rfl, hstart⟩ hplaces

theorem Round.mem_repliesTo {addr : String} :
    .ok addr ∈ reg.repliesTo task requestor queries
      ↔ ∃ c ∈ reg.queryPlaces task requestor queries, (slots (reg.offered task requestor))[c
          % (slots (reg.offered task requestor)).length]? = some addr := by
  have hsome : .ok addr ∈ reg.repliesTo task requestor queries
      ↔ some (.ok addr) ∈ (reg.repliesTo task requestor queries).map some := by simp
  rw [hsome, h.map_some_repliesTo, List.mem_map, List.length_map]
  refine exists_congr fun c ↦ and_congr_right fun _ ↦ ?_
  rw [List.getElem?_map]
  simp

/-- The places differ modulo the number of slots exactly when they reach every slot. -/
theorem Round.nodup_places_iff :
    ((reg.queryPlaces task requestor queries).map
        (· % (slots (reg.offered task requestor)).length)).Nodup
      ↔ ∀ i < (slots (reg.offered task requestor)).length,
          ∃ c ∈ reg.queryPlaces task requestor queries,
            c % (slots (reg.offered task requestor)).length = i :=
  SharedCursor.nodup_mod_iff ((SharedCursor.length_places ..).trans h.count)

/-- **Who is returned in a round.** All instances that a requestor may be given are returned to it
exactly when the places of its queries reach a slot of each. It is enough that the places differ
modulo the number of slots, and necessary where every instance has one slot. -/
theorem returned_iff_places {name : String} (hname : Go.trimSpace name = task) :
    ((∀ e ∈ reg.offered task requestor, .ok e.address ∈ reg.repliesTo name requestor queries)
        ↔ ∀ e ∈ reg.offered task requestor, ∃ c ∈ reg.queryPlaces task requestor queries,
          (slots (reg.offered task requestor))[c % (slots (reg.offered task requestor)).length]?
            = some e.address)
      ∧ (((reg.queryPlaces task requestor queries).map
            (· % (slots (reg.offered task requestor)).length)).Nodup →
          ∀ e ∈ reg.offered task requestor, .ok e.address ∈ reg.repliesTo name requestor queries)
      ∧ ((slots (reg.offered task requestor)).Nodup →
          (∀ e ∈ reg.offered task requestor, .ok e.address ∈ reg.repliesTo name requestor queries) →
          ((reg.queryPlaces task requestor queries).map
            (· % (slots (reg.offered task requestor)).length)).Nodup) := by
  have hreplies : reg.repliesTo name requestor queries = reg.repliesTo task requestor queries := by
    simp only [repliesTo, ← hname, getServiceForRequestor_trimSpace]
  rw [hreplies]
  refine ⟨?_, fun hnodup e he ↦ ?_, fun hslots hall ↦ ?_⟩
  · simp only [h.mem_repliesTo]
  · -- the address has a slot, and the slot is reached
    obtain ⟨i, hi, hslot⟩ := List.getElem_of_mem (mem_slots.mpr ⟨e, he, rfl⟩)
    obtain ⟨c, hc, rfl⟩ := h.nodup_places_iff.mp hnodup i hi
    exact h.mem_repliesTo.mpr ⟨c, hc, by rw [List.getElem?_eq_getElem hi, hslot]⟩
  · -- every slot belongs to an instance, and the instance has no other slot
    refine h.nodup_places_iff.mpr fun i hi ↦ ?_
    obtain ⟨e, he, haddr⟩ := mem_slots.mp (List.getElem_mem hi)
    obtain ⟨c, hc, hslot⟩ := h.mem_repliesTo.mp (hall e he)
    refine ⟨c, hc, ?_⟩
    rw [haddr, ← List.getElem?_eq_getElem hi] at hslot
    exact (List.getElem?_inj (List.getElem?_eq_some_iff.mp (hslot.trans
      (List.getElem?_eq_getElem hi))).1 hslots).mp hslot

end MemoryRegistry

/-! ## Two requestors in lock step -/

/-- A requestor that may reach two instances. -/
def requestorOfTwo : Option IP := some [192, 168, 1, 10]

/-- A requestor that may reach another one. -/
def requestorOfOne : Option IP := some [192, 168, 1, 11]

/-- Three instances of a task behind a firewall that lets the requestors reach different ones. -/
def dividedRegistry : MemoryRegistry :=
  let fw : Firewall :=
    ⟨[{ sourceIP := [192, 168, 1, 10], destIP := [10, 20, 0, 1] },
      { sourceIP := [192, 168, 1, 10], destIP := [10, 20, 0, 2] },
      { sourceIP := [192, 168, 1, 11], destIP := [10, 20, 0, 3] }]⟩
  ((((MemoryRegistry.new.setFirewall fw).register 0 "scan" "10.20.0.1:8080").register 0 "scan"
    "10.20.0.2:8080").register 0 "scan" "10.20.0.3:8080")

/-- Where the other requestor asks twice between the two queries, the places are zero and three and
both instances are returned. -/
theorem outOfStep_returns :
    dividedRegistry.queryPlaces "scan" requestorOfTwo
        [requestorOfTwo, requestorOfOne, requestorOfOne, requestorOfTwo] = [0, 3]
      ∧ ∀ e ∈ dividedRegistry.offered "scan" requestorOfTwo,
        .ok e.address ∈ dividedRegistry.repliesTo " scan" requestorOfTwo
          [requestorOfTwo, requestorOfOne, requestorOfOne, requestorOfTwo] := by
  have hround : dividedRegistry.Round "scan" requestorOfTwo
      [requestorOfTwo, requestorOfOne, requestorOfOne, requestorOfTwo] :=
    ⟨⟨by decide +kernel, by decide⟩, by decide +kernel, by decide +kernel, by decide +kernel,
      by decide +kernel, by decide +kernel⟩
  exact ⟨by decide +kernel,
    (MemoryRegistry.returned_iff_places hround (by decide +kernel)).2.1 (by decide +kernel)⟩

/-- **Lock step.** Two requestors take turns. The first may reach two instances of one slot each and
makes two queries, and both return the same instance. -/
theorem lockStep_starves :
    (dividedRegistry.offered "scan" requestorOfTwo).map ServiceEntry.share
        = [("10.20.0.1:8080", 1), ("10.20.0.2:8080", 1)]
      ∧ dividedRegistry.queryPlaces "scan" requestorOfTwo
        [requestorOfTwo, requestorOfOne, requestorOfTwo, requestorOfOne] = [0, 2]
      ∧ dividedRegistry.repliesTo "scan" requestorOfTwo
        [requestorOfTwo, requestorOfOne, requestorOfTwo, requestorOfOne]
          = [.ok "10.20.0.1:8080", .ok "10.20.0.1:8080"]
      ∧ .ok "10.20.0.2:8080" ∉ dividedRegistry.repliesTo "scan" requestorOfTwo
        [requestorOfTwo, requestorOfOne, requestorOfTwo, requestorOfOne] := by
  decide +kernel

end TaskDiscovery
