import TaskDiscovery.Registry.Representation
import TaskDiscovery.Transport.Messages

/-!
# Capacities from the wire

The capacity of an instance is whatever integer its `REGISTER` message carries; values below one are
taken as one, and nothing bounds them from above. A query adds the capacities of the entries that
the requestor may be given in 64 bits, and gives up with "service not found" when the sum is not
positive. The check keeps the remainder that follows it from a division by zero, and behind it some
entry is always found, even when the running sum wraps around on the way.

What the check cannot tell is a sum that has wrapped around from a task without entries. A task is
available exactly while the sum of the capacities, reduced to a signed 64-bit integer, is positive
(`available_iff`), so one client that advertises `2⁶³ - 1` takes the other instances of the task
down with it (`overflow_unavailable`).
-/

namespace TaskDiscovery

open Go (IP)

/-! ## The wrapped sum -/

theorem toInt_totalServiceWeight_eq (entries : List ServiceEntry) :
    (totalServiceWeight entries).toInt
      = ((entries.map fun e ↦ (serviceWeight e).toInt).sum).bmod (2 ^ 64) := by
  have key : ∀ total : Int64,
      (entries.foldl (fun total e ↦ total + serviceWeight e) total).toInt
        = (total.toInt + (entries.map fun e ↦ (serviceWeight e).toInt).sum).bmod (2 ^ 64) := by
    induction entries with
    | nil =>
      intro total
      rw [List.foldl_nil, List.map_nil, List.sum_nil, Int.add_zero]
      exact (Int.bmod_eq_of_le (by have := total.le_toInt; omega)
        (by have := total.toInt_lt; omega)).symm
    | cons e entries ih =>
      intro total
      rw [List.foldl_cons, ih, Int64.toInt_add, Int.bmod_add_bmod, List.map_cons, List.sum_cons,
        Int.add_assoc]
  have hzero := key 0
  rwa [Int64.toInt_zero, Int.zero_add] at hzero

theorem serviceWeight_eq_capacity {e : ServiceEntry} (h : 1 ≤ e.capacity) :
    serviceWeight e = e.capacity := by
  refine normalizedCapacity_of_pos ?_
  rw [Int64.le_iff_toInt_le] at h
  rw [Int64.lt_iff_toInt_lt]
  exact h

namespace MemoryRegistry

/-- The capacities of the entries that a requestor may be given, added up without a bound. -/
def offeredCapacity (reg : MemoryRegistry) (task : String) (requestorIP : Option IP) : Int :=
  ((reg.offered task requestorIP).map fun e ↦ e.capacity.toInt).sum

variable {reg : MemoryRegistry} {task : String} {requestorIP : Option IP}

theorem totalServiceWeight_pos_iff (h : reg.WellFormed) :
    0 < totalServiceWeight (reg.offered task requestorIP)
      ↔ 0 < (reg.offeredCapacity task requestorIP).bmod (2 ^ 64) := by
  have hweights : (reg.offered task requestorIP).map (fun e ↦ (serviceWeight e).toInt)
      = (reg.offered task requestorIP).map fun e ↦ e.capacity.toInt := by
    apply List.map_congr_left
    intro e he
    rw [serviceWeight_eq_capacity (h.one_le_of_mem_slice (List.mem_filter.mp he).1)]
  rw [Int64.lt_iff_toInt_lt, toInt_totalServiceWeight_eq, hweights, offeredCapacity]
  rfl

end MemoryRegistry

/-! ## Registrations from the wire -/

def serveRegister (reg : MemoryRegistry) (m : Time × CentralizedMessage) : MemoryRegistry :=
  (handleMessage MemoryRegistry.ops reg m.1 m.1 { m.2 with command := "REGISTER" } none).1

/-- The registry after a sequence of `REGISTER` messages. -/
def registered (fw : Option Firewall) (msgs : List (Time × CentralizedMessage)) : MemoryRegistry :=
  Run.exec serveRegister (MemoryRegistry.new.setFirewall fw) msgs

theorem serveRegister_eq (reg : MemoryRegistry) (m : Time × CentralizedMessage) :
    serveRegister reg m = reg.registerWithCapacity m.1 m.2.task m.2.address m.2.capacity := by
  have hhandle : serveRegister reg m = (handleRegister MemoryRegistry.ops reg m.1 m.1
      { m.2 with command := "REGISTER" }).1 := rfl
  have hbody : ∀ now task addr capacity, reg.registerWithCapacity now (Go.trimSpace task)
      (Go.trimSpace addr) (normalizedCapacity capacity)
      = reg.registerWithCapacity now task addr capacity := by
    intro now task addr capacity
    simp only [MemoryRegistry.registerWithCapacity, Go.trimSpace_idem, normalizedCapacity_idem]
  rw [hhandle, handleRegister, ← hbody]
  by_cases hblank : Go.trimSpace m.2.task = "" ∨ Go.trimSpace m.2.address = ""
  · rw [if_pos hblank, MemoryRegistry.registerWithCapacity, Go.trimSpace_idem, Go.trimSpace_idem,
      if_pos hblank]
  · rw [if_neg hblank]
    simp only [MemoryRegistry.ops]

/-- What `REGISTER` messages can lead to: a well-formed registry without a nameless task. -/
structure FromWire (reg : MemoryRegistry) : Prop where
  wellFormed : reg.WellFormed
  nameless : reg.services.slice "" = []

theorem FromWire.serveRegister {reg : MemoryRegistry} (h : FromWire reg)
    (m : Time × CentralizedMessage) : FromWire (serveRegister reg m) := by
  rw [serveRegister_eq]
  refine ⟨h.wellFormed.registerWithCapacity .., ?_⟩
  rw [MemoryRegistry.registerWithCapacity]
  by_cases hblank : Go.trimSpace m.2.task = "" ∨ Go.trimSpace m.2.address = ""
  · rw [if_pos hblank]
    exact h.nameless
  · rw [if_neg hblank, MemoryRegistry.slice_putEntry, if_neg (Ne.symm (not_or.mp hblank).1)]
    exact h.nameless

theorem fromWire_registered (fw : Option Firewall) (msgs : List (Time × CentralizedMessage)) :
    FromWire (registered fw msgs) :=
  Run.invariant (fun _ m h ↦ h.serveRegister m)
    ⟨MemoryRegistry.wellFormed_new fw, AList.slice_empty ""⟩ msgs

/-- **When a task is available.** After any sequence of `REGISTER` messages with any capacities, a
query whose requestor may be given an entry of the task never divides by zero. It returns the
address of such an entry if and only if the sum of their capacities is positive when it is reduced
to a signed 64-bit integer. -/
theorem available_iff (fw : Option Firewall) (msgs : List (Time × CentralizedMessage))
    (task : String) (requestorIP : Option IP)
    (hoffered : (registered fw msgs).offered (Go.trimSpace task) requestorIP ≠ []) :
    (∀ entries, (registered fw msgs).candidates (Go.trimSpace task) requestorIP = .ok entries →
        totalServiceWeight entries ≠ 0)
      ∧ ((∃ addr, ((registered fw msgs).getServiceForRequestor task requestorIP).2 = .ok addr
          ∧ ∃ e ∈ (registered fw msgs).offered (Go.trimSpace task) requestorIP, e.address = addr)
        ↔ 0 < ((registered fw msgs).offeredCapacity (Go.trimSpace task) requestorIP).bmod
          (2 ^ 64)) := by
  have hwire := fromWire_registered fw msgs
  have htask : Go.trimSpace task ≠ "" := by
    intro hblank
    rw [hblank] at hoffered
    exact hoffered (MemoryRegistry.offered_of_slice_nil hwire.nameless requestorIP)
  refine ⟨?_, ?_⟩
  · intro entries hcand hzero
    have hpos := (MemoryRegistry.candidates_ok hcand).2
    rw [hzero] at hpos
    exact absurd hpos (by decide)
  · rw [(registered fw msgs).getServiceForRequestor_ok_iff htask,
      MemoryRegistry.totalServiceWeight_pos_iff hwire.wellFormed]

/-- Two instances with the largest capacity that does not wrap around. -/
theorem largest_available :
    ∃ addr, ((registered none [(0, ⟨"REGISTER", "scan", "10.0.0.1:80", 9223372036854775806⟩),
        (1, ⟨"REGISTER", "scan", "10.0.0.2:80", 1⟩)]).getServiceForRequestor "scan" none).2
      = .ok addr := by
  obtain ⟨addr, hok, -⟩ := (available_iff none
    [(0, ⟨"REGISTER", "scan", "10.0.0.1:80", 9223372036854775806⟩),
      (1, ⟨"REGISTER", "scan", "10.0.0.2:80", 1⟩)] "scan" none (by decide +kernel)).2.mpr
    (by decide +kernel)
  exact ⟨addr, hok⟩

/-- One more, and the task is not found, though two instances are registered for it. -/
theorem overflow_unavailable :
    (registered none [(0, ⟨"REGISTER", "scan", "10.0.0.1:80", 9223372036854775807⟩),
          (1, ⟨"REGISTER", "scan", "10.0.0.2:80", 1⟩)]).offered "scan" none ≠ []
      ∧ ((registered none [(0, ⟨"REGISTER", "scan", "10.0.0.1:80", 9223372036854775807⟩),
          (1, ⟨"REGISTER", "scan", "10.0.0.2:80", 1⟩)]).getServiceForRequestor "scan" none).2
        = .error .notFound := by
  decide +kernel

end TaskDiscovery
