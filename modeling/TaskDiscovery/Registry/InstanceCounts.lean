import Mathlib.Data.Set.Function
import TaskDiscovery.Registry.QueryCounts
import TaskDiscovery.Registry.Representation

/-!
# Query counters of instances

`ListServices` reports for each entry how many lookups it has answered since it was added. The
counters are not kept in the entries. They are in a map of their own, under the task and the address
joined by a colon, which a lookup creates, a cleanup deletes, and a registration does not touch.

Names may contain colons, and then two instances can share a counter: the address `b:c` of the task
`a` and the address `c` of the task `a:b`. The second of them is born with the count of the first
(`shared_counter`), each is charged for the lookups of the other, and both lose their counts when
one of them expires. Apart from this the counters are right. For a set of names, they are right in
all runs that register these names if and only if no two names of the set have the same key
(`instanceCounts_iff`).

## The books

The number a counter should show is a ghost component of the state (`Tallied`). The invariant
(`Books`) says that held pairs have the counts they should have, and that there is no counter
without a held pair, for a pair that is added later could find it.
-/

namespace TaskDiscovery

open Go (IP)

namespace MemoryRegistry

variable {reg : MemoryRegistry} {served : String → String → ℕ} {S : Set (String × String)}

/-! ## Lookups served -/

/-- The pair that a call registers. -/
def Op.registered : Op → Option (String × String)
  | .register _ task addr => some (Go.trimSpace task, Go.trimSpace addr)
  | .registerWithCapacity _ task addr _ => some (Go.trimSpace task, Go.trimSpace addr)
  | _ => none

/-- The tally once a pair has been registered. It starts again if the pair is newly added. -/
def restart (reg : MemoryRegistry) (served : String → String → ℕ) (task addr : String) :
    String → String → ℕ :=
  fun task' addr' ↦
    if task' = task ∧ addr' = addr ∧ ¬reg.Holds task addr then 0 else served task' addr'

/-- The tally after a call: for each task and address, the lookups of the task that have returned
the address since the pair was last newly added. -/
def tally (reg : MemoryRegistry) (served : String → String → ℕ) : Op → String → String → ℕ
  | .register _ task addr => restart reg served (Go.trimSpace task) (Go.trimSpace addr)
  | .registerWithCapacity _ task addr _ =>
    restart reg served (Go.trimSpace task) (Go.trimSpace addr)
  | .getServiceForRequestor task requestorIP =>
    recordAnswer served (Go.trimSpace task) (reg.getServiceForRequestor task requestorIP).2
  | .cleanup _ _ => served

/-- A registry with the lookups its entries have answered. -/
structure Tallied where
  reg : MemoryRegistry
  served : String → String → ℕ

def Tallied.step (s : Tallied) (op : Op) : Tallied := ⟨s.reg.step op, tally s.reg s.served op⟩

def Tallied.start (fw : Option Firewall) : Tallied := ⟨new.setFirewall fw, fun _ _ ↦ 0⟩

/-- `ListServices` reports the tally of every entry. -/
def Tallied.Faithful (s : Tallied) : Prop :=
  ∀ task, ∀ e ∈ s.reg.listServices.slice task, e.queryCount = s.served task e.address

/-! ## The books -/

/-- What keeps the counters right over the names `S`. -/
structure Books (S : Set (String × String)) (reg : MemoryRegistry) (served : String → String → ℕ) :
    Prop where
  wellFormed : reg.WellFormed
  named : ∀ {task addr}, reg.Holds task addr →
    (task, addr) ∈ S ∧ Go.Trimmed task ∧ Go.Trimmed addr
  entry_zero : ∀ {task e}, e ∈ reg.services.slice task → e.queryCount = 0
  counter_held : ∀ {key n}, reg.queryCounters key = some n →
    ∃ task addr, reg.Holds task addr ∧ key = counterKey task addr
  counted : ∀ {task addr}, reg.Holds task addr → reg.count task addr = served task addr

theorem queryCount_withCount {task : String} {e : ServiceEntry} (hzero : e.queryCount = 0) :
    (withCount reg.queryCounters task e).queryCount = reg.count task e.address := by
  rw [withCount, count]
  rcases reg.queryCounters (counterKey task e.address) with _ | n
  · exact hzero
  · rfl

/-- Entries carry no counts of their own, so the listing shows the counters. -/
theorem Tallied.faithful_iff {s : Tallied}
    (hzero : ∀ {task e}, e ∈ s.reg.services.slice task → e.queryCount = 0) :
    s.Faithful ↔ ∀ task addr, s.reg.Holds task addr →
      s.reg.count task addr = s.served task addr := by
  constructor
  · intro h task addr hheld
    obtain ⟨e, he, rfl⟩ := List.mem_map.mp hheld
    have hlisted := h task (withCount s.reg.queryCounters task e) (by
      rw [slice_listServices]
      exact List.mem_map_of_mem he)
    rwa [queryCount_withCount (hzero he), withCount_address] at hlisted
  · intro h task e he
    rw [slice_listServices] at he
    obtain ⟨e₀, he₀, rfl⟩ := List.mem_map.mp he
    rw [queryCount_withCount (hzero he₀), withCount_address]
    exact h task e₀.address (List.mem_map_of_mem he₀)

theorem books_start (S : Set (String × String)) (fw : Option Firewall) :
    Books S (Tallied.start fw).reg (Tallied.start fw).served where
  wellFormed := wellFormed_new fw
  named hheld := absurd hheld (not_holds_new _ _)
  entry_zero he := absurd he List.not_mem_nil
  counter_held hcounter := by simp [Tallied.start, setFirewall, new] at hcounter
  counted hheld := absurd hheld (not_holds_new _ _)

/-! ## One call -/

/-- Put an entry without a count for the pair. -/
def PutsEntry (reg reg' : MemoryRegistry) (task addr : String) : Prop :=
  ∃ f fresh, (∀ e, (f e).address = e.address) ∧ (∀ e, (f e).queryCount = e.queryCount)
    ∧ fresh.address = addr ∧ fresh.queryCount = 0 ∧ reg' = reg.putEntry task addr f fresh

theorem void_or_puts (reg : MemoryRegistry) (task addr : String)
    {f : ServiceEntry → ServiceEntry} {fresh : ServiceEntry}
    (hf : ∀ e, (f e).address = e.address) (hfcount : ∀ e, (f e).queryCount = e.queryCount)
    (hfresh : fresh.address = Go.trimSpace addr) (hfreshCount : fresh.queryCount = 0) :
    (if Go.trimSpace task = "" ∨ Go.trimSpace addr = "" then reg
        else reg.putEntry (Go.trimSpace task) (Go.trimSpace addr) f fresh) = reg
      ∨ (Go.Trimmed (Go.trimSpace task) ∧ Go.Trimmed (Go.trimSpace addr)
        ∧ PutsEntry reg (if Go.trimSpace task = "" ∨ Go.trimSpace addr = "" then reg
            else reg.putEntry (Go.trimSpace task) (Go.trimSpace addr) f fresh)
          (Go.trimSpace task) (Go.trimSpace addr)) := by
  by_cases hblank : Go.trimSpace task = "" ∨ Go.trimSpace addr = ""
  · exact Or.inl (if_pos hblank)
  · obtain ⟨ht, ha⟩ := not_or.mp hblank
    rw [if_neg hblank]
    exact Or.inr ⟨Go.trimmed_trimSpace ht, Go.trimmed_trimSpace ha, f, fresh, hf, hfcount, hfresh,
      hfreshCount, rfl⟩

theorem step_of_registered {op : Op} {task addr : String} (h : op.registered = some (task, addr))
    (reg : MemoryRegistry) :
    reg.step op = reg
      ∨ (Go.Trimmed task ∧ Go.Trimmed addr ∧ PutsEntry reg (reg.step op) task addr) := by
  rcases op with ⟨now, task', addr'⟩ | ⟨now, task', addr', capacity⟩ | _ | _
  · obtain ⟨rfl, rfl⟩ := Prod.mk.inj (Option.some.inj h)
    rw [step, register]
    exact void_or_puts reg task' addr' (fun _ ↦ rfl) (fun _ ↦ rfl) rfl rfl
  · obtain ⟨rfl, rfl⟩ := Prod.mk.inj (Option.some.inj h)
    rw [step, registerWithCapacity]
    exact void_or_puts reg task' addr' (fun _ ↦ rfl) (fun _ ↦ rfl) rfl rfl
  · exact absurd h (by simp [Op.registered])
  · exact absurd h (by simp [Op.registered])

theorem tally_of_registered {op : Op} {task addr : String} (h : op.registered = some (task, addr)) :
    tally reg served op = restart reg served task addr := by
  rcases op with ⟨now, task', addr'⟩ | ⟨now, task', addr', capacity⟩ | _ | _
  · obtain ⟨rfl, rfl⟩ := Prod.mk.inj (Option.some.inj h)
    rfl
  · obtain ⟨rfl, rfl⟩ := Prod.mk.inj (Option.some.inj h)
    rfl
  · exact absurd h (by simp [Op.registered])
  · exact absurd h (by simp [Op.registered])

namespace Books

variable (hinj : Set.InjOn (fun p ↦ counterKey p.1 p.2)
  {p : String × String | p ∈ S ∧ Go.Trimmed p.1 ∧ Go.Trimmed p.2})
include hinj

theorem pair_eq (h : Books S reg served) {task addr task' addr' : String}
    (hpair : (task, addr) ∈ S ∧ Go.Trimmed task ∧ Go.Trimmed addr) (hheld : reg.Holds task' addr')
    (hkey : counterKey task addr = counterKey task' addr') : task = task' ∧ addr = addr' :=
  Prod.mk.inj (hinj hpair (h.named hheld) hkey)

theorem count_eq_zero (h : Books S reg served) {task addr : String}
    (hpair : (task, addr) ∈ S ∧ Go.Trimmed task ∧ Go.Trimmed addr)
    (hnot : ¬reg.Holds task addr) : reg.count task addr = 0 := by
  rw [count]
  rcases hcounter : reg.queryCounters (counterKey task addr) with _ | n
  · rfl
  · obtain ⟨task', addr', hheld, hkey⟩ := h.counter_held hcounter
    obtain ⟨rfl, rfl⟩ := h.pair_eq hinj hpair hheld hkey
    exact absurd hheld hnot

theorem registers (h : Books S reg served) {op : Op} {task addr : String}
    (hop : op.registered = some (task, addr)) (hS : (task, addr) ∈ S) :
    Books S (reg.step op) (tally reg served op) := by
  have hwf := h.wellFormed.step op
  rw [tally_of_registered hop]
  rcases step_of_registered hop reg with heq | ⟨ht, ha, f, fresh, hf, hfcount, hfresh, hfreshCount,
    heq⟩
  · rw [heq]
    refine ⟨h.wellFormed, h.named, h.entry_zero, h.counter_held, fun {task' addr'} hheld ↦ ?_⟩
    -- nothing was added, so the tally starts again for a pair that is not held at most
    have hother : ¬(task' = task ∧ addr' = addr ∧ ¬reg.Holds task addr) := by
      rintro ⟨rfl, rfl, hnot⟩
      exact hnot hheld
    rw [restart, if_neg hother]
    exact h.counted hheld
  · have hholds : ∀ {task' addr'}, (reg.putEntry task addr f fresh).Holds task' addr'
        ↔ (task' = task ∧ addr' = addr) ∨ reg.Holds task' addr' := holds_putEntry hf hfresh
    rw [heq] at hwf ⊢
    refine ⟨hwf, ?_, ?_, ?_, ?_⟩
    · intro task' addr' hheld
      rcases hholds.mp hheld with ⟨rfl, rfl⟩ | hheld
      · exact ⟨hS, ht, ha⟩
      · exact h.named hheld
    · intro task' e he
      exact Ledger.entry_zero_putEntry hfcount hfreshCount h.entry_zero he
    · intro key n hcounter
      obtain ⟨task', addr', hheld, hkey⟩ := h.counter_held hcounter
      exact ⟨task', addr', hholds.mpr (Or.inr hheld), hkey⟩
    · intro task' addr' hheld
      change reg.count task' addr' = _
      rw [restart]
      split_ifs with hnew
      · obtain ⟨rfl, rfl, hnot⟩ := hnew
        exact h.count_eq_zero hinj ⟨hS, ht, ha⟩ hnot
      · rcases hholds.mp hheld with ⟨rfl, rfl⟩ | hheld
        · by_contra hne
          exact hnew ⟨rfl, rfl, fun hheld ↦ hne (h.counted hheld)⟩
        · exact h.counted hheld

theorem lookup (h : Books S reg served) (task : String) (requestorIP : Option IP) :
    Books S (reg.step (.getServiceForRequestor task requestorIP))
      (tally reg served (.getServiceForRequestor task requestorIP)) := by
  have hwf := h.wellFormed.step (.getServiceForRequestor task requestorIP)
  rw [step] at hwf ⊢
  rw [tally]
  rcases hget : reg.getServiceForRequestor task requestorIP with ⟨reg', err | addr⟩
  · rw [getServiceForRequestor_error hget]
    exact h
  · obtain ⟨⟨e, he, rfl⟩, hservices, -, hcounters⟩ := getServiceForRequestor_ok hget
    have hheld : reg.Holds (Go.trimSpace task) e.address :=
      List.mem_map_of_mem (List.mem_of_mem_filter he)
    have hholds : ∀ {task' addr'}, reg'.Holds task' addr' ↔ reg.Holds task' addr' := by
      intro task' addr'
      rw [Holds, hservices, Holds]
    rw [hget] at hwf
    refine ⟨hwf, ?_, ?_, ?_, ?_⟩
    · intro task' addr' hheld'
      exact h.named (hholds.mp hheld')
    · intro task' e' he'
      rw [hservices] at he'
      exact h.entry_zero he'
    · intro key n hcounter
      dsimp only at hcounter
      rw [hcounters] at hcounter
      by_cases hkey : key = counterKey (Go.trimSpace task) e.address
      · exact ⟨_, _, hholds.mpr hheld, hkey⟩
      · rw [SyncMap.store_of_ne _ hkey] at hcounter
        obtain ⟨task', addr', hheld', hkey'⟩ := h.counter_held hcounter
        exact ⟨task', addr', hholds.mpr hheld', hkey'⟩
    · intro task' addr' hheld'
      rw [count, hcounters, recordAnswer, bump]
      split_ifs with hsame
      · obtain ⟨rfl, rfl⟩ := hsame
        have hcount := h.counted hheld
        rw [count] at hcount
        rw [SyncMap.store_self, Option.getD_some, hcount]
        rfl
      · have hkey : counterKey task' addr' ≠ counterKey (Go.trimSpace task) e.address := by
          intro hkey
          exact hsame (h.pair_eq hinj (h.named (hholds.mp hheld')) hheld hkey)
        rw [SyncMap.store_of_ne _ hkey]
        exact h.counted (hholds.mp hheld')

theorem cleanup (h : Books S reg served) (now timeout : Time) :
    Books S (reg.cleanup now timeout).1 served := by
  have hwf := h.wellFormed.cleanup now timeout
  have hholds : ∀ {task addr}, (reg.cleanup now timeout).1.Holds task addr →
      ∃ e ∈ reg.services.slice task, now < e.lastHeartbeat + timeout ∧ e.address = addr := by
    intro task addr hheld
    rw [Holds, slice_cleanup] at hheld
    obtain ⟨e, he, rfl⟩ := List.mem_map.mp hheld
    obtain ⟨hmem, hfresh⟩ := List.mem_filter.mp he
    exact ⟨e, hmem, of_decide_eq_true hfresh, rfl⟩
  refine ⟨hwf, ?_, ?_, ?_, ?_⟩
  · intro task addr hheld
    obtain ⟨e, he, -, rfl⟩ := hholds hheld
    exact h.named (List.mem_map_of_mem he)
  · intro task e he
    rw [slice_cleanup] at he
    exact h.entry_zero (List.mem_of_mem_filter he)
  · intro key n hcounter
    rcases reg.queryCounters_cleanup now timeout key with ⟨-, hnone⟩ | ⟨hkept, hsame⟩
    · rw [hnone] at hcounter
      exact absurd hcounter (by simp)
    · rw [hsame] at hcounter
      obtain ⟨task, addr, hheld, rfl⟩ := h.counter_held hcounter
      obtain ⟨e, he, rfl⟩ := List.mem_map.mp hheld
      have hfresh : now < e.lastHeartbeat + timeout :=
        not_le.mp fun hstale ↦ hkept ⟨task, e, he, hstale, rfl⟩
      refine ⟨task, e.address, ?_, rfl⟩
      rw [Holds, slice_cleanup]
      exact List.mem_map_of_mem (List.mem_filter.mpr ⟨he, decide_eq_true hfresh⟩)
  · intro task addr hheld
    obtain ⟨e, he, hfresh, rfl⟩ := hholds hheld
    have hbefore : reg.Holds task e.address := List.mem_map_of_mem he
    rcases reg.queryCounters_cleanup now timeout (counterKey task e.address) with
      ⟨⟨task', e', he', hstale, hkey⟩, -⟩ | ⟨-, hsame⟩
    · -- the stale entry under this key would be the fresh one
      obtain ⟨rfl, haddr⟩ := h.pair_eq hinj (h.named (List.mem_map_of_mem he')) hbefore hkey
      rw [List.inj_on_of_nodup_map (h.wellFormed.nodup_slice task') he' he haddr] at hstale
      exact absurd hfresh (not_lt.mpr hstale)
    · rw [count, hsame]
      exact h.counted hbefore

theorem step (h : Books S reg served) {op : Op} (hop : ∀ p ∈ op.registered, p ∈ S) :
    Books S (reg.step op) (tally reg served op) := by
  rcases op with ⟨now, task, addr⟩ | ⟨now, task, addr, capacity⟩ | ⟨task, requestorIP⟩
    | ⟨now, timeout⟩
  · exact h.registers hinj rfl (hop _ rfl)
  · exact h.registers hinj rfl (hop _ rfl)
  · exact h.lookup hinj task requestorIP
  · exact h.cleanup hinj now timeout

theorem exec {s : Tallied} (h : Books S s.reg s.served) {ops : List Op}
    (hops : ∀ op ∈ ops, ∀ p ∈ op.registered, p ∈ S) :
    Books S (Run.exec Tallied.step s ops).reg (Run.exec Tallied.step s ops).served := by
  induction ops generalizing s with
  | nil => exact h
  | cons op ops ih =>
    have hstep := h.step hinj (hops op List.mem_cons_self)
    exact ih hstep fun op' hop' ↦ hops op' (List.mem_cons_of_mem _ hop')

end Books

/-! ## Two pairs with one key -/

/-- Register one pair, look its task up, and register another pair. -/
def secondPair (p q : String × String) : List Op :=
  [.registerWithCapacity 0 p.1 p.2 1, .getServiceForRequestor p.1 none,
    .registerWithCapacity 0 q.1 q.2 1]

theorem lookup_first (fw : Option Firewall) {task addr : String} (ht : Go.Trimmed task)
    (ha : Go.Trimmed addr) :
    ∃ reg', ((new.setFirewall fw).registerWithCapacity 0 task addr 1).getServiceForRequestor task
        none = (reg', .ok addr)
      ∧ (∀ task' addr', reg'.Holds task' addr' → task' = task ∧ addr' = addr)
      ∧ reg'.queryCounters (counterKey task addr) = some 1 := by
  set reg := (new.setFirewall fw).registerWithCapacity 0 task addr 1 with hreg
  have hslice : reg.services.slice task
      = [{ address := addr, lastHeartbeat := 0, capacity := 1 }] := by
    rw [hreg, registerWithCapacity_of_trimmed ht ha, slice_putEntry, if_pos rfl]
    rfl
  have hoffered : reg.offered task none
      = [{ address := addr, lastHeartbeat := 0, capacity := 1 }] := by
    rw [offered, hslice]
    rcases reg.firewall with _ | rules
    · rfl
    · rfl
  obtain ⟨reg', hget⟩ := getServiceForRequestor_of_singleton ht hoffered (by rfl)
  obtain ⟨-, hservices, -, hcounters⟩ := getServiceForRequestor_ok hget
  rw [ht.trimSpace_eq] at hcounters
  refine ⟨reg', hget, ?_, ?_⟩
  · intro task' addr' hheld
    rw [Holds, hservices] at hheld
    rcases (holds_registerWithCapacity ht ha).mp hheld with heq | hnew
    · exact heq
    · exact absurd hnew (not_holds_new task' addr')
  · have hnone : reg.queryCounters (counterKey task addr) = none := by
      rw [hreg, registerWithCapacity_of_trimmed ht ha]
      rfl
    rw [hcounters, SyncMap.store_self, hnone]
    rfl

/-- Under one key the second pair is born with the count of the first. -/
theorem not_faithful_secondPair (fw : Option Firewall) {p q : String × String}
    (hp : Go.Trimmed p.1 ∧ Go.Trimmed p.2) (hq : Go.Trimmed q.1 ∧ Go.Trimmed q.2) (hne : p ≠ q)
    (hkey : counterKey p.1 p.2 = counterKey q.1 q.2) :
    ¬(Run.exec Tallied.step (Tallied.start fw) (secondPair p q)).Faithful := by
  obtain ⟨reg', hget, hheld, hcounter⟩ := lookup_first fw hp.1 hp.2
  have hnot : ¬reg'.Holds q.1 q.2 := by
    intro hq'
    obtain ⟨htask, haddr⟩ := hheld q.1 q.2 hq'
    exact hne (Prod.ext htask.symm haddr.symm)
  intro h
  have hreg : (Run.exec Tallied.step (Tallied.start fw) (secondPair p q)).reg
      = reg'.registerWithCapacity 0 q.1 q.2 1 := by
    simp only [secondPair, Run.exec_cons, Run.exec_nil, Tallied.step, Tallied.start, step, hget]
  have hserved : (Run.exec Tallied.step (Tallied.start fw) (secondPair p q)).served q.1 q.2
      = 0 := by
    simp only [secondPair, Run.exec_cons, Run.exec_nil, Tallied.step, Tallied.start, step, tally,
      hget, hq.1.trimSpace_eq, hq.2.trimSpace_eq, restart, hnot, not_false_eq_true, and_self,
      if_true]
  have hq' : (reg'.registerWithCapacity 0 q.1 q.2 1).Holds q.1 q.2 :=
    (holds_registerWithCapacity hq.1 hq.2).mpr (Or.inl ⟨rfl, rfl⟩)
  obtain ⟨e, he, haddr⟩ := List.mem_map.mp hq'
  have hlisted := h q.1
    (withCount (Run.exec Tallied.step (Tallied.start fw) (secondPair p q)).reg.queryCounters q.1 e)
    (by
      rw [slice_listServices, hreg]
      exact List.mem_map_of_mem he)
  have hcounters : (reg'.registerWithCapacity 0 q.1 q.2 1).queryCounters
      (counterKey q.1 e.address) = some 1 := by
    rw [registerWithCapacity_of_trimmed hq.1 hq.2, haddr, ← hkey]
    exact hcounter
  rw [withCount_address, haddr, hserved, hreg, withCount, hcounters] at hlisted
  have hone : (1 : Int) = 0 := hlisted
  exact absurd hone (by decide)

/-- **When query counters are per instance.** Let the registrations of a run be of names from a set.
In every state of every such run `ListServices` reports for each entry the number of lookups of its
task that returned it since it was last newly added, if and only if no two of the names that can be
registered have the same key. -/
theorem instanceCounts_iff (fw : Option Firewall) (S : Set (String × String)) :
    (∀ ops : List Op, (∀ op ∈ ops, ∀ p ∈ op.registered, p ∈ S) →
        Run.Always Tallied.step Tallied.Faithful (Tallied.start fw) ops)
      ↔ Set.InjOn (fun p ↦ counterKey p.1 p.2)
        {p : String × String | p ∈ S ∧ Go.Trimmed p.1 ∧ Go.Trimmed p.2} := by
  constructor
  · intro h p hp q hq hkey
    by_contra hne
    refine not_faithful_secondPair fw hp.2 hq.2 hne hkey
      (h (secondPair p q) ?_ _ (List.prefix_refl _))
    intro op hop r hr
    simp only [secondPair, List.mem_cons, List.not_mem_nil, or_false] at hop
    rcases hop with rfl | rfl | rfl
    · rw [Op.registered, hp.2.1.trimSpace_eq, hp.2.2.trimSpace_eq] at hr
      rw [← Option.mem_some_iff.mp hr]
      exact hp.1
    · exact absurd hr (by simp [Op.registered])
    · rw [Op.registered, hq.2.1.trimSpace_eq, hq.2.2.trimSpace_eq] at hr
      rw [← Option.mem_some_iff.mp hr]
      exact hq.1
  · intro hinj ops hops pre hpre
    have hbooks := (books_start S fw).exec hinj fun op hop ↦ hops op (hpre.subset hop)
    rw [Tallied.faithful_iff hbooks.entry_zero]
    intro task addr hheld
    exact hbooks.counted hheld

/-- The address `c` of the task `a:b` has never been looked up, and is listed with the count of the
address `b:c` of the task `a`. -/
theorem shared_counter :
    let s := Run.exec Tallied.step (Tallied.start none) (secondPair ("a", "b:c") ("a:b", "c"))
    s.served "a:b" "c" = 0
      ∧ s.reg.listServices.slice "a:b"
        = [{ address := "c", lastHeartbeat := 0, queryCount := 1, capacity := 1 }] := by
  decide +kernel

end MemoryRegistry

end TaskDiscovery
