import TaskDiscovery.Registry.Outcomes
import TaskDiscovery.Registry.Rotation

/-!
# A firewall without rules

A firewall that holds no rules lets everything through: `IsAllowed` says so, and so does
`FilterAddresses`, which then returns the addresses as they are. A server that is started with
`--firewall` and no rules runs in this mode, and nothing should be different from a server without a
firewall.

The two places where a registry applies its firewall ask for more. They read the destination out of
the address of an instance before they ask `IsAllowed`, and drop the instance when there is no IP to
be read. A host name or a URL with a host name is therefore refused by an empty rule set. The cache
reads addresses one way and the fallback on the store's entries another, stricter way.

What a lookup does depends on the entries it chooses from only through the one that the cursor picks
(`picked`), so an empty rule set makes no difference to a lookup exactly when dropping the entries
of the queried task that cannot be read leaves the pick as it is (`permissive_iff`). Which entries
these are depends on the path of the lookup. When they can all be read, nothing is dropped
(`indifferent_of_readable`).
-/

namespace TaskDiscovery

open Go (IP)

/-- The firewall of the permissive mode. -/
def unruled : Firewall := ⟨[]⟩

/-! ## What a cursor picks -/

/-- The address that a cursor picks from some entries, if they carry any weight. -/
def picked (entries : List ServiceEntry) (cursor : Int64) : Option String :=
  if 0 < totalServiceWeight entries then
    selectWeightedAddress entries (cursor % totalServiceWeight entries)
  else none

theorem picked_eq_none_iff {entries : List ServiceEntry} {cursor : Int64} :
    picked entries cursor = none ↔ totalServiceWeight entries ≤ 0 := by
  rw [picked]
  split_ifs with hpos
  · exact iff_of_false (selectWeightedAddress_ne_none hpos cursor) (Int64.not_le.mpr hpos)
  · exact iff_of_true rfl (Int64.not_lt.mp hpos)

@[simp] theorem picked_nil (cursor : Int64) : picked [] cursor = none := by
  rw [picked_eq_none_iff]
  decide

theorem picked_mem {entries : List ServiceEntry} {cursor : Int64} {addr : String}
    (h : picked entries cursor = some addr) : addr ∈ entries.map ServiceEntry.address := by
  rw [picked] at h
  split_ifs at h
  obtain ⟨e, he, rfl⟩ := selectWeightedAddress_mem h
  exact List.mem_map_of_mem he

/-- A pick depends on the addresses and the weights. -/
theorem picked_map {f : ServiceEntry → ServiceEntry} (haddr : ∀ e, (f e).address = e.address)
    (hweight : ∀ e, serviceWeight (f e) = serviceWeight e) (entries : List ServiceEntry)
    (cursor : Int64) : picked (entries.map f) cursor = picked entries cursor := by
  have htotal : totalServiceWeight (entries.map f) = totalServiceWeight entries :=
    totalServiceWeight_congr (by simp [hweight])
  have hselect : ∀ running slot, selectWeightedFrom running (entries.map f) slot
      = selectWeightedFrom running entries slot := by
    induction entries with
    | nil => intros; rfl
    | cons e entries ih =>
      intro running slot
      rw [List.map_cons, selectWeightedFrom, selectWeightedFrom, haddr, hweight,
        ih (totalServiceWeight_congr (by simp [hweight]))]
  rw [picked, picked, htotal, selectWeightedAddress, hselect, selectWeightedAddress]

/-- The entries with a destination that can be read. -/
def readable (dest : String → Option IP) (entries : List ServiceEntry) : List ServiceEntry :=
  entries.filter fun e ↦ (dest e.address).isSome

theorem readable_of_forall {dest : String → Option IP} {entries : List ServiceEntry}
    (h : ∀ addr ∈ entries.map ServiceEntry.address, (dest addr).isSome) :
    readable dest entries = entries :=
  List.filter_eq_self.mpr fun e he ↦ h e.address (List.mem_map_of_mem he)

/-- Dropping the entries that cannot be read leaves something to choose from, if there was
something, and the cursor picks the same. -/
def ChoosesAlike (dest : String → Option IP) (entries : List ServiceEntry) (cursor : Int64) :
    Prop :=
  entries = [] ∨ readable dest entries ≠ []
    ∧ picked (readable dest entries) cursor = picked entries cursor

theorem choosesAlike_of_readable {dest : String → Option IP} {entries : List ServiceEntry}
    (h : ∀ addr ∈ entries.map ServiceEntry.address, (dest addr).isSome) (cursor : Int64) :
    ChoosesAlike dest entries cursor := by
  rw [ChoosesAlike, readable_of_forall h]
  exact (em (entries = [])).imp_right fun hne ↦ ⟨hne, rfl⟩

namespace MemoryRegistry

@[simp] theorem setFirewall_setFirewall (reg : MemoryRegistry) (fw fw' : Option Firewall) :
    (reg.setFirewall fw).setFirewall fw' = reg.setFirewall fw' := rfl

theorem permits_none (dest : String → Option IP) (requestorIP : Option IP) (addr : String) :
    permits dest none requestorIP addr = true := rfl

theorem permits_unknown (dest : String → Option IP) (fw : Option Firewall) (addr : String) :
    permits dest fw none addr = true := by
  cases fw <;> rfl

theorem permits_unruled (dest : String → Option IP) (src : IP) (addr : String) :
    permits dest (some unruled) (some src) addr = (dest addr).isSome := by
  rw [permits]
  cases dest addr <;> rfl

theorem allowedEntries_unknown (fw : Option Firewall) (entries : List ServiceEntry) :
    allowedEntries fw none entries = entries := by
  simp [allowedEntries, permits_unknown]

theorem allowedEntries_unruled (src : IP) (entries : List ServiceEntry) :
    allowedEntries (some unruled) (some src) entries
      = readable destinationIPFromAddress entries := by
  simp only [allowedEntries, permits_unruled, readable]

/-! ## The in-memory registry -/

/-- The registry after a lookup has picked an address. -/
def took (reg : MemoryRegistry) (task addr : String) : MemoryRegistry :=
  { reg with
    roundRobinIndex := reg.roundRobinIndex.store task (reg.cursor task + 1) }.countQuery task addr

theorem getServiceForRequestor_eq_picked (reg : MemoryRegistry) (fw : Option Firewall)
    {task : String} (hblank : Go.trimSpace task ≠ "") (requestorIP : Option IP) :
    (reg.setFirewall fw).getServiceForRequestor task requestorIP
      = match picked (allowedEntries fw requestorIP (reg.services.slice (Go.trimSpace task)))
            (reg.cursor (Go.trimSpace task)) with
        | some addr => ((reg.took (Go.trimSpace task) addr).setFirewall fw, .ok addr)
        | none => (reg.setFirewall fw, .error <|
            if reg.services.slice (Go.trimSpace task) ≠ []
                ∧ allowedEntries fw requestorIP (reg.services.slice (Go.trimSpace task)) = [] then
              .noAllowedService
            else .notFound) := by
  simp only [getServiceForRequestor, if_neg hblank]
  generalize Go.trimSpace task = name
  have hcand : (reg.setFirewall fw).candidates name requestorIP
      = if reg.services.slice name = [] then .error .notFound
        else if allowedEntries fw requestorIP (reg.services.slice name) = [] then
          .error .noAllowedService
        else if totalServiceWeight (allowedEntries fw requestorIP (reg.services.slice name)) ≤ 0
          then .error .notFound
        else .ok (allowedEntries fw requestorIP (reg.services.slice name)) := rfl
  rw [hcand]
  by_cases hnil : reg.services.slice name = []
  · rw [if_pos hnil, hnil]
    rfl
  rw [if_neg hnil]
  by_cases hall : allowedEntries fw requestorIP (reg.services.slice name) = []
  · rw [if_pos hall, hall, picked_nil, if_pos ⟨hnil, rfl⟩]
  rw [if_neg hall]
  by_cases hweight : totalServiceWeight
      (allowedEntries fw requestorIP (reg.services.slice name)) ≤ 0
  · rw [if_pos hweight, picked_eq_none_iff.mpr hweight]
    simp only [if_neg fun h ↦ hall (And.right h)]
  · rw [if_neg hweight]
    obtain ⟨addr, hpick⟩ := Option.ne_none_iff_exists'.mp (mt picked_eq_none_iff.mp hweight)
    have hselect : selectWeightedAddress (allowedEntries fw requestorIP (reg.services.slice name))
        (reg.cursor name
          % totalServiceWeight (allowedEntries fw requestorIP (reg.services.slice name)))
        = some addr := by
      rwa [picked, if_pos (Int64.not_le.mp hweight)] at hpick
    have hadvance : (reg.setFirewall fw).advanceCursor name
        (allowedEntries fw requestorIP (reg.services.slice name))
        = ({ reg.setFirewall fw with
              roundRobinIndex := reg.roundRobinIndex.store name (reg.cursor name + 1) },
          some addr) := Prod.ext rfl hselect
    rw [hpick]
    dsimp only
    rw [hadvance]
    rfl

/-- A lookup returns the same, and leaves the same, with an empty rule set as without a
firewall. -/
def Indifferent (reg : MemoryRegistry) (task : String) (requestorIP : Option IP) : Prop :=
  (reg.setFirewall (some unruled)).getServiceForRequestor task requestorIP
    = (((reg.setFirewall none).getServiceForRequestor task requestorIP).1.setFirewall
        (some unruled),
      ((reg.setFirewall none).getServiceForRequestor task requestorIP).2)

variable {reg : MemoryRegistry} {task : String}

theorem indifferent_of_blank (hblank : Go.trimSpace task = "") (requestorIP : Option IP) :
    reg.Indifferent task requestorIP := by
  simp only [Indifferent, getServiceForRequestor, if_pos hblank]
  rfl

theorem indifferent_of_unknown : reg.Indifferent task none := by
  by_cases hblank : Go.trimSpace task = ""
  · exact indifferent_of_blank hblank none
  rw [Indifferent, getServiceForRequestor_eq_picked reg _ hblank,
    getServiceForRequestor_eq_picked reg _ hblank, allowedEntries_unknown, allowedEntries_unknown]
  rcases picked (reg.services.slice (Go.trimSpace task)) (reg.cursor (Go.trimSpace task))
    with _ | addr
  · rfl
  · rfl

theorem indifferent_iff (reg : MemoryRegistry) (hblank : Go.trimSpace task ≠ "") (src : IP) :
    reg.Indifferent task (some src)
      ↔ ChoosesAlike destinationIPFromAddress (reg.services.slice (Go.trimSpace task))
        (reg.cursor (Go.trimSpace task)) := by
  rw [Indifferent, getServiceForRequestor_eq_picked reg _ hblank,
    getServiceForRequestor_eq_picked reg _ hblank, allowedEntries_unruled, allowedEntries_none,
    ChoosesAlike]
  generalize reg.services.slice (Go.trimSpace task) = entries
  rcases hread : picked (readable destinationIPFromAddress entries)
    (reg.cursor (Go.trimSpace task)) with _ | addr
  · rcases hpick : picked entries (reg.cursor (Go.trimSpace task)) with _ | addr'
    · -- nothing is picked: the two errors are the same unless all entries have been dropped
      by_cases hnil : entries = []
      · simp [hnil]
      · by_cases hdropped : readable destinationIPFromAddress entries = []
        · simp [hnil, hdropped]
        · simp [hnil, hdropped]
    · have hne : entries ≠ [] := by
        rintro rfl
        rw [picked_nil] at hpick
        cases hpick
      simp [hne]
  · have hne : readable destinationIPFromAddress entries ≠ [] := by
      intro hnil
      rw [hnil, picked_nil] at hread
      cases hread
    have hne' : entries ≠ [] := by
      rintro rfl
      exact hne rfl
    rcases hpick : picked entries (reg.cursor (Go.trimSpace task)) with _ | addr'
    · simp [hne']
    · simp only [hne', hne, false_or, ne_eq, not_false_eq_true, true_and, Option.some.injEq]
      constructor
      · intro heq
        exact Except.ok.inj (congrArg Prod.snd heq)
      · rintro rfl
        rfl

end MemoryRegistry

/-! ## The store-backed registry -/

theorem setFirewall_populateAll (cache : MemoryRegistry) (fw : Option Firewall)
    (l : List (String × ServiceEntry)) :
    populateAll (cache.setFirewall fw) l = (populateAll cache l).setFirewall fw := by
  induction l generalizing cache with
  | nil => rfl
  | cons p l ih =>
    rw [populateAll_cons, populateAll_cons, ← ih]
    rfl

namespace StoreBackedRegistry

open MemoryRegistry (permits permits_none permits_unknown permits_unruled allowedEntries
  allowedEntries_none allowedEntries_unknown allowedEntries_unruled)

/-- A lookup returns the same, and leaves the same, with an empty rule set as without a
firewall. -/
def Indifferent (sr : StoreBackedRegistry) (task : String) (requestorIP : Option IP) : Prop :=
  (sr.setFirewall (some unruled)).getServiceForRequestor task requestorIP
    = (((sr.setFirewall none).getServiceForRequestor task requestorIP).1.setFirewall
        (some unruled),
      ((sr.setFirewall none).getServiceForRequestor task requestorIP).2)

variable {sr : StoreBackedRegistry} {task : String} {requestorIP : Option IP}

@[simp] theorem setFirewall_setFirewall (sr : StoreBackedRegistry) (fw fw' : Option Firewall) :
    (sr.setFirewall fw).setFirewall fw' = sr.setFirewall fw' := rfl

theorem getServiceForRequestor_eq_picked (sr : StoreBackedRegistry) (fw : Option Firewall)
    (hblank : Go.trimSpace task ≠ "") (requestorIP : Option IP) :
    (sr.setFirewall fw).getServiceForRequestor task requestorIP
      = match picked (allowedEntries fw requestorIP
            (sr.memCache.services.slice (Go.trimSpace task)))
            (sr.memCache.cursor (Go.trimSpace task)) with
        | some addr =>
          ({ sr with memCache := sr.memCache.took (Go.trimSpace task) addr }.setFirewall fw,
            .ok addr)
        | none => (sr.setFirewall fw).missService (Go.trimSpace task) requestorIP := by
  have hlookup := sr.memCache.getServiceForRequestor_eq_picked fw
    (by rwa [Go.trimSpace_idem] : Go.trimSpace (Go.trimSpace task) ≠ "") requestorIP
  rw [Go.trimSpace_idem] at hlookup
  have hcache : (sr.setFirewall fw).memCache = sr.memCache.setFirewall fw := rfl
  rw [getServiceForRequestor, if_neg hblank, hcache, hlookup]
  rcases picked (allowedEntries fw requestorIP (sr.memCache.services.slice (Go.trimSpace task)))
    (sr.memCache.cursor (Go.trimSpace task)) with _ | addr
  · rfl
  · rfl

theorem selectFallback_eq_picked (fw : Option Firewall) (cursors : SyncMap String Int64)
    (task : String) (entries : List ServiceEntry) (requestorIP : Option IP) :
    selectFallback fw cursors task entries requestorIP
      = match picked (entries.filter fun e ↦ permits storeDestinationIP fw requestorIP e.address)
            ((cursors task).getD 0) with
        | some addr => (cursors.store task ((cursors task).getD 0 + 1), .ok addr)
        | none => (cursors, .error <|
            if (entries.filter fun e ↦ permits storeDestinationIP fw requestorIP e.address) = []
                ∧ fw.isSome ∧ requestorIP.isSome then
              .noAllowedService
            else .notFound) := by
  have hpicked : ∀ cursor, picked (storeCandidates fw requestorIP entries) cursor
      = picked (entries.filter fun e ↦ permits storeDestinationIP fw requestorIP e.address)
        cursor :=
    picked_map (f := fun e ↦ { address := e.address, lastHeartbeat := 0, capacity := e.capacity })
      (fun _ ↦ rfl) (fun _ ↦ rfl) _
  have hnil_iff : storeCandidates fw requestorIP entries = []
      ↔ (entries.filter fun e ↦ permits storeDestinationIP fw requestorIP e.address) = [] :=
    List.map_eq_nil_iff
  rw [← hpicked]
  simp only [selectFallback, ← hnil_iff]
  by_cases hnil : storeCandidates fw requestorIP entries = []
  · rw [if_pos hnil, hnil, picked_nil]
    by_cases hclosed : fw.isSome = true ∧ requestorIP.isSome = true
    · rw [if_pos hclosed, if_pos ⟨rfl, hclosed⟩]
    · rw [if_neg hclosed, if_neg fun h ↦ hclosed h.2]
  rw [if_neg hnil]
  by_cases hweight : totalServiceWeight (storeCandidates fw requestorIP entries) ≤ 0
  · rw [if_pos hweight, picked_eq_none_iff.mpr hweight]
    simp only [hnil, false_and, if_false]
  · rw [if_neg hweight, picked, if_pos (Int64.not_le.mp hweight)]
    obtain ⟨addr, hselect⟩ := Option.ne_none_iff_exists'.mp
      (selectWeightedAddress_ne_none (Int64.not_le.mp hweight) ((cursors task).getD 0))
    rw [hselect]

/-- The registry after the fallback has picked an address. -/
def tookFromStore (sr : StoreBackedRegistry) (task addr : String) : StoreBackedRegistry :=
  { sr with
    store := (sr.store.incrementQueryCount task addr).1
    fallbackCursor := sr.fallbackCursor.store task (sr.storeCursor task + 1) }

theorem serveFromStore_eq_picked (sr : StoreBackedRegistry) (fw : Option Firewall)
    (task : String) (entries : List ServiceEntry) (requestorIP : Option IP) :
    (sr.setFirewall fw).serveFromStore task entries requestorIP
      = match picked (entries.filter fun e ↦ permits storeDestinationIP fw requestorIP e.address)
            (sr.storeCursor task) with
        | some addr => ((sr.tookFromStore task addr).setFirewall fw,
            (sr.store.incrementQueryCount task addr).2.map fun _ ↦ addr)
        | none => (sr.setFirewall fw, .error <|
            if (entries.filter fun e ↦ permits storeDestinationIP fw requestorIP e.address) = []
                ∧ fw.isSome ∧ requestorIP.isSome then
              .noAllowedService
            else .notFound) := by
  have hselect := selectFallback_eq_picked fw sr.fallbackCursor task entries requestorIP
  rw [← storeCursor] at hselect
  have hfw : (sr.setFirewall fw).memCache.firewall = fw := rfl
  have hcursor : (sr.setFirewall fw).fallbackCursor = sr.fallbackCursor := rfl
  have hstore : (sr.setFirewall fw).store = sr.store := rfl
  simp only [serveFromStore, selectFromStoreEntries, hfw, hcursor, hselect]
  rcases picked (entries.filter fun e ↦ permits storeDestinationIP fw requestorIP e.address)
    (sr.storeCursor task) with _ | addr
  · rfl
  · dsimp only
    rw [hstore]
    rcases hcount : sr.store.incrementQueryCount task addr with ⟨store, err | ⟨⟩⟩
    · simp [tookFromStore, hcount, setFirewall, Except.map]
    · simp [tookFromStore, hcount, setFirewall, Except.map]

theorem calls_incrementQueryCount (ps : PostgresStore) (task addr : String) :
    (ps.incrementQueryCount task addr).1.calls = ps.calls + 1 := by
  simp only [PostgresStore.incrementQueryCount, PostgresStore.exec]
  rcases ps.outage ps.calls with _ | o
  · rcases (ps.table.incrementQueryCount task addr).2 with _ | n
    · rfl
    · rfl
  · rfl

theorem lt_calls_missService (sr : StoreBackedRegistry) (task : String)
    (requestorIP : Option IP) :
    sr.store.calls < (sr.missService task requestorIP).1.store.calls := by
  rcases hlist : sr.store.outage sr.store.calls with _ | o
  swap
  · rw [missService_of_outage hlist]
    simp [PostgresStore.listTaskServices, PostgresStore.exec, hlist]
  rw [missService_of_listed hlist]
  split_ifs
  · exact Nat.lt_succ_self _
  · exact Nat.lt_succ_self _
  · have hfw : (sr.missed task).setFirewall (sr.missed task).memCache.firewall = sr.missed task :=
      rfl
    have hcalls : (sr.missed task).store.calls = sr.store.calls + 1 := rfl
    rw [← hfw, serveFromStore_eq_picked]
    rcases picked ((sr.storeEntries task).filter fun e ↦ permits storeDestinationIP
      (sr.missed task).memCache.firewall requestorIP e.address)
      ((sr.missed task).storeCursor task) with _ | addr
    · exact Nat.lt_succ_self _
    · have hcount := calls_incrementQueryCount (sr.missed task).store task addr
      change sr.store.calls < ((sr.missed task).store.incrementQueryCount task addr).1.calls
      omega

/-! ### After a miss -/

/-- Two addresses of active rows are counted alike only if they are the same, or if the call fails
without an effect. -/
theorem count_alike_iff {ps : PostgresStore} {a b : String} (ha : ps.table.Active task a)
    (hb : ps.table.Active task b) :
    ((ps.incrementQueryCount task a).1 = (ps.incrementQueryCount task b).1
        ∧ ((ps.incrementQueryCount task a).2.map fun _ ↦ a)
          = (ps.incrementQueryCount task b).2.map fun _ ↦ b)
      ↔ a = b ∨ ∃ o, ps.outage ps.calls = some o ∧ o.applied = false := by
  have hresult := fun addr (h : ps.table.Active task addr) ↦ incrementQueryCount_of_active h
  rcases hout : ps.outage ps.calls with _ | o
  · rw [hresult a ha, hresult b hb, hout]
    refine ⟨fun h ↦ .inl (Except.ok.inj h.2), ?_⟩
    rintro (rfl | ⟨o, ho, -⟩)
    · exact ⟨rfl, rfl⟩
    · cases ho
  · rw [hresult a ha, hresult b hb, hout]
    have hstore : ∀ addr, (ps.incrementQueryCount task addr).1
        = { ps with
            table := if o.applied then (ps.table.incrementQueryCount task addr).1 else ps.table
            calls := ps.calls + 1 } := by
      intro addr
      simp only [PostgresStore.incrementQueryCount, PostgresStore.exec, hout]
    rw [hstore, hstore]
    cases happlied : o.applied with
    | false => simp [Except.map, happlied]
    | true =>
      simp only [if_true, Except.map, and_true, PostgresStore.mk.injEq,
        Option.some.injEq, exists_eq_left', happlied, Bool.true_eq_false, or_false]
      refine ⟨fun htable ↦ ?_, fun heq ↦ by rw [heq]⟩
      by_contra hne
      have hcount := congrArg (fun t ↦ t.queryCount task a) htable
      simp only [Table.queryCount_incrementQueryCount ha,
        Table.queryCount_incrementQueryCount hb, true_and, if_true, if_neg hne] at hcount
      omega

theorem count_ne_error {ps : PostgresStore} {addr : String} (hact : ps.table.Active task addr)
    {err : RegistryError} (herr : ∀ text, err ≠ .store text) :
    ((ps.incrementQueryCount task addr).2.map fun _ ↦ addr) ≠ .error err := by
  rw [incrementQueryCount_of_active hact]
  rcases ps.outage ps.calls with _ | o
  · simp [Except.map]
  · simpa [Except.map] using (herr o.text).symm

/-- The fallback picks the same without the entries that cannot be read, or picks something in both
cases and then fails to count the query. -/
def ServesAlike (sr : StoreBackedRegistry) (task : String) : Prop :=
  ChoosesAlike storeDestinationIP (sr.storeEntries task) (sr.storeCursor task)
    ∨ (picked (readable storeDestinationIP (sr.storeEntries task))
          (sr.storeCursor task)).isSome
        ∧ (picked (sr.storeEntries task) (sr.storeCursor task)).isSome
        ∧ ∃ o, sr.store.outage (sr.store.calls + 1) = some o ∧ o.applied = false

/-- What follows a miss is the same with an empty rule set as without a firewall: the listing fails
or is empty, or the choice that comes then is the same. -/
def MissesAlike (sr : StoreBackedRegistry) (task : String) : Prop :=
  sr.store.outage sr.store.calls ≠ none ∨ sr.storeEntries task = []
    ∨ (sr.admits task = true ∧ ChoosesAlike destinationIPFromAddress
        ((sr.hydrated task).services.slice task) ((sr.hydrated task).cursor task))
    ∨ (sr.admits task = false ∧ sr.ServesAlike task)

/-- The cache picks the same, and if it picks nothing, what follows is the same. -/
def LooksUpAlike (sr : StoreBackedRegistry) (task : String) : Prop :=
  picked (readable destinationIPFromAddress (sr.memCache.services.slice task))
      (sr.memCache.cursor task)
    = picked (sr.memCache.services.slice task) (sr.memCache.cursor task)
  ∧ (picked (sr.memCache.services.slice task) (sr.memCache.cursor task) = none →
    sr.MissesAlike task)

theorem admitTask_indifferent_iff (ht : Go.Trimmed task) (entries : List ServiceEntry) (src : IP) :
    (sr.setFirewall (some unruled)).admitTask task entries (some src)
        = (((sr.setFirewall none).admitTask task entries (some src)).1.setFirewall (some unruled),
          ((sr.setFirewall none).admitTask task entries (some src)).2)
      ↔ ChoosesAlike destinationIPFromAddress
        ((populateAll sr.memCache (entries.map fun e ↦ (task, e))).services.slice task)
        ((populateAll sr.memCache (entries.map fun e ↦ (task, e))).cursor task) := by
  have hblank : Go.trimSpace task ≠ "" := by
    rw [ht.trimSpace_eq]
    exact ht.ne_empty
  have hiff := (populateAll sr.memCache (entries.map fun e ↦ (task, e))).indifferent_iff hblank src
  rw [ht.trimSpace_eq] at hiff
  rw [← hiff, MemoryRegistry.Indifferent, ← setFirewall_populateAll, ← setFirewall_populateAll]
  simp only [admitTask, setFirewall]
  rw [Prod.mk.injEq, StoreBackedRegistry.mk.injEq, Prod.ext_iff]
  simp

theorem serveFromStore_indifferent_iff (hne : sr.storeEntries task ≠ []) (src : IP) :
    ((sr.missed task).setFirewall (some unruled)).serveFromStore task (sr.storeEntries task)
          (some src)
        = ((((sr.missed task).setFirewall none).serveFromStore task (sr.storeEntries task)
            (some src)).1.setFirewall (some unruled),
          (((sr.missed task).setFirewall none).serveFromStore task (sr.storeEntries task)
            (some src)).2)
      ↔ sr.ServesAlike task := by
  have hactive : ∀ addr ∈ (sr.storeEntries task).map ServiceEntry.address,
      (sr.missed task).store.table.Active task addr :=
    fun addr haddr ↦ Table.mem_map_listTaskServices.mp haddr
  have hcursor : (sr.missed task).storeCursor task = sr.storeCursor task := rfl
  have hopen : ((sr.storeEntries task).filter fun e ↦
      permits storeDestinationIP none (some src) e.address) = sr.storeEntries task := by
    simp [permits_none]
  have hruled : ((sr.storeEntries task).filter fun e ↦
      permits storeDestinationIP (some unruled) (some src) e.address)
      = readable storeDestinationIP (sr.storeEntries task) := by
    simp only [permits_unruled, readable]
  rw [serveFromStore_eq_picked, serveFromStore_eq_picked, hopen, hruled, hcursor, ServesAlike,
    ChoosesAlike]
  rcases hread : picked (readable storeDestinationIP (sr.storeEntries task))
    (sr.storeCursor task) with _ | a
  · rcases hpick : picked (sr.storeEntries task) (sr.storeCursor task) with _ | b
    · by_cases hdropped : readable storeDestinationIP (sr.storeEntries task) = []
      · simp [hne, hdropped]
      · simp [hne, hdropped]
    · -- what is picked without a firewall is returned, or else the store's error
      refine iff_of_false (fun h ↦ ?_) (by simp [hne])
      exact count_ne_error (hactive b (picked_mem hpick)) (fun _ ↦ by split_ifs <;> simp)
        (congrArg Prod.snd h).symm
  · have hkept : readable storeDestinationIP (sr.storeEntries task) ≠ [] := by
      intro hnil
      rw [hnil, picked_nil] at hread
      cases hread
    have ha : (sr.missed task).store.table.Active task a := by
      obtain ⟨e, he, rfl⟩ := List.mem_map.mp (picked_mem hread)
      exact hactive _ (List.mem_map_of_mem (List.mem_of_mem_filter he))
    rcases hpick : picked (sr.storeEntries task) (sr.storeCursor task) with _ | b
    · refine iff_of_false (fun h ↦ ?_) (by simp [hne])
      exact count_ne_error ha (fun _ ↦ by split_ifs <;> simp) (congrArg Prod.snd h)
    · -- different picks can only go unnoticed if the count of both fails
      have hb := hactive b (picked_mem hpick)
      have halike := count_alike_iff ha hb
      have hcalls : (sr.missed task).store.outage (sr.missed task).store.calls
          = sr.store.outage (sr.store.calls + 1) := rfl
      rw [hcalls] at halike
      simp only [hne, false_or, hkept, ne_eq, not_false_eq_true, true_and, Option.some.injEq,
        Option.isSome_some]
      rw [← halike]
      constructor
      · intro h
        exact ⟨congrArg (fun p ↦ p.1.store) h, congrArg Prod.snd h⟩
      · rintro ⟨hstore, hresult⟩
        rw [hresult, tookFromStore, tookFromStore, hstore]
        rfl

theorem missService_setFirewall (hout : sr.store.outage sr.store.calls = none)
    (fw : Option Firewall) (requestorIP : Option IP) :
    (sr.setFirewall fw).missService task requestorIP
      = if sr.storeEntries task = [] then (sr.listed.setFirewall fw, .error .notFound)
        else if sr.admits task then
          ((sr.missed task).setFirewall fw).admitTask task (sr.storeEntries task) requestorIP
        else
          ((sr.missed task).setFirewall fw).serveFromStore task (sr.storeEntries task)
            requestorIP := by
  have hout' : (sr.setFirewall fw).store.outage (sr.setFirewall fw).store.calls = none := hout
  rw [missService_of_listed hout']
  rfl

theorem missService_indifferent_iff (sr : StoreBackedRegistry) (ht : Go.Trimmed task) (src : IP) :
    (sr.setFirewall (some unruled)).missService task (some src)
        = (((sr.setFirewall none).missService task (some src)).1.setFirewall (some unruled),
          ((sr.setFirewall none).missService task (some src)).2)
      ↔ sr.MissesAlike task := by
  rcases hout : sr.store.outage sr.store.calls with _ | o
  swap
  · have hout' : ∀ fw, (sr.setFirewall fw).store.outage (sr.setFirewall fw).store.calls = some o :=
      fun _ ↦ hout
    rw [missService_of_outage (hout' _), missService_of_outage (hout' _)]
    exact iff_of_true rfl (.inl (by rw [hout]; simp))
  rw [missService_setFirewall hout, missService_setFirewall hout, MissesAlike, hout]
  by_cases hnil : sr.storeEntries task = []
  · rw [if_pos hnil, if_pos hnil]
    exact iff_of_true rfl (.inr (.inl hnil))
  rw [if_neg hnil, if_neg hnil]
  cases hadmits : sr.admits task with
  | true =>
    rw [if_pos rfl, if_pos rfl, admitTask_indifferent_iff ht]
    simp only [ne_eq, not_true_eq_false, hnil, true_and, Bool.true_eq_false, false_and, or_false,
      false_or]
    rfl
  | false =>
    rw [if_neg Bool.false_ne_true, if_neg Bool.false_ne_true, serveFromStore_indifferent_iff hnil]
    simp [hnil]

theorem indifferent_of_blank (hblank : Go.trimSpace task = "") (requestorIP : Option IP) :
    sr.Indifferent task requestorIP := by
  simp only [Indifferent, getServiceForRequestor, if_pos hblank]
  rfl

/-- Without a known requestor no path of a lookup asks the firewall. -/
theorem indifferent_of_unknown : sr.Indifferent task none := by
  by_cases hblank : Go.trimSpace task = ""
  · exact indifferent_of_blank hblank none
  rw [Indifferent, getServiceForRequestor_eq_picked sr _ hblank,
    getServiceForRequestor_eq_picked sr _ hblank, allowedEntries_unknown, allowedEntries_unknown]
  generalize Go.trimSpace task = name
  rcases picked (sr.memCache.services.slice name) (sr.memCache.cursor name) with _ | addr
  swap
  · rfl
  rcases hout : sr.store.outage sr.store.calls with _ | o
  swap
  · have hout' : ∀ fw, (sr.setFirewall fw).store.outage (sr.setFirewall fw).store.calls = some o :=
      fun _ ↦ hout
    simp only [missService_of_outage (hout' _)]
    rfl
  simp only [missService_setFirewall hout]
  split_ifs
  · rfl
  · have hlookup : MemoryRegistry.Indifferent
        (populateAll sr.memCache ((sr.storeEntries name).map fun e ↦ (name, e))) name none :=
      MemoryRegistry.indifferent_of_unknown
    rw [MemoryRegistry.Indifferent, ← setFirewall_populateAll, ← setFirewall_populateAll] at hlookup
    have hmissed : (sr.missed name).memCache = sr.memCache := rfl
    simp only [admitTask, setFirewall, hmissed, hlookup]
  · simp only [serveFromStore_eq_picked, permits_unknown]
    rcases picked ((sr.storeEntries name).filter fun _ ↦ true)
      ((sr.missed name).storeCursor name) with _ | addr
    · simp
    · rfl

theorem indifferent_iff (hblank : Go.trimSpace task ≠ "") (src : IP) :
    sr.Indifferent task (some src) ↔ sr.LooksUpAlike (Go.trimSpace task) := by
  have hmiss := sr.missService_indifferent_iff (Go.trimmed_trimSpace hblank) src
  rw [Indifferent, getServiceForRequestor_eq_picked sr _ hblank,
    getServiceForRequestor_eq_picked sr _ hblank, allowedEntries_unruled, allowedEntries_none,
    LooksUpAlike]
  generalize Go.trimSpace task = name at hmiss
  rcases picked (readable destinationIPFromAddress (sr.memCache.services.slice name))
    (sr.memCache.cursor name) with _ | a
  · rcases picked (sr.memCache.services.slice name) (sr.memCache.cursor name) with _ | b
    · simpa using hmiss
    · -- a hit makes no call, and a miss does
      refine iff_of_false (fun h ↦ ?_) (by simp)
      have hcalls := lt_calls_missService (sr.setFirewall (some unruled)) name (some src)
      have hstore := congrArg (fun p ↦ p.1.store.calls) h
      dsimp only at hstore
      rw [hstore] at hcalls
      exact lt_irrefl _ hcalls
  · rcases picked (sr.memCache.services.slice name) (sr.memCache.cursor name) with _ | b
    · refine iff_of_false (fun h ↦ ?_) (by simp)
      have hcalls := lt_calls_missService (sr.setFirewall none) name (some src)
      have hstore : sr.store.calls
          = ((sr.setFirewall none).missService name (some src)).1.store.calls :=
        congrArg (fun p ↦ p.1.store.calls) h
      rw [← hstore] at hcalls
      exact lt_irrefl _ hcalls
    · simp only [Option.some.injEq, reduceCtorEq, false_implies, and_true]
      constructor
      · intro h
        exact Except.ok.inj (congrArg Prod.snd h)
      · rintro rfl
        rfl

/-- Where every address of the task can be read, a firewall without rules is as good as none. -/
theorem indifferent_of_readable
    (hcached : ∀ addr, sr.memCache.Holds (Go.trimSpace task) addr →
      (destinationIPFromAddress addr).isSome)
    (hactive : ∀ addr, sr.store.table.Active (Go.trimSpace task) addr →
      (storeDestinationIP addr).isSome)
    (requestorIP : Option IP) : sr.Indifferent task requestorIP := by
  by_cases hblank : Go.trimSpace task = ""
  · exact indifferent_of_blank hblank requestorIP
  rcases requestorIP with _ | src
  · exact indifferent_of_unknown
  rw [indifferent_iff hblank]
  generalize Go.trimSpace task = name at hcached hactive
  refine ⟨by rw [readable_of_forall hcached], fun _ ↦ .inr ?_⟩
  refine (em (sr.storeEntries name = [])).imp_right fun _ ↦ ?_
  cases hadmits : sr.admits name with
  | true =>
    refine .inl ⟨rfl, choosesAlike_of_readable (fun addr hheld ↦ ?_) _⟩
    rcases holds_hydrated_iff.mp hheld with hheld | hact
    · exact hcached addr hheld
    · obtain ⟨d, hd⟩ := Option.isSome_iff_exists.mp (hactive addr hact)
      rw [destinationIPFromAddress_of_store hd]
      rfl
  | false =>
    refine .inr ⟨rfl, .inl (choosesAlike_of_readable (fun addr hlisted ↦ ?_) _)⟩
    exact hactive addr (Table.mem_map_listTaskServices.mp hlisted)

/-- A registry that has just started, over a store that holds one instance. -/
def storedOnly (address : String) : StoreBackedRegistry :=
  start ⟨Table.register ∅ "scan" { address := address, lastHeartbeat := 0, capacity := 1 },
    .codePoint, fun _ ↦ none, 0⟩ 0 0 3 none

end StoreBackedRegistry

/-! ## When an empty rule set is permissive -/

/-- **When an empty rule set is permissive.** A lookup is indifferent if and only if the requestor
is not known, or the task is blank, or dropping the entries of the task that cannot be read leaves
the choices on the path of the lookup as they are. The in-memory registry chooses once. The
store-backed registry chooses from its cache and, if nothing is picked there and the store lists any
rows, once more: from the hydrated cache if the task is admitted, and otherwise from the rows, which
are read in the stricter way of `selectFromStoreEntries`. -/
theorem permissive_iff (reg : MemoryRegistry) (sr : StoreBackedRegistry) (task : String)
    (requestorIP : Option IP) :
    (reg.Indifferent task requestorIP
      ↔ requestorIP = none ∨ Go.trimSpace task = ""
        ∨ ChoosesAlike destinationIPFromAddress (reg.services.slice (Go.trimSpace task))
          (reg.cursor (Go.trimSpace task)))
    ∧ (sr.Indifferent task requestorIP
      ↔ requestorIP = none ∨ Go.trimSpace task = "" ∨ sr.LooksUpAlike (Go.trimSpace task)) := by
  rcases requestorIP with _ | src
  · exact ⟨iff_of_true MemoryRegistry.indifferent_of_unknown (.inl rfl),
      iff_of_true StoreBackedRegistry.indifferent_of_unknown (.inl rfl)⟩
  by_cases hblank : Go.trimSpace task = ""
  · exact ⟨iff_of_true (MemoryRegistry.indifferent_of_blank hblank _) (.inr (.inl hblank)),
      iff_of_true (StoreBackedRegistry.indifferent_of_blank hblank _) (.inr (.inl hblank))⟩
  · rw [reg.indifferent_iff hblank, StoreBackedRegistry.indifferent_iff hblank]
    simp [hblank]

/-- A service under a host name is served without a firewall and refused by one without rules, and
one under a URL is refused by the fallback of the store-backed registry. -/
theorem hostName_refused :
    let reg := MemoryRegistry.new.registerWithCapacity 0 "scan" "scanner.local:80" 1
    let sr := StoreBackedRegistry.storedOnly "http://10.0.0.1:80"
    ((reg.setFirewall none).getServiceForRequestor "scan" (some [10, 9, 0, 1])).2
        = .ok "scanner.local:80"
      ∧ ((reg.setFirewall (some unruled)).getServiceForRequestor "scan" (some [10, 9, 0, 1])).2
        = .error .noAllowedService
      ∧ ((sr.setFirewall none).getServiceForRequestor "scan" (some [10, 9, 0, 1])).2
        = .ok "http://10.0.0.1:80"
      ∧ ((sr.setFirewall (some unruled)).getServiceForRequestor "scan" (some [10, 9, 0, 1])).2
        = .error .noAllowedService := by
  decide +kernel

end TaskDiscovery
