import TaskDiscovery.Dht.Find

/-!
# Expired registrations

A registration is listed until its heartbeat is `ServiceHeartbeatTimeout` old. Readers check the age
themselves: `activeAddresses` passes over what has expired, for `LookupTask` and for
`GetStorageSnapshot`. `CleanupExpiredRegistrations` checks it a second time, with the comparison
written the other way round, and frees what it drops. A timeout that is not positive means that
nothing expires, in both places.

The two checks agree at every age, and a registration does not get younger while nothing is
registered. So the cleanup cannot be noticed by a reader, then or later (`cleanup_invisible`).
-/

namespace TaskDiscovery

namespace DHT

/-- A map from tasks to registrations, as one turn of a loop over it sees it. -/
abbrev StoragePair := Sigma fun _ : String ↦ List ServiceRegistration

/-- The loop of `CleanupExpiredRegistrations` over the registrations of one task: what is kept, and
how many have been removed so far. -/
def keepFresh (now timeout : Time) (entries : List ServiceRegistration) (removed : ℕ) :
    List ServiceRegistration × ℕ :=
  entries.foldl (fun acc entry ↦
    if now - entry.lastHeartbeat < timeout then (acc.1 ++ [entry], acc.2)
    else (acc.1, acc.2 + 1)) ([], removed)

/-- One turn of the loop of `CleanupExpiredRegistrations` over the tasks. -/
def expireTask (now timeout : Time)
    (acc : (AList fun _ : String ↦ List ServiceRegistration) × ℕ) (p : StoragePair) :
    (AList fun _ : String ↦ List ServiceRegistration) × ℕ :=
  let swept := keepFresh now timeout p.2 acc.2
  (if swept.1 = [] then acc.1.erase p.1 else acc.1.insert p.1 swept.1, swept.2)

variable (dht : DHT)

/-- `CleanupExpiredRegistrations` with the count it returns, for an order of the loop. -/
def cleanupExpiredRegistrationsCounted (ord : RangeOrder StoragePair) (now timeout : Time) :
    DHT × ℕ :=
  if timeout ≤ 0 then (dht, 0)
  else
    let swept := (ord.arrange dht.storage.entries).foldl (expireTask now timeout) (dht.storage, 0)
    ({ dht with storage := swept.1 }, swept.2)

/-- `GetStorageSnapshot`, for an order of the loop. -/
def getStorageSnapshot (cfg : Config) (ord : RangeOrder StoragePair) (now : Time) :
    AList fun _ : String ↦ List String :=
  (ord.arrange dht.storage.entries).foldl (fun snapshot p ↦
    let addrs := activeAddresses p.2 now cfg.serviceHeartbeatTimeout
    if addrs = [] then snapshot else snapshot.insert p.1 addrs) ∅

variable {dht} {now now' timeout : Time} {ord : RangeOrder StoragePair}

/-! ## One task -/

/-- A registration is listed alone. -/
def Listed (now timeout : Time) (entry : ServiceRegistration) : Prop :=
  activeAddresses [entry] now timeout ≠ []

theorem listed_iff {entry : ServiceRegistration} :
    Listed now timeout entry ↔ timeout ≤ 0 ∨ now - entry.lastHeartbeat < timeout := by
  have hcond : (timeout ≤ 0 ∨ now - entry.lastHeartbeat < timeout)
      ↔ ¬(0 < timeout ∧ timeout ≤ now - entry.lastHeartbeat) := by
    rw [not_and_or, not_lt, not_le]
  rw [Listed, activeAddresses, hcond]
  by_cases h : 0 < timeout ∧ timeout ≤ now - entry.lastHeartbeat
  · simp [h.1, h.2]
  · rw [List.filter_cons_of_pos (by simpa [or_iff_not_imp_left] using h)]
    simp only [h, List.filter_nil, List.map_cons, List.map_nil, ne_eq, reduceCtorEq,
      not_false_eq_true]

instance (entry : ServiceRegistration) : Decidable (Listed now timeout entry) :=
  inferInstanceAs (Decidable (_ ≠ _))

/-- The active addresses are those of the registrations that are listed alone. -/
theorem activeAddresses_eq (entries : List ServiceRegistration) (now timeout : Time) :
    activeAddresses entries now timeout
      = (entries.filter fun entry ↦ Listed now timeout entry).map ServiceRegistration.address := by
  rw [activeAddresses]
  congr 1
  apply List.filter_congr
  intro entry _
  rw [Bool.eq_iff_iff, decide_eq_true_eq, listed_iff]
  simp only [Bool.not_eq_true', Bool.and_eq_false_iff, decide_eq_false_iff_not, not_lt, not_le]

theorem Listed.mono {entry : ServiceRegistration} (hle : now ≤ now')
    (h : Listed now' timeout entry) : Listed now timeout entry := by
  rw [listed_iff] at h ⊢
  exact h.imp_right (Int.sub_le_sub_right hle _).trans_lt

/-- Dropping what has expired drops no active address, now or later. -/
theorem activeAddresses_filter (hle : now ≤ now') (entries : List ServiceRegistration) :
    activeAddresses (entries.filter fun entry ↦ Listed now timeout entry) now' timeout
      = activeAddresses entries now' timeout := by
  rw [activeAddresses_eq, activeAddresses_eq, List.filter_filter]
  congr 1
  apply List.filter_congr
  intro entry _
  by_cases h : Listed now' timeout entry
  · simp [h, h.mono hle]
  · simp [h]

/-- The inner loop keeps what is listed and counts the rest. -/
theorem keepFresh_eq (now : Time) (htimeout : 0 < timeout) (entries : List ServiceRegistration)
    (removed : ℕ) :
    (keepFresh now timeout entries removed).1
        = entries.filter (fun entry ↦ Listed now timeout entry)
      ∧ (keepFresh now timeout entries removed).1.length
          + (keepFresh now timeout entries removed).2 = entries.length + removed := by
  have key : ∀ (acc : List ServiceRegistration × ℕ),
      (entries.foldl (fun acc entry ↦ if now - entry.lastHeartbeat < timeout
          then (acc.1 ++ [entry], acc.2) else (acc.1, acc.2 + 1)) acc).1
        = acc.1 ++ entries.filter (fun entry ↦ Listed now timeout entry)
      ∧ (entries.foldl (fun acc entry ↦ if now - entry.lastHeartbeat < timeout
          then (acc.1 ++ [entry], acc.2) else (acc.1, acc.2 + 1)) acc).1.length
        + (entries.foldl (fun acc entry ↦ if now - entry.lastHeartbeat < timeout
          then (acc.1 ++ [entry], acc.2) else (acc.1, acc.2 + 1)) acc).2
        = acc.1.length + entries.length + acc.2 := by
    induction entries with
    | nil =>
      intro acc
      simp
    | cons entry entries ih =>
      intro acc
      rw [List.foldl_cons]
      have hlisted : Listed now timeout entry ↔ now - entry.lastHeartbeat < timeout :=
        listed_iff.trans (or_iff_right (not_le.mpr htimeout))
      by_cases h : now - entry.lastHeartbeat < timeout
      · rw [if_pos h]
        obtain ⟨hkept, hcount⟩ := ih (acc.1 ++ [entry], acc.2)
        refine ⟨?_, ?_⟩
        · rw [hkept, List.filter_cons_of_pos (by simpa using hlisted.mpr h)]
          simp
        · rw [hcount]
          simp only [List.length_append, List.length_cons, List.length_nil]
          omega
      · rw [if_neg h]
        obtain ⟨hkept, hcount⟩ := ih (acc.1, acc.2 + 1)
        refine ⟨?_, ?_⟩
        · rw [hkept, List.filter_cons_of_neg (by simpa using fun hl ↦ h (hlisted.mp hl))]
        · rw [hcount, List.length_cons]
          dsimp only
          omega
  obtain ⟨hkept, hcount⟩ := key ([], removed)
  exact ⟨hkept, by rw [keepFresh, hcount]; simp⟩

/-! ## All tasks -/

section ExpireTask

variable {acc : (AList fun _ : String ↦ List ServiceRegistration) × ℕ} {p : StoragePair}

theorem lookup_expireTask_of_ne {task : String} (h : task ≠ p.1) :
    (expireTask now timeout acc p).1.lookup task = acc.1.lookup task := by
  rw [expireTask]
  dsimp only
  split_ifs
  · exact AList.lookup_erase_ne h
  · exact AList.lookup_insert_ne h

theorem slice_expireTask_self (htimeout : 0 < timeout) :
    (expireTask now timeout acc p).1.slice p.1
      = p.2.filter fun entry ↦ Listed now timeout entry := by
  rw [← (keepFresh_eq now htimeout p.2 acc.2).1, expireTask]
  dsimp only
  split_ifs with hnil
  · rw [hnil, AList.slice, AList.lookup_erase, Option.getD_none]
  · rw [AList.slice_insert_self]

/-- What a turn of the loop adds to the count is missing from the map. -/
theorem total_expireTask (htimeout : 0 < timeout) (hp : acc.1.lookup p.1 = some p.2) :
    (expireTask now timeout acc p).1.total + (expireTask now timeout acc p).2
      = acc.1.total + acc.2 := by
  obtain ⟨-, hcount⟩ := keepFresh_eq now htimeout p.2 acc.2
  have hslice : (acc.1.slice p.1).length = p.2.length := by rw [AList.slice_of_lookup hp]
  rw [expireTask]
  dsimp only
  split_ifs with hnil
  · have htotal := AList.total_erase acc.1 p.1
    rw [hnil, List.length_nil] at hcount
    omega
  · have htotal := AList.total_insert acc.1 p.1 (keepFresh now timeout p.2 acc.2).1
    omega

/-- The whole loop. Its keys are different, so it finds each of them as it was listed. -/
theorem total_foldl_expireTask (htimeout : 0 < timeout) {l : List StoragePair}
    (hkeys : l.NodupKeys) (hl : ∀ p ∈ l, acc.1.lookup p.1 = some p.2) :
    (l.foldl (expireTask now timeout) acc).1.total + (l.foldl (expireTask now timeout) acc).2
      = acc.1.total + acc.2 := by
  induction l generalizing acc with
  | nil => rfl
  | cons p l ih =>
    obtain ⟨hnew, hkeys⟩ := List.nodupKeys_cons.mp hkeys
    rw [List.foldl_cons, ih hkeys, total_expireTask htimeout (hl p List.mem_cons_self)]
    intro q hq
    have hne : q.1 ≠ p.1 := fun heq ↦ hnew (heq ▸ List.mem_keys_of_mem hq)
    rw [lookup_expireTask_of_ne hne]
    exact hl q (List.mem_cons_of_mem _ hq)

end ExpireTask

theorem nodupKeys_arrange (ord : RangeOrder StoragePair)
    (m : AList fun _ : String ↦ List ServiceRegistration) : (ord.arrange m.entries).NodupKeys :=
  (List.perm_nodupKeys (ord.perm _)).mpr m.nodupKeys

theorem notMem_keys_arrange (ord : RangeOrder StoragePair)
    {m : AList fun _ : String ↦ List ServiceRegistration} {task : String}
    (h : m.lookup task = none) : task ∉ (ord.arrange m.entries).keys := by
  intro hmem
  have hmem' : task ∈ m := ((ord.perm _).map Sigma.fst).mem_iff.mp hmem
  exact absurd (AList.lookup_isSome.mpr hmem') (by simp [h])

/-- **What the cleanup keeps.** Of each task the registrations that are listed, in their order. -/
theorem slice_cleanupExpiredRegistrationsCounted (dht : DHT) (ord : RangeOrder StoragePair)
    (now timeout : Time) (task : String) :
    (dht.cleanupExpiredRegistrationsCounted ord now timeout).1.storage.slice task
      = (dht.storage.slice task).filter fun entry ↦ Listed now timeout entry := by
  rw [cleanupExpiredRegistrationsCounted]
  split_ifs with htimeout
  · have hall : ∀ entry, Listed now timeout entry := fun entry ↦ listed_iff.mpr (Or.inl htimeout)
    simp [hall]
  · let read (s : (AList fun _ : String ↦ List ServiceRegistration) × ℕ) (task : String) :=
      s.1.slice task
    have hother : ∀ s p task, task ≠ p.1 →
        read (expireTask now timeout s p) task = read s task := by
      intro s p task hne
      simp only [read, AList.slice, lookup_expireTask_of_ne hne]
    refine AList.slice_foldl_visit read hother
      (fun entries ↦ entries.filter fun entry ↦ Listed now timeout entry)
      (fun s p ↦ slice_expireTask_self (not_le.mp htimeout)) dht.storage (ord.perm _) ?_ task
    intro task hlookup
    simp [read, AList.slice, hlookup]

theorem cleanupExpiredRegistrationsCounted_frame (dht : DHT) (ord : RangeOrder StoragePair)
    (now timeout : Time) :
    ∃ storage removed, dht.cleanupExpiredRegistrationsCounted ord now timeout
      = ({ dht with storage := storage }, removed)
        ∧ storage.total + removed = dht.storage.total := by
  rw [cleanupExpiredRegistrationsCounted]
  split_ifs with htimeout
  · exact ⟨dht.storage, 0, rfl, rfl⟩
  · refine ⟨_, _, rfl, ?_⟩
    rw [total_foldl_expireTask (not_le.mp htimeout) (nodupKeys_arrange ord dht.storage)]
    · exact Nat.add_zero _
    · intro p hp
      exact AList.mem_entries_iff.mp (ord.mem_arrange.mp hp)

/-- The cleanup of the background loop, which drops the count. -/
theorem cleanupExpiredRegistrationsCounted_asStored (dht : DHT) (now timeout : Time) :
    (dht.cleanupExpiredRegistrationsCounted .asStored now timeout).1
      = dht.cleanupExpiredRegistrations now timeout := by
  rw [cleanupExpiredRegistrationsCounted, cleanupExpiredRegistrations]
  split_ifs with htimeout
  · rfl
  · have hkept : ∀ (p : StoragePair) (removed : ℕ), (keepFresh now timeout p.2 removed).1
        = p.2.filter fun entry ↦ decide (now - entry.lastHeartbeat < timeout) := by
      intro p removed
      rw [(keepFresh_eq now (not_le.mp htimeout) p.2 removed).1]
      apply List.filter_congr
      intro entry _
      rw [decide_eq_decide, listed_iff, or_iff_right htimeout]
    have key : ∀ (l : List StoragePair)
        (acc : (AList fun _ : String ↦ List ServiceRegistration) × ℕ),
        (l.foldl (expireTask now timeout) acc).1
          = l.foldl (fun m p ↦
            let kept := p.2.filter fun entry ↦ decide (now - entry.lastHeartbeat < timeout)
            if kept = [] then m.erase p.1 else m.insert p.1 kept) acc.1 := by
      intro l
      induction l with
      | nil => exact fun _ ↦ rfl
      | cons p l ih =>
        intro acc
        rw [List.foldl_cons, List.foldl_cons, ih, expireTask, hkept]
    have hstorage := key dht.storage.entries (dht.storage, 0)
    simp only [RangeOrder.asStored, hstorage]

/-- What the snapshot has for a task: its active addresses, if there are any. -/
theorem lookup_getStorageSnapshot (dht : DHT) (cfg : Config) (ord : RangeOrder StoragePair)
    (now : Time) (task : String) :
    (dht.getStorageSnapshot cfg ord now).lookup task
      = if activeAddresses (dht.storage.slice task) now cfg.serviceHeartbeatTimeout = [] then none
        else some (activeAddresses (dht.storage.slice task) now cfg.serviceHeartbeatTimeout) := by
  let read (snapshot : AList fun _ : String ↦ List String) (task : String) := snapshot.lookup task
  let visit (snapshot : AList fun _ : String ↦ List String) (p : StoragePair) :=
    let addrs := activeAddresses p.2 now cfg.serviceHeartbeatTimeout
    if addrs = [] then snapshot else snapshot.insert p.1 addrs
  have hother : ∀ s p task, task ≠ p.1 → read (visit s p) task = read s task := by
    intro s p task hne
    simp only [read, visit]
    split_ifs
    · rfl
    · exact AList.lookup_insert_ne hne
  change read ((ord.arrange dht.storage.entries).foldl visit ∅) task = _
  rcases hlookup : dht.storage.lookup task with _ | entries
  · rw [List.foldl_visit_of_notMem read hother (notMem_keys_arrange ord hlookup)]
    simp [read, AList.slice, hlookup, activeAddresses]
  · have hmem : (⟨task, entries⟩ : StoragePair) ∈ ord.arrange dht.storage.entries :=
      ord.mem_arrange.mpr (AList.mem_entries_iff.mpr hlookup)
    obtain ⟨s, hs, heq⟩ := List.foldl_visit_of_mem read hother
      (nodupKeys_arrange ord dht.storage) hmem ∅
    refine heq.trans ?_
    rw [AList.slice_of_lookup hlookup]
    simp only [visit]
    split_ifs
    · exact hs
    · exact AList.lookup_insert _

/-! ## Readers -/

theorem forwardLookup_storage (dht : DHT)
    (storage : AList fun _ : String ↦ List ServiceRegistration)
    (query : String → String → List String) (task : String) (nodes : List Node) :
    { dht with storage := storage }.forwardLookup query task nodes
      = dht.forwardLookup query task nodes := by
  induction nodes with
  | nil => rfl
  | cons node nodes ih =>
    rw [forwardLookup, forwardLookup, ih]

/-- **The cleanup is invisible.** Whenever a reader comes after the cleanup, and whatever the
timeout is, it sees for every task the list that it would have seen without the cleanup: the local
addresses of `LookupTask`, its answer, and the storage snapshot. The count is the number of
registrations that are gone, and those that are left are the ones that were listed. -/
theorem cleanup_invisible (dht : DHT) (cfg : Config) (ord : RangeOrder StoragePair) {t t' : Time}
    (hle : t ≤ t') :
    (∀ task, activeAddresses ((dht.cleanupExpiredRegistrationsCounted ord t
          cfg.serviceHeartbeatTimeout).1.storage.slice task) t' cfg.serviceHeartbeatTimeout
        = activeAddresses (dht.storage.slice task) t' cfg.serviceHeartbeatTimeout)
      ∧ (∀ query task, (dht.cleanupExpiredRegistrationsCounted ord t
          cfg.serviceHeartbeatTimeout).1.lookupTask cfg t' query task
        = dht.lookupTask cfg t' query task)
      ∧ (∀ ord₁ ord₂ task, ((dht.cleanupExpiredRegistrationsCounted ord t
          cfg.serviceHeartbeatTimeout).1.getStorageSnapshot cfg ord₁ t').lookup task
        = (dht.getStorageSnapshot cfg ord₂ t').lookup task)
      ∧ (dht.cleanupExpiredRegistrationsCounted ord t cfg.serviceHeartbeatTimeout).1.storage.total
          + (dht.cleanupExpiredRegistrationsCounted ord t cfg.serviceHeartbeatTimeout).2
        = dht.storage.total
      ∧ ∀ task, (dht.cleanupExpiredRegistrationsCounted ord t
          cfg.serviceHeartbeatTimeout).1.storage.slice task
        = (dht.storage.slice task).filter fun entry ↦
            Listed t cfg.serviceHeartbeatTimeout entry := by
  have hslice := slice_cleanupExpiredRegistrationsCounted dht ord t cfg.serviceHeartbeatTimeout
  obtain ⟨storage, removed, heq, htotal⟩ :=
    cleanupExpiredRegistrationsCounted_frame dht ord t cfg.serviceHeartbeatTimeout
  rw [heq] at hslice ⊢
  have hactive : ∀ task, activeAddresses (storage.slice task) t' cfg.serviceHeartbeatTimeout
      = activeAddresses (dht.storage.slice task) t' cfg.serviceHeartbeatTimeout := by
    intro task
    rw [hslice task, activeAddresses_filter hle]
  refine ⟨hactive, ?_, ?_, htotal, hslice⟩
  · intro query task
    rw [lookupTask, lookupTask]
    simp only [hactive, forwardLookup_storage]
    rfl
  · intro ord₁ ord₂ task
    rw [lookup_getStorageSnapshot, lookup_getStorageSnapshot, hactive]

/-- A node with two registrations of one task, at different times. -/
def twoHeartbeats : DHT :=
  ((DHT.new "127.0.0.1:7000" 0).storeTask 0 "scan" "10.0.0.1:80").storeTask 5 "scan" "10.0.0.2:80"

/-- The older one is exactly as old as the timeout. It is freed, and no reader can tell. -/
theorem cleanup_invisible_boundary :
    (twoHeartbeats.cleanupExpiredRegistrationsCounted .asStored 60 60).2 = 1
      ∧ activeAddresses ((twoHeartbeats.cleanupExpiredRegistrationsCounted
          .asStored 60 60).1.storage.slice "scan") 61 60 = ["10.0.0.2:80"] := by
  have hle : (60 : Time) ≤ 61 := by decide
  refine ⟨by decide +kernel, ?_⟩
  rw [(cleanup_invisible twoHeartbeats ⟨2, 60⟩ .asStored hle).1 "scan"]
  decide +kernel

end DHT

end TaskDiscovery
