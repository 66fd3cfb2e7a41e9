import Mathlib.Data.Fintype.Basic
import TaskDiscovery.Registry.Interleaving

/-!
# Count write-backs and liveness

Before a warm reads the store, it writes the query counts of its cache back, through the same upsert
as a registration. The upsert carries the cached heartbeat and activates the row, so a write-back
can move a heartbeat back in time, or bring a row to life that a cleanup has put to rest.

It does neither if the entries waiting to be written are not behind the table (`NotBehind`). That is
true along a run under three conditions (`SyncSafe`): a snapshot is taken of a cache that is not
behind, nobody writes a newer heartbeat for a pair that is waiting, and nobody cleans such a pair
up.
-/

namespace TaskDiscovery

/-! ## Neutral changes of the table -/

/-- No row of the table has its heartbeat moved back or is activated. -/
def LivenessNeutral (t t' : Table) : Prop :=
  ∀ key, ∀ row ∈ t.lookup key, ∃ row' ∈ t'.lookup key,
    row.lastHeartbeat ≤ row'.lastHeartbeat ∧ (row'.isActive = true → row.isActive = true)

/-- An entry with a count, if it has a row at all, has an active one with no later heartbeat. -/
def NotBehind (t : Table) (p : String × ServiceEntry) : Prop :=
  0 < p.2.queryCount → ∀ row ∈ t.lookup (p.1, p.2.address),
    row.isActive = true ∧ row.lastHeartbeat ≤ p.2.lastHeartbeat

instance (t : Table) (p : String × ServiceEntry) : Decidable (NotBehind t p) :=
  inferInstanceAs (Decidable (_ → _))

theorem LivenessNeutral.refl (t : Table) : LivenessNeutral t t :=
  fun _ row hrow ↦ ⟨row, hrow, le_refl _, fun h ↦ h⟩

theorem NotBehind.register_neutral {t : Table} {p : String × ServiceEntry} (h : NotBehind t p)
    (hpos : 0 < p.2.queryCount) : LivenessNeutral t (t.register p.1 p.2) := by
  intro key row hrow
  by_cases hkey : key = (p.1, p.2.address)
  · subst hkey
    obtain ⟨hact, hle⟩ := h hpos row hrow
    refine ⟨Table.registeredRow p.2 (t.lookup (p.1, p.2.address)), ?_, hle, fun _ ↦ hact⟩
    rw [Table.lookup_register, if_pos rfl]
    rfl
  · refine ⟨row, ?_, le_refl _, fun h ↦ h⟩
    rwa [Table.lookup_register, if_neg hkey]

theorem lookup_increment {t : Table} {task addr : String} {key : String × String} {row : Row}
    (h : row ∈ (t.incrementQueryCount task addr).1.lookup key) :
    ∃ old ∈ t.lookup key,
      row.lastHeartbeat = old.lastHeartbeat ∧ row.isActive = old.isActive := by
  rw [Table.lookup_incrementQueryCount] at h
  split_ifs at h with hkey
  · obtain ⟨old, hold, rfl⟩ := Option.map_eq_some_iff.mp h
    refine ⟨old, hkey ▸ hold, ?_⟩
    split_ifs <;> exact ⟨rfl, rfl⟩
  · exact ⟨row, h, rfl, rfl⟩

theorem NotBehind.increment {t : Table} {p : String × ServiceEntry} (h : NotBehind t p)
    (task addr : String) : NotBehind (t.incrementQueryCount task addr).1 p := by
  intro hpos row hrow
  obtain ⟨old, hold, hbeat, hact⟩ := lookup_increment hrow
  rw [hbeat, hact]
  exact h hpos old hold

theorem NotBehind.register {t : Table} {p q : String × ServiceEntry} (h : NotBehind t q)
    (hle : 0 < q.2.queryCount → q.1 = p.1 → q.2.address = p.2.address →
      p.2.lastHeartbeat ≤ q.2.lastHeartbeat) : NotBehind (t.register p.1 p.2) q := by
  intro hpos row hrow
  rw [Table.lookup_register] at hrow
  split_ifs at hrow with hkey
  · obtain rfl := Option.some.inj hrow
    exact ⟨rfl, hle hpos (Prod.mk.inj hkey).1 (Prod.mk.inj hkey).2⟩
  · exact h hpos row hrow

theorem NotBehind.cleanup {t : Table} {q : String × ServiceEntry} (h : NotBehind t q)
    {cutoff : Time} (hcut : 0 < q.2.queryCount → ∀ row ∈ t.lookup (q.1, q.2.address),
      cutoff ≤ row.lastHeartbeat) : NotBehind (t.cleanup cutoff).1 q := by
  intro hpos row hrow
  obtain ⟨old, hold, rfl⟩ := Option.map_eq_some_iff.mp
    ((AList.lookup_mapVal _ _ _).symm.trans hrow)
  have hfresh : ¬old.lastHeartbeat < cutoff := not_lt.mpr (hcut hpos old hold)
  simpa [hfresh] using h hpos old hold

/-! ## Write-backs in progress -/

namespace Thread

/-- The entries that a write-back in progress has still to write. -/
def syncTodo : Thread → List (String × ServiceEntry)
  | .warm (.syncWrite todo) => todo
  | .warm (.syncLoad _ _ todo) => todo
  | .warm (.syncClear _ _ todo) => todo
  | _ => []

/-- The next step is one of `syncQueryCountsToDB` that may write to the table. -/
def writesBack : Thread → Bool
  | .warm (.syncWrite _) => true
  | _ => false

theorem eq_of_writesBack {th : Thread} (h : th.writesBack = true) :
    ∃ todo, th = .warm (.syncWrite todo) := by
  unfold writesBack at h
  split at h
  · exact ⟨_, rfl⟩
  · simp at h

/-- The cache that the next step lists for a write-back. -/
def snapshots : Thread → Option ℕ
  | .warm (.syncSnapshot m) => some m
  | _ => none

theorem eq_of_mem_snapshots {th : Thread} {m : ℕ} (h : m ∈ th.snapshots) :
    th = .warm (.syncSnapshot m) := by
  unfold snapshots at h
  split at h
  · rw [Option.some.inj h]
  · simp at h

/-- The timeout with which the next step cleans the table up. -/
def cleans : Thread → Option Time
  | .cleanup (.cleanStore timeout _) => some timeout
  | _ => none

theorem syncTodo_of_not_warm {th : Thread} (h : th.isWarm = false) : th.syncTodo = [] := by
  cases th <;> simp_all [isWarm, syncTodo]

theorem of_upsert_syncWrite {inp : Input} {todo : List (String × ServiceEntry)}
    {p : String × ServiceEntry} (h : (Thread.warm (.syncWrite todo)).upsert inp = some p) :
    0 < p.2.queryCount ∧ p ∈ todo := by
  cases todo with
  | nil => simp [upsert] at h
  | cons q todo =>
    simp only [upsert] at h
    split_ifs at h with hpos
    obtain rfl := Option.some.inj h
    exact ⟨hpos.1, List.mem_cons_self⟩

/-- A thread's list is what is left of the list it had, or a fresh listing of a cache. -/
theorem mem_syncTodo_step {c : Collation} {t : Table} {sh : Shared} {inp : Input} {th : Thread}
    {p : String × ServiceEntry} (h : p ∈ (th.step c t sh inp).2.2.syncTodo) :
    p ∈ th.syncTodo
      ∨ ∃ m ∈ th.snapshots, p ∈ pairs inp.ord (sh.caches m).listServices := by
  cases th with
  | returned reply => simp [Thread.step, syncTodo] at h
  | register pc => simp [Thread.step, syncTodo_of_not_warm pc.step_isWarm] at h
  | lookup pc => simp [Thread.step, syncTodo_of_not_warm pc.step_isWarm] at h
  | cleanup pc => simp [Thread.step, syncTodo_of_not_warm pc.step_isWarm] at h
  | warm pc =>
    cases pc with
    | syncSnapshot m => exact Or.inr ⟨m, rfl, h⟩
    | syncWrite todo =>
      cases todo with
      | nil => simp [Thread.step, WarmPc.step, syncTodo] at h
      | cons q todo =>
        simp only [Thread.step, WarmPc.step] at h
        refine Or.inl (List.mem_cons_of_mem _ ?_)
        split_ifs at h <;> exact h
    | syncLoad task addr todo =>
      simp only [Thread.step, WarmPc.step] at h
      refine Or.inl ?_
      split_ifs at h <;> exact h
    | syncClear task addr todo => exact Or.inl h
    | pendingLoad old todo | keepLoad old newCache todo =>
      cases todo with
      | nil => simp [Thread.step, WarmPc.step, syncTodo] at h
      | cons q todo =>
        simp only [Thread.step, WarmPc.step] at h
        split_ifs at h <;> simp [syncTodo] at h
    | _ =>
      simp only [Thread.step, WarmPc.step] at h
      repeat' split at h
      all_goals simp [syncTodo] at h

end Thread

theorem Call.begin_syncTodo (call : Call) : call.begin.syncTodo = [] := by
  cases call with
  | registerWithCapacity | getServiceForRequestor =>
    simp only [Call.begin]
    split_ifs <;> rfl
  | cleanup | warmCacheFromDB => rfl

variable {ι κ : Type}

namespace World

/-- The condition on a step. What is waiting to be written back stays not behind the table: a
snapshot lists only such entries, an upsert is no newer than what waits for the same pair, and a
cleanup reaches no row that an entry waits for. -/
def SyncSafe (w : World ι κ) : Action ι κ → Prop
  | .start _ _ _ => True
  | .step i k inp =>
    (∀ m ∈ (w.threads i k).snapshots,
        ∀ p ∈ pairs inp.ord ((w.shared i).caches m).listServices, NotBehind w.table p)
      ∧ (∀ p ∈ (w.threads i k).upsert inp, ∀ j l, ∀ q ∈ (w.threads j l).syncTodo,
          0 < q.2.queryCount → q.1 = p.1 → q.2.address = p.2.address →
            p.2.lastHeartbeat ≤ q.2.lastHeartbeat)
      ∧ ∀ timeout ∈ (w.threads i k).cleans, inp.applies = true →
          ∀ j l, ∀ q ∈ (w.threads j l).syncTodo, 0 < q.2.queryCount →
            ∀ row ∈ w.table.lookup (q.1, q.2.address), inp.now - timeout ≤ row.lastHeartbeat

/-- The invariant: nothing that waits to be written back is behind the table. -/
def SyncFresh (w : World ι κ) : Prop :=
  ∀ i k, ∀ p ∈ (w.threads i k).syncTodo, NotBehind w.table p

theorem SyncFresh.notBehind {c : Collation} {w : World ι κ} (hw : w.SyncFresh) {i : ι} {k : κ}
    {inp : Input} (hsafe : w.SyncSafe (.step i k inp)) {j : ι} {l : κ} {q : String × ServiceEntry}
    (hq : q ∈ (w.threads j l).syncTodo) : NotBehind (w.outcome c i k inp).1 q := by
  have hstep : TableStep w.table inp (w.threads i k) (w.outcome c i k inp).1 :=
    (w.threads i k).tableStep
  obtain ⟨-, hup, hclean⟩ := hsafe
  generalize (w.outcome c i k inp).1 = t' at hstep ⊢
  cases hstep with
  | same => exact hw j l q hq
  | upsert p hp => exact (hw j l q hq).register (hup p hp j l q hq)
  | increment task addr hth => exact (hw j l q hq).increment task addr
  | cleanup timeout removed hth happ =>
    exact (hw j l q hq).cleanup (hclean timeout (by rw [hth]; rfl) happ j l q hq)

variable [DecidableEq ι] [DecidableEq κ]

/-- If the action is a write of `syncQueryCountsToDB`, it is neutral. -/
def SyncNeutral (c : Collation) (w : World ι κ) : Action ι κ → Prop
  | .start _ _ _ => True
  | .step i k inp => (w.threads i k).writesBack = true →
      LivenessNeutral w.table (w.act c (.step i k inp)).table

/-- **The step lemma.** A safe step keeps the invariant. -/
theorem SyncFresh.act {c : Collation} {w : World ι κ} (hw : w.SyncFresh) {a : Action ι κ}
    (hsafe : w.SyncSafe a) : (w.act c a).SyncFresh := by
  cases a with
  | start j l call =>
    by_cases hret : ∃ reply, w.threads j l = .returned reply
    · obtain ⟨reply, hret⟩ := hret
      rw [act_start_of_returned call hret]
      intro i k p hp
      by_cases hi : i = j
      · subst hi
        rw [setThread_threads_self] at hp
        by_cases hk : k = l
        · subst hk
          simp [call.begin_syncTodo] at hp
        · rw [Function.update_of_ne hk] at hp
          exact hw i k p hp
      · rw [setThread_threads_of_ne hi] at hp
        exact hw i k p hp
    · rwa [act_start_of_busy call fun reply h ↦ hret ⟨reply, h⟩]
  | step j l inp =>
    intro i k p hp
    rw [act_step_table]
    by_cases hi : i = j
    · subst hi
      rw [act_step_threads_self] at hp
      by_cases hk : k = l
      · subst hk
        rw [Function.update_self] at hp
        rcases Thread.mem_syncTodo_step hp with hold | ⟨m, hm, hlisted⟩
        · exact hw.notBehind hsafe hold
        · have hth := Thread.eq_of_mem_snapshots hm
          have htable : (w.outcome c i k inp).1 = w.table := by
            simp only [outcome, hth, Thread.step, WarmPc.step]
          rw [htable]
          exact hsafe.1 m hm p hlisted
      · rw [Function.update_of_ne hk] at hp
        exact hw.notBehind hsafe hp
    · rw [act_step_threads_of_ne hi] at hp
      exact hw.notBehind hsafe hp

/-- A write-back of an entry that is not behind is neutral, whatever becomes of the store call. -/
theorem SyncFresh.syncNeutral {c : Collation} {w : World ι κ} (hw : w.SyncFresh)
    (a : Action ι κ) : w.SyncNeutral c a := by
  cases a with
  | start i k call => trivial
  | step i k inp =>
    intro hwrites
    obtain ⟨todo, hth⟩ := Thread.eq_of_writesBack hwrites
    have hstep : TableStep w.table inp (w.threads i k) (w.outcome c i k inp).1 :=
      (w.threads i k).tableStep
    have hfresh : ∀ p ∈ todo, NotBehind w.table p := fun p hp ↦ hw i k p (by rwa [hth])
    rw [act_step_table]
    generalize (w.outcome c i k inp).1 = t' at hstep ⊢
    rw [hth] at hstep
    cases hstep with
    | same => exact .refl _
    | upsert p hp =>
      obtain ⟨hpos, hmem⟩ := Thread.of_upsert_syncWrite hp
      exact (hfresh p hmem).register_neutral hpos
    | increment task addr hlook => simp at hlook
    | cleanup timeout removed hcl happ => simp at hcl

/-- **Write-backs are neutral.** Any number of servers share the table and run their calls in any
interleaving. If every step is safe, no write of `syncQueryCountsToDB` moves a heartbeat back or
activates an inactive row. -/
theorem syncNeutral_of_syncSafe (c : Collation) (table : Table)
    (registries : ι → StoreBackedRegistry) {acts : List (Action ι κ)}
    (hsafe : Run.Meets (act c) SyncSafe (start table registries) acts) :
    Run.Meets (act c) (SyncNeutral c) (start table registries) acts := by
  have hstep : ∀ (w : World ι κ) (a : Action ι κ), True → w.SyncFresh → w.SyncSafe a →
      (w.act c a).SyncFresh ∧ w.SyncNeutral c a :=
    fun w a _ hw h ↦ ⟨hw.act h, hw.syncNeutral a⟩
  refine hsafe.transfer hstep (fun _ _ ↦ trivial) fun i k p hp ↦ ?_
  simp [start, Thread.syncTodo] at hp

instance [Fintype ι] [Fintype κ] (w : World ι κ) (a : Action ι κ) : Decidable (w.SyncSafe a) :=
  match a with
  | .start _ _ _ => isTrue trivial
  | .step _ _ _ => inferInstanceAs (Decidable (_ ∧ _))

/-- Two servers with empty caches over an empty table, with one thread each. -/
def twoServers : World (Fin 2) Unit := start ∅ fun _ ↦ .start .empty 0 0 1 none

/-- A step at a time, with a store that answers. -/
def tick (i : Fin 2) (now : Time) : Action (Fin 2) Unit := .step i () ⟨now, none, .asStored⟩

/-- The first server registers `svc`, with one clock reading for the cache and one for the store,
and answers a query for it. -/
def registerAndQuery (now₁ now₂ : Time) : List (Action (Fin 2) Unit) :=
  [.start 0 () (.registerWithCapacity "svc" "10.0.0.1:80" 1), tick 0 now₁, tick 0 now₁,
    tick 0 now₂, tick 0 now₂, .start 0 () (.getServiceForRequestor "svc" none), tick 0 now₂,
    tick 0 now₂, tick 0 now₂, tick 0 now₂]

/-- The steps of a warm of the first server up to its first write. -/
def writeBack (now : Time) : List (Action (Fin 2) Unit) :=
  [.start 0 () .warmCacheFromDB, tick 0 now, tick 0 now]

/-- The second server cleans the row up. -/
def otherCleanup (now timeout : Time) : List (Action (Fin 2) Unit) :=
  [.start 1 () (.cleanup timeout), tick 1 now, tick 1 now, tick 1 now]

theorem registerAndQuery_syncNeutral :
    Run.Meets (act .codePoint) (SyncNeutral .codePoint) twoServers
      (registerAndQuery 1 1 ++ writeBack 2 ++ [tick 0 2]) :=
  syncNeutral_of_syncSafe .codePoint ∅ (fun _ ↦ .start .empty 0 0 1 none) (by decide +kernel)

/-- A registration reads the clock for the store after it has read it for the cache, so a later
write-back moves the heartbeat from `2` to `1`. And a write-back revives a row that another server
has cleaned up. -/
theorem writeBack_not_syncNeutral :
    ¬Run.Meets (act .codePoint) (SyncNeutral .codePoint) twoServers
        (registerAndQuery 1 2 ++ writeBack 3 ++ [tick 0 3])
      ∧ ¬Run.Meets (act .codePoint) (SyncNeutral .codePoint) twoServers
        (registerAndQuery 1 1 ++ otherCleanup 100 10 ++ writeBack 101 ++ [tick 0 101]) := by
  constructor
  · intro h
    have hlast := (Run.meets_append.mp h).2.1 (by decide +kernel)
    obtain ⟨row', hrow', hbeat, -⟩ :=
      hlast ("svc", "10.0.0.1:80") ⟨2, 0, 1, true⟩ (by decide +kernel)
    have hrow : row' = ⟨1, 1, 1, true⟩ :=
      Option.some.inj (hrow'.symm.trans (by decide +kernel))
    rw [hrow] at hbeat
    exact absurd hbeat (by decide)
  · intro h
    have hlast := (Run.meets_append.mp h).2.1 (by decide +kernel)
    obtain ⟨row', hrow', -, hact⟩ :=
      hlast ("svc", "10.0.0.1:80") ⟨1, 0, 1, false⟩ (by decide +kernel)
    have hrow : row' = ⟨1, 1, 1, true⟩ :=
      Option.some.inj (hrow'.symm.trans (by decide +kernel))
    rw [hrow] at hact
    exact absurd (hact rfl) (by decide)

end World

end TaskDiscovery
