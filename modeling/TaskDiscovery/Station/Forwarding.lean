import Mathlib.Data.List.AList
import TaskDiscovery.Lib.Run
import TaskDiscovery.Station.BackOffice

/-!
# Forwarding batches

Every full batch is forwarded by a goroutine of its own. The batch is in flight until the goroutine
is told that it was accepted, or that it was not, and then puts it back. In between, transactions
arrive and other batches fail or succeed, in any order.

A request may reach the back office although its sender sees a failure, and it may be late. A batch
that was taken out of a buffer can therefore arrive at any time and any number of times, and each
time the inserts may break off. `emitted` remembers the batches for that, and `added` the
transactions that were passed to `Add`; the program has neither.
-/

namespace TaskDiscovery

namespace Station

open CardDb (Weather)

/-! ## What the buffers hold -/

namespace PerTypeBatcher

variable {b : PerTypeBatcher}

def buffered (b : PerTypeBatcher) : List Transaction := b.byType.entries.flatMap Sigma.snd

/-- The transactions in the other buffers. -/
def bufferedElsewhere (b : PerTypeBatcher) (cardType : String) : List Transaction :=
  (b.byType.erase cardType).entries.flatMap Sigma.snd

theorem buffered_perm (b : PerTypeBatcher) (cardType : String) :
    b.buffered.Perm (b.buffer cardType ++ b.bufferedElsewhere cardType) := by
  rw [buffered, buffer, bufferedElsewhere]
  cases h : b.byType.lookup cardType with
  | none =>
    have herase : b.byType.erase cardType = b.byType :=
      AList.ext (List.kerase_of_notMem_keys (AList.lookup_eq_none.mp h))
    rw [herase]
    exact .refl _
  | some txs => exact (AList.entries_perm_cons_erase h).flatMap_right Sigma.snd

theorem buffered_insert (b : PerTypeBatcher) (cardType : String) (txs : List Transaction) :
    buffered { b with byType := b.byType.insert cardType txs }
      = txs ++ b.bufferedElsewhere cardType := rfl

theorem buffer_insert (b : PerTypeBatcher) (cardType : String) (txs : List Transaction)
    (cardType' : String) :
    buffer { b with byType := b.byType.insert cardType txs } cardType'
      = if cardType' = cardType then txs else b.buffer cardType' := by
  rw [buffer]
  split_ifs with h
  · rw [h, AList.lookup_insert, Option.getD_some]
  · rw [AList.lookup_insert_ne h, buffer]

@[simp]
theorem batchSize_add (b : PerTypeBatcher) (tx : Transaction) :
    (b.add tx).1.batchSize = b.batchSize := by
  simp only [add]
  split_ifs <;> rfl

@[simp]
theorem batchSize_putBack (batch : List Transaction) :
    (b.putBack batch).batchSize = b.batchSize := by
  cases batch <;> rfl

/-- What `Add` takes out was in the buffer, and nothing else leaves it. -/
theorem buffered_add (b : PerTypeBatcher) (tx : Transaction) :
    ((b.add tx).1.buffered ++ (b.add tx).2.2).Perm (b.buffered ++ [tx]) := by
  have hold : (b.buffer tx.cardType ++ [tx] ++ b.bufferedElsewhere tx.cardType).Perm
      (b.buffered ++ [tx]) := by
    rw [List.append_assoc]
    refine (List.perm_append_comm.append_left _).trans ?_
    rw [← List.append_assoc]
    exact (b.buffered_perm tx.cardType).symm.append_right _
  simp only [add]
  split_ifs
  · rw [buffered_insert, List.append_nil]
    exact hold
  · rw [buffered_insert]
    refine List.perm_append_comm.trans ?_
    rw [← List.append_assoc, List.take_append_drop]
    exact hold

theorem buffered_putBack (b : PerTypeBatcher) (batch : List Transaction) :
    (b.putBack batch).buffered.Perm (batch ++ b.buffered) := by
  cases batch with
  | nil => exact .refl _
  | cons tx batch =>
    rw [putBack, buffered_insert, List.append_assoc]
    exact (b.buffered_perm tx.cardType).symm.append_left _

/-- Every buffer holds transactions of its own type. -/
def Sorted (b : PerTypeBatcher) : Prop :=
  ∀ cardType, ∀ tx ∈ b.buffer cardType, tx.cardType = cardType

theorem Sorted.insert (h : b.Sorted) {cardType : String} {txs : List Transaction}
    (htxs : ∀ tx ∈ txs, tx.cardType = cardType) :
    Sorted { b with byType := b.byType.insert cardType txs } := by
  intro cardType' tx htx
  rw [buffer_insert] at htx
  split_ifs at htx with heq
  · exact heq ▸ htxs tx htx
  · exact h cardType' tx htx

theorem Sorted.append (h : b.Sorted) (tx : Transaction) :
    ∀ tx' ∈ b.buffer tx.cardType ++ [tx], tx'.cardType = tx.cardType := by
  intro tx' htx'
  rcases List.mem_append.mp htx' with htx' | htx'
  · exact h _ tx' htx'
  · rw [List.mem_singleton.mp htx']

theorem Sorted.add (h : b.Sorted) (tx : Transaction) : (b.add tx).1.Sorted := by
  simp only [PerTypeBatcher.add]
  split_ifs
  · exact h.insert (h.append tx)
  · exact h.insert fun tx' htx' ↦ h.append tx tx' (List.mem_of_mem_drop htx')

/-- **A batch that is taken out is full, and of one card type.** -/
theorem Sorted.add_batch (h : b.Sorted) (tx : Transaction) :
    (b.add tx).2.2 = [] ∨ (b.add tx).2.2.length = b.batchSize
      ∧ ∀ tx' ∈ (b.add tx).2.2, tx'.cardType = tx.cardType := by
  simp only [PerTypeBatcher.add]
  split_ifs with hlength
  · exact .inl rfl
  · refine .inr ⟨List.length_take_of_le (Nat.le_of_not_lt hlength), fun tx' htx' ↦ ?_⟩
    exact h.append tx tx' (List.mem_of_mem_take htx')

theorem Sorted.putBack (h : b.Sorted) {batch : List Transaction} {cardType : String}
    (hbatch : ∀ tx ∈ batch, tx.cardType = cardType) : (b.putBack batch).Sorted := by
  cases batch with
  | nil => exact h
  | cons tx batch =>
    have hhead : tx.cardType = cardType := hbatch tx List.mem_cons_self
    refine h.insert fun tx' htx' ↦ ?_
    rcases List.mem_append.mp htx' with htx' | htx'
    · rw [hbatch tx' htx', hhead]
    · exact h _ tx' htx'

end PerTypeBatcher

/-! ## The system -/

/-- The batcher, the goroutines by their batches, and the back offices. -/
structure World where
  batcher : PerTypeBatcher
  inFlight : List (List Transaction)
  forwarded : List (List Transaction)
  emitted : List (List Transaction)
  added : List Transaction
  offices : BackOffices

inductive Event
  /-- A transaction is passed to `Add`. -/
  | add (tx : Transaction)
  /-- The sender of a batch is told that it was accepted. -/
  | succeed (i : ℕ)
  /-- The sender of a batch sees an error. -/
  | fail (i : ℕ)
  /-- A batch that was taken out of a buffer reaches its back office. -/
  | deliver (i : ℕ) (wt : Weather)

namespace World

variable (w : World)

def start (batchSize : ℕ) (h : 0 < batchSize) (offices : BackOffices) : World where
  batcher := .new batchSize h
  inFlight := []
  forwarded := []
  emitted := []
  added := []
  offices := offices

/-- The card type that selects the back office. -/
def typeOf (batch : List Transaction) : String := (batch.head?.map Transaction.cardType).getD ""

def step (w : World) : Event → World
  | .add tx =>
    let (batcher, _, batch) := w.batcher.add tx
    -- a goroutine is started when there is a full batch
    let started := if batch = [] then [] else [batch]
    { w with
      batcher := batcher
      inFlight := w.inFlight ++ started
      emitted := w.emitted ++ started
      added := w.added ++ [tx] }
  | .succeed i =>
    match w.inFlight[i]? with
    | none => w
    | some batch =>
      { w with inFlight := w.inFlight.eraseIdx i, forwarded := w.forwarded ++ [batch] }
  | .fail i =>
    match w.inFlight[i]? with
    | none => w
    | some batch =>
      { w with inFlight := w.inFlight.eraseIdx i, batcher := w.batcher.putBack batch }
  | .deliver i wt =>
    match w.emitted[i]? with
    | none => w
    | some batch => { w with offices := (w.offices.postBatch wt (typeOf batch) batch).1 }

/-- What holds between two events. -/
structure Accounted (batchSize : ℕ) : Prop where
  batchSize_eq : w.batcher.batchSize = batchSize
  conserved : w.added.Perm (w.batcher.buffered ++ w.inFlight.flatten ++ w.forwarded.flatten)
  sorted : w.batcher.Sorted
  full : ∀ batch ∈ w.emitted, batch.length = batchSize
    ∧ ∃ cardType, ∀ tx ∈ batch, tx.cardType = cardType
  inFlight_subset : ∀ batch ∈ w.inFlight, batch ∈ w.emitted
  nodup_ids : ∀ cardType, (w.offices.ids cardType).Nodup

variable {w} {batchSize : ℕ}

theorem accounted_start {h : 0 < batchSize} {offices : BackOffices}
    (hids : ∀ cardType, (offices.ids cardType).Nodup) :
    (start batchSize h offices).Accounted batchSize where
  batchSize_eq := rfl
  conserved := .refl _
  sorted := by
    intro cardType tx htx
    have hmem : tx ∈ (PerTypeBatcher.new batchSize h).buffered :=
      (PerTypeBatcher.buffered_perm _ cardType).mem_iff.mpr (List.mem_append_left _ htx)
    simp [PerTypeBatcher.new, PerTypeBatcher.buffered] at hmem
  full := by simp [start]
  inFlight_subset := by simp [start]
  nodup_ids := hids

theorem flatten_inFlight_perm {i : ℕ} {batch : List Transaction}
    (hbatch : w.inFlight[i]? = some batch) :
    w.inFlight.flatten.Perm (batch ++ (w.inFlight.eraseIdx i).flatten) := by
  obtain ⟨hi, rfl⟩ := List.getElem?_eq_some_iff.mp hbatch
  exact (List.getElem_cons_eraseIdx_perm hi).symm.flatten

namespace Accounted

theorem add (h : w.Accounted batchSize) (tx : Transaction) :
    (w.step (.add tx)).Accounted batchSize := by
  have hfull := h.sorted.add_batch tx
  have hperm := w.batcher.buffered_add tx
  have hsorted := h.sorted.add tx
  have hsize := w.batcher.batchSize_add tx
  rw [h.batchSize_eq] at hfull hsize
  simp only [step]
  rcases htake : w.batcher.add tx with ⟨batcher, n, batch⟩
  rw [htake] at hfull hperm hsorted hsize
  simp only at hfull hperm hsorted hsize ⊢
  -- the batch is in flight now, unless there is none
  have hstarted : (if batch = [] then [] else [batch]).flatten = batch := by
    split_ifs with hnil
    · rw [hnil, List.flatten_nil]
    · rw [List.flatten_singleton]
  refine ⟨hsize, ?_, hsorted, ?_, ?_, h.nodup_ids⟩
  · refine List.perm_iff_count.mpr fun a ↦ ?_
    have hbefore := h.conserved.count_eq a
    have hadd := hperm.count_eq a
    simp only [List.flatten_append, hstarted, List.count_append] at hbefore hadd ⊢
    omega
  · intro batch' hmem
    rcases List.mem_append.mp hmem with hmem | hmem
    · exact h.full batch' hmem
    · split_ifs at hmem with hnil
      · exact absurd hmem (by simp)
      · rw [List.mem_singleton.mp hmem]
        obtain ⟨hlength, htype⟩ := hfull.resolve_left hnil
        exact ⟨hlength, _, htype⟩
  · intro batch' hmem
    rcases List.mem_append.mp hmem with hmem | hmem
    · exact List.mem_append_left _ (h.inFlight_subset batch' hmem)
    · exact List.mem_append_right _ hmem

theorem succeed (h : w.Accounted batchSize) (i : ℕ) :
    (w.step (.succeed i)).Accounted batchSize := by
  rw [step]
  cases hbatch : w.inFlight[i]? with
  | none => exact h
  | some batch =>
    refine ⟨h.batchSize_eq, ?_, h.sorted, h.full, ?_, h.nodup_ids⟩
    · refine List.perm_iff_count.mpr fun a ↦ ?_
      have hbefore := h.conserved.count_eq a
      have htake := (flatten_inFlight_perm hbatch).count_eq a
      simp only [List.count_append, List.flatten_append, List.flatten_singleton]
        at hbefore htake ⊢
      omega
    · exact fun batch' hmem ↦ h.inFlight_subset batch' (List.mem_of_mem_eraseIdx hmem)

theorem fail (h : w.Accounted batchSize) (i : ℕ) : (w.step (.fail i)).Accounted batchSize := by
  rw [step]
  cases hbatch : w.inFlight[i]? with
  | none => exact h
  | some batch =>
    obtain ⟨-, cardType, htype⟩ :=
      h.full batch (h.inFlight_subset batch (List.mem_of_getElem? hbatch))
    refine ⟨?_, ?_, h.sorted.putBack htype, h.full, ?_, h.nodup_ids⟩
    · rw [PerTypeBatcher.batchSize_putBack, h.batchSize_eq]
    · refine List.perm_iff_count.mpr fun a ↦ ?_
      have hbefore := h.conserved.count_eq a
      have htake := (flatten_inFlight_perm hbatch).count_eq a
      have hback := (w.batcher.buffered_putBack batch).count_eq a
      simp only [List.count_append] at hbefore htake hback ⊢
      omega
    · exact fun batch' hmem ↦ h.inFlight_subset batch' (List.mem_of_mem_eraseIdx hmem)

theorem deliver (h : w.Accounted batchSize) (i : ℕ) (wt : Weather) :
    (w.step (.deliver i wt)).Accounted batchSize := by
  rw [step]
  cases hbatch : w.emitted[i]? with
  | none => exact h
  | some batch =>
    exact ⟨h.batchSize_eq, h.conserved, h.sorted, h.full, h.inFlight_subset,
      BackOffices.nodup_ids_postBatch h.nodup_ids wt _ batch⟩

theorem step (h : w.Accounted batchSize) (e : Event) : (w.step e).Accounted batchSize := by
  cases e with
  | add tx => exact h.add tx
  | succeed i => exact h.succeed i
  | fail i => exact h.fail i
  | deliver i wt => exact h.deliver i wt

end Accounted

/-- **No accepted tap is lost or duplicated.** After any sequence of events the transactions that
were passed to `Add` are those in the buffers, in flight and forwarded, counted as often; every
batch was full and of one card type; and no table has an id twice, however often a batch arrived. -/
theorem exec_accounted {batchSize : ℕ} (hpos : 0 < batchSize) {offices : BackOffices}
    (hids : ∀ cardType, (offices.ids cardType).Nodup) (events : List Event) :
    let w := Run.exec step (start batchSize hpos offices) events
    w.added.Perm (w.batcher.buffered ++ w.inFlight.flatten ++ w.forwarded.flatten)
      ∧ (∀ batch ∈ w.emitted, batch.length = batchSize
        ∧ ∃ cardType, ∀ tx ∈ batch, tx.cardType = cardType)
      ∧ ∀ cardType, (w.offices.ids cardType).Nodup := by
  have hstep : ∀ (w : World) (e : Event), w.Accounted batchSize → (w.step e).Accounted batchSize :=
    fun _ e h ↦ h.step e
  have h := Run.invariant hstep (accounted_start (h := hpos) hids) events
  exact ⟨h.conserved, h.full, h.nodup_ids⟩

def sampleTap (transactionId : String) : Transaction where
  transactionId := transactionId
  cardType := "OY"
  cardId := "C1"
  token := ""
  gateId := "G1"
  stationId := "1"
  tapTime := "2024-05-06T07:08:09Z"
  allowed := true
  reason := "ok"

/-- A batch arrives although its sender sees a failure, goes back to its buffer, and arrives
again. -/
def redelivery : List Event :=
  [.add (sampleTap "a"), .add (sampleTap "b"), .deliver 0 .calm, .fail 0, .add (sampleTap "c"),
    .deliver 1 .calm, .succeed 0]

theorem redelivery_accounted :
    let w := Run.exec step (start 2 (by decide) .empty) redelivery
    w.emitted = [[sampleTap "a", sampleTap "b"], [sampleTap "a", sampleTap "b"]]
      ∧ w.offices.ids "OY" = ["a", "b"]
      ∧ w.added.Perm (w.batcher.buffered ++ w.inFlight.flatten ++ w.forwarded.flatten)
      ∧ (∀ batch ∈ w.emitted, batch.length = 2
        ∧ ∃ cardType, ∀ tx ∈ batch, tx.cardType = cardType)
      ∧ ∀ cardType, (w.offices.ids cardType).Nodup := by
  refine ⟨by decide +kernel, by decide +kernel, ?_⟩
  exact exec_accounted (by decide) (fun cardType ↦ by simp [BackOffices.ids_empty]) redelivery

end World

end Station

end TaskDiscovery
