import TaskDiscovery.Registry.Outcomes
import TaskDiscovery.Transport.Messages

/-!
# What a client is told

A `QUERY` is answered with one of four statuses: `OK` with an address, `FORBIDDEN`, `NOTFOUND`, and
`ERR` with a text for whatever else went wrong. The registry passes a failing store call on to its
caller, so that it can be told apart from a service that does not exist.

The switch of `handleQuery` does not tell them apart. Its case for `NOTFOUND` also takes every
result with an empty address, and with an error the address is always empty, so the last case cannot
be reached after a lookup. A client hears the truth exactly when no store call of its lookup fails
(`query_honest_iff`).
-/

namespace TaskDiscovery

open Go (IP)

/-! ## Which store calls a lookup makes -/

namespace StoreBackedRegistry

/-- The store calls that a lookup of the task makes all succeed: the listing, unless the cache can
answer, and the count in the row, if an entry of the store is going to be returned. -/
def CallsSucceed (sr : StoreBackedRegistry) (task : String) (requestorIP : Option IP) : Prop :=
  ¬0 < totalServiceWeight (sr.memCache.offered task requestorIP) →
    sr.store.outage sr.store.calls = none
      ∧ (sr.admits task = false →
        0 < totalServiceWeight
          (storeCandidates sr.memCache.firewall requestorIP (sr.storeEntries task)) →
        sr.store.outage (sr.store.calls + 1) = none)

/-- The errors by which a registry says that it has looked and found nothing to give. -/
def Concluded (err : RegistryError) : Prop := err = .notFound ∨ err = .noAllowedService

variable {sr : StoreBackedRegistry} {task : String} {requestorIP : Option IP}

theorem memory_concluded {cache : MemoryRegistry} {err : RegistryError} (ht : Go.Trimmed task)
    (h : (cache.getServiceForRequestor task requestorIP).2 = .error err) : Concluded err := by
  have houtcome := cache.getServiceForRequestor_outcome (ht.trimSpace_eq.symm ▸ ht.ne_empty)
    requestorIP
  generalize cache.getServiceForRequestor task requestorIP = result at houtcome h
  rcases houtcome with ⟨reg', addr, hpos, hmem⟩ | hnil | ⟨hne, hnil⟩ | ⟨hne, hweight⟩
  · simp at h
  · exact Or.inl (Except.error.inj h).symm
  · exact Or.inr (Except.error.inj h).symm
  · exact Or.inl (Except.error.inj h).symm

/-- **Where other errors come from.** A lookup ends in an error other than its own two if and only
if a store call that it makes fails. -/
theorem concluded_iff (ht : Go.trimSpace task ≠ "") :
    (∀ err, (sr.getServiceForRequestor task requestorIP).2 = .error err → Concluded err)
      ↔ sr.CallsSucceed (Go.trimSpace task) requestorIP := by
  have htrim := Go.trimmed_trimSpace ht
  rw [CallsSucceed]
  by_cases hhit : 0 < totalServiceWeight (sr.memCache.offered (Go.trimSpace task) requestorIP)
  · obtain ⟨cache, addr, hget⟩ := MemoryRegistry.getServiceForRequestor_of_pos htrim hhit
    rw [getServiceForRequestor_of_hit ht hget]
    simp [hhit]
  rw [getServiceForRequestor_of_not_pos ht hhit]
  simp only [hhit, not_false_eq_true, true_imp_iff]
  rcases hlist : sr.store.outage sr.store.calls with _ | o
  swap
  · rw [missService_of_outage hlist]
    simp [Concluded]
  rw [missService_of_listed hlist]
  by_cases hnil : sr.storeEntries (Go.trimSpace task) = []
  · have hempty : ¬0 < totalServiceWeight
        (storeCandidates sr.memCache.firewall requestorIP []) := by
      simp [storeCandidates, totalServiceWeight]
    rw [if_pos hnil, hnil]
    simp [Concluded, hempty]
  rw [if_neg hnil]
  by_cases hadmitted : sr.admits (Go.trimSpace task) = true
  · rw [if_pos hadmitted, (sr.admitTask_missed _ requestorIP).1, hadmitted]
    simpa using fun err h ↦ memory_concluded htrim h
  · rw [if_neg hadmitted, serveFromStore_missed]
    have hoff : sr.admits (Go.trimSpace task) = false := by simpa using hadmitted
    have houtcome := selectFallback_outcome sr.memCache.firewall sr.fallbackCursor
      (Go.trimSpace task) requestorIP hnil
    generalize (selectFallback sr.memCache.firewall sr.fallbackCursor (Go.trimSpace task)
      (sr.storeEntries (Go.trimSpace task)) requestorIP).2 = selected at houtcome ⊢
    simp only [hoff, true_and, true_imp_iff]
    rcases houtcome with ⟨e, he, hpermit, hpos⟩ | hnil' | ⟨hne', hweight⟩
    · rcases sr.store.outage (sr.store.calls + 1) with _ | o
      · simp
      · simp [hpos, Concluded]
    · have hempty : ¬0 < totalServiceWeight [] := by decide
      simp [hnil', hempty, Concluded]
    · simp [hweight, Concluded]

end StoreBackedRegistry

/-! ## The response -/

/-- The response tells the result of the lookup: other errors than the registry's own two are
reported with their text, and `NOTFOUND` means that nothing was found. -/
structure Honest (result : Except RegistryError String) (response : CentralizedResponse) :
    Prop where
  err : ∀ err, result = .error err → ¬StoreBackedRegistry.Concluded err →
    response.status = "ERR" ∧ response.error = err.text
  notFound : response.status = "NOTFOUND" → result = .error .notFound ∨ result = .ok ""

/-- The switch is honest about addresses and about the registry's own errors, and about nothing
else. -/
theorem honest_queryResponse_iff (result : Except RegistryError String) :
    Honest result (queryResponse result)
      ↔ ∀ err, result = .error err → StoreBackedRegistry.Concluded err := by
  constructor
  · intro h err herr
    by_contra hother
    obtain ⟨hstatus, -⟩ := h.err err herr hother
    rw [herr] at hstatus
    rcases err with _ | _ | _ | text
    · exact hother (Or.inl rfl)
    · exact hother (Or.inr rfl)
    · simp [queryResponse] at hstatus
    · simp [queryResponse] at hstatus
  · intro hconcluded
    rcases result with err | addr
    · rcases hconcluded err rfl with rfl | rfl
      · exact ⟨fun err herr hother ↦ absurd (hconcluded err herr) hother, fun _ ↦ Or.inl rfl⟩
      · refine ⟨fun err herr hother ↦ absurd (hconcluded err herr) hother, fun hstatus ↦ ?_⟩
        simp [queryResponse] at hstatus
    · refine ⟨fun err herr ↦ by simp at herr, fun hstatus ↦ Or.inr ?_⟩
      by_cases haddr : addr = ""
      · rw [haddr]
      · simp [queryResponse, haddr] at hstatus

theorem handleMessage_query {σ : Type} (ops : RegistryOps σ) (reg : σ) (now₁ now₂ : Time)
    {msg : CentralizedMessage} (requestorIP : Option IP) (ht : Go.trimSpace msg.task ≠ "") :
    (handleMessage ops reg now₁ now₂ { msg with command := "QUERY" } requestorIP).2
      = queryResponse (ops.getServiceForRequestor reg (Go.trimSpace msg.task) requestorIP).2 := by
  have hhandle : handleMessage ops reg now₁ now₂ { msg with command := "QUERY" } requestorIP
      = handleQuery ops reg { msg with command := "QUERY" } requestorIP := rfl
  rw [hhandle, handleQuery, if_neg ht]

/-- **When a store failure is not taken for absence.** In every state, for every task and requestor,
the response to a `QUERY` message is honest about its lookup if and only if the store calls of the
lookup succeed. -/
theorem query_honest_iff (sr : StoreBackedRegistry) (now₁ now₂ : Time) (msg : CentralizedMessage)
    (requestorIP : Option IP) (ht : Go.trimSpace msg.task ≠ "") :
    Honest (sr.getServiceForRequestor (Go.trimSpace msg.task) requestorIP).2
        (handleMessage StoreBackedRegistry.ops sr now₁ now₂ { msg with command := "QUERY" }
          requestorIP).2
      ↔ sr.CallsSucceed (Go.trimSpace msg.task) requestorIP := by
  have ht' : Go.trimSpace (Go.trimSpace msg.task) ≠ "" := by rwa [Go.trimSpace_idem]
  rw [handleMessage_query StoreBackedRegistry.ops sr now₁ now₂ requestorIP ht]
  simp only [StoreBackedRegistry.ops]
  rw [honest_queryResponse_iff, StoreBackedRegistry.concluded_iff ht',
    Go.trimSpace_idem]

/-- A registry that has just started over a store whose first call fails. -/
def unreachable (outage : ℕ → Option Outage) : StoreBackedRegistry :=
  .start ⟨Table.register ∅ "scan" { address := "10.0.0.1:80", lastHeartbeat := 0, capacity := 1 },
    .codePoint, outage, 0⟩ 0 0 1 none

/-- With a store that answers, the client gets its address. -/
theorem reachable_honest :
    Honest ((unreachable fun _ ↦ none).getServiceForRequestor (Go.trimSpace "scan") none).2
      (handleMessage StoreBackedRegistry.ops (unreachable fun _ ↦ none) 0 0
        { command := "QUERY", task := "scan" } none).2 :=
  (query_honest_iff (unreachable fun _ ↦ none) 0 0 { command := "QUERY", task := "scan" } none
    (by decide +kernel)).mpr fun _ ↦ ⟨rfl, fun _ _ ↦ rfl⟩

/-- When the listing fails, the lookup says so and the client is told that there is no such
service, though the store has one. -/
theorem unreachable_reported_absent :
    ((unreachable fun n ↦ if n = 0 then some ⟨"connection refused", false⟩ else none)
        |>.getServiceForRequestor "scan" none).2 = .error (.store "connection refused")
      ∧ (handleMessage StoreBackedRegistry.ops
          (unreachable fun n ↦ if n = 0 then some ⟨"connection refused", false⟩ else none) 0 0
          { command := "QUERY", task := "scan" } none).2 = { status := "NOTFOUND" } := by
  decide +kernel

end TaskDiscovery
