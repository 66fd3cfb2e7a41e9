import TaskDiscovery.Go.Strings
import TaskDiscovery.Lib.Run
import TaskDiscovery.Registry.Entry

/-!
# Resolving a component

A gate asks the registry for the address of a component before every request. It asks up to six
times, as long as the errors are of a kind that may pass. If it has no answer then, it takes the
last address that it was given for the task, unless that was two minutes ago or longer, and else the
address it was started with, if there is one.

Several taps resolve at the same time and share the cache of a task. The cache is written when a
call has an answer and read when a call gives up, each under the mutex, so a run of calls is a list
of these sections in the order of the mutex.
-/

namespace TaskDiscovery

namespace Gate

/-- What an error must contain to be retried. -/
def retryableErrors : List String :=
  ["service not found", "eof", "timeout", "connection refused", "connection reset"]

def isRetryableResolveErr (err : String) : Bool :=
  let msg := (Go.trimText err.toList).map Go.lowerChar
  retryableErrors.any fun mark ↦ Go.contains msg mark.toList

def ensureHTTPBase (addr : String) : String :=
  let addr := Go.trimSpace addr
  if addr = "" then ""
  else if "http://".toList <+: addr.toList ∨ "https://".toList <+: addr.toList then addr
  else "http://" ++ addr

def maxAttempts : ℕ := 6

/-- The loop of `resolveBase`: the attempts from this one on, with so many more to follow. It ends
with an answer or the last error, and the number of queries that were made. -/
def attempts (query : ℕ → Except String String) : ℕ → ℕ → Except String String × ℕ
  | attempt, 0 => (query attempt, 1)
  | attempt, left + 1 =>
    match query attempt with
    | .ok addr => (.ok addr, 1)
    | .error err =>
      if isRetryableResolveErr err then
        let (result, asked) := attempts query (attempt + 1) left
        (result, asked + 1)
      else (.error err, 1)

structure CachedAddr where
  value : String := ""
  stamp : Time := 0

/-- How long a cached address is used: two minutes, in nanoseconds. -/
def cacheLifetime : Time := 120000000000

/-- A call of `resolveBase`: what its queries return, the address that the gate was started with,
and the time at which it has an answer or gives up. -/
structure ResolveCall where
  query : ℕ → Except String String
  fallback : String
  now : Time

/-- The outcome of the loop. -/
def ResolveCall.answer (call : ResolveCall) : Except String String :=
  (attempts call.query 1 (maxAttempts - 1)).1

/-- How many queries the loop makes. -/
def ResolveCall.asked (call : ResolveCall) : ℕ := (attempts call.query 1 (maxAttempts - 1)).2

/-- `resolveBase`, after the loop. -/
def resolveBase (cache : CachedAddr) (call : ResolveCall) : CachedAddr × Except String String :=
  match call.answer with
  | .ok addr => ({ value := addr, stamp := call.now }, .ok (ensureHTTPBase addr))
  | .error err =>
    (cache,
      if cache.value ≠ "" ∧ call.now - cache.stamp < cacheLifetime then
        .ok (ensureHTTPBase cache.value)
      else if Go.trimSpace call.fallback ≠ "" then .ok (ensureHTTPBase call.fallback)
      else .error err)

/-! ## The attempts -/

/-- All attempts before this one fail in a way that may pass. -/
def Reached (query : ℕ → Except String String) (first attempt : ℕ) : Prop :=
  ∀ i, first ≤ i → i < attempt → ∃ err, query i = .error err ∧ isRetryableResolveErr err = true

theorem reached_self (query : ℕ → Except String String) (first : ℕ) : Reached query first first :=
  fun _ hi hlt ↦ absurd hi (Nat.not_le.mpr hlt)

theorem Reached.succ {query : ℕ → Except String String} {first attempt : ℕ} {err : String}
    (herr : query first = .error err) (hretry : isRetryableResolveErr err = true)
    (h : Reached query (first + 1) attempt) : Reached query first attempt := by
  intro i hi hlt
  rcases Nat.eq_or_lt_of_le hi with rfl | hi
  · exact ⟨err, herr, hretry⟩
  · exact h i hi hlt

/-- The attempts stop at this one: it is reached, and it has an answer, or an error that will not
pass, or it is the last. -/
structure StopsAt (query : ℕ → Except String String) (first last attempt : ℕ) : Prop where
  first_le : first ≤ attempt
  le_last : attempt ≤ last
  reached : Reached query first attempt
  stops : ∀ err, query attempt = .error err → isRetryableResolveErr err = false ∨ attempt = last

/-- The result is that of the attempt at which the attempts stop, and no query is made after it. -/
theorem attempts_spec (query : ℕ → Except String String) (first left : ℕ) :
    ∃ asked, StopsAt query first (first + left) (first + asked)
      ∧ attempts query first left = (query (first + asked), asked + 1) := by
  induction left generalizing first with
  | zero =>
    exact ⟨0, ⟨le_refl _, le_refl _, reached_self query first, fun _ _ ↦ Or.inr rfl⟩, rfl⟩
  | succ left ih =>
    rw [attempts]
    rcases hquery : query first with err | addr
    · by_cases hretry : isRetryableResolveErr err = true
      · obtain ⟨asked, hstops, heq⟩ := ih (first + 1)
        have hnext : first + 1 + asked = first + (asked + 1) := by omega
        rw [hnext] at hstops heq
        refine ⟨asked + 1, ⟨by omega, by have := hstops.le_last; omega,
          hstops.reached.succ hquery hretry, fun err' herr' ↦ ?_⟩, ?_⟩
        · exact (hstops.stops err' herr').imp_right fun h ↦ by omega
        · simp only [hretry, if_true, heq]
      · refine ⟨0, ⟨le_refl _, Nat.le_add_right _ _, reached_self query first, ?_⟩, ?_⟩
        · intro err' herr'
          rw [Nat.add_zero, hquery] at herr'
          cases herr'
          exact Or.inl (Bool.eq_false_iff.mpr hretry)
        · simp [hretry, hquery]
    · refine ⟨0, ⟨le_refl _, Nat.le_add_right _ _, reached_self query first, ?_⟩, ?_⟩
      · intro err' herr'
        rw [Nat.add_zero, hquery] at herr'
        cases herr'
      · simp only [Nat.add_zero, hquery]

theorem StopsAt.unique {query : ℕ → Except String String} {first last attempt attempt' : ℕ}
    (h : StopsAt query first last attempt) (h' : StopsAt query first last attempt') :
    attempt = attempt' := by
  have hle : ∀ {a b}, StopsAt query first last a → StopsAt query first last b → a ≤ b := by
    intro a b ha hb
    by_contra hlt
    -- an attempt that is passed failed in a way that may pass, so the loop did not stop there
    obtain ⟨err, herr, hretry⟩ := ha.reached b hb.first_le (Nat.lt_of_not_le hlt)
    rcases hb.stops err herr with hfatal | hlast
    · rw [hretry] at hfatal
      cases hfatal
    · have := ha.le_last
      omega
  exact le_antisymm (hle h h') (hle h' h)

theorem StopsAt.congr {query query' : ℕ → Except String String} {first last attempt : ℕ}
    (h : StopsAt query first last attempt)
    (hsame : ∀ i, first ≤ i → i ≤ attempt → query' i = query i) :
    StopsAt query' first last attempt where
  first_le := h.first_le
  le_last := h.le_last
  reached i hi hlt := by
    rw [hsame i hi hlt.le]
    exact h.reached i hi hlt
  stops err herr := by
    rw [hsame attempt h.first_le (le_refl _)] at herr
    exact h.stops err herr

theorem attempts_of_stopsAt {query : ℕ → Except String String} {attempt : ℕ}
    (h : StopsAt query 1 6 attempt) :
    attempts query 1 (maxAttempts - 1) = (query attempt, attempt) := by
  obtain ⟨asked, hstops, heq⟩ := attempts_spec query 1 (maxAttempts - 1)
  have hattempt : attempt = 1 + asked := h.unique hstops
  rw [heq, hattempt, Nat.add_comm]

/-! ## The cache -/

/-- The answer of a call and its time, if it had one. -/
def ResolveCall.given (call : ResolveCall) : Option (String × Time) :=
  match call.answer with
  | .ok addr => some (addr, call.now)
  | .error _ => none

/-- The last answer that any of the calls was given, and its time. -/
def lastAnswer (calls : List ResolveCall) : Option (String × Time) :=
  calls.reverse.findSome? ResolveCall.given

theorem lastAnswer_append (calls : List ResolveCall) (call : ResolveCall) :
    lastAnswer (calls ++ [call]) = call.given.or (lastAnswer calls) := by
  rw [lastAnswer, List.reverse_append, List.reverse_singleton, List.singleton_append,
    List.findSome?_cons]
  cases call.given <;> rfl

theorem cache_exec (calls : List ResolveCall) :
    Run.exec (fun cache call ↦ (resolveBase cache call).1) {} calls
      = (lastAnswer calls).elim {} fun p ↦ ⟨p.1, p.2⟩ := by
  induction calls using List.reverseRecOn with
  | nil => rfl
  | append_singleton calls call ih =>
    rw [Run.exec_append, Run.exec_cons, Run.exec_nil, ih, lastAnswer_append, resolveBase,
      ResolveCall.given]
    cases call.answer with
    | error err => rfl
    | ok addr => rfl

/-- **What a gate resolves.** Whatever calls have been made before, and whatever the registry
answers: a call asks at most six times. It stops at an answer or at an error that will not pass, and
what a later query would return has no influence. It returns the answer; or, if there was none, the
last answer that any call was given, if that is not empty and less than two minutes old; or else the
address that the gate was started with; or, without any of these, the last error. -/
theorem resolved_recent (calls : List ResolveCall) (call : ResolveCall) :
    let cache := Run.exec (fun cache call ↦ (resolveBase cache call).1) {} calls
    ∃ attempt, StopsAt call.query 1 6 attempt ∧ call.asked = attempt
      ∧ (∀ query, (∀ i, 1 ≤ i → i ≤ attempt → query i = call.query i) →
        resolveBase cache { call with query := query } = resolveBase cache call)
      ∧ (resolveBase cache call).2
        = match call.query attempt with
          | .ok addr => .ok (ensureHTTPBase addr)
          | .error err =>
            match (lastAnswer calls).filter fun p ↦ p.1 ≠ "" ∧ call.now - p.2 < cacheLifetime with
            | some (addr, _) => .ok (ensureHTTPBase addr)
            | none =>
              if Go.trimSpace call.fallback ≠ "" then .ok (ensureHTTPBase call.fallback)
              else .error err := by
  intro cache
  obtain ⟨asked, hstops, -⟩ := attempts_spec call.query 1 (maxAttempts - 1)
  have hsix : StopsAt call.query 1 6 (1 + asked) := hstops
  generalize 1 + asked = attempt at hsix
  refine ⟨attempt, hsix, congrArg Prod.snd (attempts_of_stopsAt hsix), fun query hsame ↦ ?_, ?_⟩
  · have hanswer : ResolveCall.answer { call with query := query } = call.answer := by
      rw [ResolveCall.answer, ResolveCall.answer, attempts_of_stopsAt hsix,
        attempts_of_stopsAt (hsix.congr hsame), hsame attempt hsix.first_le (le_refl _)]
    rw [resolveBase, resolveBase, hanswer]
  · have hanswer : call.answer = call.query attempt := congrArg Prod.fst (attempts_of_stopsAt hsix)
    have hcache : cache = (lastAnswer calls).elim {} fun p ↦ ⟨p.1, p.2⟩ := cache_exec calls
    rw [resolveBase, hanswer, hcache]
    rcases call.query attempt with err | addr
    · rcases lastAnswer calls with - | ⟨addr, stamp⟩
      · rfl
      · by_cases hfresh : addr ≠ "" ∧ call.now - stamp < cacheLifetime
        · simp [Option.filter, hfresh]
        · simp [Option.filter, hfresh]
    · rfl

end Gate

end TaskDiscovery
