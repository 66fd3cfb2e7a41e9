import Mathlib.Data.Finset.Card
import TaskDiscovery.Lib.Run

/-!
# The life of a TCP server

`StartTCPServerWithContext` accepts connections in a loop, hands each of them to a handler of its
own if a semaphore allows it, and keeps those that are in use in a map. When its context is
cancelled a second goroutine, here the watcher, closes the listener and then every connection in the
map. The loop then waits for all handlers. The TLS server has the same loop.

All of these run at the same time. A run is a list of steps in any order, each of which is one
action of one goroutine between two points where another can come in between.

At no time are there more handlers at work than the semaphore has permits, and when the server has
returned, nothing is left of any connection (`server_accounts`). But the watcher looks into the map
once. A connection that has been accepted and is not yet in the map at that time is not closed, and
the server waits for the client to close it. This can happen to one connection at most
(`sweep_misses_one`).
-/

namespace TaskDiscovery

/-- How far a connection has come: up to the semaphore, and then either turned away or handled. A
handler returns, takes the connection out of the map, and gives back its permit. -/
inductive ConnStage
  | fresh
  | accepted
  | listed
  | overloaded
  | refused
  | serving
  | returned
  | unlisted
  | released
  | gone
  deriving DecidableEq

/-- Connections in the hands of the loop. -/
def ConnStage.inHand : ConnStage → Bool
  | .accepted | .listed | .overloaded | .refused => true
  | _ => false

/-- Connections that are in the map. -/
def ConnStage.isListed : ConnStage → Bool
  | .listed | .overloaded | .serving | .returned => true
  | _ => false

/-- Connections with a permit. -/
def ConnStage.holdsPermit : ConnStage → Bool
  | .serving | .returned | .unlisted => true
  | _ => false

/-- Connections whose handlers are waited for. -/
def ConnStage.isAwaited : ConnStage → Bool
  | .serving | .returned | .unlisted | .released => true
  | _ => false

/-- Connections that have been closed by whoever handled them. -/
def ConnStage.isShut : ConnStage → Bool
  | .returned | .unlisted | .released | .gone => true
  | _ => false

inductive AcceptLoop (κ : Type*)
  | accepting
  | handling (c : κ)
  | waiting
  | returned
  deriving DecidableEq

inductive Watcher
  | waiting
  | sweeping
  | finished
  deriving DecidableEq

/-- A server with its connections. The connections that have been accepted are kept in `seen`. -/
structure TCPServer (κ : Type*) where
  canceled : Bool := false
  listening : Bool := true
  loop : AcceptLoop κ := .accepting
  watcher : Watcher := .waiting
  activeConns : Finset κ := ∅
  closed : Finset κ := ∅
  permits : ℕ
  handlers : ℕ := 0
  stage : κ → ConnStage := fun _ ↦ .fresh
  seen : Finset κ := ∅

/-- What is done about one connection. The first five are steps of the loop, the others of the
handler. -/
inductive ConnStep
  | add
  | acquire
  | timeout
  | unlist
  | reject
  | finish
  | forget
  | release
  | done
  deriving DecidableEq

def ConnStep.source : ConnStep → ConnStage
  | .add => .accepted
  | .acquire => .listed
  | .timeout => .listed
  | .unlist => .overloaded
  | .reject => .refused
  | .finish => .serving
  | .forget => .returned
  | .release => .unlisted
  | .done => .released

def ConnStep.target : ConnStep → ConnStage
  | .add => .listed
  | .acquire => .serving
  | .timeout => .overloaded
  | .unlist => .refused
  | .reject => .gone
  | .finish => .returned
  | .forget => .unlisted
  | .release => .released
  | .done => .gone

inductive ServerStep (κ : Type*)
  | cancel
  | closeListener
  | sweep
  | accept (c : κ)
  | acceptFails
  | wait
  | on (m : ConnStep) (c : κ)

section Steps

variable {κ : Type*} [DecidableEq κ]

/-- What a step does about a connection. -/
def TCPServer.perform (s : TCPServer κ) (m : ConnStep) (c : κ) : TCPServer κ :=
  let s := { s with stage := Function.update s.stage c m.target }
  match m with
  | .add => { s with activeConns := insert c s.activeConns }
  | .acquire =>
    { s with permits := s.permits - 1, handlers := s.handlers + 1, loop := .accepting }
  | .timeout => s
  | .unlist => { s with activeConns := s.activeConns.erase c }
  | .reject => { s with closed := insert c s.closed, loop := .accepting }
  | .finish => { s with closed := insert c s.closed }
  | .forget => { s with activeConns := s.activeConns.erase c }
  | .release => { s with permits := s.permits + 1 }
  | .done => { s with handlers := s.handlers - 1 }

/-- Whether a step about a connection can be taken. -/
def TCPServer.Ready (s : TCPServer κ) (m : ConnStep) (c : κ) : Prop :=
  s.stage c = m.source ∧ (m = .acquire → 0 < s.permits)

instance (s : TCPServer κ) (m : ConnStep) (c : κ) : Decidable (s.Ready m c) :=
  inferInstanceAs (Decidable (_ ∧ (_ → _)))

/-- One step. A step that cannot be taken changes nothing. -/
def TCPServer.step (s : TCPServer κ) : ServerStep κ → TCPServer κ
  | .cancel => { s with canceled := true }
  | .closeListener =>
    if s.canceled ∧ s.watcher = .waiting then { s with listening := false, watcher := .sweeping }
    else s
  | .sweep =>
    if s.watcher = .sweeping then
      { s with closed := s.closed ∪ s.activeConns, watcher := .finished }
    else s
  | .accept c =>
    if s.loop = .accepting ∧ s.listening ∧ c ∉ s.seen then
      { s with loop := .handling c, seen := insert c s.seen
               stage := Function.update s.stage c .accepted }
    else s
  | .acceptFails =>
    -- the loop goes on after an error unless the server is being shut down
    if s.loop = .accepting ∧ (s.canceled ∨ ¬ s.listening) then { s with loop := .waiting } else s
  | .wait => if s.loop = .waiting ∧ s.handlers = 0 then { s with loop := .returned } else s
  | .on m c => if s.Ready m c then s.perform m c else s

/-- The connections that are served at the same time: `maxConcurrent`, or the default. -/
def connectionLimit (maxConcurrent : ℤ) : ℕ :=
  if maxConcurrent ≤ 0 then 5000 else maxConcurrent.toNat

/-- A server before its first connection. -/
def TCPServer.start (maxConcurrent : ℤ) : TCPServer κ :=
  { permits := connectionLimit maxConcurrent }

end Steps

/-! ## One step -/

section Invariant

variable {κ : Type*} [DecidableEq κ]

/-- The accepted connections in some stages. -/
def TCPServer.count (s : TCPServer κ) (p : ConnStage → Bool) : ℕ :=
  (s.seen.filter fun c ↦ p (s.stage c)).card

theorem card_filter_update {β : Type*} {s : Finset κ} {f : κ → β} {c : κ} (hc : c ∈ s) (v : β)
    (p : β → Bool) :
    (s.filter fun x ↦ p (Function.update f c v x)).card + (p (f c)).toNat
      = (s.filter fun x ↦ p (f x)).card + (p v).toNat := by
  have hrest : (s.erase c).filter (fun x ↦ p (Function.update f c v x))
      = (s.erase c).filter fun x ↦ p (f x) := by
    refine Finset.filter_congr fun x hx ↦ ?_
    rw [Function.update_of_ne (Finset.ne_of_mem_erase hx)]
  have hcard : ∀ q : κ → Bool, (s.filter fun x ↦ q x).card
      = ((s.erase c).filter fun x ↦ q x).card + (q c).toNat := by
    intro q
    rw [← Finset.insert_erase hc, Finset.filter_insert, Finset.erase_insert_eq_erase,
      Finset.erase_idem]
    cases hq : q c
    · simp
    · rw [if_pos rfl, Finset.card_insert_of_notMem (by simp)]
      rfl
  rw [hcard fun x ↦ p (Function.update f c v x), hcard fun x ↦ p (f x), hrest,
    Function.update_self]
  omega

/-- What holds of a server at all times. -/
structure TCPServer.Inv (limit : ℕ) (s : TCPServer κ) : Prop where
  permits : s.permits + s.count ConnStage.holdsPermit = limit
  handlers : s.handlers = s.count ConnStage.isAwaited
  seen : ∀ c, c ∈ s.seen ↔ s.stage c ≠ .fresh
  listed : ∀ c, c ∈ s.activeConns ↔ (s.stage c).isListed
  inHand : ∀ c, (s.stage c).inHand → s.loop = .handling c
  shut : ∀ c, (s.stage c).isShut → c ∈ s.closed
  returned : s.loop = .returned → s.handlers = 0
  listening : s.watcher ≠ .waiting → s.listening = false
  swept : s.watcher = .finished → (s.seen.filter (· ∉ s.closed)).card ≤ 1

variable {limit : ℕ} {s : TCPServer κ} {m : ConnStep} {c : κ}

theorem perform_stage : (s.perform m c).stage = Function.update s.stage c m.target := by
  cases m <;> rfl

theorem perform_seen : (s.perform m c).seen = s.seen := by cases m <;> rfl

theorem perform_watcher : (s.perform m c).watcher = s.watcher := by cases m <;> rfl

theorem perform_listening : (s.perform m c).listening = s.listening := by cases m <;> rfl

theorem TCPServer.Inv.count_perform (h : s.Inv limit) (hready : s.Ready m c)
    (p : ConnStage → Bool) :
    (s.perform m c).count p + (p m.source).toNat = s.count p + (p m.target).toNat := by
  have hc : c ∈ s.seen := by
    rw [h.seen, hready.1]
    cases m <;> decide
  have hcard := card_filter_update (f := s.stage) hc m.target p
  rw [hready.1] at hcard
  rw [TCPServer.count, perform_stage, perform_seen]
  exact hcard

theorem TCPServer.Inv.permits_perform (h : s.Inv limit) (hready : s.Ready m c) :
    (s.perform m c).permits + (s.perform m c).count ConnStage.holdsPermit = limit := by
  have hcount := h.count_perform hready ConnStage.holdsPermit
  have hpermits := h.permits
  have hacquire := hready.2
  cases m <;>
    simp only [TCPServer.perform, ConnStep.source, ConnStep.target, ConnStage.holdsPermit,
      Bool.toNat_true, Bool.toNat_false, forall_const] at * <;> omega

theorem TCPServer.Inv.handlers_perform (h : s.Inv limit) (hready : s.Ready m c) :
    (s.perform m c).handlers = (s.perform m c).count ConnStage.isAwaited := by
  have hcount := h.count_perform hready ConnStage.isAwaited
  have hhandlers := h.handlers
  cases m <;>
    simp only [TCPServer.perform, ConnStep.source, ConnStep.target, ConnStage.isAwaited,
      Bool.toNat_true, Bool.toNat_false] at * <;> omega

theorem TCPServer.Inv.listed_perform (h : s.Inv limit) (hready : s.Ready m c) (x : κ) :
    x ∈ (s.perform m c).activeConns ↔ ((s.perform m c).stage x).isListed := by
  rw [perform_stage]
  by_cases hx : x = c
  · subst hx
    have hlisted := h.listed x
    rw [hready.1] at hlisted
    rw [Function.update_self]
    cases m <;> simp_all [TCPServer.perform, ConnStep.source, ConnStep.target, ConnStage.isListed]
  · rw [Function.update_of_ne hx, ← h.listed]
    cases m <;> simp [TCPServer.perform, hx]

theorem TCPServer.Inv.inHand_perform (h : s.Inv limit) (hready : s.Ready m c) (x : κ)
    (hx : ((s.perform m c).stage x).inHand) : (s.perform m c).loop = .handling x := by
  have hsource : m.source.inHand → s.loop = .handling c := by
    rw [← hready.1]
    exact h.inHand c
  rw [perform_stage] at hx
  by_cases hxc : x = c
  · rw [hxc, Function.update_self] at hx
    rw [hxc]
    cases m <;> simp_all [TCPServer.perform, ConnStep.source, ConnStep.target, ConnStage.inHand]
  · -- the loop has one connection in its hands
    rw [Function.update_of_ne hxc] at hx
    have hloop := h.inHand x hx
    have hnot : ¬ m.source.inHand := by
      intro hin
      rw [hsource hin] at hloop
      exact hxc (AcceptLoop.handling.inj hloop).symm
    cases m <;> simp_all [TCPServer.perform, ConnStep.source, ConnStage.inHand]

theorem closed_perform : s.closed ⊆ (s.perform m c).closed := by
  cases m <;> simp [TCPServer.perform]

theorem TCPServer.Inv.shut_perform (h : s.Inv limit) (hready : s.Ready m c) (x : κ)
    (hx : ((s.perform m c).stage x).isShut) : x ∈ (s.perform m c).closed := by
  rw [perform_stage] at hx
  by_cases hxc : x = c
  · have hsource : m.source.isShut → c ∈ s.closed := by
      rw [← hready.1]
      exact h.shut c
    rw [hxc, Function.update_self] at hx
    rw [hxc]
    cases m <;> simp_all [TCPServer.perform, ConnStep.source, ConnStep.target, ConnStage.isShut]
  · rw [Function.update_of_ne hxc] at hx
    exact closed_perform (h.shut x hx)

theorem TCPServer.Inv.returned_perform (h : s.Inv limit)
    (hloop : (s.perform m c).loop = .returned) : (s.perform m c).handlers = 0 := by
  have hreturned := h.returned
  cases m <;> simp_all [TCPServer.perform]

theorem TCPServer.Inv.perform (h : s.Inv limit) (hready : s.Ready m c) :
    (s.perform m c).Inv limit where
  permits := h.permits_perform hready
  handlers := h.handlers_perform hready
  seen := by
    intro x
    rw [perform_seen, perform_stage, h.seen]
    by_cases hxc : x = c
    · rw [hxc, Function.update_self, hready.1]
      cases m <;> decide
    · rw [Function.update_of_ne hxc]
  listed := h.listed_perform hready
  inHand := h.inHand_perform hready
  shut := h.shut_perform hready
  returned := h.returned_perform
  listening := by
    rw [perform_watcher, perform_listening]
    exact h.listening
  swept := by
    rw [perform_watcher, perform_seen]
    intro hwatcher
    refine (Finset.card_le_card ?_).trans (h.swept hwatcher)
    intro x hx
    rw [Finset.mem_filter] at hx ⊢
    exact ⟨hx.1, fun hclosed ↦ hx.2 (closed_perform hclosed)⟩

/-- The connections that the watcher does not close are in the hands of the loop. -/
theorem TCPServer.Inv.sweep (h : s.Inv limit) (hwatcher : s.watcher = .sweeping) :
    { s with closed := s.closed ∪ s.activeConns, watcher := .finished : TCPServer κ }.Inv
      limit where
  permits := h.permits
  handlers := h.handlers
  seen := h.seen
  listed := h.listed
  inHand := h.inHand
  shut c hc := Finset.mem_union_left _ (h.shut c hc)
  returned := h.returned
  listening _ := h.listening (by rw [hwatcher]; decide)
  swept _ := by
    have hand : ∀ x ∈ s.seen.filter (· ∉ s.closed ∪ s.activeConns), s.loop = .handling x := by
      intro x hx
      rw [Finset.mem_filter, Finset.mem_union, not_or] at hx
      obtain ⟨hseen, hclosed, hactive⟩ := hx
      rw [h.seen] at hseen
      rw [h.listed] at hactive
      have hshut := fun hshut ↦ hclosed (h.shut x hshut)
      apply h.inHand
      revert hseen hactive hshut
      cases s.stage x <;> decide
    rw [Finset.card_le_one]
    intro x hx y hy
    have hloop := hand x hx
    rw [hand y hy] at hloop
    exact (AcceptLoop.handling.inj hloop).symm

/-- A connection that is accepted. The listener is open, so the watcher has not begun. -/
theorem TCPServer.Inv.accept (h : s.Inv limit) (hloop : s.loop = .accepting)
    (hlistening : s.listening = true) (hc : c ∉ s.seen) :
    { s with loop := .handling c, seen := insert c s.seen
             stage := Function.update s.stage c .accepted : TCPServer κ }.Inv limit := by
  have hfresh : s.stage c = .fresh := by
    rw [h.seen, not_not] at hc
    exact hc
  have hwatcher : s.watcher = .waiting := by
    by_contra hne
    rw [h.listening hne] at hlistening
    cases hlistening
  have hcount : ∀ p : ConnStage → Bool, p .fresh = false → p .accepted = false →
      ((insert c s.seen).filter fun x ↦ p (Function.update s.stage c .accepted x)).card
        = s.count p := by
    intro p hp hp'
    have hcard := card_filter_update (f := s.stage) (Finset.mem_insert_self c s.seen) .accepted p
    have hbefore : (insert c s.seen).filter (fun x ↦ p (s.stage x))
        = s.seen.filter fun x ↦ p (s.stage x) := by
      rw [Finset.filter_insert, if_neg (by simp [hfresh, hp])]
    rw [hfresh, hp, hp', hbefore] at hcard
    exact hcard
  refine ⟨?_, ?_, ?_, ?_, ?_, ?_, ?_, ?_, ?_⟩
  · rw [← h.permits]
    exact congrArg (s.permits + ·) (hcount _ rfl rfl)
  · rw [h.handlers]
    exact (hcount _ rfl rfl).symm
  · intro x
    by_cases hxc : x = c
    · simp [hxc]
    · simp [hxc, h.seen]
  · intro x
    by_cases hxc : x = c
    · have hlisted := h.listed c
      rw [hfresh] at hlisted
      simpa [hxc, ConnStage.isListed] using hlisted
    · simpa [hxc] using h.listed x
  · intro x hx
    by_cases hxc : x = c
    · rw [hxc]
    · change (Function.update s.stage c .accepted x).inHand at hx
      rw [Function.update_of_ne hxc] at hx
      rw [h.inHand x hx] at hloop
      cases hloop
  · intro x hx
    by_cases hxc : x = c
    · simp [hxc, ConnStage.isShut] at hx
    · change (Function.update s.stage c .accepted x).isShut at hx
      rw [Function.update_of_ne hxc] at hx
      exact h.shut x hx
  · intro hfalse
    cases hfalse
  · exact h.listening
  · intro hfinished
    rw [show s.watcher = .finished from hfinished] at hwatcher
    cases hwatcher

theorem TCPServer.Inv.leave (h : s.Inv limit) (hidle : ∀ x, s.loop ≠ .handling x)
    {loop : AcceptLoop κ} (hloop : loop = .returned → s.handlers = 0) :
    { s with loop := loop : TCPServer κ }.Inv limit :=
  { h with
    inHand := fun x hx ↦ (hidle x (h.inHand x hx)).elim
    returned := hloop }

theorem TCPServer.Inv.step (h : s.Inv limit) (a : ServerStep κ) :
    (s.step a).Inv limit := by
  cases a with
  | cancel => exact { h with }
  | closeListener =>
    rw [TCPServer.step]
    split_ifs
    · exact { h with listening := fun _ ↦ rfl, swept := by simp }
    · exact h
  | sweep =>
    rw [TCPServer.step]
    split_ifs with hwatcher
    · exact h.sweep hwatcher
    · exact h
  | accept c =>
    rw [TCPServer.step]
    split_ifs with hguard
    · exact h.accept hguard.1 hguard.2.1 hguard.2.2
    · exact h
  | acceptFails =>
    rw [TCPServer.step]
    split_ifs with hguard
    · exact h.leave (by simp [hguard.1]) (by simp)
    · exact h
  | wait =>
    rw [TCPServer.step]
    split_ifs with hguard
    · exact h.leave (by simp [hguard.1]) fun _ ↦ hguard.2
    · exact h
  | on m c =>
    rw [TCPServer.step]
    split_ifs with hready
    · exact h.perform hready
    · exact h

theorem inv_start (maxConcurrent : ℤ) :
    (TCPServer.start maxConcurrent : TCPServer κ).Inv (connectionLimit maxConcurrent) where
  permits := rfl
  handlers := rfl
  seen := by simp [TCPServer.start]
  listed := by simp [TCPServer.start, ConnStage.isListed]
  inHand := by simp [TCPServer.start, ConnStage.inHand]
  shut := by simp [TCPServer.start, ConnStage.isShut]
  returned := by simp [TCPServer.start]
  listening := by simp [TCPServer.start]
  swept := by simp [TCPServer.start]

/-! ## Whole runs -/

theorem inv_exec (maxConcurrent : ℤ) (acts : List (ServerStep κ)) :
    (Run.exec TCPServer.step (TCPServer.start maxConcurrent) acts).Inv
      (connectionLimit maxConcurrent) := by
  have hstep : ∀ (s : TCPServer κ) a, s.Inv (connectionLimit maxConcurrent) →
      (s.step a).Inv (connectionLimit maxConcurrent) :=
    fun s a hs ↦ hs.step a
  exact Run.invariant hstep (inv_start maxConcurrent) acts

theorem TCPServer.Inv.gone_of_returned (h : s.Inv limit) (hloop : s.loop = .returned)
    (hc : c ∈ s.seen) : s.stage c = .gone := by
  have hawaited : ¬ (s.stage c).isAwaited := by
    have hcount := h.handlers
    rw [h.returned hloop, eq_comm, TCPServer.count, Finset.card_eq_zero,
      Finset.filter_eq_empty_iff] at hcount
    exact hcount hc
  have hhand : ¬ (s.stage c).inHand := by
    intro hin
    rw [h.inHand c hin] at hloop
    cases hloop
  rw [h.seen] at hc
  revert hc hawaited hhand
  cases s.stage c <;> decide

theorem TCPServer.Inv.permits_of_returned (h : s.Inv limit) (hloop : s.loop = .returned) :
    s.permits = limit := by
  have hnone : s.count ConnStage.holdsPermit = 0 := by
    rw [TCPServer.count, Finset.card_eq_zero, Finset.filter_eq_empty_iff]
    intro c hc
    rw [h.gone_of_returned hloop hc]
    decide
  have hpermits := h.permits
  omega

/-- **A server accounts for its connections.** In every order of steps, at most `maxConcurrent`
connections are being served, or 5000 if that is not positive, and every permit is free or belongs
to one handler. Once the server has returned, every connection it has accepted is closed, no handler
is left, all permits are free, and the map is empty. -/
theorem server_accounts (maxConcurrent : ℤ) (acts : List (ServerStep κ)) :
    let s := Run.exec TCPServer.step (TCPServer.start maxConcurrent) acts
    s.count (· = .serving) ≤ connectionLimit maxConcurrent
      ∧ s.permits + s.count ConnStage.holdsPermit = connectionLimit maxConcurrent
      ∧ (s.loop = .returned → (∀ c ∈ s.seen, c ∈ s.closed) ∧ s.count ConnStage.isAwaited = 0
        ∧ s.permits = connectionLimit maxConcurrent ∧ s.activeConns = ∅) := by
  intro s
  have h : s.Inv (connectionLimit maxConcurrent) := inv_exec maxConcurrent acts
  refine ⟨?_, h.permits, fun hloop ↦ ⟨fun c hc ↦ ?_, ?_, h.permits_of_returned hloop, ?_⟩⟩
  · have hle : s.count (· = .serving) ≤ s.count ConnStage.holdsPermit := by
      apply Finset.card_le_card
      intro c hc
      rw [Finset.mem_filter] at hc ⊢
      refine ⟨hc.1, ?_⟩
      rw [decide_eq_true_eq] at hc
      rw [hc.2]
      rfl
    have hpermits := h.permits
    omega
  · apply h.shut
    rw [h.gone_of_returned hloop hc]
    rfl
  · rw [← h.handlers, h.returned hloop]
  · rw [Finset.eq_empty_iff_forall_notMem]
    intro c hc
    rw [h.listed] at hc
    have hseen : c ∈ s.seen := by
      rw [h.seen]
      intro hfresh
      rw [hfresh] at hc
      cases hc
    rw [h.gone_of_returned hloop hseen] at hc
    cases hc

/-- **The sweep misses at most one connection.** In every order of steps, once the watcher has
closed the connections it found, all connections that were ever accepted are closed, up to one. -/
theorem sweep_misses_one (maxConcurrent : ℤ) (acts : List (ServerStep κ)) :
    let s := Run.exec TCPServer.step (TCPServer.start maxConcurrent) acts
    s.watcher = .finished → (s.seen.filter (· ∉ s.closed)).card ≤ 1 :=
  (inv_exec maxConcurrent acts).swept

end Invariant

/-- A shutdown while a connection has been accepted and is not in the map. -/
def lateConnection : List (ServerStep ℕ) :=
  [.accept 0, .on .add 0, .on .acquire 0, .accept 1, .cancel, .closeListener, .sweep, .on .add 1,
   .on .acquire 1, .on .finish 0, .on .forget 0, .on .release 0, .on .done 0, .acceptFails, .wait]

/-- The watcher has missed this connection. The server waits for its handler. -/
theorem sweep_misses_late :
    let s := Run.exec TCPServer.step (TCPServer.start 2) lateConnection
    s.seen.filter (· ∉ s.closed) = {1} ∧ s.stage 1 = .serving ∧ s.loop = .waiting
      ∧ (s.seen.filter (· ∉ s.closed)).card ≤ 1 :=
  ⟨by decide, by decide, by decide, sweep_misses_one 2 lateConnection (by decide)⟩

end TaskDiscovery
