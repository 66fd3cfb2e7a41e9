import TaskDiscovery.Lib.Run
import TaskDiscovery.Station.BackOffice

/-!
# Tickets and manifests

The card service sells tickets over `/ticket`, and lists them in manifests for the distributors to
poll. A loop wakes up at intervals. One tick of it asks for the tickets created since
`lastManifestTime`. If there are any, it lists the active tickets of the next fifteen minutes,
stores the list as a manifest, and sets `lastManifestTime` to the time it is then.

Requests may come between any two steps of a tick, and between the time that `InsertTicket` writes
into a row and the statement that inserts it. The model therefore takes the loop apart into its
single steps (`LoopPhase`), and a request into its two (`post`, `insert`). Every statement can fail.

## What is sold is not listed

A manifest lists rows with `active = TRUE`. The handler of `/ticket` builds its ticket without
setting `Active`, `InsertTicket` writes that zero value over the default of the column, and no
statement changes it later. So a row that was sold is inactive for ever, and a row that is listed
was active all along (`Sound`). No interleaving makes them meet.
-/

namespace TaskDiscovery

open Go (trimSpace)
open Station (Value Object)

namespace CardDb

/-! ## The tables -/

/-- `Ticket`, as it is handed to `InsertTicket`. The zero time is `none`, and what a literal leaves
out is zero. -/
structure NewTicket where
  stationId : String
  trainTime : Time
  passenger : String
  createdAt : Option Time := none
  active : Bool := false

/-- A row of `tickets`. -/
structure Ticket where
  id : ℕ
  stationId : String
  trainTime : Time
  passenger : String
  createdAt : Time
  active : Bool

/-- What a manifest says of a ticket. -/
structure ManifestTicket where
  id : ℕ
  stationId : String
  trainTime : Time
  passenger : String

/-- `Manifest`, with its payload decoded. -/
structure Manifest where
  id : String
  generated : Time
  tickets : List ManifestTicket

def Ticket.entry (x : Ticket) : ManifestTicket where
  id := x.id
  stationId := x.stationId
  trainTime := x.trainTime
  passenger := x.passenger

/-- The tables of the tickets. A `TIMESTAMPTZ` keeps less of a time than Go does. -/
structure TicketStore where
  tickets : List Ticket
  nextId : ℕ
  serial : Serial (tickets.map Ticket.id) nextId
  manifests : List Manifest
  timestamptz : Time → Time
  collation : Collation

namespace TicketStore

variable (s : TicketStore)

/-- The statement of `InsertTicket`. -/
def insertTicket (t : NewTicket) (created : Time) : TicketStore :=
  let row : Ticket :=
    { id := s.nextId, stationId := t.stationId, trainTime := s.timestamptz t.trainTime,
      passenger := t.passenger, createdAt := s.timestamptz created, active := t.active }
  { s with
    tickets := s.tickets ++ [row]
    nextId := s.nextId + 1
    serial := by
      rw [List.map_append]
      exact s.serial.append }

def getTicketsCreatedSince (since : Time) : List Ticket :=
  (s.tickets.filter fun x ↦ s.timestamptz since < x.createdAt).insertionSort
    fun x y ↦ x.createdAt ≤ y.createdAt

def getActiveTicketsWithin (now window : Time) : List Ticket :=
  (s.tickets.filter fun x ↦ x.active && decide (s.timestamptz now ≤ x.trainTime
    ∧ x.trainTime ≤ s.timestamptz (now + window))).insertionSort
      fun x y ↦ s.collation.le x.stationId y.stationId = true

/-- `InsertManifest`: a manifest with an id that is there already is dropped. -/
def insertManifest (m : Manifest) : TicketStore :=
  if m.id ∈ s.manifests.map Manifest.id then s
  else { s with manifests := s.manifests ++ [{ m with generated := s.timestamptz m.generated }] }

variable {s}

theorem mem_getActiveTicketsWithin {now window : Time} {x : Ticket}
    (h : x ∈ s.getActiveTicketsWithin now window) : x ∈ s.tickets ∧ x.active = true := by
  rw [getActiveTicketsWithin, List.mem_insertionSort, List.mem_filter, Bool.and_eq_true] at h
  exact ⟨h.1, h.2.1⟩

@[simp] theorem tickets_insertManifest (m : Manifest) :
    (s.insertManifest m).tickets = s.tickets := by
  rw [insertManifest]
  split_ifs <;> rfl

variable {active : Bool} {id : ℕ}

/-- The row with an id has this value in `active`. -/
def HasRow (s : TicketStore) (active : Bool) (id : ℕ) : Prop :=
  ∃ x ∈ s.tickets, x.id = id ∧ x.active = active

theorem HasRow.insertTicket (h : s.HasRow active id) (t : NewTicket) (created : Time) :
    (s.insertTicket t created).HasRow active id := by
  obtain ⟨x, hx, hid⟩ := h
  exact ⟨x, List.mem_append_left _ hx, hid⟩

theorem HasRow.insertManifest (h : s.HasRow active id) (m : Manifest) :
    (s.insertManifest m).HasRow active id := by
  rwa [HasRow, tickets_insertManifest]

theorem hasRow_insertTicket (t : NewTicket) (created : Time) :
    (s.insertTicket t created).HasRow t.active s.nextId :=
  ⟨_, List.mem_append_right _ (List.mem_singleton_self _), rfl, rfl⟩

theorem HasRow.unique {active' : Bool} (h : s.HasRow active id) (h' : s.HasRow active' id) :
    active = active' := by
  obtain ⟨x, hx, hid, rfl⟩ := h
  obtain ⟨y, hy, hid', rfl⟩ := h'
  rw [List.inj_on_of_nodup_map s.serial.nodup hx hy (hid.trans hid'.symm)]

end TicketStore

end CardDb

open CardDb (NewTicket Ticket ManifestTicket Manifest TicketStore Outcome)

namespace Cs

/-! ## The handler of `/ticket` -/

structure TicketRequest where
  stationId : String := ""
  trainTime : String := ""
  passenger : String := ""

def TicketRequest.setField (req : TicketRequest) : String × Value → Option TicketRequest
  | ("station_id", .text s) => some { req with stationId := s }
  | ("train_time", .text s) => some { req with trainTime := s }
  | ("passenger", .text s) => some { req with passenger := s }
  | _ => none

inductive TicketReply
  | ok (id : ℕ)
  | error (status : ℕ) (message : String)
  deriving DecidableEq

/-- The handler up to `InsertTicket`: a ticket, or a status and a message. A body that is no object
is `none`. -/
def newTicket (method : String) (body : Option Object) : Except (ℕ × String) NewTicket :=
  if method ≠ "POST" then .error (405, "method not allowed")
  else
    match body.bind (decodeStrict {} TicketRequest.setField) with
    | none => .error (400, "invalid json")
    | some req =>
      if trimSpace req.stationId = "" ∨ trimSpace req.trainTime = ""
          ∨ trimSpace req.passenger = "" then .error (400, "missing fields")
      else
        match Go.parseRFC3339Nano req.trainTime.toList with
        | none => .error (400, "invalid train_time")
        | some trainTime =>
          .ok { stationId := trimSpace req.stationId, trainTime := trainTime,
                passenger := trimSpace req.passenger }

/-- The handler leaves `Active` at its zero value. -/
theorem active_of_newTicket {method : String} {body : Option Object} {t : NewTicket}
    (h : newTicket method body = .ok t) : t.active = false := by
  simp only [newTicket] at h
  split_ifs at h
  split at h
  · cases h
  · split_ifs at h
    split at h
    · cases h
    · rw [← Except.ok.inj h]

/-! ## The service -/

/-- The fifteen minutes a manifest covers, in nanoseconds. -/
def manifestWindow : Time := 15 * 60 * 10 ^ 9

/-- `Unix`: the seconds since 1970 of a time, which counts from the year 1. -/
def unix (t : Time) : Int := t / 10 ^ 9 - 62135596800

/-- A tick of the loop: when it started, and the tickets that had been inserted by then. -/
structure Tick where
  start : Time
  present : List ℕ

/-- Where the loop is. -/
inductive LoopPhase
  | waiting
  | woken (tick : Tick)
  /-- There are new tickets. -/
  | found (tick : Tick)
  | dated (tick : Tick) (now : Time)
  | listed (tick : Tick) (activeTickets : List Ticket)
  | named (tick : Tick) (activeTickets : List Ticket) (id : String)
  | composed (tick : Tick) (manifest : Manifest)
  /-- The next step sets `lastManifestTime`. -/
  | closing (tick : Tick) (stored : Option (List ManifestTicket))

/-- A tick that is over, and the payload it has stored. -/
structure TickReport where
  tick : Tick
  stored : Option (List ManifestTicket)

/-- The service. `posts` are the calls of `InsertTicket` whose statement has not run, each with the
time for `created_at`. The replies and the ticks are kept as they come. -/
structure TicketService where
  store : TicketStore
  clock : Time
  posts : List (NewTicket × Time)
  lastManifestTime : Time
  loop : LoopPhase
  replies : List TicketReply
  ticks : List TickReport

inductive TicketEvent
  | elapse (d : ℕ)
  /-- A request arrives. -/
  | post (method : String) (body : Option Object)
  /-- The statement of a pending request runs. -/
  | insert (n : ℕ) (outcome : Outcome) (landed : Bool)
  /-- The loop takes its next step. -/
  | proceed (outcome : Outcome) (landed : Bool)

namespace TicketService

/-- The service when its loop begins. The tables may hold anything, such as the tickets of
`SeedTickets`. -/
def initial (store : TicketStore) (clock : Time) : TicketService where
  store := store
  clock := clock
  posts := []
  -- the zero time
  lastManifestTime := 0
  loop := .waiting
  replies := []
  ticks := []

variable (s : TicketService)

/-- A request up to the statement of `InsertTicket`. -/
def post (method : String) (body : Option Object) : TicketService :=
  match newTicket method body with
  | .error (status, message) => { s with replies := s.replies ++ [.error status message] }
  | .ok t => { s with posts := s.posts ++ [(t, t.createdAt.getD s.clock)] }

/-- The statement of a request, and its reply. -/
def insert (n : ℕ) (outcome : Outcome) (landed : Bool) : TicketService :=
  match s.posts[n]? with
  | none => s
  | some (t, created) =>
    if outcome.ok then
      { s with
        store := s.store.insertTicket t created
        posts := s.posts.eraseIdx n
        replies := s.replies ++ [.ok s.store.nextId] }
    else
      { s with
        store := if landed then s.store.insertTicket t created else s.store
        posts := s.posts.eraseIdx n
        replies := s.replies ++ [.error 503 "db error"] }

/-- The `continue` of the loop. -/
def endTick (tick : Tick) (stored : Option (List ManifestTicket)) : TicketService :=
  { s with loop := .waiting, ticks := s.ticks ++ [⟨tick, stored⟩] }

/-- What `InsertManifest` stores of a manifest. -/
def storedPayload (m : Manifest) : Option (List ManifestTicket) :=
  if m.id ∈ s.store.manifests.map Manifest.id then none else some m.tickets

/-- One step of the manifest loop. -/
def proceed (outcome : Outcome) (landed : Bool) : TicketService :=
  match s.loop with
  | .waiting => { s with loop := .woken ⟨s.clock, s.store.tickets.map Ticket.id⟩ }
  | .woken tick =>
    if outcome.ok then
      let newTickets := s.store.getTicketsCreatedSince s.lastManifestTime
      -- without new tickets `lastManifestTime` stays
      if newTickets.length = 0 then s.endTick tick none else { s with loop := .found tick }
    else s.endTick tick none
  | .found tick => { s with loop := .dated tick s.clock }
  | .dated tick now =>
    if outcome.ok then
      let activeTickets := s.store.getActiveTicketsWithin now manifestWindow
      if activeTickets.length = 0 then { s with loop := .closing tick none }
      else { s with loop := .listed tick activeTickets }
    else s.endTick tick none
  | .listed tick activeTickets =>
    { s with loop := .named tick activeTickets ("m-" ++ toString (unix s.clock)) }
  | .named tick activeTickets id =>
    let manifest : Manifest :=
      { id := id, generated := s.clock, tickets := activeTickets.map Ticket.entry }
    { s with loop := .composed tick manifest }
  | .composed tick m =>
    -- an id that is there already is no error
    if outcome.ok then
      { s with
        store := s.store.insertManifest m
        loop := .closing tick (s.storedPayload m) }
    else if landed then
      endTick { s with store := s.store.insertManifest m } tick (s.storedPayload m)
    else s.endTick tick none
  | .closing tick stored => endTick { s with lastManifestTime := s.clock } tick stored

def step (s : TicketService) : TicketEvent → TicketService
  | .elapse d => { s with clock := s.clock + d }
  | .post method body => s.post method body
  | .insert n outcome landed => s.insert n outcome landed
  | .proceed outcome landed => s.proceed outcome landed

end TicketService

/-! ## What is listed -/

/-- The tickets that the loop is about to list. -/
def LoopPhase.ids : LoopPhase → List ℕ
  | .listed _ activeTickets | .named _ activeTickets _ => activeTickets.map Ticket.id
  | .composed _ m => m.tickets.map ManifestTicket.id
  | .closing _ stored => (stored.getD []).map ManifestTicket.id
  | .waiting | .woken _ | .found _ | .dated _ _ => []

/-- The tickets that a tick has listed. -/
def TickReport.ids (r : TickReport) : List ℕ := (r.stored.getD []).map ManifestTicket.id

namespace TicketService

/-- **The invariant.** What is sold is inactive, and what is listed is active. -/
structure Sound (s : TicketService) : Prop where
  posts : ∀ p ∈ s.posts, p.1.active = false
  sold : ∀ id, .ok id ∈ s.replies → s.store.HasRow false id
  carried : ∀ id ∈ s.loop.ids, s.store.HasRow true id
  reported : ∀ r ∈ s.ticks, ∀ id ∈ r.ids, s.store.HasRow true id

theorem sound_initial (store : TicketStore) (clock : Time) : (initial store clock).Sound where
  posts := by simp [initial]
  sold := by simp [initial]
  carried := by simp [initial, LoopPhase.ids]
  reported := by simp [initial]

variable {s : TicketService}

namespace Sound

theorem withLoop (h : s.Sound) {loop : LoopPhase}
    (hloop : ∀ id ∈ loop.ids, s.store.HasRow true id) : { s with loop := loop }.Sound :=
  ⟨h.posts, h.sold, hloop, h.reported⟩

theorem withStore (h : s.Sound) {store : TicketStore}
    (hstore : ∀ active id, s.store.HasRow active id → store.HasRow active id) :
    { s with store := store }.Sound where
  posts := h.posts
  sold id hid := hstore _ _ (h.sold id hid)
  carried id hid := hstore _ _ (h.carried id hid)
  reported r hr id hid := hstore _ _ (h.reported r hr id hid)

theorem withReply (h : s.Sound) {reply : TicketReply}
    (hreply : ∀ id, reply = .ok id → s.store.HasRow false id) :
    { s with replies := s.replies ++ [reply] }.Sound := by
  refine ⟨h.posts, fun id hid ↦ ?_, h.carried, h.reported⟩
  rcases List.mem_append.mp hid with hid | hid
  · exact h.sold id hid
  · exact hreply id (List.mem_singleton.mp hid).symm

theorem endTick (h : s.Sound) {stored : Option (List ManifestTicket)} (tick : Tick)
    (hstored : ∀ id ∈ (stored.getD []).map ManifestTicket.id, s.store.HasRow true id) :
    (s.endTick tick stored).Sound := by
  refine ⟨h.posts, h.sold, by simp [TicketService.endTick, LoopPhase.ids], fun r hr ↦ ?_⟩
  rcases List.mem_append.mp hr with hr | hr
  · exact h.reported r hr
  · rw [List.mem_singleton.mp hr]
    exact hstored

theorem endTick_none (h : s.Sound) (tick : Tick) : (s.endTick tick none).Sound :=
  h.endTick tick (by simp)

theorem post (h : s.Sound) (method : String) (body : Option Object) :
    (s.post method body).Sound := by
  rw [TicketService.post]
  cases hnew : newTicket method body with
  | error e => exact h.withReply (by simp)
  | ok t =>
    refine ⟨fun p hp ↦ ?_, h.sold, h.carried, h.reported⟩
    rcases List.mem_append.mp hp with hp | hp
    · exact h.posts p hp
    · rw [List.mem_singleton.mp hp]
      exact active_of_newTicket hnew

theorem eraseIdx (h : s.Sound) (n : ℕ) : { s with posts := s.posts.eraseIdx n }.Sound :=
  ⟨fun p hp ↦ h.posts p (List.mem_of_mem_eraseIdx hp), h.sold, h.carried, h.reported⟩

theorem insert (h : s.Sound) (n : ℕ) (outcome : Outcome) (landed : Bool) :
    (s.insert n outcome landed).Sound := by
  rw [TicketService.insert]
  cases hpost : s.posts[n]? with
  | none => exact h
  | some p =>
    obtain ⟨t, created⟩ := p
    have hactive : t.active = false := h.posts (t, created) (List.mem_of_getElem? hpost)
    have hinserted : { s with store := s.store.insertTicket t created }.Sound :=
      h.withStore fun _ _ hrow ↦ hrow.insertTicket t created
    dsimp only
    split_ifs
    · -- the id of the reply is that of the new row
      refine (hinserted.eraseIdx n).withReply fun id hid ↦ ?_
      cases hid
      rw [← hactive]
      exact TicketStore.hasRow_insertTicket t created
    · exact (hinserted.eraseIdx n).withReply (by simp)
    · exact (h.eraseIdx n).withReply (by simp)

theorem storedPayload (h : s.Sound) {tick : Tick} {m : Manifest}
    (hloop : s.loop = .composed tick m) :
    ∀ id ∈ ((s.storedPayload m).getD []).map ManifestTicket.id, s.store.HasRow true id := by
  intro id hid
  rw [TicketService.storedPayload] at hid
  split_ifs at hid
  · simp at hid
  · exact h.carried id (hloop ▸ hid)

theorem proceed (h : s.Sound) (outcome : Outcome) (landed : Bool) :
    (s.proceed outcome landed).Sound := by
  have hcarried := h.carried
  rw [TicketService.proceed]
  cases hloop : s.loop with
  | waiting => exact h.withLoop (by simp [LoopPhase.ids])
  | woken tick =>
    dsimp only
    split_ifs
    · exact h.endTick_none tick
    · exact h.withLoop (by simp [LoopPhase.ids])
    · exact h.endTick_none tick
  | found tick => exact h.withLoop (by simp [LoopPhase.ids])
  | dated tick now =>
    dsimp only
    split_ifs
    · exact h.withLoop (by simp [LoopPhase.ids])
    · -- the query selects active rows; from here on the loop carries them
      refine h.withLoop fun id hid ↦ ?_
      obtain ⟨x, hx, rfl⟩ := List.mem_map.mp hid
      obtain ⟨hrow, hactive⟩ := TicketStore.mem_getActiveTicketsWithin hx
      exact ⟨x, hrow, rfl, hactive⟩
    · exact h.endTick_none tick
  | listed tick activeTickets =>
    rw [hloop] at hcarried
    exact h.withLoop hcarried
  | named tick activeTickets id =>
    rw [hloop] at hcarried
    refine h.withLoop fun id hid ↦ hcarried id ?_
    simpa [LoopPhase.ids, Ticket.entry] using hid
  | composed tick m =>
    have hpayload := h.storedPayload hloop
    have hstored : { s with store := s.store.insertManifest m }.Sound :=
      h.withStore fun _ _ hrow ↦ hrow.insertManifest m
    dsimp only
    split_ifs
    · have hclosing : ∀ id ∈ (LoopPhase.closing tick (s.storedPayload m)).ids,
          (s.store.insertManifest m).HasRow true id :=
        fun id hid ↦ (hpayload id hid).insertManifest m
      exact hstored.withLoop hclosing
    · exact hstored.endTick tick fun id hid ↦ (hpayload id hid).insertManifest m
    · exact h.endTick_none tick
  | closing tick stored =>
    rw [hloop] at hcarried
    exact endTick (s := { s with lastManifestTime := s.clock })
      ⟨h.posts, h.sold, h.carried, h.reported⟩ tick hcarried

theorem step (h : s.Sound) (e : TicketEvent) : (s.step e).Sound := by
  cases e with
  | elapse d => exact ⟨h.posts, h.sold, h.carried, h.reported⟩
  | post method body => exact h.post method body
  | insert n outcome landed => exact h.insert n outcome landed
  | proceed outcome landed => exact h.proceed outcome landed

theorem notMem_ids (h : s.Sound) {id : ℕ} (hsold : .ok id ∈ s.replies) {r : TickReport}
    (hr : r ∈ s.ticks) : id ∉ r.ids :=
  fun hid ↦ Bool.false_ne_true ((h.sold id hsold).unique (h.reported r hr id hid))

end Sound

theorem sound_exec (store : TicketStore) (clock : Time) (events : List TicketEvent) :
    (Run.exec step (initial store clock) events).Sound :=
  Run.invariant (fun _ e h ↦ h.step e) (sound_initial store clock) events

/-! ## What is due -/

/-- The tick starts after the ticket was inserted, and its train leaves within fifteen minutes. -/
def Due (x : Ticket) (r : TickReport) : Prop :=
  x.id ∈ r.tick.present ∧ r.tick.start ≤ x.trainTime
    ∧ x.trainTime ≤ r.tick.start + manifestWindow

instance (x : Ticket) (r : TickReport) : Decidable (Due x r) := instDecidableAnd

/-- **No sold ticket misses the manifests.** The first tick at which a ticket is due, of those
acknowledged with `ok`, has stored a payload that contains it. -/
def Manifested (s : TicketService) : Prop :=
  ∀ x ∈ s.store.tickets, .ok x.id ∈ s.replies → ∀ r ∈ s.ticks.find? (Due x),
    ∃ payload ∈ r.stored, x.id ∈ payload.map ManifestTicket.id

instance (s : TicketService) : Decidable s.Manifested := List.decidableBAll _ _

/-- **Sold tickets are never listed.** Whatever the tables hold in the beginning and however
requests and steps of the loop interleave, the sold tickets are in the manifests they are due for
only if none of them is ever due. -/
theorem manifested_iff (store : TicketStore) (clock : Time) (events : List TicketEvent) :
    (Run.exec step (initial store clock) events).Manifested
      ↔ ∀ x ∈ (Run.exec step (initial store clock) events).store.tickets,
          .ok x.id ∈ (Run.exec step (initial store clock) events).replies →
          ∀ r ∈ (Run.exec step (initial store clock) events).ticks, ¬Due x r := by
  have hsound := sound_exec store clock events
  generalize Run.exec step (initial store clock) events = s at hsound ⊢
  constructor
  · intro h x hx hsold r hr hdue
    have hsome : (s.ticks.find? (Due x)).isSome = true :=
      List.find?_isSome.mpr ⟨r, hr, decide_eq_true hdue⟩
    obtain ⟨first, hfirst⟩ := Option.isSome_iff_exists.mp hsome
    obtain ⟨payload, hpayload, hmem⟩ := h x hx hsold first hfirst
    refine hsound.notMem_ids hsold (List.mem_of_find?_eq_some hfirst) ?_
    rwa [TickReport.ids, Option.mem_def.mp hpayload]
  · intro h x hx hsold r hr
    have hdue := List.find?_some hr
    exact absurd (of_decide_eq_true hdue) (h x hx hsold r (List.mem_of_find?_eq_some hr))

/-- Eight o'clock. A seeded ticket is for a train at five past. -/
def eightOClock : TicketService :=
  initial
    { tickets := [{ id := 1, stationId := "A", trainTime := Go.date 2024 5 6 8 5 0 0,
                    passenger := "Alice-5", createdAt := Go.date 2024 5 6 8 0 0 0, active := true }]
      nextId := 2
      serial := ⟨by decide, by decide⟩
      manifests := []
      timestamptz := id
      collation := .codePoint }
    (Go.date 2024 5 6 8 0 0 0)

/-- A ticket is sold for the train at ten past, and then the loop goes round once. -/
def soldForTenPast : List TicketEvent :=
  [.post "POST" (some [("station_id", .text "B"), ("train_time", .text "2024-05-06T08:10:00Z"),
      ("passenger", .text "Bob")]),
    .insert 0 .done false, .elapse (10 ^ 9)]
    ++ List.replicate 8 (.proceed .done false)

/-- The ticket is acknowledged and due, and the manifest is stored without it. -/
theorem soldForTenPast_missing :
    (Run.exec step eightOClock soldForTenPast).replies = [.ok 2]
      ∧ (Run.exec step eightOClock soldForTenPast).ticks.map TickReport.ids = [[1]]
      ∧ (Run.exec step eightOClock soldForTenPast).store.manifests.map Manifest.id
        = ["m-1714982401"]
      ∧ ¬(Run.exec step eightOClock soldForTenPast).Manifested := by
  decide +kernel

end TicketService

end Cs

end TaskDiscovery
