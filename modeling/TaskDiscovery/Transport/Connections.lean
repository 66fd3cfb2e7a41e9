import TaskDiscovery.Lib.Run
import TaskDiscovery.Transport.Wire

/-!
# Connections with many requests

Over TCP and TLS a client may send any number of requests on one connection, one on each line, and
without waiting for responses. `handleTCPConn` answers them one after the other. The connection may
break at any point, also in the middle of a response, and a line that is too long ends it.

A `Connection` is a connection as its handler sees it. What `HandleMessage` does is left open: it
returns some response, at some time, while other handlers go on. So what is shown here holds for all
interleavings of connections and for every registry.

Whatever text arrives, its lines are answered in order, one response to each, and a line that is not
a message never gets to `HandleMessage` (`connection_answers`). A client that writes messages gets
the response to its first message first, the response to its second message second, and so on, until
the connection ends (`connection_pipelined`).
-/

namespace TaskDiscovery

open Go Go.Json

/-- A connection. The handler may be inside of `HandleMessage`, for the message on a line. The lines
that have been answered are kept with the responses to them. -/
structure Connection where
  unread : List (List Char)
  handling : Option (List Char × CentralizedMessage) := none
  written : List Char := []
  closed : Bool := false
  answered : List (List Char × CentralizedResponse) := []

/-- What can happen on a connection. Of a response, `sent` characters get through. -/
inductive ConnectionEvent
  | scan (sent : ℕ)
  | handled (resp : CentralizedResponse) (sent : ℕ)
  | close

/-- `Encode`, as the response to a line. The handler gives up when not all of it gets through. -/
def Connection.encode (s : Connection) (line : List Char) (resp : CentralizedResponse) (sent : ℕ) :
    Connection :=
  let text := marshalResponse resp ++ ['\n']
  if text.length ≤ sent then
    { s with written := s.written ++ text, answered := s.answered ++ [(line, resp)] }
  else { s with written := s.written ++ text.take sent, closed := true }

/-- The response to a line that is not a message. -/
def invalidJSON (describe : List Char → String) (line : List Char) : CentralizedResponse :=
  { status := "ERR", error := "invalid JSON: " ++ describe line }

/-- `handleTCPConn`, up to the next point where it can be interrupted. -/
def Connection.step (describe : List Char → String) (s : Connection) (e : ConnectionEvent) :
    Connection :=
  if s.closed then s
  else
    match e, s.handling, s.unread with
    | .scan _, none, [] => { s with closed := true }
    | .scan sent, none, line :: unread =>
      match unmarshalMessage line with
      | none =>
        let s' := s.encode line (invalidJSON describe line) sent
        if s'.closed then s' else { s' with unread := unread }
      | some msg => { s with handling := some (line, msg), unread := unread }
    | .handled resp sent, some (line, _), _ =>
      let s' := s.encode line resp sent
      if s'.closed then s' else { s' with handling := none }
    | .close, _, _ => { s with closed := true }
    | _, _, _ => s

/-- A connection on which a text arrives. -/
def Connection.start (text : List Char) : Connection := { unread := scanLines text }

/-- A connection on which a text arrives, as it is used. -/
def Connection.run (describe : List Char → String) (text : List Char)
    (events : List ConnectionEvent) : Connection :=
  Run.exec (Connection.step describe) (Connection.start text) events

/-- What a client reads with `ReadBytes` and `json.Unmarshal`. -/
def Connection.read (s : Connection) : List (Option CentralizedResponse) :=
  (readLines [] s.written).map fun line ↦ unmarshalResponse (line ++ ['\n'])

/-- A condition on responses of `HandleMessage`. -/
def Connection.Handles (Q : CentralizedMessage → CentralizedResponse → Prop) (s : Connection) :
    ConnectionEvent → Prop
  | .handled resp _ => ∀ p ∈ s.handling, Q p.2 resp
  | _ => True

instance (Q : CentralizedMessage → CentralizedResponse → Prop) [∀ msg resp, Decidable (Q msg resp)]
    (s : Connection) : DecidablePred (s.Handles Q)
  | .handled resp _ => inferInstanceAs (Decidable (∀ p ∈ s.handling, Q p.2 resp))
  | .scan _ | .close => isTrue trivial

/-- All responses of `HandleMessage` meet a condition. -/
def Connection.Served (describe : List Char → String)
    (Q : CentralizedMessage → CentralizedResponse → Prop) (text : List Char)
    (events : List ConnectionEvent) : Prop :=
  Run.Meets (Connection.step describe) (Connection.Handles Q) (Connection.start text) events

/-- How a line is answered, given how messages are. -/
def Answers (describe : List Char → String) (Q : CentralizedMessage → CentralizedResponse → Prop)
    (line : List Char) (resp : CentralizedResponse) : Prop :=
  match unmarshalMessage line with
  | none => resp = invalidJSON describe line
  | some msg => Q msg resp

/-! ## One step -/

section Step

variable {describe : List Char → String} {Q : CentralizedMessage → CentralizedResponse → Prop}
variable {lines : List (List Char)} {s : Connection}

/-- What holds while a connection is used. Nothing of a response is written before the response to
the line before it, and a part of a response only at the end. -/
structure Connection.Orderly (describe : List Char → String)
    (Q : CentralizedMessage → CentralizedResponse → Prop) (lines : List (List Char))
    (s : Connection) : Prop where
  lines_eq : lines
    = s.answered.map Prod.fst ++ (s.handling.map Prod.fst).toList ++ s.unread
  handling : ∀ p ∈ s.handling, unmarshalMessage p.1 = some p.2
  answers : ∀ p ∈ s.answered, Answers describe Q p.1 p.2
  written : ∃ rest, '\n' ∉ rest ∧ (s.closed = false → rest = [])
    ∧ s.written = onLines (s.answered.map fun p ↦ marshalResponse p.2) ++ rest

theorem orderly_start (text : List Char) :
    (Connection.start text).Orderly describe Q (scanLines text) where
  lines_eq := rfl
  handling := by
    rintro p ⟨⟩
  answers := by
    rintro p ⟨⟩
  written := ⟨[], List.not_mem_nil, fun _ ↦ rfl, rfl⟩

theorem Connection.Orderly.close (h : s.Orderly describe Q lines) :
    { s with closed := true : Connection }.Orderly describe Q lines where
  lines_eq := h.lines_eq
  handling := h.handling
  answers := h.answers
  written := by
    obtain ⟨rest, hrest, -, hwritten⟩ := h.written
    exact ⟨rest, hrest, fun hfalse ↦ (Bool.noConfusion hfalse), hwritten⟩

theorem not_mem_take {x : List Char} (hx : '\n' ∉ x) {n : ℕ} (hn : n < (x ++ ['\n']).length) :
    '\n' ∉ (x ++ ['\n']).take n := by
  rw [List.length_append, List.length_singleton] at hn
  rw [List.take_append_of_le_length (by omega)]
  exact fun hmem ↦ hx (List.mem_of_mem_take hmem)

theorem Connection.Orderly.cut (h : s.Orderly describe Q lines) (hopen : s.closed = false)
    (line : List Char) {resp : CentralizedResponse} {sent : ℕ}
    (hsent : sent < (marshalResponse resp ++ ['\n']).length) :
    (s.encode line resp sent).Orderly describe Q lines := by
  obtain ⟨rest, -, hrest, hwritten⟩ := h.written
  rw [hrest hopen, List.append_nil] at hwritten
  rw [Connection.encode, if_neg (by omega)]
  refine ⟨h.lines_eq, h.handling, h.answers, (marshalResponse resp ++ ['\n']).take sent, ?_,
    fun hfalse ↦ Bool.noConfusion hfalse, ?_⟩
  · exact not_mem_take (not_mem_of_printable (printable_response resp) (by decide)) hsent
  · change s.written ++ _ = _
    rw [hwritten]

theorem encode_of_le {line : List Char} {resp : CentralizedResponse} {sent : ℕ}
    (hsent : (marshalResponse resp ++ ['\n']).length ≤ sent) :
    s.encode line resp sent
      = { s with written := s.written ++ (marshalResponse resp ++ ['\n'])
                 answered := s.answered ++ [(line, resp)] } :=
  if_pos hsent

theorem Connection.Orderly.written_append (h : s.Orderly describe Q lines)
    (hopen : s.closed = false) (line : List Char) (resp : CentralizedResponse) :
    s.written ++ (marshalResponse resp ++ ['\n'])
      = onLines ((s.answered ++ [(line, resp)]).map fun p ↦ marshalResponse p.2) ++ [] := by
  obtain ⟨rest, -, hrest, hwritten⟩ := h.written
  rw [hrest hopen, List.append_nil] at hwritten
  rw [hwritten, List.map_append, onLines_append, List.append_nil, List.map_singleton, onLines_cons]
  rfl

theorem answers_append {answered : List (List Char × CentralizedResponse)} {line : List Char}
    {resp : CentralizedResponse} (h : ∀ p ∈ answered, Answers describe Q p.1 p.2)
    (hnew : Answers describe Q line resp) :
    ∀ p ∈ answered ++ [(line, resp)], Answers describe Q p.1 p.2 := by
  intro p hp
  rcases List.mem_append.mp hp with hp | hp
  · exact h p hp
  · rw [List.mem_singleton.mp hp]
    exact hnew

theorem Connection.Orderly.scan (h : s.Orderly describe Q lines) (hopen : s.closed = false)
    (hidle : s.handling = none) {line : List Char} {unread : List (List Char)}
    (hunread : s.unread = line :: unread) (sent : ℕ) :
    (s.step describe (.scan sent)).Orderly describe Q lines := by
  have hlines := h.lines_eq
  rw [hidle, hunread] at hlines
  rcases hmsg : unmarshalMessage line with _ | msg
  · have hstep : s.step describe (.scan sent)
        = if (s.encode line (invalidJSON describe line) sent).closed
          then s.encode line (invalidJSON describe line) sent
          else { s.encode line (invalidJSON describe line) sent with unread := unread } := by
      simp only [Connection.step, hopen, hidle, hunread, hmsg, Bool.false_eq_true, if_false]
    rw [hstep]
    by_cases hsent : (marshalResponse (invalidJSON describe line) ++ ['\n']).length ≤ sent
    · rw [encode_of_le hsent, if_neg (by simp [hopen])]
      refine ⟨?_, h.handling, ?_, [], List.not_mem_nil, fun _ ↦ rfl,
        h.written_append hopen line _⟩
      · simpa [hidle] using hlines
      · apply answers_append h.answers
        rw [Answers, hmsg]
    · have hcut := h.cut hopen line (Nat.lt_of_not_le hsent)
      rw [if_pos (by rw [Connection.encode, if_neg hsent])]
      exact hcut
  · have hstep : s.step describe (.scan sent)
        = { s with handling := some (line, msg), unread := unread } := by
      simp only [Connection.step, hopen, hidle, hunread, hmsg, Bool.false_eq_true, if_false]
    rw [hstep]
    refine ⟨?_, ?_, h.answers, h.written⟩
    · simpa using hlines
    · rintro p hp
      cases hp
      exact hmsg

theorem Connection.Orderly.handled (h : s.Orderly describe Q lines) (hopen : s.closed = false)
    {line : List Char} {msg : CentralizedMessage} (hbusy : s.handling = some (line, msg))
    {resp : CentralizedResponse} (hresp : Q msg resp) (sent : ℕ) :
    (s.step describe (.handled resp sent)).Orderly describe Q lines := by
  have hlines := h.lines_eq
  rw [hbusy] at hlines
  have hstep : s.step describe (.handled resp sent)
      = if (s.encode line resp sent).closed then s.encode line resp sent
        else { s.encode line resp sent with handling := none } := by
    simp only [Connection.step, hopen, hbusy, Bool.false_eq_true, if_false]
  rw [hstep]
  by_cases hsent : (marshalResponse resp ++ ['\n']).length ≤ sent
  · rw [encode_of_le hsent, if_neg (by simp [hopen])]
    refine ⟨?_, ?_, ?_, [], List.not_mem_nil, fun _ ↦ rfl, h.written_append hopen line _⟩
    · simpa using hlines
    · rintro p ⟨⟩
    · apply answers_append h.answers
      have hmsg : unmarshalMessage line = some msg := h.handling (line, msg) hbusy
      rw [Answers, hmsg]
      exact hresp
  · have hcut := h.cut hopen line (Nat.lt_of_not_le hsent)
    rw [if_pos (by rw [Connection.encode, if_neg hsent])]
    exact hcut

theorem Connection.Orderly.step (h : s.Orderly describe Q lines) {e : ConnectionEvent}
    (he : s.Handles Q e) : (s.step describe e).Orderly describe Q lines := by
  cases hclosed : s.closed with
  | true =>
    have hstep : s.step describe e = s := by simp only [Connection.step, hclosed, if_true]
    rwa [hstep]
  | false =>
    cases e with
    | close =>
      have hstep : s.step describe .close = { s with closed := true } := by
        simp only [Connection.step, hclosed, Bool.false_eq_true, if_false]
      rw [hstep]
      exact h.close
    | scan sent =>
      rcases hidle : s.handling with _ | p
      · rcases hunread : s.unread with _ | ⟨line, unread⟩
        · have hstep : s.step describe (.scan sent) = { s with closed := true } := by
            simp only [Connection.step, hclosed, hidle, hunread, Bool.false_eq_true, if_false]
          rw [hstep]
          exact h.close
        · exact h.scan hclosed hidle hunread sent
      · have hstep : s.step describe (.scan sent) = s := by
          simp only [Connection.step, hclosed, hidle, Bool.false_eq_true, if_false]
        rwa [hstep]
    | handled resp sent =>
      rcases hbusy : s.handling with _ | ⟨line, msg⟩
      · have hstep : s.step describe (.handled resp sent) = s := by
          simp only [Connection.step, hclosed, hbusy, Bool.false_eq_true, if_false]
        rwa [hstep]
      · exact h.handled hclosed hbusy (he (line, msg) hbusy) sent

theorem Connection.Orderly.read_eq (h : s.Orderly describe Q lines) :
    s.read = s.answered.map fun p ↦ some p.2 := by
  obtain ⟨rest, hrest, -, hwritten⟩ := h.written
  rw [Connection.read, hwritten, readLines_onLines _ hrest, List.map_map]
  · exact List.map_congr_left fun p _ ↦ unmarshalResponse_line p.2
  · intro x hx
    obtain ⟨p, -, rfl⟩ := List.mem_map.mp hx
    exact not_mem_of_printable (printable_response p.2) (by decide)

theorem Connection.Orderly.forall₂ (h : s.Orderly describe Q lines) :
    List.Forall₂ (Answers describe Q) (lines.take s.answered.length)
      (s.answered.map Prod.snd) := by
  have htake : lines.take s.answered.length = s.answered.map Prod.fst := by
    rw [h.lines_eq, List.append_assoc, List.take_left' (List.length_map _)]
  rw [htake, List.forall₂_map_left_iff, List.forall₂_map_right_iff, List.forall₂_same]
  exact h.answers

end Step

/-! ## Whole connections -/

section Connections

variable {describe : List Char → String} {Q : CentralizedMessage → CentralizedResponse → Prop}

theorem orderly_run {text : List Char} {events : List ConnectionEvent}
    (hevents : Connection.Served describe Q text events) :
    (Connection.run describe text events).Orderly describe Q (scanLines text) :=
  Run.Meets.invariant (fun _ _ hs he ↦ hs.step he) (orderly_start text) hevents

/-- **Lines are answered in order.** Whatever text arrives on a connection, in whichever way it is
used and whenever it breaks: what the client can read are responses to the first lines of the text,
one to each and in order. A line that is not a message is answered with an error, and any other with
what `HandleMessage` returned for the message on it. -/
theorem connection_answers (text : List Char) (events : List ConnectionEvent)
    (hevents : Connection.Served describe Q text events) :
    ∃ resps, (Connection.run describe text events).read = resps.map some
      ∧ List.Forall₂ (Answers describe Q) ((scanLines text).take resps.length) resps := by
  have h := orderly_run hevents
  generalize Connection.run describe text events = s at h
  refine ⟨s.answered.map Prod.snd, ?_, ?_⟩
  · rw [h.read_eq, List.map_map]
    rfl
  · rw [List.length_map]
    exact h.forall₂

/-- A registration, a line that is no message, and a query. -/
def mixedLines : List Char :=
  onLines [marshalMessage { command := "REGISTER", task := "scan", address := "10.0.0.1:80" },
    "PING".toList, marshalMessage { command := "QUERY", task := "scan" }]

/-- All of them are answered, the messages by `HandleMessage`. -/
def mixedEvents : List ConnectionEvent :=
  [.scan 0, .handled { status := "OK" } 100, .scan 100, .scan 0,
   .handled { status := "OK", address := "10.0.0.1:80" } 100]

theorem connection_answers_mixed :
    (Connection.run (fun _ ↦ "not JSON") mixedLines mixedEvents).read
        = [some { status := "OK" }, some { status := "ERR", error := "invalid JSON: not JSON" },
          some { status := "OK", address := "10.0.0.1:80" }]
      ∧ ∃ resps, (Connection.run (fun _ ↦ "not JSON") mixedLines mixedEvents).read = resps.map some
        ∧ List.Forall₂ (Answers (fun _ ↦ "not JSON") fun msg resp ↦
            resp.address = if msg.command = "QUERY" then "10.0.0.1:80" else "")
          ((scanLines mixedLines).take resps.length) resps := by
  refine ⟨by decide +kernel, connection_answers mixedLines mixedEvents ?_⟩
  exact ⟨trivial, by decide +kernel, trivial, trivial, by decide +kernel, trivial⟩

theorem scanLines_messages {ms : List CentralizedMessage}
    (hshort : ∀ msg ∈ ms, byteLength (marshalMessage msg) < maxScanTokenSize) :
    scanLines (onLines (ms.map marshalMessage)) = ms.map marshalMessage := by
  have hprint : ∀ x ∈ ms.map marshalMessage, Printable x := by
    intro x hx
    obtain ⟨msg, -, rfl⟩ := List.mem_map.mp hx
    exact printable_message msg
  apply scanLines_onLines
  · exact fun x hx ↦ not_mem_of_printable (hprint x hx) (by decide)
  · exact fun x hx ↦ not_mem_of_printable (hprint x hx) (by decide)
  · intro x hx
    obtain ⟨msg, hmsg, rfl⟩ := List.mem_map.mp hx
    exact hshort msg hmsg

theorem answers_marshal {msg : CentralizedMessage} {resp : CentralizedResponse} :
    Answers describe Q (marshalMessage msg) resp ↔ Q msg resp := by
  rw [Answers, unmarshalMessage_marshal]

/-- **Requests may be pipelined.** A client writes messages with any texts, all of them within the
size that a line may have. However its connection is used and whenever it breaks, the client reads
what `HandleMessage` returned for its first message, then what it returned for its second message,
and so on. A message without a response is in the hands of the handler, or has not been read. -/
theorem connection_pipelined (ms : List CentralizedMessage)
    (hshort : ∀ msg ∈ ms, byteLength (marshalMessage msg) < maxScanTokenSize)
    (events : List ConnectionEvent)
    (hevents : Connection.Served describe Q (onLines (ms.map marshalMessage)) events) :
    let s := Connection.run describe (onLines (ms.map marshalMessage)) events
    ∃ resps, s.read = resps.map some ∧ List.Forall₂ Q (ms.take resps.length) resps
      ∧ ms.drop resps.length
        = (s.handling.map Prod.snd).toList ++ s.unread.filterMap unmarshalMessage := by
  have h := orderly_run hevents
  rw [scanLines_messages hshort] at h
  intro s
  change s.Orderly describe Q _ at h
  refine ⟨s.answered.map Prod.snd, ?_, ?_, ?_⟩
  · rw [h.read_eq, List.map_map]
    rfl
  · have hall := h.forall₂
    rw [← List.map_take, List.forall₂_map_left_iff] at hall
    rw [List.length_map]
    exact hall.imp fun _ _ ↦ answers_marshal.mp
  · have hdrop : (ms.map marshalMessage).drop s.answered.length
        = (s.handling.map Prod.fst).toList ++ s.unread := by
      rw [h.lines_eq, List.append_assoc, List.drop_left' (List.length_map _)]
    have hread := congrArg (List.filterMap unmarshalMessage) hdrop
    have hcomp : unmarshalMessage ∘ marshalMessage = some := funext unmarshalMessage_marshal
    rw [← List.map_drop, List.filterMap_map, hcomp, List.filterMap_some, List.filterMap_append]
      at hread
    rw [List.length_map, hread]
    congr 1
    rcases hbusy : s.handling with _ | p
    · rfl
    · simp [h.handling p hbusy]

end Connections

/-- A registration and a query that are sent together. -/
def pipelined : List CentralizedMessage :=
  [{ command := "REGISTER", task := "scan\n", address := "10.0.0.1:80", capacity := 2 },
   { command := "QUERY", task := "scan" }]

/-- What happens when they are handled and the connection breaks in the second response. -/
def pipelinedEvents : List ConnectionEvent :=
  [.scan 0, .handled { status := "OK" } 100, .scan 0,
   .handled { status := "OK", address := "10.0.0.1:80" } 7]

/-- The client reads the first response. -/
theorem connection_pipelined_broken :
    ∃ resps, (Connection.run (fun _ ↦ "") (onLines (pipelined.map marshalMessage))
        pipelinedEvents).read = resps.map some
      ∧ List.Forall₂ (fun _ resp ↦ resp.status = "OK") (pipelined.take resps.length) resps := by
  have hevents : Connection.Served (fun _ ↦ "") (fun _ resp ↦ resp.status = "OK")
      (onLines (pipelined.map marshalMessage)) pipelinedEvents :=
    ⟨trivial, fun _ _ ↦ rfl, trivial, fun _ _ ↦ rfl, trivial⟩
  obtain ⟨resps, hread, hresps, -⟩ :=
    connection_pipelined pipelined (by decide +kernel) pipelinedEvents hevents
  exact ⟨resps, hread, hresps⟩

end TaskDiscovery
