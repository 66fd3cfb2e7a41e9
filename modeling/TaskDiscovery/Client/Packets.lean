import Mathlib.Algebra.BigOperators.Group.List.Basic
import TaskDiscovery.Client.Calls

/-!
# Components and their proxy

The components of a station register and look for services with the client library `simproxy`. It
sends a request to the proxy of its machine, which forwards it to the server, and reads the answer
of the proxy. Over UDP both read into buffers of 2048 bytes.

For proxies that answer with plain text, `simproxy` takes whatever is not JSON and not one of three
words for an address. An answer that is cut off by the buffer is not JSON. So a component whose
proxy has a long error to report is told that all went well (`simRegister_ok_iff`), and a query
returns a piece of JSON instead of an address (`simQuery_eq`). With shorter answers, or over TCP, a
component gets what the proxy says.

That is so when the answer arrives. Anything can fail on the way there and back (`LocalFault`), and
an answer that does not fit into a datagram is not sent at all. The proxy counts the answers that it
could not send (`packets_counted`); the component only sees its deadline pass.
-/

namespace TaskDiscovery

namespace Client

open Go Go.Json

/-! ## The proxy as a server -/

/-- The texts of `StatusOK`, `StatusErr` and `StatusNotFound`. -/
def ProxyStatus.text : ProxyStatus → String
  | .ok => "OK"
  | .err => "ERR"
  | .notFound => "NOTFOUND"

/-- The response that a proxy writes for a result. -/
def ProxyResult.response (result : ProxyResult) : CentralizedResponse :=
  { status := result.status.text, address := result.address, error := result.error }

/-- `json.Unmarshal` of a request. -/
def unmarshalText (describe : List Char → String) (data : String) :
    Except String CentralizedMessage :=
  match unmarshalMessage data.toList with
  | none => .error (describe data.toList)
  | some msg => .ok msg

/-- `regCount`, `queryCount` and `errorCount`. -/
structure Counters where
  regCount : ℕ := 0
  queryCount : ℕ := 0
  errorCount : ℕ := 0
  deriving DecidableEq

/-- How a handled request is counted: successes by the handlers, failures by their caller. -/
def Counters.count (c : Counters) (req : ProxyRequest) (result : ProxyResult) : Counters :=
  if result.status = .err then { c with errorCount := c.errorCount + 1 }
  else if req.command = "REGISTER" then { c with regCount := c.regCount + 1 }
  else { c with queryCount := c.queryCount + 1 }

/-- The size of the buffers between components and proxies, in bytes. -/
def packetBuffer : ℕ := 2048

/-- The size of the largest datagram, in bytes. -/
def maxDatagram : ℕ := 65507

section Proxy

variable {σ : Type} (describe : List Char → String)
  (handler : ProxyRequest → σ → σ × ProxyResult)

/-- A request as the proxy answers it: `handlePacketGeneric`, and the body of the loop of
`handleTCPProxyConn`. -/
def answerRequest (data : List Char) (p : σ × Counters) :
    (σ × Counters) × CentralizedResponse :=
  match parseProxyRequest (unmarshalText describe) (String.ofList data) with
  | .error err =>
    ((p.1, { p.2 with errorCount := p.2.errorCount + 1 }), { status := "ERR", error := err })
  | .ok req =>
    let (reg, result) := handler req p.1
    ((reg, p.2.count req result), result.response)

/-- The answer to a packet, and whether it was sent. -/
structure Reply where
  text : List Char
  sent : Bool

/-- `writeUDP`. A datagram that is too long is not sent, and others only if nothing else fails. -/
def writeUDP (sends : Bool) (text : List Char) (c : Counters) : Counters × Reply :=
  if sends ∧ byteLength text ≤ maxDatagram then (c, ⟨text, true⟩)
  else ({ c with errorCount := c.errorCount + 1 }, ⟨text, false⟩)

/-- `handlePacketGeneric`, for what the loop of `runUDPProxy` has read of a packet. -/
def handlePacket (packet : List Char) (sends : Bool) (p : σ × Counters) : (σ × Counters) × Reply :=
  let (p, resp) := answerRequest describe handler (trimText (readBuffer packetBuffer packet)) p
  let (c, reply) := writeUDP sends (marshalResponse resp) p.2
  ((p.1, c), reply)

/-- What the loop of `runUDPProxy` can meet. A deadline that passes only makes it look at its
context. -/
inductive PacketEvent
  | packet (data : List Char) (sends : Bool)
  | readFailed

/-- One turn of the loop, and the reply to a packet. -/
def runUDPProxy (p : σ × Counters) : PacketEvent → (σ × Counters) × Option Reply
  | .packet data sends =>
    let (p, reply) := handlePacket describe handler data sends p
    (p, some reply)
  | .readFailed => ((p.1, { p.2 with errorCount := p.2.errorCount + 1 }), none)

/-- `handleTCPProxyConn`, on the lines of a connection. -/
def handleTCPProxyConn : List (List Char) → σ × Counters → (σ × Counters) × List Char
  | [], p => (p, [])
  | line :: lines, p =>
    if trimText line = [] then handleTCPProxyConn lines p
    else
      let (p, resp) := answerRequest describe handler (trimText line) p
      let (p, written) := handleTCPProxyConn lines p
      (p, marshalResponse resp ++ '\n' :: written)

end Proxy

/-! ## The library of the components -/

/-- The tags of `simproxy.proxyRequest`, for a message without a capacity. -/
def requestFields : List (JsonField CentralizedMessage) :=
  [stringField "cmd" false (·.command) fun s msg ↦ { msg with command := s },
   stringField "task" true (·.task) fun s msg ↦ { msg with task := s },
   stringField "address" true (·.address) fun s msg ↦ { msg with address := s }]

/-- The tags of `simproxy.proxyResponse`. -/
def responseFields : List (JsonField CentralizedResponse) :=
  [stringField "status" false (·.status) fun s resp ↦ { resp with status := s },
   stringField "address" true (·.address) fun s resp ↦ { resp with address := s },
   stringField "error" true (·.error) fun s resp ↦ { resp with error := s }]

/-- `strings.EqualFold` with a text in ASCII. -/
def equalFold (s t : List Char) : Bool := s.map foldChar = t.map foldChar

/-- What `roundTripJSON` makes of an answer that is not JSON. -/
def plainAnswer (trimmed : List Char) : CentralizedResponse :=
  if equalFold trimmed "OK".toList then { status := "OK" }
  else if equalFold trimmed "NOTFOUND".toList then { status := "NOTFOUND" }
  else if "ERR".toList <+: (toUpper (String.ofList trimmed)).toList then
    let msg := if "ERR".toList <+: trimmed then trimmed.drop 3 else trimmed
    { status := "ERR", error := trimSpace (String.ofList msg) }
  else { status := "OK", address := String.ofList trimmed }

/-- `roundTripJSON`, after the round trip. -/
def readAnswer (respRaw : List Char) : CentralizedResponse :=
  match unmarshal responseFields { status := "" } respRaw with
  | some resp => resp
  | none => plainAnswer (trimText respRaw)

/-- How an `ERR` answer is reported. -/
def answerError (resp : CentralizedResponse) : String :=
  if trimSpace resp.error = "" then "proxy error" else trimSpace resp.error

/-- The report of a status that is not expected. -/
def unexpectedAnswer (quote : String → String) (resp : CentralizedResponse) : String :=
  "unexpected proxy response: status=" ++ quote resp.status ++ " error=" ++ quote resp.error

/-- `Client.Register`, after the round trip. -/
def readRegister (quote : String → String) (resp : CentralizedResponse) : Except String Unit :=
  if equalFold resp.status.toList "OK".toList then .ok ()
  else if equalFold resp.status.toList "ERR".toList then .error (answerError resp)
  else .error (unexpectedAnswer quote resp)

/-- `Client.Query`, after the round trip. -/
def readQuery (quote : String → String) (resp : CentralizedResponse) : Except String String :=
  if equalFold resp.status.toList "NOTFOUND".toList then .error "service not found"
  else if equalFold resp.status.toList "ERR".toList then .error (answerError resp)
  else if equalFold resp.status.toList "OK".toList then .ok (trimSpace resp.address)
  else .error (unexpectedAnswer quote resp)

/-- How a component reaches its proxy. -/
inductive LocalWire
  | udp
  | tcp

def LocalWire.name : LocalWire → String
  | .udp => "udp"
  | .tcp => "tcp"

/-- What can fail between a component and its proxy, with the error that the component gets: its
address, the connection or the write, or the request is lost, or the answer to it. Over UDP the
proxy may have failed to send the answer. -/
inductive LocalFault
  | resolve (err : String)
  | dial (err : String)
  | write (err : String)
  | lost (err : String)
  | unread (sends : Bool) (err : String)
  deriving DecidableEq

/-- The errors for the end of a stream, a datagram that is too long, and a deadline that has
passed. -/
structure LocalErrors where
  eof : String
  tooLong : String
  timeout : String

/-- The error of a write over UDP that fails because of what is written. -/
def LocalErrors.writeUDP (errs : LocalErrors) (payload : List Char) : Option String :=
  if byteLength payload ≤ maxDatagram then none else some ("write udp: " ++ errs.tooLong)

def simRegistration (task address : String) : CentralizedMessage :=
  { command := "REGISTER", task := trimSpace task, address := trimSpace address }

def simLookup (task : String) : CentralizedMessage := { command := "QUERY", task := trimSpace task }

section Components

variable {σ α : Type} (describe : List Char → String) (errs : LocalErrors)
  (quote : String → String) (handler : ProxyRequest → σ → σ × ProxyResult)

/-- What the proxy does with what was written, and what it writes. -/
def LocalWire.serve (w : LocalWire) (sends : Bool) (payload : List Char) (p : σ × Counters) :
    (σ × Counters) × Option (List Char) :=
  match w with
  | .udp =>
    let (p, reply) := handlePacket describe handler payload sends p
    (p, if reply.sent then some reply.text else none)
  | .tcp =>
    let (p, text) := handleTCPProxyConn describe handler (readLines [] (payload ++ ['\n'])) p
    (p, some text)

/-- `roundTripUDP` and `roundTripTCP` up to the write, and the error if it is not done. -/
def LocalWire.send (w : LocalWire) (fault : Option LocalFault) (payload : List Char) :
    Option String :=
  match w, fault with
  | .udp, some (.resolve err) => some ("resolve proxy addr: " ++ err)
  | .tcp, some (.resolve err) => some ("dial proxy tcp: " ++ err)
  | _, some (.dial err) => some ("dial proxy " ++ w.name ++ ": " ++ err)
  | _, some (.write err) => some ("write " ++ w.name ++ ": " ++ err)
  | .udp, _ => errs.writeUDP payload
  | .tcp, _ => none

/-- What they read. Over UDP nothing arrives when nothing was sent. -/
def LocalWire.receive (w : LocalWire) (text : Option (List Char)) : Except String (List Char) :=
  match w, text with
  | _, none => .error ("read " ++ w.name ++ ": " ++ errs.timeout)
  | .udp, some text => .ok (trimText (readBuffer packetBuffer text))
  | .tcp, some text =>
    match readLine text with
    | none => .error ("read tcp: " ++ errs.eof)
    | some line => .ok (trimText line)

def LocalWire.roundTrip (w : LocalWire) (fault : Option LocalFault) (payload : List Char)
    (p : σ × Counters) : (σ × Counters) × Except String (List Char) :=
  match w.send errs fault payload with
  | some err => (p, .error err)
  | none =>
    match fault with
    | some (.lost err) => (p, .error ("read " ++ w.name ++ ": " ++ err))
    | some (.unread sends err) =>
      ((w.serve describe handler sends payload p).1, .error ("read " ++ w.name ++ ": " ++ err))
    | _ =>
      let (p, text) := w.serve describe handler true payload p
      (p, w.receive errs text)

/-- A request of a component and the reading of the answer. -/
def LocalWire.request (w : LocalWire) (fault : Option LocalFault) (msg : CentralizedMessage)
    (read : CentralizedResponse → Except String α) (p : σ × Counters) :
    (σ × Counters) × Except String α :=
  let (p, raw) := w.roundTrip describe errs handler fault (marshal requestFields msg) p
  (p, raw.bind fun raw ↦ read (readAnswer raw))

/-- `Client.Register`. -/
def simRegister (w : LocalWire) (fault : Option LocalFault) (task address : String)
    (p : σ × Counters) : (σ × Counters) × Except String Unit :=
  if trimSpace task = "" ∨ trimSpace address = "" then (p, .error "missing task or address")
  else
    w.request describe errs handler fault (simRegistration task address) (readRegister quote) p

/-- `Client.Query`. -/
def simQuery (w : LocalWire) (fault : Option LocalFault) (task : String) (p : σ × Counters) :
    (σ × Counters) × Except String String :=
  if trimSpace task = "" then (p, .error "missing task")
  else w.request describe errs handler fault (simLookup task) (readQuery quote) p

end Components

/-! ## What is written is read -/

theorem marshal_requestFields {msg : CentralizedMessage} (htask : msg.task ≠ "")
    (hcapacity : msg.capacity = 0) : marshal requestFields msg = marshalMessage msg := by
  rw [marshalMessage, marshal, marshal, writeRecord, writeRecord]
  simp [requestFields, CentralizedMessage.fields, List.filterMap_cons, stringField, intField, htask,
    hcapacity]

theorem marshal_responseFields (resp : CentralizedResponse) :
    marshal responseFields resp = marshalResponse resp := rfl

theorem nodup_responseFields' : (responseFields.map JsonField.name).Nodup := by decide

theorem shallow_responseFields' : ∀ f ∈ responseFields, f.Shallow := by
  intro f hf
  simp only [responseFields, List.mem_cons, List.not_mem_nil, or_false] at hf
  rcases hf with rfl | rfl | rfl <;> exact shallow_stringField _ _ _ _

theorem readAnswer_marshal (resp : CentralizedResponse) :
    readAnswer (marshalResponse resp) = resp := by
  have hcopy : responseFields.foldlM (fun y f ↦ f.copy resp y) { status := "" } = some resp := by
    simp only [responseFields, List.foldlM_cons, List.foldlM_nil, copy_stringField,
      Option.bind_eq_bind, Option.bind_some]
    rfl
  have h := unmarshal_marshal nodup_responseFields' shallow_responseFields' resp { status := "" }
    (Or.inl rfl)
  rw [List.append_nil, hcopy, marshal_responseFields] at h
  rw [readAnswer, h]

theorem trimText_marshal {τ : Type} (fields : List (JsonField τ)) (x : τ) {rest : List Char}
    (hrest : rest = [] ∨ rest = ['\n']) :
    trimText (marshal fields x ++ rest) = marshal fields x := by
  obtain ⟨body, hbody⟩ := exists_marshal_eq fields x
  have hblank : rest.rdropWhile isSpace = [] := by rcases hrest with rfl | rfl <;> rfl
  have htrim := trimText_append (a := body) (b := rest) (c := '\x7b') (d := '\x7d') (by decide)
    (by decide)
  rw [hblank] at htrim
  rw [hbody, List.append_assoc]
  exact htrim

/-- What is left of an object that is cut off, after trimming. -/
theorem exists_trimText_readBuffer {τ : Type} {fields : List (JsonField τ)} {x : τ}
    (h : packetBuffer < byteLength (marshal fields x)) :
    ∃ p q broken, marshal fields x = '\x7b' :: p ++ q ∧ q ≠ [] ∧ Broken broken
      ∧ trimText (readBuffer packetBuffer (marshal fields x)) = '\x7b' :: p ++ broken := by
  obtain ⟨body, hbody⟩ := exists_marshal_eq fields x
  rw [hbody, List.cons_append] at h ⊢
  rw [byteLength_cons] at h
  have hsize : '\x7b'.utf8Size ≤ packetBuffer := by decide
  obtain ⟨p, q, k, htext, hq, hread⟩ :=
    exists_readBuffer (n := packetBuffer - '\x7b'.utf8Size) (s := body ++ ['\x7d']) (by omega)
  rw [readBuffer, if_pos hsize, hread, trimText_cons (by decide), htext]
  cases k with
  | zero =>
    obtain ⟨r, hr⟩ := List.rdropWhile_prefix isSpace p
    rw [List.replicate_zero, List.append_nil]
    refine ⟨p.rdropWhile isSpace, r ++ q, [], ?_, ?_, ?_, ?_⟩
    · rw [List.cons_append, ← List.append_assoc, hr]
    · simp [hq]
    · rintro c ⟨⟩
    · rw [List.append_nil]
  | succ k =>
    have hself : (p ++ List.replicate (k + 1) '\ufffd').rdropWhile isSpace
        = p ++ List.replicate (k + 1) '\ufffd' := by
      rw [List.replicate_succ', ← List.append_assoc]
      exact List.rdropWhile_concat_neg _ _ _ (by decide)
    rw [hself]
    exact ⟨p, q, List.replicate (k + 1) '\ufffd', rfl, hq,
      fun c hc ↦ (List.mem_replicate.mp hc).2, rfl⟩

/-! ## Answers that are cut off -/

theorem equalFold_of_head {c d : Char} (h : foldChar c ≠ foldChar d) (s t : List Char) :
    equalFold (c :: s) (d :: t) = false := by
  simp [equalFold, h]

/-- A text that starts with a brace is taken for an address. -/
theorem plainAnswer_brace (s : List Char) :
    plainAnswer ('\x7b' :: s) = { status := "OK", address := String.ofList ('\x7b' :: s) } := by
  have hok : equalFold ('\x7b' :: s) "OK".toList = false :=
    equalFold_of_head (by decide) s ['K']
  have hnotFound : equalFold ('\x7b' :: s) "NOTFOUND".toList = false :=
    equalFold_of_head (by decide) s "OTFOUND".toList
  have herr : ¬ "ERR".toList <+: (toUpper (String.ofList ('\x7b' :: s))).toList := by
    rintro ⟨r, hr⟩
    rw [toUpper, String.toList_ofList, String.toList_ofList, String.toList_ofList, List.map_cons]
      at hr
    exact absurd (List.cons.inj hr).1 (by decide)
  rw [plainAnswer, hok, hnotFound, if_neg (by decide), if_neg (by decide), if_neg herr]

/-- What a component takes the answer of its proxy for. -/
def LocalWire.heard (w : LocalWire) (resp : CentralizedResponse) : CentralizedResponse :=
  match w with
  | .udp =>
    if byteLength (marshalResponse resp) ≤ packetBuffer then resp
    else
      { status := "OK",
        address := String.ofList (trimText (readBuffer packetBuffer (marshalResponse resp))) }
  | .tcp => resp

theorem readAnswer_packet (resp : CentralizedResponse) :
    readAnswer (trimText (readBuffer packetBuffer (marshalResponse resp)))
      = LocalWire.udp.heard resp := by
  by_cases hfits : byteLength (marshalResponse resp) ≤ packetBuffer
  · have htrim := trimText_marshal responseFields resp (Or.inl rfl)
    rw [List.append_nil, marshal_responseFields] at htrim
    rw [readBuffer_of_le hfits, htrim, readAnswer_marshal, LocalWire.heard, if_pos hfits]
  · obtain ⟨p, q, broken, htext, hq, hbroken, htrim⟩ :
        ∃ p q broken, marshal responseFields resp = '\x7b' :: p ++ q ∧ q ≠ [] ∧ Broken broken
          ∧ trimText (readBuffer packetBuffer (marshalResponse resp)) = '\x7b' :: p ++ broken :=
      exists_trimText_readBuffer (Nat.lt_of_not_le hfits)
    have hnone : unmarshal responseFields { status := "" } ('\x7b' :: p ++ broken) = none :=
      unmarshal_cut shallow_responseFields' htext hq hbroken
    have hidem : trimText ('\x7b' :: p ++ broken) = '\x7b' :: p ++ broken := by
      rw [← htrim, trimText_idem]
    rw [LocalWire.heard, if_neg hfits, htrim, readAnswer, hnone]
    simp only [hidem]
    exact plainAnswer_brace (p ++ broken)

/-! ## Requests -/

/-- What a proxy makes of a message. -/
def requestOf (msg : CentralizedMessage) : ProxyRequest where
  command := toUpper (trimSpace msg.command)
  task := trimSpace msg.task
  address := trimSpace msg.address
  capacity := if 0 < msg.capacity then msg.capacity else 1

/-- Whether a request reaches the proxy as a whole. -/
def LocalWire.Holds (w : LocalWire) (msg : CentralizedMessage) : Prop :=
  match w with
  | .udp => byteLength (marshalMessage msg) ≤ packetBuffer
  | .tcp => True

section Requests

variable {σ α : Type} (describe : List Char → String) (errs : LocalErrors)
  (handler : ProxyRequest → σ → σ × ProxyResult) (p : σ × Counters)

theorem parseProxyRequest_marshal {msg : CentralizedMessage} (hcapacity : ¬ msg.capacity < 0) :
    parseProxyRequest (unmarshalText describe) (String.ofList (marshalMessage msg))
      = .ok (requestOf msg) := by
  obtain ⟨body, hbody⟩ := exists_marshal_eq CentralizedMessage.fields msg
  have htrim : trimSpace (String.ofList (marshalMessage msg))
      = String.ofList (marshalMessage msg) := by
    have h := trimText_marshal CentralizedMessage.fields msg (Or.inl rfl)
    rw [List.append_nil] at h
    rw [trimSpace, String.toList_ofList]
    exact congrArg String.ofList h
  have hhead : (marshalMessage msg).head? = some '\x7b' := congrArg List.head? hbody
  have hne : String.ofList (marshalMessage msg) ≠ "" := by
    intro hempty
    rw [String.ofList_eq_empty_iff.mp hempty] at hhead
    cases hhead
  have hread : unmarshalText describe (String.ofList (marshalMessage msg)) = .ok msg := by
    rw [unmarshalText, String.toList_ofList, unmarshalMessage_marshal]
  rw [parseProxyRequest, htrim, if_neg hne, String.toList_ofList, if_neg (by simp [hhead]), hread]
  simp only [if_neg hcapacity]
  rfl

theorem answerRequest_marshal {msg : CentralizedMessage} (hcapacity : ¬ msg.capacity < 0) :
    answerRequest describe handler (marshalMessage msg) p
      = (((handler (requestOf msg) p.1).1,
          p.2.count (requestOf msg) (handler (requestOf msg) p.1).2),
        (handler (requestOf msg) p.1).2.response) := by
  simp only [answerRequest, parseProxyRequest_marshal describe hcapacity]

theorem answerRequest_cut {msg : CentralizedMessage}
    (hlong : packetBuffer < byteLength (marshalMessage msg)) :
    ∃ err,
      answerRequest describe handler (trimText (readBuffer packetBuffer (marshalMessage msg))) p
        = ((p.1, { p.2 with errorCount := p.2.errorCount + 1 }),
          { status := "ERR", error := err }) := by
  obtain ⟨a, q, broken, htext, hq, hbroken, htrim⟩ :
      ∃ a q broken, marshalMessage msg = '\x7b' :: a ++ q ∧ q ≠ [] ∧ Broken broken
        ∧ trimText (readBuffer packetBuffer (marshalMessage msg)) = '\x7b' :: a ++ broken :=
    exists_trimText_readBuffer hlong
  have hnone : unmarshalMessage ('\x7b' :: a ++ broken) = none :=
    unmarshal_cut shallow_messageFields htext hq hbroken
  have hidem : trimText ('\x7b' :: a ++ broken) = '\x7b' :: a ++ broken := by
    rw [← htrim, trimText_idem]
  have hne : String.ofList ('\x7b' :: a ++ broken) ≠ "" := by
    intro hempty
    cases String.ofList_eq_empty_iff.mp hempty
  refine ⟨"invalid JSON: " ++ describe ('\x7b' :: a ++ broken), ?_⟩
  rw [htrim]
  simp only [answerRequest, parseProxyRequest, trimSpace, String.toList_ofList, hidem, hne,
    if_false, unmarshalText, hnone]
  rfl

theorem trimText_message (msg : CentralizedMessage) :
    trimText (marshalMessage msg) = marshalMessage msg := by
  have htrim := trimText_marshal CentralizedMessage.fields msg (Or.inl rfl)
  rwa [List.append_nil] at htrim

/-- A request over TCP is one line, and so is the answer to it. -/
theorem serve_tcp (msg : CentralizedMessage) (sends : Bool) :
    LocalWire.tcp.serve describe handler sends (marshalMessage msg) p
      = ((answerRequest describe handler (marshalMessage msg) p).1,
        some (marshalResponse (answerRequest describe handler (marshalMessage msg) p).2
          ++ ['\n'])) := by
  have hn : '\n' ∉ marshalMessage msg := not_mem_of_printable (printable_message msg) (by decide)
  have hlines : readLines [] (marshalMessage msg ++ ['\n']) = [marshalMessage msg] :=
    readLines_append hn [] []
  have hne : marshalMessage msg ≠ [] := by
    obtain ⟨body, hbody⟩ := exists_marshal_eq CentralizedMessage.fields msg
    rw [marshalMessage, hbody]
    exact List.cons_ne_nil _ _
  simp only [LocalWire.serve, hlines, handleTCPProxyConn, trimText_message, hne, if_false]

theorem receive_tcp (resp : CentralizedResponse) :
    LocalWire.tcp.receive errs (some (marshalResponse resp ++ ['\n']))
      = .ok (marshalResponse resp) := by
  have hn : '\n' ∉ marshalResponse resp :=
    not_mem_of_printable (printable_response resp) (by decide)
  have htrim : trimText (marshalResponse resp ++ ['\n']) = marshalResponse resp :=
    trimText_marshal CentralizedResponse.fields resp (Or.inr rfl)
  simp only [LocalWire.receive, readLine_append hn, htrim]

/-- Whether the proxy can send an answer. -/
def LocalWire.Delivers (w : LocalWire) (resp : CentralizedResponse) : Prop :=
  match w with
  | .udp => byteLength (marshalResponse resp) ≤ maxDatagram
  | .tcp => True

instance (w : LocalWire) (resp : CentralizedResponse) : Decidable (w.Delivers resp) :=
  match w with
  | .udp => inferInstanceAs (Decidable (_ ≤ _))
  | .tcp => inferInstanceAs (Decidable True)

/-- The error of a component whose request or answer gets lost. -/
def LocalWire.failure (w : LocalWire) : Option LocalFault → String
  | some (.resolve err) =>
    (match w with
      | .udp => "resolve proxy addr: "
      | .tcp => "dial proxy tcp: ") ++ err
  | some (.dial err) => "dial proxy " ++ w.name ++ ": " ++ err
  | some (.write err) => "write " ++ w.name ++ ": " ++ err
  | some (.lost err) | some (.unread _ err) => "read " ++ w.name ++ ": " ++ err
  | none => "read " ++ w.name ++ ": " ++ errs.timeout

/-- A request that the proxy can read as a whole can be sent, too. -/
theorem send_of_holds {w : LocalWire} {msg : CentralizedMessage} (hholds : w.Holds msg)
    (fault : Option LocalFault) :
    w.send errs fault (marshalMessage msg)
      = match fault with
        | some (.resolve _) | some (.dial _) | some (.write _) => some (w.failure errs fault)
        | some (.lost _) | some (.unread _ _) | none => none := by
  cases w with
  | udp =>
    have hfits : byteLength (marshalMessage msg) ≤ packetBuffer := hholds
    have hsmall : errs.writeUDP (marshalMessage msg) = none := if_pos (hfits.trans (by decide))
    rcases fault with _ | (err | err | err | err | ⟨sends, err⟩)
    · exact hsmall
    · rfl
    · rfl
    · rfl
    · exact hsmall
    · exact hsmall
  | tcp =>
    rcases fault with _ | (err | err | err | err | ⟨sends, err⟩) <;> rfl

theorem receive_serve {w : LocalWire} {msg : CentralizedMessage} (hholds : w.Holds msg) :
    let resp := (answerRequest describe handler (marshalMessage msg) p).2
    ((w.receive errs (w.serve describe handler true (marshalMessage msg) p).2).map readAnswer)
      = if w.Delivers resp then .ok (w.heard resp)
        else .error ("read " ++ w.name ++ ": " ++ errs.timeout) := by
  intro resp
  cases w with
  | udp =>
    have hpacket : trimText (readBuffer packetBuffer (marshalMessage msg))
        = marshalMessage msg := by
      rw [readBuffer_of_le hholds, trimText_message]
    by_cases hfits : byteLength (marshalResponse resp) ≤ maxDatagram
    · have hserve : (LocalWire.udp.serve describe handler true (marshalMessage msg) p).2
          = some (marshalResponse resp) := by
        simp only [LocalWire.serve, handlePacket, hpacket, writeUDP, resp, hfits, and_self, if_true]
      rw [hserve, if_pos (show LocalWire.udp.Delivers resp from hfits), ← readAnswer_packet]
      rfl
    · have hserve : (LocalWire.udp.serve describe handler true (marshalMessage msg) p).2
          = none := by
        simp only [LocalWire.serve, handlePacket, hpacket, writeUDP, resp, hfits, and_false,
          if_false, Bool.false_eq_true]
      rw [hserve, if_neg (show ¬LocalWire.udp.Delivers resp from hfits)]
      rfl
  | tcp =>
    rw [serve_tcp, receive_tcp, if_pos (show LocalWire.tcp.Delivers resp from trivial)]
    exact congrArg Except.ok (readAnswer_marshal resp)

/-- What a component makes of a request that reaches the proxy as a whole, or would: it reads what
the proxy says, unless something fails or the answer cannot be sent. -/
theorem request_of_holds {w : LocalWire} {msg : CentralizedMessage} (htask : msg.task ≠ "")
    (hcapacity : msg.capacity = 0) (hholds : w.Holds msg) (fault : Option LocalFault)
    (read : CentralizedResponse → Except String α) :
    let result := (handler (requestOf msg) p.1).2
    (w.request describe errs handler fault msg read p).2
      = if fault = none ∧ w.Delivers result.response then read (w.heard result.response)
        else .error (w.failure errs fault) := by
  intro result
  have hnonneg : ¬ msg.capacity < 0 := by
    rw [hcapacity]
    decide
  have hanswer : (answerRequest describe handler (marshalMessage msg) p).2 = result.response := by
    rw [answerRequest_marshal describe handler p hnonneg]
  have hheard := receive_serve describe errs handler p hholds
  simp only [hanswer] at hheard
  simp only [LocalWire.request, LocalWire.roundTrip, marshal_requestFields htask hcapacity,
    send_of_holds errs hholds]
  rcases fault with _ | (err | err | err | err | ⟨sends, err⟩)
  · generalize (w.serve describe handler true (marshalMessage msg) p).2 = text at hheard ⊢
    have hbind : ((w.receive errs text).bind fun raw ↦ read (readAnswer raw))
        = ((w.receive errs text).map readAnswer).bind read := by
      cases w.receive errs text <;> rfl
    rw [hbind, hheard]
    simp only [true_and]
    split_ifs <;> rfl
  all_goals rfl

/-- A request that does not reach the proxy as a whole has no effect on what the proxy manages. -/
theorem request_of_not_holds {w : LocalWire} {msg : CentralizedMessage} (htask : msg.task ≠ "")
    (hcapacity : msg.capacity = 0) (hholds : ¬ w.Holds msg) (fault : Option LocalFault)
    (read : CentralizedResponse → Except String α) :
    (w.request describe errs handler fault msg read p).1.1 = p.1 := by
  cases w with
  | tcp => exact absurd trivial hholds
  | udp =>
    obtain ⟨err, herr⟩ := answerRequest_cut describe handler p (Nat.lt_of_not_le hholds)
    have hserve : ∀ sends,
        (LocalWire.udp.serve describe handler sends (marshalMessage msg) p).1.1 = p.1 := by
      intro sends
      simp only [LocalWire.serve, handlePacket, herr]
    simp only [LocalWire.request, LocalWire.roundTrip, marshal_requestFields htask hcapacity]
    rcases LocalWire.udp.send errs fault (marshalMessage msg) with _ | err
    · rcases fault with _ | (err | err | err | err | ⟨sends, err⟩) <;> simp only [hserve]
    · rfl

end Requests

/-! ## Components -/

section Components

variable {σ : Type} (describe : List Char → String) (errs : LocalErrors)
  (quote : String → String) (handler : ProxyRequest → σ → σ × ProxyResult)

/-- Whether an answer of the proxy is cut off on the way to the component. -/
def LocalWire.Cuts (w : LocalWire) (resp : CentralizedResponse) : Prop :=
  match w with
  | .udp => packetBuffer < byteLength (marshalResponse resp)
  | .tcp => False

instance (w : LocalWire) (resp : CentralizedResponse) : Decidable (w.Cuts resp) :=
  match w with
  | .udp => inferInstanceAs (Decidable (_ < _))
  | .tcp => inferInstanceAs (Decidable False)

theorem heard_eq (w : LocalWire) (resp : CentralizedResponse) :
    w.heard resp = if w.Cuts resp then
      { status := "OK",
        address := String.ofList (trimText (readBuffer packetBuffer (marshalResponse resp))) }
      else resp := by
  cases w with
  | udp =>
    by_cases hcuts : packetBuffer < byteLength (marshalResponse resp)
    · rw [LocalWire.heard, if_neg (by omega), if_pos (show LocalWire.udp.Cuts resp from hcuts)]
    · rw [LocalWire.heard, if_pos (by omega), if_neg (show ¬ LocalWire.udp.Cuts resp from hcuts)]
  | tcp => rfl

theorem equalFold_text (s s' : ProxyStatus) :
    equalFold s.text.toList s'.text.toList = decide (s = s') := by
  cases s <;> cases s' <;> decide

theorem readRegister_response (result : ProxyResult) :
    readRegister quote result.response = .ok () ↔ result.status = .ok := by
  have hok : equalFold result.response.status.toList "OK".toList = decide (result.status = .ok) :=
    equalFold_text result.status .ok
  rw [readRegister, hok]
  cases result.status with
  | ok => simp
  | err => split_ifs <;> simp_all
  | notFound => split_ifs <;> simp_all

/-- What a component makes of the result of a query. -/
def queryOutcome (result : ProxyResult) : Except String String :=
  match result.status with
  | .ok => .ok (trimSpace result.address)
  | .notFound => .error "service not found"
  | .err => .error (answerError result.response)

theorem readQuery_response (result : ProxyResult) :
    readQuery quote result.response = queryOutcome result := by
  have hfold : ∀ s : ProxyStatus,
      equalFold result.response.status.toList s.text.toList = decide (result.status = s) :=
    equalFold_text result.status
  have hok := hfold .ok
  have herr := hfold .err
  have hnotFound := hfold .notFound
  simp only [ProxyStatus.text] at hok herr hnotFound
  rw [readQuery, queryOutcome, hok, herr, hnotFound]
  cases result.status with
  | ok => simp [ProxyResult.response]
  | err => simp
  | notFound => simp

/-- **What a component is told about a registration.** For every proxy, every request that the proxy
can read and everything that may fail: the component is told that it is registered if and only if
nothing fails, the answer of the proxy can be sent, and the proxy says so, or says something that
does not fit into the buffer of the component. -/
theorem simRegister_ok_iff {w : LocalWire} {task address : String} (htask : trimSpace task ≠ "")
    (haddress : trimSpace address ≠ "") (hholds : w.Holds (simRegistration task address))
    (fault : Option LocalFault) (p : σ × Counters) :
    let result := (handler (requestOf (simRegistration task address)) p.1).2
    (simRegister describe errs quote handler w fault task address p).2 = .ok ()
      ↔ fault = none ∧ w.Delivers result.response
        ∧ (result.status = .ok ∨ w.Cuts result.response) := by
  intro result
  have hname : (simRegistration task address).task ≠ "" := htask
  have hrequest :=
    request_of_holds describe errs handler p hname rfl hholds fault (readRegister quote)
  rw [simRegister, if_neg (by simp [htask, haddress]), hrequest, ← and_assoc]
  by_cases harrives : fault = none ∧ w.Delivers result.response
  · rw [if_pos harrives, and_iff_right harrives, heard_eq]
    by_cases hcuts : w.Cuts result.response
    · rw [if_pos hcuts]
      exact iff_of_true ((readRegister_response quote { status := .ok, address := _ }).mpr rfl)
        (Or.inr hcuts)
    · rw [if_neg hcuts, readRegister_response, or_iff_left hcuts]
  · rw [if_neg harrives]
    exact iff_of_false (by simp) fun h ↦ harrives h.1

/-- **What a component is told about a query.** For every proxy, every request that the proxy can
read and everything that may fail: when nothing fails and the answer can be sent, the component is
told what the proxy says, unless that does not fit into its buffer. Then it is given the part that
does for an address. Otherwise it is told what failed. -/
theorem simQuery_eq {w : LocalWire} {task : String} (htask : trimSpace task ≠ "")
    (hholds : w.Holds (simLookup task)) (fault : Option LocalFault) (p : σ × Counters) :
    let result := (handler (requestOf (simLookup task)) p.1).2
    (simQuery describe errs quote handler w fault task p).2
      = if fault = none ∧ w.Delivers result.response then
          if w.Cuts result.response then
            .ok (String.ofList
              (trimText (readBuffer packetBuffer (marshalResponse result.response))))
          else queryOutcome result
        else .error (w.failure errs fault) := by
  intro result
  have hname : (simLookup task).task ≠ "" := htask
  have hrequest := request_of_holds describe errs handler p hname rfl hholds fault (readQuery quote)
  rw [simQuery, if_neg htask, hrequest]
  by_cases harrives : fault = none ∧ w.Delivers result.response
  · rw [if_pos harrives, if_pos harrives, heard_eq]
    by_cases hcuts : w.Cuts result.response
    · rw [if_pos hcuts, if_pos hcuts]
      have htrim : ∀ s, trimSpace (String.ofList (trimText s)) = String.ofList (trimText s) := by
        intro s
        rw [trimSpace, String.toList_ofList, trimText_idem]
      exact (readQuery_response quote
        { status := .ok, address := String.ofList (trimText _) }).trans
          (congrArg Except.ok (htrim _))
    · rw [if_neg hcuts, if_neg hcuts, readQuery_response]
  · rw [if_neg harrives, if_neg harrives]

end Components

/-! ## What the proxy counts -/

section Counting

variable {σ : Type} (describe : List Char → String)
  (handler : ProxyRequest → σ → σ × ProxyResult)

/-- The counters of a proxy have counted some errors and successes. -/
def Counters.Counts (c c' : Counters) (errors successes : ℕ) : Prop :=
  c'.errorCount = c.errorCount + errors
    ∧ c'.regCount + c'.queryCount = c.regCount + c.queryCount + successes

theorem Counters.Counts.trans {c c' c'' : Counters} {m n m' n' : ℕ} (h : c.Counts c' m n)
    (h' : c'.Counts c'' m' n') : c.Counts c'' (m + m') (n + n') := by
  rw [Counters.Counts] at h h' ⊢
  omega

theorem counts_count (c : Counters) (req : ProxyRequest) (result : ProxyResult) :
    c.Counts (c.count req result) (decide (result.status = .err)).toNat
      (!decide (result.status = .err)).toNat := by
  rw [Counters.Counts, Counters.count]
  by_cases herr : result.status = .err
  · simp [herr]
  · by_cases hcmd : req.command = "REGISTER"
    · simp [herr, hcmd]
      omega
    · simp [herr, hcmd]
      omega

theorem counts_answerRequest (data : List Char) (p : σ × Counters) :
    let failed := decide ((answerRequest describe handler data p).2.status = "ERR")
    p.2.Counts (answerRequest describe handler data p).1.2 failed.toNat (!failed).toNat := by
  rw [answerRequest]
  rcases parseProxyRequest (unmarshalText describe) (String.ofList data) with err | req
  · exact ⟨rfl, rfl⟩
  · have hstatus : decide ((handler req p.1).2.response.status = "ERR")
        = decide ((handler req p.1).2.status = .err) := by
      rw [ProxyResult.response]
      cases (handler req p.1).2.status <;> rfl
    simp only [hstatus]
    exact counts_count p.2 req _

theorem counts_writeUDP (sends : Bool) (text : List Char) (c : Counters) :
    c.Counts (writeUDP sends text c).1 (!(writeUDP sends text c).2.sent).toNat 0 := by
  rw [writeUDP]
  split_ifs
  · exact ⟨rfl, rfl⟩
  · exact ⟨rfl, rfl⟩

/-- A reply that reports an error. -/
def Reply.failed (reply : Reply) : Bool :=
  (unmarshalResponse reply.text).any fun resp ↦ resp.status = "ERR"

theorem text_writeUDP (sends : Bool) (text : List Char) (c : Counters) :
    (writeUDP sends text c).2.text = text := by
  rw [writeUDP]
  split_ifs <;> rfl

theorem counts_handlePacket (packet : List Char) (sends : Bool) (p : σ × Counters) :
    let reply := (handlePacket describe handler packet sends p).2
    p.2.Counts (handlePacket describe handler packet sends p).1.2
      (reply.failed.toNat + (!reply.sent).toNat) (!reply.failed).toNat := by
  have hanswer :=
    counts_answerRequest describe handler (trimText (readBuffer packetBuffer packet)) p
  simp only [handlePacket]
  generalize answerRequest describe handler (trimText (readBuffer packetBuffer packet)) p = answer
    at hanswer ⊢
  have hfailed : (writeUDP sends (marshalResponse answer.2) answer.1.2).2.failed
      = decide (answer.2.status = "ERR") := by
    rw [Reply.failed, text_writeUDP, unmarshalResponse_marshal, Option.any_some]
  rw [hfailed]
  exact hanswer.trans (counts_writeUDP sends (marshalResponse answer.2) answer.1.2)

theorem counts_runUDPProxy (p : σ × Counters) (e : PacketEvent) :
    let reply := (runUDPProxy describe handler p e).2
    p.2.Counts (runUDPProxy describe handler p e).1.2
      ((reply.any Reply.failed).toNat + (reply.any fun reply ↦ !reply.sent).toNat
        + reply.isNone.toNat)
      (reply.any fun reply ↦ !reply.failed).toNat := by
  cases e with
  | packet data sends =>
    have h := counts_handlePacket describe handler data sends p
    simpa only [runUDPProxy, Option.any_some, Option.isNone_some, Bool.toNat_false,
      Nat.add_zero] using h
  | readFailed => exact ⟨rfl, rfl⟩

/-- **Every packet is counted.** Whatever happens to a proxy: `errorCount` grows by the number of
answers that report an error, of answers that are not sent and of failed reads, and `regCount` and
`queryCount` together by the number of answers that do not report an error. -/
theorem packets_counted (events : List PacketEvent) (p : σ × Counters) :
    let after := (Run.exec (fun p e ↦ (runUDPProxy describe handler p e).1) p events).2
    let replies := Run.outputs (runUDPProxy describe handler) p events
    after.errorCount = p.2.errorCount + (replies.countP (·.any Reply.failed)
        + replies.countP (·.any fun reply ↦ !reply.sent) + replies.countP Option.isNone)
      ∧ after.regCount + after.queryCount
        = p.2.regCount + p.2.queryCount + replies.countP (·.any fun reply ↦ !reply.failed) := by
  have hstep := counts_runUDPProxy describe handler
  have herrors := Run.sum_outputs (runUDPProxy describe handler) (fun p ↦ p.2.errorCount)
    (fun reply ↦ (reply.any Reply.failed).toNat + (reply.any fun reply ↦ !reply.sent).toNat
      + reply.isNone.toNat) (fun p e ↦ (hstep p e).1) p events
  have hsuccesses := Run.sum_outputs (runUDPProxy describe handler)
    (fun p ↦ p.2.regCount + p.2.queryCount)
    (fun reply ↦ (reply.any fun reply ↦ !reply.failed).toNat) (fun p e ↦ (hstep p e).2) p events
  rw [List.sum_map_add, List.sum_map_add, ← List.countP_eq_sum, ← List.countP_eq_sum,
    ← List.countP_eq_sum] at herrors
  rw [← List.countP_eq_sum] at hsuccesses
  exact ⟨herrors, hsuccesses⟩

end Counting

/-- A proxy that knows one service. -/
def oneService (req : ProxyRequest) (reg : Unit) : Unit × ProxyResult :=
  (reg, { status := .ok, address := if req.command = "QUERY" then "10.0.0.1:80" else "" })

def sampleErrors : LocalErrors where
  eof := "EOF"
  tooLong := "message too long"
  timeout := "i/o timeout"

/-- A component that registers with it is told so, unless the answer gets lost. -/
theorem simRegister_oneService :
    (simRegister (fun _ ↦ "") sampleErrors id oneService .udp none "scan" "10.0.0.1:80"
        ((), {})).2 = .ok ()
      ∧ (simRegister (fun _ ↦ "") sampleErrors id oneService .udp
        (some (.unread true "i/o timeout")) "scan" "10.0.0.1:80" ((), {})).2 ≠ .ok () := by
  have htask : trimSpace "scan" ≠ "" := by decide +kernel
  have haddress : trimSpace "10.0.0.1:80" ≠ "" := by decide +kernel
  have hholds : LocalWire.udp.Holds (simRegistration "scan" "10.0.0.1:80") := by
    change byteLength _ ≤ packetBuffer
    decide +kernel
  have h := fun fault ↦ simRegister_ok_iff (fun _ ↦ "") sampleErrors id oneService htask haddress
    hholds fault ((), {})
  exact ⟨(h none).mpr ⟨rfl, by decide +kernel, Or.inl rfl⟩,
    mt (h (some (.unread true "i/o timeout"))).mp (by simp)⟩

/-- A component that looks for it gets its address, unless the answer gets lost. -/
theorem simQuery_oneService :
    (simQuery (fun _ ↦ "") sampleErrors id oneService .udp none " scan" ((), {})).2
        = .ok "10.0.0.1:80"
      ∧ (simQuery (fun _ ↦ "") sampleErrors id oneService .udp
          (some (.unread true "i/o timeout")) " scan" ((), {})).2
        = .error "read udp: i/o timeout" := by
  have htask : trimSpace " scan" ≠ "" := by decide +kernel
  have hholds : LocalWire.udp.Holds (simLookup " scan") := by
    change byteLength _ ≤ packetBuffer
    decide +kernel
  have h := fun fault ↦ simQuery_eq (fun _ ↦ "") sampleErrors id oneService htask hholds fault
    ((), {})
  rw [h none, h (some (.unread true "i/o timeout"))]
  decide +kernel

end Client

end TaskDiscovery
