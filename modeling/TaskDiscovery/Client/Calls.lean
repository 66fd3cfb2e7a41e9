import TaskDiscovery.Client.Proxy
import TaskDiscovery.Transport.Connections

/-!
# Calls over the wire

A call of the client writes one message and reads one response. Here the texts are followed all the
way: what the client writes, what of it reaches the buffer or the scanner of the server, what the
server makes of it, and what the client makes of the answer.

Over UDP both sides read into buffers of 4096 bytes. A request that is longer arrives cut off. It is
not JSON, the server says so, and the client reports an error. A response that is longer is not JSON
for the client. Over TCP and TLS a request that fills the buffer of the scanner ends the connection.

Whatever happens, a call is an `exchange` of the message, with a `Delivery` that says how it ended.
It is `delivered` exactly when nothing was lost and both texts fit (`proxied_exchange`).
-/

namespace TaskDiscovery

namespace Client

open Go Go.Json

/-! ## The server -/

section Server

variable {σ : Type} (describe : List Char → String)
  (handle : CentralizedMessage → σ → σ × CentralizedResponse)

/-- The response of the server to the text of one request. -/
def respond (data : List Char) (reg : σ) : σ × CentralizedResponse :=
  match unmarshalMessage data with
  | none => (reg, invalidJSON describe data)
  | some msg => handle msg reg

def handleUDPRequest (data : List Char) (reg : σ) : σ × List Char :=
  let (reg, resp) := respond describe handle data reg
  (reg, marshalResponse resp)

/-- `handleTCPConn`, on a connection that does not break and with no other handler at work. -/
def handleTCPConn : List (List Char) → σ → σ × List Char
  | [], reg => (reg, [])
  | line :: lines, reg =>
    let (reg, resp) := respond describe handle line reg
    let (reg, written) := handleTCPConn lines reg
    (reg, marshalResponse resp ++ '\n' :: written)

/-- What happens on such a connection for one line. -/
def lineEvents (line : List Char) (reg : σ) : List ConnectionEvent :=
  let sent := (marshalResponse (respond describe handle line reg).2 ++ ['\n']).length
  match unmarshalMessage line with
  | none => [.scan sent]
  | some msg => [.scan 0, .handled (handle msg reg).2 sent]

def undisturbed : List (List Char) → σ → List ConnectionEvent
  | [], _ => [.scan 0]
  | line :: lines, reg =>
    lineEvents describe handle line reg
      ++ undisturbed lines (respond describe handle line reg).1

theorem exec_lineEvents {s : Connection} (hopen : s.closed = false) (hidle : s.handling = none)
    {line : List Char} {lines : List (List Char)} (hunread : s.unread = line :: lines) (reg : σ) :
    let resp := (respond describe handle line reg).2
    let s' := Run.exec (Connection.step describe) s (lineEvents describe handle line reg)
    s'.closed = false ∧ s'.handling = none ∧ s'.unread = lines
      ∧ s'.written = s.written ++ (marshalResponse resp ++ ['\n']) := by
  rcases hmsg : unmarshalMessage line with _ | msg
  · have hresp : (respond describe handle line reg).2 = invalidJSON describe line := by
      simp only [respond, hmsg]
    simp only [lineEvents, Run.exec_cons, Run.exec_nil, hresp, Connection.step, hopen, hidle,
      hunread, hmsg, Bool.false_eq_true, if_false, encode_of_le (Nat.le_refl _), and_self]
  · have hresp : (respond describe handle line reg).2 = (handle msg reg).2 := by
      simp only [respond, hmsg]
    simp only [lineEvents, Run.exec_cons, Run.exec_nil, hresp, Connection.step, hopen, hidle,
      hunread, hmsg, Bool.false_eq_true, if_false, encode_of_le (Nat.le_refl _), and_self]

theorem exec_undisturbed {s : Connection} (hopen : s.closed = false) (hidle : s.handling = none)
    (reg : σ) :
    (Run.exec (Connection.step describe) s (undisturbed describe handle s.unread reg)).written
      = s.written ++ (handleTCPConn describe handle s.unread reg).2 := by
  induction hlines : s.unread generalizing s reg with
  | nil =>
    simp only [undisturbed, Run.exec_cons, Run.exec_nil, Connection.step, hopen, hidle, hlines,
      Bool.false_eq_true, if_false, handleTCPConn, List.append_nil]
  | cons line lines ih =>
    obtain ⟨hopen', hidle', hunread, hwritten⟩ :=
      exec_lineEvents describe handle hopen hidle hlines reg
    rw [undisturbed, Run.exec_append, ih hopen' hidle' _ hunread, hwritten, handleTCPConn,
      List.append_assoc, List.append_assoc]
    rfl

end Server

/-! ## Calls -/

/-- How a call reaches the server. -/
inductive Wire
  | udp
  | tcp
  | tls
  deriving DecidableEq

/-- The transport for a configured protocol. -/
def Wire.ofProto (backendProto : String) : Wire :=
  if backendProto = "tcp" then .tcp else if backendProto = "tls" then .tls else .udp

/-- What can fail besides the texts: the message is not sent, lost or turned away, or the response
is lost or late. The texts are those of the errors of the client. -/
inductive Fault
  | unsent (err : String)
  | unread (err : String)

/-- The size of the buffers for datagrams, in bytes. -/
def datagramBuffer : ℕ := 4096

def Wire.write (w : Wire) (msg : CentralizedMessage) : List Char :=
  match w with
  | .udp => marshalMessage msg
  | .tcp | .tls => marshalMessage msg ++ ['\n']

section Calls

variable {σ α : Type} (describe : List Char → String) (eof : String)
  (handle : CentralizedMessage → σ → σ × CentralizedResponse)

/-- What the server does with what was written, and what it writes. -/
def Wire.serve (w : Wire) (text : List Char) (reg : σ) : σ × List Char :=
  match w with
  | .udp => handleUDPRequest describe handle (readBuffer datagramBuffer text) reg
  | .tcp | .tls => handleTCPConn describe handle (scanLines text) reg

def Wire.read (w : Wire) (text : List Char) : Except String CentralizedResponse :=
  match w with
  | .udp =>
    match unmarshalResponse (readBuffer datagramBuffer text) with
    | none => .error ("unmarshal response: " ++ describe (readBuffer datagramBuffer text))
    | some resp => .ok resp
  | .tcp =>
    match readLine text with
    | none => .error eof
    | some line =>
      match unmarshalResponse line with
      | none => .error ("unmarshal response: " ++ describe line)
      | some resp => .ok resp
  | .tls =>
    match decodeResponse text with
    | none => .error ("decode response: " ++ describe text)
    | some resp => .ok resp

/-- A call: one message and the reading of its response. -/
def call (w : Wire) (fault : Option Fault) (read : CentralizedResponse → Except String α)
    (msg : CentralizedMessage) (reg : σ) : σ × Except String α :=
  match fault with
  | some (.unsent err) => (reg, .error err)
  | some (.unread err) => ((w.serve describe handle (w.write msg) reg).1, .error err)
  | none =>
    let (reg, text) := w.serve describe handle (w.write msg) reg
    (reg, (w.read describe eof text).bind read)

end Calls

/-- A message fits if the server can read all of it. -/
def Wire.Carries (w : Wire) (msg : CentralizedMessage) : Prop :=
  match w with
  | .udp => byteLength (marshalMessage msg) ≤ datagramBuffer
  | .tcp | .tls => byteLength (marshalMessage msg) < maxScanTokenSize

/-- A response fits if the client can read all of it. -/
def Wire.Returns (w : Wire) (resp : CentralizedResponse) : Prop :=
  match w with
  | .udp => byteLength (marshalResponse resp) ≤ datagramBuffer
  | .tcp | .tls => True

/-! ### A call is an exchange -/

section Exchange

variable {σ α : Type} (describe : List Char → String) (eof : String)
  (handle : CentralizedMessage → σ → σ × CentralizedResponse) {w : Wire}

/-- What is written for a response. -/
def Wire.answer (w : Wire) (resp : CentralizedResponse) : List Char :=
  match w with
  | .udp => marshalResponse resp
  | .tcp | .tls => marshalResponse resp ++ ['\n']

theorem handleTCPConn_write {msg : CentralizedMessage}
    (h : byteLength (marshalMessage msg) < maxScanTokenSize) (reg : σ) :
    handleTCPConn describe handle (scanLines (marshalMessage msg ++ ['\n'])) reg
      = ((handle msg reg).1, marshalResponse (handle msg reg).2 ++ ['\n']) := by
  have hlines : scanLines (marshalMessage msg ++ ['\n']) = [marshalMessage msg] := by
    have hone : scanLines (onLines ([msg].map marshalMessage)) = [msg].map marshalMessage :=
      scanLines_messages (by simpa using h)
    rwa [List.map_singleton, onLines_cons] at hone
  simp only [hlines, handleTCPConn, respond, unmarshalMessage_marshal]

theorem serve_of_carries {msg : CentralizedMessage} (h : w.Carries msg) (reg : σ) :
    w.serve describe handle (w.write msg) reg
      = ((handle msg reg).1, w.answer (handle msg reg).2) := by
  cases w with
  | udp =>
    simp only [Wire.serve, Wire.write, handleUDPRequest, readBuffer_of_le h, respond,
      unmarshalMessage_marshal, Wire.answer]
  | tcp => exact handleTCPConn_write describe handle h reg
  | tls => exact handleTCPConn_write describe handle h reg

/-- A line that is too long ends the connection. -/
theorem scanLines_of_long {msg : CentralizedMessage}
    (h : ¬ byteLength (marshalMessage msg) < maxScanTokenSize) :
    scanLines (marshalMessage msg ++ ['\n']) = [] := by
  have hn : '\n' ∉ marshalMessage msg := not_mem_of_printable (printable_message msg) (by decide)
  rw [scanLines, splitLines_append hn, List.nil_append,
    List.takeWhile_cons_of_neg (by simpa using h)]
  rfl

/-- A message that does not fit has no effect. The server says nothing, or that it is not JSON. -/
theorem serve_of_not_carries {msg : CentralizedMessage} (h : ¬ w.Carries msg) (reg : σ) :
    w.serve describe handle (w.write msg) reg = (reg, [])
      ∨ ∃ resp, resp.status = "ERR"
        ∧ w.serve describe handle (w.write msg) reg = (reg, w.answer resp) := by
  cases w with
  | udp =>
    have hcut := unmarshalMessage_readBuffer (Nat.lt_of_not_le h)
    refine Or.inr ⟨invalidJSON describe (readBuffer datagramBuffer (marshalMessage msg)), rfl, ?_⟩
    simp only [Wire.serve, Wire.write, handleUDPRequest, respond, hcut, Wire.answer]
  | tcp =>
    left
    simp only [Wire.serve, Wire.write, scanLines_of_long h, handleTCPConn]
  | tls =>
    left
    simp only [Wire.serve, Wire.write, scanLines_of_long h, handleTCPConn]

theorem read_answer {resp : CentralizedResponse} (h : w.Returns resp) :
    w.read describe eof (w.answer resp) = .ok resp := by
  cases w with
  | udp => simp only [Wire.read, Wire.answer, readBuffer_of_le h, unmarshalResponse_marshal]
  | tcp =>
    have hn : '\n' ∉ marshalResponse resp :=
      not_mem_of_printable (printable_response resp) (by decide)
    simp only [Wire.read, Wire.answer, readLine_append hn, unmarshalResponse_line]
  | tls => simp only [Wire.read, Wire.answer, decodeResponse_line]

theorem read_answer_of_not_returns {resp : CentralizedResponse} (h : ¬ w.Returns resp) :
    ∃ err, w.read describe eof (w.answer resp) = .error err := by
  cases w with
  | udp =>
    have hcut := unmarshalResponse_readBuffer (Nat.lt_of_not_le h)
    simp only [Wire.read, Wire.answer, hcut]
    exact ⟨_, rfl⟩
  | tcp => exact absurd trivial h
  | tls => exact absurd trivial h

theorem read_nil : ∃ err, w.read describe eof [] = .error err := by
  have hparse : unmarshalResponse (readBuffer datagramBuffer []) = none := by decide +kernel
  have hdecode : decodeResponse [] = none := by decide +kernel
  have hline : readLine [] = none := by decide
  cases w with
  | udp =>
    simp only [Wire.read, hparse]
    exact ⟨_, rfl⟩
  | tcp =>
    simp only [Wire.read, hline]
    exact ⟨_, rfl⟩
  | tls =>
    simp only [Wire.read, hdecode]
    exact ⟨_, rfl⟩

/-- A call that reports every `ERR` response as an error. -/
def Reports (read : CentralizedResponse → Except String α) : Prop :=
  ∀ resp, resp.status = "ERR" → ∃ err, read resp = .error err

theorem read_of_not_carries {read : CentralizedResponse → Except String α} (hread : Reports read)
    {msg : CentralizedMessage} (h : ¬ w.Carries msg) (reg : σ) :
    (w.serve describe handle (w.write msg) reg).1 = reg
      ∧ ∃ err, (w.read describe eof (w.serve describe handle (w.write msg) reg).2).bind read
        = .error err := by
  rcases serve_of_not_carries describe handle h reg with hserve | ⟨resp, hstatus, hserve⟩
  · obtain ⟨err, herr⟩ := read_nil describe eof (w := w)
    rw [hserve]
    exact ⟨rfl, err, by rw [herr]; rfl⟩
  · rw [hserve]
    refine ⟨rfl, ?_⟩
    by_cases hreturns : w.Returns resp
    · obtain ⟨err, herr⟩ := hread resp hstatus
      exact ⟨err, by rw [read_answer describe eof hreturns]; exact herr⟩
    · obtain ⟨err, herr⟩ := read_answer_of_not_returns describe eof hreturns
      exact ⟨err, by rw [herr]; rfl⟩

/-- The conditions for a call to be completed. -/
def Completed (w : Wire) (fault : Option Fault) (msg : CentralizedMessage)
    (resp : CentralizedResponse) : Prop :=
  fault = none ∧ w.Carries msg ∧ w.Returns resp

/-- A call is an exchange, and a completed one if and only if nothing fails and both texts fit. -/
theorem call_exchange (backend : Backend σ) {read : CentralizedResponse → Except String α}
    (hread : Reports read) (fault : Option Fault) (msg : CentralizedMessage) (reg : σ) :
    ∃ d, call describe eof backend.handle w fault read msg reg = exchange backend d read msg reg
      ∧ (d = .delivered ↔ Completed w fault msg (backend.handle msg reg).2) := by
  by_cases hcarries : w.Carries msg
  · have hserve := serve_of_carries describe backend.handle hcarries reg
    rcases fault with _ | err | err
    · by_cases hreturns : w.Returns (backend.handle msg reg).2
      · refine ⟨.delivered, ?_, iff_of_true rfl ⟨rfl, hcarries, hreturns⟩⟩
        simp only [call, hserve, read_answer describe eof hreturns, exchange]
        rfl
      · obtain ⟨err, herr⟩ := read_answer_of_not_returns describe eof hreturns
        refine ⟨.unanswered err, ?_, iff_of_false (by simp) fun h ↦ hreturns h.2.2⟩
        simp only [call, hserve, herr, exchange]
        rfl
    · exact ⟨.unserved err, rfl, iff_of_false (by simp) (by rintro ⟨⟨⟩, -⟩)⟩
    · refine ⟨.unanswered err, ?_, iff_of_false (by simp) (by rintro ⟨⟨⟩, -⟩)⟩
      simp only [call, hserve, exchange]
  · obtain ⟨hreg, err, herr⟩ :=
      read_of_not_carries describe eof backend.handle hread hcarries reg
    rcases fault with _ | err' | err'
    · refine ⟨.unserved err, ?_, iff_of_false (by simp) fun h ↦ hcarries h.2.1⟩
      simp only [call, exchange, hreg, herr]
    · exact ⟨.unserved err', rfl, iff_of_false (by simp) (by rintro ⟨⟨⟩, -⟩)⟩
    · refine ⟨.unserved err', ?_, iff_of_false (by simp) (by rintro ⟨⟨⟩, -⟩)⟩
      simp only [call, exchange, hreg]

end Exchange

/-! ## Requests to the proxy -/

section Proxied

variable {σ : Type} (describe : List Char → String) (eof : String) (backend : Backend σ)
  (fault : Option Fault) (backendProto : String)

/-- `handleCentralizedRequest`, with calls over the wire. -/
def proxied (req : ProxyRequest) (reg : σ) : σ × ProxyResult :=
  match req.command with
  | "REGISTER" =>
    if req.task = "" ∨ req.address = "" then
      (reg, { status := .err, error := "task and address required" })
    else
      let (reg, result) := call describe eof backend.handle (Wire.ofProto backendProto) fault
        (registerReader backendProto) (registerMessage backendProto req) reg
      (reg, registerResult result)
  | "QUERY" =>
    if req.task = "" then (reg, { status := .err, error := "task required" })
    else
      let (reg, result) := call describe eof backend.handle (Wire.ofProto backendProto) fault
        (queryReader backendProto) (queryMessage req) reg
      (reg, queryResult result)
  | _ => (reg, { status := .err, error := "unknown command" })

theorem reports_registerReader : Reports (registerReader backendProto) := by
  intro resp hresp
  have hok : resp.status ≠ "OK" := by simp [hresp]
  rw [registerReader]
  split_ifs
  · rw [readRegisteredTLS, if_neg hok]
    split_ifs <;> exact ⟨_, rfl⟩
  · exact ⟨_, if_neg hok⟩

theorem reports_queryReader : Reports (queryReader backendProto) := by
  intro resp hresp
  rw [queryReader]
  split_ifs
  · exact ⟨"server error: " ++ resp.error, by simp [readFoundTLS, hresp]⟩
  · exact ⟨"server error: " ++ resp.error, by simp [readFound, hresp]⟩

/-- The message that a request leads to, if it leads to one. -/
def sentMessage (req : ProxyRequest) : CentralizedMessage :=
  if req.command = "REGISTER" then registerMessage backendProto req else queryMessage req

/-- **What the proxy does over the wire.** For every request, transport, server and registry, and
whatever gets lost, the proxy behaves as if it handed the message to the server itself, with one of
the three possible outcomes. The exchange is completed if and only if nothing is lost and both
texts fit into the buffers they are read into. -/
theorem proxied_exchange (req : ProxyRequest) (reg : σ) :
    let msg := sentMessage backendProto req
    ∃ d, proxied describe eof backend fault backendProto req reg
        = handleCentralizedRequest backend d backendProto req reg
      ∧ (d = .delivered
        ↔ Completed (Wire.ofProto backendProto) fault msg (backend.handle msg reg).2) := by
  intro msg
  by_cases hreg : req.command = "REGISTER"
  · have hmsg : msg = registerMessage backendProto req := if_pos hreg
    rw [hmsg]
    obtain ⟨d, hcall, hd⟩ := call_exchange describe eof backend (w := Wire.ofProto backendProto)
      (reports_registerReader backendProto) fault (registerMessage backendProto req) reg
    refine ⟨d, ?_, hd⟩
    simp only [proxied, handleCentralizedRequest, hreg, hcall, forwardRegister_eq_exchange]
  · have hmsg : msg = queryMessage req := if_neg hreg
    rw [hmsg]
    obtain ⟨d, hcall, hd⟩ := call_exchange describe eof backend (w := Wire.ofProto backendProto)
      (reports_queryReader backendProto) fault (queryMessage req) reg
    refine ⟨d, ?_, hd⟩
    by_cases hquery : req.command = "QUERY"
    · simp only [proxied, handleCentralizedRequest, hquery, hcall, forwardQuery_eq_exchange]
    · simp only [proxied, handleCentralizedRequest]

end Proxied

end Client

end TaskDiscovery
