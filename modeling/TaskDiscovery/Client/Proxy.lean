import TaskDiscovery.Transport.Messages

/-!
# The client proxy

A machine that offers or looks for services talks to a proxy on the same machine. The proxy passes
each request on to the server with one of three client libraries (`client.go`), for UDP, for TCP and
for TLS, and translates the response of the server back into an answer of its own.

A message that reaches the server is decoded to what was encoded, and so is a response. What can go
wrong on the way is a `Delivery`: the server does not get to handle the message, or its response
does not get back. This includes a datagram that is cut off by the buffer it is read into.

The counters and the log of the proxy are left out. So is the field `JSON` of a request, which is
always set.
-/

namespace TaskDiscovery

namespace Client

open Go (IP)

/-! ## The way to the server -/

/-- How an exchange with the server ends. The texts are those of the errors of the client. -/
inductive Delivery
  | delivered
  | unserved (err : String)
  | unanswered (err : String)
  deriving DecidableEq

/-- A server as its clients know it: its registry, the readings of its clock while it handles a
message, and the IP it sees them under. -/
structure Backend (σ : Type) where
  ops : RegistryOps σ
  now₁ : Time
  now₂ : Time
  requestorIP : Option IP

section Calls

variable {σ α : Type} (backend : Backend σ) (d : Delivery)

def Backend.handle (msg : CentralizedMessage) (reg : σ) : σ × CentralizedResponse :=
  handleMessage backend.ops reg backend.now₁ backend.now₂ msg backend.requestorIP

/-- One message and the reading of its response: what all six calls of the client have in common. -/
def exchange (read : CentralizedResponse → Except String α) (msg : CentralizedMessage) (reg : σ) :
    σ × Except String α :=
  match d with
  | .delivered => ((backend.handle msg reg).1, read (backend.handle msg reg).2)
  | .unserved err => (reg, .error err)
  | .unanswered err => ((backend.handle msg reg).1, .error err)

/-! ## Registrations -/

/-- How a registration over UDP or TCP reads the response. -/
def readRegistered (resp : CentralizedResponse) : Except String Unit :=
  if resp.status = "OK" then .ok () else .error ("server error: " ++ resp.error)

/-- A registration over UDP or TCP. -/
def registerWithCapacity (task address : String) (capacity : Int64) : σ → σ × Except String Unit :=
  exchange backend d readRegistered
    { command := "REGISTER", task := task, address := address,
      capacity := normalizedCapacity capacity }

def registerUDPWithCapacity (task address : String) (capacity : Int64) :
    σ → σ × Except String Unit :=
  registerWithCapacity backend d task address capacity

def registerTCPWithCapacity (task address : String) (capacity : Int64) :
    σ → σ × Except String Unit :=
  registerWithCapacity backend d task address capacity

/-- How a registration over TLS reads the response. -/
def readRegisteredTLS (resp : CentralizedResponse) : Except String Unit :=
  if resp.status = "OK" then .ok ()
  else if resp.error ≠ "" then .error ("server error: " ++ resp.error)
  else .error ("server error: " ++ resp.status)

/-- `RegisterTLS`. It is not given a capacity. -/
def registerTLS (task address : String) : σ → σ × Except String Unit :=
  exchange backend d readRegisteredTLS
    { command := "REGISTER", task := task, address := address, capacity := 1 }

/-! ## Queries -/

/-- How a query over UDP or TCP reads the response. -/
def readFound (resp : CentralizedResponse) : Except String String :=
  if resp.status = "NOTFOUND" then .ok ""
  else if resp.status = "ERR" then .error ("server error: " ++ resp.error)
  else .ok resp.address

def queryUDP (task : String) : σ → σ × Except String String :=
  exchange backend d readFound { command := "QUERY", task := task }

def queryTCP (task : String) : σ → σ × Except String String :=
  exchange backend d readFound { command := "QUERY", task := task }

/-- How a query over TLS reads the response: statuses it does not know are errors. -/
def readFoundTLS (resp : CentralizedResponse) : Except String String :=
  if resp.status = "NOTFOUND" then .ok ""
  else if resp.status = "ERR" then .error ("server error: " ++ resp.error)
  else if resp.status ≠ "OK" then .error ("server error: " ++ resp.status)
  else .ok resp.address

def queryTLS (task : String) : σ → σ × Except String String :=
  exchange backend d readFoundTLS { command := "QUERY", task := task }

end Calls

/-! ## Requests to the proxy -/

structure ProxyRequest where
  command : String
  task : String
  address : String
  capacity : Int64
  deriving DecidableEq

/-- `strings.ToUpper`, as far as the result is ASCII. Outside ASCII only the dotless i and the long
s become ASCII letters. -/
def toUpper (s : String) : String :=
  String.ofList (s.toList.map fun c ↦
    if c = 'ı' then 'I' else if c = 'ſ' then 'S' else c.toUpper)

/-- `parseProxyRequest`, over any `json.Unmarshal`. -/
def parseProxyRequest (unmarshal : String → Except String CentralizedMessage) (data : String) :
    Except String ProxyRequest :=
  let data := Go.trimSpace data
  if data = "" then .error "empty command"
  else if data.toList.head? ≠ some '\x7b' then .error "JSON required"
  else
    match unmarshal data with
    | .error err => .error ("invalid JSON: " ++ err)
    | .ok msg =>
      if msg.capacity < 0 then .error "capacity must be a positive integer"
      else
        .ok {
          command := toUpper (Go.trimSpace msg.command)
          task := Go.trimSpace msg.task
          address := Go.trimSpace msg.address
          capacity := if 0 < msg.capacity then msg.capacity else 1 }

/-- What a proxy answers with: `StatusOK`, `StatusErr` and `StatusNotFound`. -/
inductive ProxyStatus
  | ok
  | err
  | notFound
  deriving DecidableEq

structure ProxyResult where
  status : ProxyStatus
  address : String := ""
  error : String := ""
  deriving DecidableEq

def registerResult : Except String Unit → ProxyResult
  | .error err => { status := .err, error := err }
  | .ok () => { status := .ok }

/-- The answer to a query. The client reports a service that was not found by an empty address. -/
def queryResult : Except String String → ProxyResult
  | .error err => { status := .err, error := err }
  | .ok addr => if addr = "" then { status := .notFound } else { status := .ok, address := addr }

section Handler

variable {σ : Type} (backend : Backend σ) (d : Delivery) (backendProto : String)

def forwardRegister (req : ProxyRequest) : σ → σ × Except String Unit :=
  if backendProto = "tcp" then
    registerTCPWithCapacity backend d req.task req.address req.capacity
  else if backendProto = "tls" then registerTLS backend d req.task req.address
  else registerUDPWithCapacity backend d req.task req.address req.capacity

def forwardQuery (req : ProxyRequest) : σ → σ × Except String String :=
  if backendProto = "tcp" then queryTCP backend d req.task
  else if backendProto = "tls" then queryTLS backend d req.task
  else queryUDP backend d req.task

/-- `handleCentralizedRequest`: the registry of the server afterwards, and the answer. -/
def handleCentralizedRequest (req : ProxyRequest) (reg : σ) : σ × ProxyResult :=
  match req.command with
  | "REGISTER" =>
    if req.task = "" ∨ req.address = "" then
      (reg, { status := .err, error := "task and address required" })
    else
      let (reg, result) := forwardRegister backend d backendProto req reg
      (reg, registerResult result)
  | "QUERY" =>
    if req.task = "" then (reg, { status := .err, error := "task required" })
    else
      let (reg, result) := forwardQuery backend d backendProto req reg
      (reg, queryResult result)
  | _ => (reg, { status := .err, error := "unknown command" })

/-! ## The exchange behind a request -/

def registerMessage (req : ProxyRequest) : CentralizedMessage :=
  { command := "REGISTER", task := req.task, address := req.address,
    capacity := if backendProto = "tls" then 1 else normalizedCapacity req.capacity }

def queryMessage (req : ProxyRequest) : CentralizedMessage :=
  { command := "QUERY", task := req.task }

def registerReader : CentralizedResponse → Except String Unit :=
  if backendProto = "tls" then readRegisteredTLS else readRegistered

def queryReader : CentralizedResponse → Except String String :=
  if backendProto = "tls" then readFoundTLS else readFound

theorem forwardRegister_eq_exchange (req : ProxyRequest) :
    forwardRegister backend d backendProto req
      = exchange backend d (registerReader backendProto) (registerMessage backendProto req) := by
  rw [forwardRegister, registerReader, registerMessage]
  by_cases htcp : backendProto = "tcp"
  · have htls : backendProto ≠ "tls" := by
      rw [htcp]
      decide
    rw [if_pos htcp, if_neg htls, if_neg htls, registerTCPWithCapacity, registerWithCapacity]
  · rw [if_neg htcp]
    by_cases htls : backendProto = "tls"
    · rw [if_pos htls, if_pos htls, if_pos htls, registerTLS]
    · rw [if_neg htls, if_neg htls, if_neg htls, registerUDPWithCapacity, registerWithCapacity]

theorem forwardQuery_eq_exchange (req : ProxyRequest) :
    forwardQuery backend d backendProto req
      = exchange backend d (queryReader backendProto) (queryMessage req) := by
  rw [forwardQuery, queryReader, queryMessage]
  by_cases htcp : backendProto = "tcp"
  · have htls : backendProto ≠ "tls" := by
      rw [htcp]
      decide
    rw [if_pos htcp, if_neg htls, queryTCP]
  · rw [if_neg htcp]
    by_cases htls : backendProto = "tls"
    · rw [if_pos htls, if_pos htls, queryTLS]
    · rw [if_neg htls, if_neg htls, queryUDP]

end Handler

/-! ## Requests that are accepted -/

/-- The names in an accepted request are trimmed, and its capacity is positive. -/
structure ProxyRequest.Accepted (req : ProxyRequest) : Prop where
  task : Go.trimSpace req.task = req.task
  address : Go.trimSpace req.address = req.address
  capacity : 0 < req.capacity

theorem parseProxyRequest_accepted {unmarshal : String → Except String CentralizedMessage}
    {data : String} {req : ProxyRequest} (h : parseProxyRequest unmarshal data = .ok req) :
    req.Accepted := by
  rw [parseProxyRequest] at h
  split_ifs at h
  cases hmsg : unmarshal (Go.trimSpace data) with
  | error err => simp [hmsg] at h
  | ok msg =>
    simp only [hmsg] at h
    by_cases hneg : msg.capacity < 0
    · simp [hneg] at h
    · rw [if_neg hneg] at h
      rw [← Except.ok.inj h]
      refine ⟨Go.trimSpace_idem _, Go.trimSpace_idem _, ?_⟩
      change 0 < if 0 < msg.capacity then msg.capacity else 1
      split_ifs with hpos
      · exact hpos
      · decide

end Client

end TaskDiscovery
