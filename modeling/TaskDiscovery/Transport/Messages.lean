import TaskDiscovery.Registry.StoreBacked

/-!
# The centralized protocol

`HandleMessage` serves one decoded message on any registry. It asks the registry whether it takes
capacities (`capacityAwareRegistry`) and otherwise falls back to a plain registration, so it is
modelled over the operations it uses, `RegistryOps`, with the capacity-aware one optional.

The event callback only logs and is left out.
-/

namespace TaskDiscovery

open Go (IP)

structure CentralizedMessage where
  command : String
  task : String
  address : String := ""
  capacity : Int64 := 0
  deriving DecidableEq, Repr

/-- `CentralizedResponse`, without the reserved list of addresses, which nothing fills. -/
structure CentralizedResponse where
  status : String
  address : String := ""
  error : String := ""
  deriving DecidableEq, Repr

/-- What the protocol handler calls on a registry in state `σ`. Registrations read the clock at
most twice. -/
structure RegistryOps (σ : Type) where
  register : σ → Time → Time → String → String → σ
  registerWithCapacity : Option (σ → Time → Time → String → String → Int64 → σ)
  getServiceForRequestor : σ → String → Option IP → σ × Except RegistryError String

/-- `MemoryRegistry` as a registry. It reads the clock once. -/
def MemoryRegistry.ops : RegistryOps MemoryRegistry where
  register reg now _ := reg.register now
  registerWithCapacity := some fun reg now _ ↦ reg.registerWithCapacity now
  getServiceForRequestor := MemoryRegistry.getServiceForRequestor

def StoreBackedRegistry.ops : RegistryOps StoreBackedRegistry where
  register := StoreBackedRegistry.register
  registerWithCapacity := some StoreBackedRegistry.registerWithCapacity
  getServiceForRequestor := StoreBackedRegistry.getServiceForRequestor

section Handlers

variable {σ : Type} (ops : RegistryOps σ) (reg : σ)

def handleRegister (now₁ now₂ : Time) (msg : CentralizedMessage) : σ × CentralizedResponse :=
  let task := Go.trimSpace msg.task
  let address := Go.trimSpace msg.address
  if task = "" ∨ address = "" then
    (reg, { status := "ERR", error := "task and address required" })
  else
    let capacity := normalizedCapacity msg.capacity
    let reg :=
      match ops.registerWithCapacity with
      | some f => f reg now₁ now₂ task address capacity
      | none => ops.register reg now₁ now₂ task address
    (reg, { status := "OK" })

/-- The switch of `handleQuery` on the address and the error the registry returned. A registry
returns the empty address with every error. -/
def queryResponse (result : Except RegistryError String) : CentralizedResponse :=
  let addrStr := match result with
    | .ok addr => addr
    | .error _ => ""
  match result with
  | .ok _ =>
    if addrStr ≠ "" then { status := "OK", address := addrStr } else { status := "NOTFOUND" }
  | .error .noAllowedService => { status := "FORBIDDEN" }
  | .error err =>
    if err = .notFound ∨ addrStr = "" then { status := "NOTFOUND" }
    else { status := "ERR", error := err.text }

def handleQuery (msg : CentralizedMessage) (requestorIP : Option IP) : σ × CentralizedResponse :=
  let task := Go.trimSpace msg.task
  if task = "" then (reg, { status := "ERR", error := "task required" })
  else
    let (reg, result) := ops.getServiceForRequestor reg task requestorIP
    (reg, queryResponse result)

def handleMessage (now₁ now₂ : Time) (msg : CentralizedMessage) (requestorIP : Option IP) :
    σ × CentralizedResponse :=
  match msg.command with
  | "REGISTER" => handleRegister ops reg now₁ now₂ msg
  | "QUERY" => handleQuery ops reg msg requestorIP
  | cmd => (reg, { status := "ERR", error := "unknown command: " ++ cmd })

end Handlers

end TaskDiscovery
