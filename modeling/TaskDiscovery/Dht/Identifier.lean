import Mathlib.Algebra.Ring.Int.Defs
import Mathlib.Data.Int.Order.Basic
import TaskDiscovery.Go.Net
import TaskDiscovery.Lib.Nearest
import TaskDiscovery.Lib.Sha256

/-!
# Identifiers on the ring

Nodes and tasks are placed on a ring of `2 ^ 256` positions by hashing. A node's position is the
hash of its address, after the common names of the local host have been replaced by one of them; a
task's position is the hash of its name. How near a node is to a task is the distance walked
clockwise from the task to the node, and nodes at the same distance are at the same position
(`distance_injective`). Nothing below depends on which hash function it is.
-/

namespace TaskDiscovery

/-- A position on the ring. -/
abbrev NodeID := BitVec 256

/-- `strings.ToLower` on code points. Only ASCII letters are folded, which is all that a comparison
with the names below can see. -/
def asciiLower (c : Char) : Char :=
  if 'A' ≤ c ∧ c ≤ 'Z' then Char.ofNat (c.toNat + 32) else c

/-- The names of the local host that `canonicalAddressForHash` identifies. -/
def localAliases : List String := ["", "0.0.0.0", "::", "::1", "localhost"]

def canonicalAddressForHash (addr : String) : String :=
  let trimmed := Go.trimText addr.toList
  match Go.splitHostPort trimmed with
  | none => String.ofList trimmed
  | some (host, port) =>
    let name := String.ofList ((Go.trimText host).map asciiLower)
    let host := if name ∈ localAliases then "127.0.0.1".toList else host
    String.ofList (Go.joinHostPort host port)

example : canonicalAddressForHash "localhost:6001" = canonicalAddressForHash "127.0.0.1:6001" := by
  decide +kernel

@[irreducible] def hashAddress (addr : String) : NodeID :=
  Sha256.sum256 (canonicalAddressForHash addr)

@[irreducible] def hashTask (task : String) : NodeID := Sha256.sum256 task

/-- `CompareNodeID`: negative, zero or positive. -/
def compareNodeID (a b : NodeID) : Int :=
  if a.toNat < b.toNat then -1 else if a.toNat = b.toNat then 0 else 1

theorem compareNodeID_neg {a b : NodeID} : compareNodeID a b < 0 ↔ a.toNat < b.toNat := by
  rw [compareNodeID]
  split_ifs <;> omega

/-- `Distance`: the clockwise distance from `a` to `b`. -/
def distance (a b : NodeID) : Int :=
  let diff := (b.toNat : Int) - a.toNat
  if diff < 0 then diff + 2 ^ 256 else diff

theorem distance_injective (a : NodeID) : Function.Injective (distance a) := by
  intro b b' h
  have hb := b.isLt
  have hb' := b'.isLt
  have ha := a.isLt
  simp only [distance] at h
  apply BitVec.eq_of_toNat_eq
  split_ifs at h <;> omega

end TaskDiscovery
