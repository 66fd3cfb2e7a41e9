import TaskDiscovery.Go.Net

/-!
# Firewall rules

The linear firewall of `pkg/firewall`: an ordered list of allow rules, each from a source to a
destination, where either side is a single address or a network. A firewall without rules is
permissive: `FilterAddresses` then returns even text that is no address.
-/

namespace TaskDiscovery

open Go (IP IPNet)

/-- A rule that allows communication from a source to a destination. When a network is present the
address beside it is not consulted. -/
structure FirewallRule where
  sourceIP : IP := []
  sourceNetwork : Option IPNet := none
  destIP : IP := []
  destNetwork : Option IPNet := none
  deriving DecidableEq, Repr

/-- An ordered rule set. -/
structure Firewall where
  rules : List FirewallRule
  deriving DecidableEq, Repr

namespace Firewall

/-- An endpoint of a rule: the network decides when there is one. -/
def matchesEndpoint (network : Option IPNet) (ip x : IP) : Bool :=
  match network with
  | some n => n.contains x
  | none => ip.equal x

def matchesSource (rule : FirewallRule) (sourceIP : IP) : Bool :=
  matchesEndpoint rule.sourceNetwork rule.sourceIP sourceIP

def matchesDest (rule : FirewallRule) (destIP : IP) : Bool :=
  matchesEndpoint rule.destNetwork rule.destIP destIP

/-- `Firewall.IsAllowed`: no rules at all, or some rule that matches both ends. -/
def isAllowed (fw : Firewall) (sourceIP destIP : IP) : Bool :=
  if fw.rules = [] then true
  else fw.rules.any fun rule ↦ matchesSource rule sourceIP && matchesDest rule destIP

/-- The address in front of a port, or the whole text when there is no port. -/
def hostIP (addr : String) : Option IP :=
  match Go.splitHostPort addr.toList with
  | some (hostPart, _) => Go.parseIP hostPart
  | none => Go.parseIP addr.toList

/-- `Firewall.FilterAddresses`: text that is no address is left out, unless there are no rules. -/
def filterAddresses (fw : Firewall) (sourceIP : IP) (addresses : List String) : List String :=
  if fw.rules = [] then addresses
  else addresses.foldl (fun allowed addr ↦
    match hostIP addr with
    | none => allowed
    | some destIP => if fw.isAllowed sourceIP destIP then allowed ++ [addr] else allowed) []

end Firewall

end TaskDiscovery
