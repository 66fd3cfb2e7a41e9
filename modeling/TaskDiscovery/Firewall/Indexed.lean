import TaskDiscovery.Firewall.Rules
import TaskDiscovery.Go.Cidr
import TaskDiscovery.Lib.RangeMap

/-!
# The indexed firewall

`IndexedFirewall` holds the same rules as the linear firewall, grouped under their sources. A source
is indexed under its printed form, with a single address printed as a network that contains nothing
else, and a check parses every key again. The destinations of a source are kept as networks.

The index is a map, so a check visits the sources in no particular order. That makes no difference
to its result, and the result is that of the linear firewall (`indexed_refines_linear`): the keys
lead back to networks that contain the same addresses, however the rules were written.
-/

namespace TaskDiscovery

open Go (IP IPNet)

/-! ## The index -/

/-- `ipToNetwork`: the network of a single address. -/
def ipToNetwork (ip : IP) : IPNet :=
  if ip.to4 ≠ none then ⟨ip, Go.cidrMask 32 32⟩ else ⟨ip, Go.cidrMask 128 128⟩

/-- An order in which a check visits the sources. -/
abbrev SourceOrder := RangeOrder (Sigma fun _ : List Char ↦ List IPNet)

/-- `FirewallStats`, apart from the time of the last reload. -/
structure FirewallStats where
  totalChecks : Int64 := 0
  totalAllowed : Int64 := 0
  totalBlocked : Int64 := 0

/-- The index, from printed sources to destinations, and the counters of `IsAllowed`. -/
structure IndexedFirewall where
  index : AList fun _ : List Char ↦ List IPNet
  stats : FirewallStats := {}

namespace IndexedFirewall

def getSourceKey (rule : FirewallRule) : List Char :=
  match rule.sourceNetwork with
  | some n => n.string
  | none => (ipToNetwork rule.sourceIP).string

def destNet (rule : FirewallRule) : IPNet :=
  match rule.destNetwork with
  | some n => n
  | none => ipToNetwork rule.destIP

/-- `rebuildIndex`, once the provider has given its rules. -/
def rebuildIndex (ifw : IndexedFirewall) (rules : List FirewallRule) : IndexedFirewall :=
  { ifw with index := AList.group (rules.map fun rule ↦ (getSourceKey rule, destNet rule)) }

/-- `NewIndexedFirewall` with a provider of these rules. -/
def new (rules : List FirewallRule) : IndexedFirewall := rebuildIndex ⟨∅, {}⟩ rules

/-- `sourceMatches`: a key that does not parse matches nothing. -/
def sourceMatches (sourceKey : List Char) (sourceIP : IP) : Bool :=
  match Go.parseCIDR sourceKey with
  | none => false
  | some network => network.contains sourceIP

/-- The loop over the index that `IsAllowed` and `FilterAddresses` share. -/
def allows (ifw : IndexedFirewall) (order : SourceOrder) (sourceIP destIP : IP) : Bool :=
  (order.arrange ifw.index.entries).any fun source ↦
    sourceMatches source.1 sourceIP && source.2.any fun destNet ↦ destNet.contains destIP

/-- `IndexedFirewall.IsAllowed`, with the counters after it. -/
def isAllowed (ifw : IndexedFirewall) (order : SourceOrder) (sourceIP destIP : IP) :
    Bool × IndexedFirewall :=
  let stats := { ifw.stats with totalChecks := ifw.stats.totalChecks + 1 }
  if ifw.index.entries = [] ∨ ifw.allows order sourceIP destIP = true then
    (true, { ifw with stats := { stats with totalAllowed := stats.totalAllowed + 1 } })
  else (false, { ifw with stats := { stats with totalBlocked := stats.totalBlocked + 1 } })

def filterAddressHelper (ifw : IndexedFirewall) (order : SourceOrder) (sourceIP destIP : IP)
    (allowed : List String) (addr : String) : List String :=
  if ifw.allows order sourceIP destIP then allowed ++ [addr] else allowed

/-- `IndexedFirewall.FilterAddresses`. The index is visited anew for every address, in an order of
its own. -/
def filterAddresses (ifw : IndexedFirewall) (orders : ℕ → SourceOrder) (sourceIP : IP)
    (addresses : List String) : List String :=
  if ifw.index.entries = [] then addresses
  else addresses.zipIdx.foldl (fun allowed addr ↦
    match Firewall.hostIP addr.1 with
    | none => allowed
    | some destIP => ifw.filterAddressHelper (orders addr.2) sourceIP destIP allowed addr.1) []

end IndexedFirewall

/-! ## Networks of single addresses -/

/-- An address of one of the two lengths. -/
def ValidIP (ip : IP) : Prop := ip.length = 4 ∨ ip.length = 16

theorem zipWith_and_ones (x : IP) :
    List.zipWith (· &&& ·) x (List.replicate x.length 0xff) = x := by
  induction x with
  | nil => rfl
  | cons a x ih =>
    have hand : a &&& 0xff = a := UInt8.and_neg_one
    rw [List.length_cons, List.replicate_succ, List.zipWith_cons_cons, ih, hand]

theorem networkNumberAndMask_ipToNetwork {ip : IP} (h : ip.length = 16) :
    ∃ nn : IP, (ipToNetwork ip).networkNumberAndMask = some (nn, List.replicate nn.length 0xff)
      ∧ (ip.to4 = some nn ∧ nn.length = 4 ∨ ip.to4 = none ∧ nn = ip) := by
  have hv4 : Go.cidrMask 32 32 = List.replicate 4 0xff := by decide
  have hv6 : Go.cidrMask 128 128 = List.replicate 16 0xff := by decide
  rw [ipToNetwork]
  rcases hto4 : ip.to4 with _ | v4
  · refine ⟨ip, ?_, Or.inr ⟨rfl, rfl⟩⟩
    rw [if_neg (by simp), IPNet.networkNumberAndMask, hto4]
    simp [h, hv6]
  · have hlen : v4.length = 4 := by
      rw [IP.to4, if_neg (by omega)] at hto4
      split_ifs at hto4
      cases hto4
      simp [h]
    refine ⟨v4, ?_, Or.inl ⟨rfl, hlen⟩⟩
    rw [if_pos (by simp), IPNet.networkNumberAndMask, hto4]
    simp [hlen, hv4]

theorem isProper_ipToNetwork {ip : IP} (h : ip.length = 16) : (ipToNetwork ip).IsProper := by
  obtain ⟨nn, hnn, ⟨-, hlen⟩ | ⟨hto4, rfl⟩⟩ := networkNumberAndMask_ipToNetwork h
  · refine ⟨nn, _, hnn, Or.inl hlen, ⟨32, ?_, ?_⟩, zipWith_and_ones nn⟩
    · omega
    · rw [hlen]
      decide
  · refine ⟨nn, _, hnn, Or.inr ⟨h, hto4⟩, ⟨128, ?_, ?_⟩, zipWith_and_ones nn⟩
    · omega
    · rw [h]
      decide

/-- `IP.Equal` compares the narrow forms. -/
theorem equal_eq_decide_to4 {ip x : IP} (h : ip.length = 16) (hx : ValidIP x) :
    ip.equal x = decide (x.to4.getD x = ip.to4.getD ip) := by
  rcases hx with hx | hx
  · by_cases hip : ip.take 12 = Go.v4InV6Prefix
    · simp [IP.equal, IP.to4, h, hx, hip, eq_comm]
    · have hne : x ≠ ip := fun heq ↦ by rw [heq, h] at hx; omega
      simp [IP.equal, IP.to4, h, hx, hip, hne]
  · by_cases hip : ip.take 12 = Go.v4InV6Prefix <;> by_cases hx' : x.take 12 = Go.v4InV6Prefix
    · have heq : ip = x ↔ x.drop 12 = ip.drop 12 := by
        refine ⟨fun heq ↦ by rw [heq], fun hdrop ↦ ?_⟩
        rw [← List.take_append_drop 12 ip, hip, ← hdrop, ← hx', List.take_append_drop]
      simp [IP.equal, IP.to4, h, hx, hip, hx', heq]
    · have hne : x ≠ ip.drop 12 := fun heq ↦ by rw [heq, List.length_drop, h] at hx; omega
      have hne' : ip ≠ x := fun heq ↦ hx' (heq ▸ hip)
      simp [IP.equal, IP.to4, h, hx, hip, hx', hne, hne']
    · have hne : x.drop 12 ≠ ip := fun heq ↦ by rw [← heq, List.length_drop, hx] at h; omega
      have hne' : ip ≠ x := fun heq ↦ hip (heq ▸ hx')
      simp [IP.equal, IP.to4, h, hx, hip, hx', hne, hne']
    · simp [IP.equal, IP.to4, h, hx, hip, hx', eq_comm]

/-- **A single address.** Its network contains it, in both forms, and nothing else. -/
theorem contains_ipToNetwork {ip x : IP} (h : ip.length = 16) (hx : ValidIP x) :
    (ipToNetwork ip).contains x = ip.equal x := by
  obtain ⟨nn, hnn, hform⟩ := networkNumberAndMask_ipToNetwork h
  have hto4 : ip.to4.getD ip = nn := by
    rcases hform with ⟨hto4, -⟩ | ⟨hto4, rfl⟩ <;> rw [hto4] <;> rfl
  rw [equal_eq_decide_to4 h hx, hto4, IPNet.contains, hnn]
  simp only [zipWith_and_ones]
  rw [decide_eq_decide]
  constructor
  · rintro ⟨hlen, hand⟩
    rw [← hlen, zipWith_and_ones] at hand
    exact hand.symm
  · intro heq
    rw [heq, zipWith_and_ones]
    exact ⟨rfl, rfl⟩

theorem validIP_hostIP {addr : String} {ip : IP} (h : Firewall.hostIP addr = some ip) :
    ValidIP ip := by
  rw [Firewall.hostIP] at h
  rcases hsplit : Go.splitHostPort addr.toList with _ | ⟨host, port⟩
  · rw [hsplit] at h
    exact Or.inr (Go.parseIP_spec h).1
  · rw [hsplit] at h
    exact Or.inr (Go.parseIP_spec h).1

/-! ## The refinement -/

/-- An endpoint of a rule that comes from `net.ParseCIDR` or from `net.ParseIP`. -/
def ParsedEndpoint (network : Option IPNet) (ip : IP) : Prop :=
  (∃ s n, Go.parseCIDR s = some n ∧ network = some n) ∨ network = none ∧ ∃ s, Go.parseIP s = some ip

/-- A rule both of whose endpoints were parsed. -/
structure ParsedRule (rule : FirewallRule) : Prop where
  source : ParsedEndpoint rule.sourceNetwork rule.sourceIP
  dest : ParsedEndpoint rule.destNetwork rule.destIP

/-- The network of a parsed endpoint: a proper one, that contains what the endpoint matches. -/
theorem ParsedEndpoint.network {network : Option IPNet} {ip : IP} (h : ParsedEndpoint network ip) :
    (network.getD (ipToNetwork ip)).IsProper ∧ ∀ x, ValidIP x →
      (network.getD (ipToNetwork ip)).contains x = Firewall.matchesEndpoint network ip x := by
  rcases h with ⟨s, n, hparse, rfl⟩ | ⟨rfl, s, hparse⟩
  · exact ⟨Go.parseCIDR_isProper hparse, fun x _ ↦ rfl⟩
  · have hlen := (Go.parseIP_spec hparse).1
    exact ⟨isProper_ipToNetwork hlen, fun x hx ↦ contains_ipToNetwork hlen hx⟩

namespace ParsedRule

variable {rule : FirewallRule} {sourceIP destIP : IP}

theorem sourceMatches_getSourceKey (h : ParsedRule rule) (hsource : ValidIP sourceIP) :
    IndexedFirewall.sourceMatches (IndexedFirewall.getSourceKey rule) sourceIP
      = Firewall.matchesSource rule sourceIP := by
  obtain ⟨hproper, hcontains⟩ := h.source.network
  have hkey : IndexedFirewall.getSourceKey rule
      = (rule.sourceNetwork.getD (ipToNetwork rule.sourceIP)).string := by
    rw [IndexedFirewall.getSourceKey]
    rcases rule.sourceNetwork with _ | n <;> rfl
  obtain ⟨n, hparse, hn⟩ := hproper.exists_parseCIDR_string
  rw [IndexedFirewall.sourceMatches, hkey, hparse]
  exact (hn sourceIP).trans (hcontains sourceIP hsource)

theorem contains_destNet (h : ParsedRule rule) (hdest : ValidIP destIP) :
    (IndexedFirewall.destNet rule).contains destIP = Firewall.matchesDest rule destIP := by
  have hnet : IndexedFirewall.destNet rule = rule.destNetwork.getD (ipToNetwork rule.destIP) := by
    rw [IndexedFirewall.destNet]
    rcases rule.destNetwork with _ | n <;> rfl
  rw [hnet, h.dest.network.2 destIP hdest, Firewall.matchesDest]

end ParsedRule

namespace IndexedFirewall

variable {rules : List FirewallRule} {sourceIP destIP : IP}

theorem index_new : (new rules).index
    = AList.group (rules.map fun rule ↦ (getSourceKey rule, destNet rule)) := rfl

theorem index_new_eq_nil_iff : (new rules).index.entries = [] ↔ rules = [] :=
  AList.entries_group_eq_nil_iff.trans List.map_eq_nil_iff

/-- If every rule matches in the index what it matches by itself, then the loop over the index finds
what the loop over the rules finds, in every order. -/
theorem allows_new_of_agree (order : SourceOrder)
    (hsource : ∀ rule ∈ rules,
      sourceMatches (getSourceKey rule) sourceIP = Firewall.matchesSource rule sourceIP)
    (hdest : ∀ rule ∈ rules, (destNet rule).contains destIP = Firewall.matchesDest rule destIP) :
    (new rules).allows order sourceIP destIP = rules.any fun rule ↦
      Firewall.matchesSource rule sourceIP && Firewall.matchesDest rule destIP := by
  rw [Bool.eq_iff_iff, allows]
  simp only [List.any_eq_true, RangeOrder.mem_arrange, Bool.and_eq_true]
  rw [index_new]
  refine (AList.exists_mem_group (P := fun key ↦ sourceMatches key sourceIP = true)
    (Q := fun n : IPNet ↦ n.contains destIP = true)).trans ?_
  simp only [List.mem_map]
  constructor
  · rintro ⟨-, ⟨rule, hmem, rfl⟩, hkey, hnet⟩
    rw [hsource rule hmem] at hkey
    rw [hdest rule hmem] at hnet
    exact ⟨rule, hmem, hkey, hnet⟩
  · rintro ⟨rule, hmem, hmatch, hmatch'⟩
    refine ⟨_, ⟨rule, hmem, rfl⟩, ?_, ?_⟩
    · rw [hsource rule hmem]
      exact hmatch
    · rw [hdest rule hmem]
      exact hmatch'

theorem allows_new (hrules : ∀ rule ∈ rules, ParsedRule rule) (order : SourceOrder)
    (hsource : ValidIP sourceIP) (hdest : ValidIP destIP) :
    (new rules).allows order sourceIP destIP = rules.any fun rule ↦
      Firewall.matchesSource rule sourceIP && Firewall.matchesDest rule destIP :=
  allows_new_of_agree order
    (fun rule hmem ↦ (hrules rule hmem).sourceMatches_getSourceKey hsource)
    fun rule hmem ↦ (hrules rule hmem).contains_destNet hdest

theorem isAllowed_fst (ifw : IndexedFirewall) (order : SourceOrder) (sourceIP destIP : IP) :
    (ifw.isAllowed order sourceIP destIP).1
      = (decide (ifw.index.entries = []) || ifw.allows order sourceIP destIP) := by
  rw [isAllowed]
  split_ifs with h
  · simpa using h
  · simpa [not_or] using h

theorem isAllowed_new (hrules : ∀ rule ∈ rules, ParsedRule rule) (order : SourceOrder)
    (hsource : ValidIP sourceIP) (hdest : ValidIP destIP) :
    ((new rules).isAllowed order sourceIP destIP).1
      = (Firewall.mk rules).isAllowed sourceIP destIP := by
  rw [isAllowed_fst, Firewall.isAllowed, allows_new hrules order hsource hdest]
  by_cases hnil : rules = [] <;> simp [index_new_eq_nil_iff, hnil]

private theorem foldl_zipIdx_eq {α β : Type} {f : β → α × ℕ → β} {g : β → α → β}
    (h : ∀ b a k, f b (a, k) = g b a) (l : List α) (b : β) : l.zipIdx.foldl f b = l.foldl g b := by
  have hf : f = fun b p ↦ g b p.1 := funext fun b ↦ funext fun p ↦ h b p.1 p.2
  rw [hf, ← List.foldl_map, List.zipIdx_map_fst]

theorem filterAddresses_of_allows {ifw : IndexedFirewall}
    (hindex : ifw.index.entries = [] ↔ rules = [])
    (hallows : ∀ order destIP, ValidIP destIP →
      ifw.allows order sourceIP destIP = rules.any fun rule ↦
        Firewall.matchesSource rule sourceIP && Firewall.matchesDest rule destIP)
    (orders : ℕ → SourceOrder) (addresses : List String) :
    ifw.filterAddresses orders sourceIP addresses
      = (Firewall.mk rules).filterAddresses sourceIP addresses := by
  rw [filterAddresses, Firewall.filterAddresses]
  by_cases hnil : rules = []
  · rw [if_pos (hindex.mpr hnil), if_pos hnil]
  rw [if_neg (hindex.not.mpr hnil), if_neg hnil]
  refine foldl_zipIdx_eq (fun allowed addr k ↦ ?_) addresses []
  rcases hip : Firewall.hostIP addr with _ | destIP
  · rfl
  · simp only [filterAddressHelper]
    rw [hallows _ _ (validIP_hostIP hip), Firewall.isAllowed, if_neg hnil]

theorem filterAddresses_new (hrules : ∀ rule ∈ rules, ParsedRule rule) (orders : ℕ → SourceOrder)
    (hsource : ValidIP sourceIP) (addresses : List String) :
    (new rules).filterAddresses orders sourceIP addresses
      = (Firewall.mk rules).filterAddresses sourceIP addresses :=
  filterAddresses_of_allows index_new_eq_nil_iff
    (fun order _ hdest ↦ allows_new hrules order hsource hdest) orders addresses

end IndexedFirewall

/-- **The indexed firewall refines the linear one.** For rules that were parsed, in any order and
with any repetitions, both decide every pair of addresses and filter every list alike, in whatever
order the index is visited. -/
theorem indexed_refines_linear (rules : List FirewallRule)
    (hrules : ∀ rule ∈ rules, ParsedRule rule) (sourceIP : IP) (hsource : ValidIP sourceIP) :
    (∀ destIP, ValidIP destIP → ∀ order : SourceOrder,
        ((IndexedFirewall.new rules).isAllowed order sourceIP destIP).1
          = (Firewall.mk rules).isAllowed sourceIP destIP)
      ∧ ∀ (addresses : List String) (orders : ℕ → SourceOrder),
        (IndexedFirewall.new rules).filterAddresses orders sourceIP addresses
          = (Firewall.mk rules).filterAddresses sourceIP addresses :=
  ⟨fun _ hdest order ↦ IndexedFirewall.isAllowed_new hrules order hsource hdest,
    fun addresses orders ↦ IndexedFirewall.filterAddresses_new hrules orders hsource addresses⟩

/-- Three rules: from an IPv4 network to an address in its sixteen-byte form, from that network
written as a mapped one to a network, and between IPv6 endpoints. -/
def mixedRules : List FirewallRule :=
  [{ sourceNetwork := some ⟨[192, 168, 0, 0], [255, 255, 0, 0]⟩,
     destIP := Go.v4InV6Prefix ++ [10, 0, 0, 5] },
   { sourceNetwork := some ⟨Go.v4InV6Prefix ++ [192, 168, 0, 0], Go.cidrMask 112 128⟩,
     destNetwork := some ⟨[172, 16, 0, 0], [255, 240, 0, 0]⟩ },
   { sourceIP := [0x20, 0x01, 0x0d, 0xb8, 0, 0, 0, 0, 0, 0, 0, 0, 0, 0, 0, 1],
     destNetwork := some ⟨[0x20, 0x01, 0x0d, 0xb8, 0, 0, 0, 0, 0, 0, 0, 0, 0, 0, 0, 0],
       Go.cidrMask 32 128⟩ }]

theorem parsedRule_mixedRules : ∀ rule ∈ mixedRules, ParsedRule rule := by
  have h1 : ParsedRule mixedRules[0] :=
    ⟨Or.inl ⟨"192.168.0.0/16".toList, _, by decide +kernel, rfl⟩,
      Or.inr ⟨rfl, "10.0.0.5".toList, by decide +kernel⟩⟩
  have h2 : ParsedRule mixedRules[1] :=
    ⟨Or.inl ⟨"::ffff:192.168.0.0/112".toList, _, by decide +kernel, rfl⟩,
      Or.inl ⟨"172.16.0.0/12".toList, _, by decide +kernel, rfl⟩⟩
  have h3 : ParsedRule mixedRules[2] :=
    ⟨Or.inr ⟨rfl, "2001:db8::1".toList, by decide +kernel⟩,
      Or.inl ⟨"2001:db8::/32".toList, _, by decide +kernel, rfl⟩⟩
  simp only [mixedRules, List.forall_mem_cons]
  exact ⟨h1, h2, h3, by simp⟩

/-- Of three services an IPv4 client is shown two. -/
theorem mixedRules_filtered :
    ValidIP [192, 168, 7, 7]
      ∧ (IndexedFirewall.new mixedRules).filterAddresses (fun _ ↦ RangeOrder.reversed)
          [192, 168, 7, 7] ["10.0.0.5:80", "172.31.9.9", "[2001:db8::2]:80"]
        = ["10.0.0.5:80", "172.31.9.9"] := by
  refine ⟨Or.inl rfl, ?_⟩
  rw [(indexed_refines_linear mixedRules parsedRule_mixedRules _ (Or.inl rfl)).2]
  decide +kernel

end TaskDiscovery
