import TaskDiscovery.Firewall.Indexed
import TaskDiscovery.Firewall.Loading
import TaskDiscovery.Lib.Run

/-!
# Reloading the indexed firewall

An `IndexedFirewall` asks its provider for rules when it is made and again on every `Reload`. The
provider reads a table, whose columns may be `NULL`, or returns what it once loaded from a file. A
side of a rule for which both columns are `NULL` is neither a network nor an address: the linear
firewall compares with a nil address, and the index has it under a key that does not parse, so in
both it matches nothing.

`managed_refines` is about whole runs: between reloads that succeed the indexed firewall answers as
the linear one with the rules of the last of them, a reload that fails changes nothing, and the
counters are the numbers of the answers given.
-/

namespace TaskDiscovery

open Go (IP IPNet)

/-! ## Providers -/

/-- A row of `firewall_rules`, as `GetRules` reads it. -/
structure RuleRow where
  sourceIP : Option String
  sourceNetwork : Option String
  destIP : Option String
  destNetwork : Option String

/-- One side of a row, source or destination. -/
def rowEndpoint (side : String) (ip network : Option String) : Except String (Option IPNet × IP) :=
  match network, ip with
  | some s, _ =>
    match Go.parseCIDR s.toList with
    | none => .error ("invalid " ++ side ++ " CIDR in database: invalid CIDR address: " ++ s)
    | some n => .ok (some n, [])
  | none, some s =>
    match Go.parseIP s.toList with
    | none => .error ("invalid " ++ side ++ " IP in database: " ++ s)
    | some x => .ok (none, x)
  | none, none => .ok (none, [])

def rowRule (row : RuleRow) : Except String FirewallRule :=
  match rowEndpoint "source" row.sourceIP row.sourceNetwork with
  | .error err => .error err
  | .ok source =>
    match rowEndpoint "destination" row.destIP row.destNetwork with
    | .error err => .error err
    | .ok dest =>
      .ok { sourceIP := source.2, sourceNetwork := source.1, destIP := dest.2,
            destNetwork := dest.1 }

/-- The loop of `GetRules`, with the rules of the rows before. -/
def scanRows (rules : List FirewallRule) : List RuleRow → Except String (List FirewallRule)
  | [] => .ok rules
  | row :: rows =>
    match rowRule row with
    | .error err => .error err
    | .ok rule => scanRows (rules ++ [rule]) rows

/-- What the database answers to the query for the rules: an error, or rows and perhaps an error
after them. -/
inductive RulesQuery
  | failed (err : String)
  | answered (rows : List RuleRow) (err : Option String)

def RulesQuery.getRules : RulesQuery → Except String (List FirewallRule)
  | .failed err => .error ("failed to query firewall rules: " ++ err)
  | .answered rows err =>
    match scanRows [] rows with
    | .error err => .error err
    | .ok rules =>
      match err with
      | some err => .error ("error iterating rows: " ++ err)
      | none => .ok rules

/-- A `RulesProvider`. That of a file keeps the rules that it has loaded. -/
inductive RulesProvider
  | file (rules : List FirewallRule) (loaded : ∃ file, loadFromFile (.ok file) = .ok ⟨rules⟩)
  | database

/-- `GetRules`, with the answer of the database at the time. -/
def RulesProvider.getRules : RulesProvider → RulesQuery → Except String (List FirewallRule)
  | .file rules _, _ => .ok rules
  | .database, q => q.getRules

def loadFromProvider (provider : RulesProvider) (q : RulesQuery) : Except String Firewall :=
  match provider.getRules q with
  | .error err => .error err
  | .ok rules => .ok ⟨rules⟩

/-! ## What a table means -/

/-- What a side of a row stands for. With both columns `NULL` it stands for a nil address. -/
def RowDenotes (ip network : Option String) (x : IP) : Prop :=
  match network, ip with
  | some s, _ => ∃ n, Go.parseCIDR s.toList = some n ∧ n.contains x = true
  | none, some s => ∃ y, Go.parseIP s.toList = some y ∧ y.equal x = true
  | none, none => x = []

/-- The two sides of the row stand for the two addresses. -/
def RowAllows (row : RuleRow) (src dst : IP) : Prop :=
  RowDenotes row.sourceIP row.sourceNetwork src ∧ RowDenotes row.destIP row.destNetwork dst

theorem matchesEndpoint_of_rowEndpoint {side : String} {ip network : Option String}
    {e : Option IPNet × IP} (h : rowEndpoint side ip network = .ok e) (x : IP) :
    Firewall.matchesEndpoint e.1 e.2 x = true ↔ RowDenotes ip network x := by
  rcases network with _ | s
  · rcases ip with _ | s
    · cases h
      simp [Firewall.matchesEndpoint, RowDenotes, IP.equal, eq_comm]
    · rw [rowEndpoint] at h
      rcases hparse : Go.parseIP s.toList with _ | y
      · rw [hparse] at h
        cases h
      · rw [hparse] at h
        cases h
        simp [Firewall.matchesEndpoint, RowDenotes, hparse]
  · rw [rowEndpoint] at h
    rcases hparse : Go.parseCIDR s.toList with _ | n
    · rw [hparse] at h
      cases h
    · rw [hparse] at h
      cases h
      simp [Firewall.matchesEndpoint, RowDenotes, hparse]

theorem rowRule_ok {row : RuleRow} {rule : FirewallRule} (h : rowRule row = .ok rule) :
    rowEndpoint "source" row.sourceIP row.sourceNetwork = .ok (rule.sourceNetwork, rule.sourceIP)
      ∧ rowEndpoint "destination" row.destIP row.destNetwork
        = .ok (rule.destNetwork, rule.destIP) := by
  rw [rowRule] at h
  rcases hs : rowEndpoint "source" row.sourceIP row.sourceNetwork with err | source
  · rw [hs] at h
    cases h
  rcases hd : rowEndpoint "destination" row.destIP row.destNetwork with err | dest
  · rw [hs, hd] at h
    cases h
  rw [hs, hd] at h
  cases h
  exact ⟨rfl, rfl⟩

theorem RulesQuery.answered_ok {rows : List RuleRow} {err : Option String}
    {rules : List FirewallRule} (h : (RulesQuery.answered rows err).getRules = .ok rules) :
    err = none ∧ scanRows [] rows = .ok rules := by
  rw [RulesQuery.getRules] at h
  rcases hscan : scanRows [] rows with err' | rules'
  · rw [hscan] at h
    cases h
  · rw [hscan] at h
    rcases err with _ | err
    · cases h
      exact ⟨rfl, rfl⟩
    · cases h

theorem mem_of_scanRows {rules out : List FirewallRule} {rows : List RuleRow}
    (h : scanRows rules rows = .ok out) :
    (∀ row ∈ rows, ∃ rule ∈ out, rowRule row = .ok rule)
      ∧ ∀ rule, rule ∈ out ↔ rule ∈ rules ∨ ∃ row ∈ rows, rowRule row = .ok rule := by
  induction rows generalizing rules with
  | nil =>
    cases h
    exact ⟨by simp, by simp⟩
  | cons row rows ih =>
    rw [scanRows] at h
    rcases hrow : rowRule row with err | rule
    · rw [hrow] at h
      cases h
    · rw [hrow] at h
      obtain ⟨hrows, hmem⟩ := ih h
      refine ⟨List.forall_mem_cons.mpr ⟨⟨rule, (hmem rule).mpr (by simp), hrow⟩, hrows⟩, ?_⟩
      intro rule'
      simp [hmem rule', hrow, or_assoc, eq_comm]

theorem isAllowed_of_scanRows {rules : List FirewallRule} {rows : List RuleRow}
    (h : scanRows [] rows = .ok rules) (src dst : IP) :
    (Firewall.mk rules).isAllowed src dst = true
      ↔ rows = [] ∨ ∃ row ∈ rows, RowAllows row src dst := by
  have hallows : ∀ {row : RuleRow} {rule : FirewallRule}, rowRule row = .ok rule →
      ((Firewall.matchesSource rule src && Firewall.matchesDest rule dst) = true
        ↔ RowAllows row src dst) := by
    intro row rule hrow
    rw [Bool.and_eq_true]
    exact and_congr (matchesEndpoint_of_rowEndpoint (rowRule_ok hrow).1 src)
      (matchesEndpoint_of_rowEndpoint (rowRule_ok hrow).2 dst)
  obtain ⟨hrows, hmem⟩ := mem_of_scanRows h
  rw [Firewall.isAllowed]
  split_ifs with hnil
  · refine iff_of_true rfl (Or.inl (List.eq_nil_iff_forall_not_mem.mpr fun row hrow ↦ ?_))
    obtain ⟨rule, hrule, -⟩ := hrows row hrow
    obtain rfl : rules = [] := hnil
    exact List.not_mem_nil hrule
  · have hne : rows ≠ [] := by
      rintro rfl
      cases h
      exact hnil rfl
    rw [List.any_eq_true]
    constructor
    · rintro ⟨rule, hrule, hmatch⟩
      obtain ⟨row, hrow, hof⟩ := ((hmem rule).mp hrule).resolve_left List.not_mem_nil
      exact Or.inr ⟨row, hrow, (hallows hof).mp hmatch⟩
    · rintro (hnone | ⟨row, hrow, hallow⟩)
      · exact absurd hnone hne
      · obtain ⟨rule, hrule, hof⟩ := hrows row hrow
        exact ⟨rule, hrule, (hallows hof).mpr hallow⟩

/-! ## The managed firewall -/

/-- An `IndexedFirewall` with its provider. -/
structure ManagedFirewall where
  provider : RulesProvider
  ifw : IndexedFirewall
  lastReloadTime : Int64 := 0

/-- A call of the indexed firewall. A visit of the index has its own order, and a reload its own
time and answer of the database. -/
inductive FirewallCall
  | isAllowed (order : SourceOrder) (sourceIP destIP : IP)
  | filterAddresses (orders : ℕ → SourceOrder) (sourceIP : IP) (addresses : List String)
  | reload (now : Int64) (q : RulesQuery)

inductive FirewallAnswer
  | checked (allowed : Bool)
  | filtered (addresses : List String)
  | reloaded (err : Option String)
  deriving DecidableEq

namespace ManagedFirewall

/-- `NewIndexedFirewall`. -/
def new (provider : RulesProvider) (q : RulesQuery) : Except String ManagedFirewall :=
  match provider.getRules q with
  | .error err => .error err
  | .ok rules => .ok { provider := provider, ifw := IndexedFirewall.new rules }

def call (m : ManagedFirewall) : FirewallCall → ManagedFirewall × FirewallAnswer
  | .isAllowed order sourceIP destIP =>
    ({ m with ifw := (m.ifw.isAllowed order sourceIP destIP).2 },
      .checked (m.ifw.isAllowed order sourceIP destIP).1)
  | .filterAddresses orders sourceIP addresses =>
    (m, .filtered (m.ifw.filterAddresses orders sourceIP addresses))
  | .reload now q =>
    match m.provider.getRules q with
    | .error err => (m, .reloaded (some err))
    | .ok rules =>
      ({ m with ifw := m.ifw.rebuildIndex rules, lastReloadTime := now }, .reloaded none)

end ManagedFirewall

/-- The linear firewall in its place, with the rules of the last load that succeeded. -/
structure LinearFirewall where
  provider : RulesProvider
  firewall : Firewall
  lastReloadTime : Int64 := 0

namespace LinearFirewall

def new (provider : RulesProvider) (q : RulesQuery) : Except String LinearFirewall :=
  match loadFromProvider provider q with
  | .error err => .error err
  | .ok fw => .ok { provider := provider, firewall := fw }

def call (l : LinearFirewall) : FirewallCall → LinearFirewall × FirewallAnswer
  | .isAllowed _ sourceIP destIP => (l, .checked (l.firewall.isAllowed sourceIP destIP))
  | .filterAddresses _ sourceIP addresses =>
    (l, .filtered (l.firewall.filterAddresses sourceIP addresses))
  | .reload now q =>
    match loadFromProvider l.provider q with
    | .error err => (l, .reloaded (some err))
    | .ok fw => ({ l with firewall := fw, lastReloadTime := now }, .reloaded none)

end LinearFirewall

/-! ## Rules that were loaded -/

/-- A side of a rule that was loaded: parsed, or absent. -/
def LoadedEndpoint (network : Option IPNet) (ip : IP) : Prop :=
  ParsedEndpoint network ip ∨ network = none ∧ ip = []

structure LoadedRule (rule : FirewallRule) : Prop where
  source : LoadedEndpoint rule.sourceNetwork rule.sourceIP
  dest : LoadedEndpoint rule.destNetwork rule.destIP

theorem loadedEndpoint_of_parseEndpoint {side : String} {s : List Char} {network : Option IPNet}
    {ip : IP} (h : parseEndpoint side s = .ok (network, ip)) : LoadedEndpoint network ip := by
  rw [parseEndpoint] at h
  split_ifs at h
  · rcases hparse : Go.parseCIDR s with _ | n
    · rw [hparse] at h
      cases h
    · rw [hparse] at h
      cases h
      exact Or.inl (Or.inl ⟨s, n, hparse, rfl⟩)
  · rcases hparse : Go.parseIP s with _ | x
    · rw [hparse] at h
      cases h
    · rw [hparse] at h
      cases h
      exact Or.inl (Or.inr ⟨rfl, s, hparse⟩)

theorem loadedEndpoint_of_rowEndpoint {side : String} {ip network : Option String}
    {e : Option IPNet × IP} (h : rowEndpoint side ip network = .ok e) :
    LoadedEndpoint e.1 e.2 := by
  rcases network with _ | s
  · rcases ip with _ | s
    · cases h
      exact Or.inr ⟨rfl, rfl⟩
    · rw [rowEndpoint] at h
      rcases hparse : Go.parseIP s.toList with _ | x
      · rw [hparse] at h
        cases h
      · rw [hparse] at h
        cases h
        exact Or.inl (Or.inr ⟨rfl, s.toList, hparse⟩)
  · rw [rowEndpoint] at h
    rcases hparse : Go.parseCIDR s.toList with _ | n
    · rw [hparse] at h
      cases h
    · rw [hparse] at h
      cases h
      exact Or.inl (Or.inl ⟨s.toList, n, hparse, rfl⟩)

theorem loadedRule_of_lineRule {line : List Char} {rule : FirewallRule}
    (h : lineRule line = .ok (some rule)) : LoadedRule rule := by
  obtain ⟨s, d, -, hrule⟩ := parseRule_of_lineRule h
  obtain ⟨hs, hd⟩ := parseRule_ok hrule
  exact ⟨loadedEndpoint_of_parseEndpoint hs, loadedEndpoint_of_parseEndpoint hd⟩

theorem loadedRule_of_rowRule {row : RuleRow} {rule : FirewallRule}
    (h : rowRule row = .ok rule) : LoadedRule rule :=
  ⟨loadedEndpoint_of_rowEndpoint (rowRule_ok h).1, loadedEndpoint_of_rowEndpoint (rowRule_ok h).2⟩

theorem RulesProvider.loadedRule {provider : RulesProvider} {q : RulesQuery}
    {rules : List FirewallRule} (h : provider.getRules q = .ok rules) :
    ∀ rule ∈ rules, LoadedRule rule := by
  cases provider with
  | file rules' loaded =>
    cases h
    obtain ⟨file, hfile⟩ := loaded
    intro rule hrule
    have hload := (RulesFile.loadLines_of_loadFromFile hfile).2
    obtain ⟨line, -, hline⟩ := (mem_of_loadLines hload rule).mp hrule
    exact loadedRule_of_lineRule hline
  | database =>
    cases q with
    | failed err => cases h
    | answered rows err =>
      obtain ⟨-, hscan⟩ := RulesQuery.answered_ok h
      intro rule hrule
      obtain hnil | ⟨row, -, hrow⟩ := ((mem_of_scanRows hscan).2 rule).mp hrule
      · cases hnil
      · exact loadedRule_of_rowRule hrow

/-! ## Absent sides -/

theorem equal_nil {x : IP} (hx : ValidIP x) : IP.equal [] x = false := by
  have hne : x ≠ [] := by
    rintro rfl
    rcases hx with h | h <;> cases h
  have hlen : ¬([] : IP).length = x.length := fun h ↦ hne (List.eq_nil_of_length_eq_zero h.symm)
  rw [IP.equal, if_neg hlen, if_neg (by simp), if_neg (by simp)]

theorem contains_ipToNetwork_nil {x : IP} (hx : ValidIP x) :
    (ipToNetwork []).contains x = false := by
  have hnone : (ipToNetwork []).networkNumberAndMask = none := by decide
  rw [IPNet.contains, hnone]
  simp only [decide_eq_false_iff_not]
  rcases hx with hx | hx
  · rw [Go.IP.to4_of_length hx]
    rintro rfl
    cases hx
  · rw [IP.to4, if_neg (by omega)]
    split_ifs
    · intro hnil
      have hlen := congrArg List.length hnil
      rw [Option.getD_some, List.length_drop, hx] at hlen
      cases hlen
    · rintro rfl
      cases hx

namespace LoadedRule

variable {rule : FirewallRule} {sourceIP destIP : IP}

theorem sourceMatches_getSourceKey (h : LoadedRule rule) (hsource : ValidIP sourceIP) :
    IndexedFirewall.sourceMatches (IndexedFirewall.getSourceKey rule) sourceIP
      = Firewall.matchesSource rule sourceIP := by
  rcases h.source with hparsed | ⟨hnetwork, hip⟩
  · -- only the source of the rule matters to its key
    have hrule : ParsedRule { rule with destNetwork := rule.sourceNetwork, destIP := rule.sourceIP }
      := ⟨hparsed, hparsed⟩
    exact hrule.sourceMatches_getSourceKey hsource
  · have hkey : IndexedFirewall.getSourceKey rule = "<nil>".toList := by
      rw [IndexedFirewall.getSourceKey, hnetwork, hip]
      decide
    rw [IndexedFirewall.sourceMatches, hkey, show Go.parseCIDR "<nil>".toList = none by decide,
      Firewall.matchesSource, hnetwork, hip]
    exact (equal_nil hsource).symm

theorem contains_destNet (h : LoadedRule rule) (hdest : ValidIP destIP) :
    (IndexedFirewall.destNet rule).contains destIP = Firewall.matchesDest rule destIP := by
  rcases h.dest with hparsed | ⟨hnetwork, hip⟩
  · have hrule : ParsedRule { rule with sourceNetwork := rule.destNetwork, sourceIP := rule.destIP }
      := ⟨hparsed, hparsed⟩
    exact hrule.contains_destNet hdest
  · rw [IndexedFirewall.destNet, Firewall.matchesDest, hnetwork, hip]
    exact (contains_ipToNetwork_nil hdest).trans (equal_nil hdest).symm

end LoadedRule

/-! ## Runs -/

/-- The addresses of a check have one of the two lengths. -/
def FirewallCall.Valid : FirewallCall → Prop
  | .isAllowed _ sourceIP destIP => ValidIP sourceIP ∧ ValidIP destIP
  | .filterAddresses _ sourceIP _ => ValidIP sourceIP
  | .reload _ _ => True

/-- The index holds the rules of the linear firewall, and they were loaded. -/
structure Refines (m : ManagedFirewall) (l : LinearFirewall) : Prop where
  provider : m.provider = l.provider
  index : m.ifw.index = (IndexedFirewall.new l.firewall.rules).index
  loaded : ∀ rule ∈ l.firewall.rules, LoadedRule rule
  lastReloadTime : m.lastReloadTime = l.lastReloadTime

namespace IndexedFirewall

variable {ifw : IndexedFirewall} {rules : List FirewallRule} {sourceIP destIP : IP}

theorem index_isAllowed (ifw : IndexedFirewall) (order : SourceOrder) (sourceIP destIP : IP) :
    (ifw.isAllowed order sourceIP destIP).2.index = ifw.index := by
  rw [isAllowed]
  split_ifs <;> rfl

theorem allows_of_loaded (hindex : ifw.index = (new rules).index)
    (hrules : ∀ rule ∈ rules, LoadedRule rule) (order : SourceOrder) (hsource : ValidIP sourceIP)
    (hdest : ValidIP destIP) :
    ifw.allows order sourceIP destIP = rules.any fun rule ↦
      Firewall.matchesSource rule sourceIP && Firewall.matchesDest rule destIP := by
  rw [allows, hindex]
  exact allows_new_of_agree order
    (fun rule hmem ↦ (hrules rule hmem).sourceMatches_getSourceKey hsource)
    fun rule hmem ↦ (hrules rule hmem).contains_destNet hdest

theorem isAllowed_of_loaded (hindex : ifw.index = (new rules).index)
    (hrules : ∀ rule ∈ rules, LoadedRule rule) (order : SourceOrder) (hsource : ValidIP sourceIP)
    (hdest : ValidIP destIP) :
    (ifw.isAllowed order sourceIP destIP).1 = (Firewall.mk rules).isAllowed sourceIP destIP := by
  rw [isAllowed_fst, Firewall.isAllowed, allows_of_loaded hindex hrules order hsource hdest, hindex]
  by_cases hnil : rules = [] <;> simp [index_new_eq_nil_iff, hnil]

theorem filterAddresses_of_loaded (hindex : ifw.index = (new rules).index)
    (hrules : ∀ rule ∈ rules, LoadedRule rule) (orders : ℕ → SourceOrder)
    (hsource : ValidIP sourceIP) (addresses : List String) :
    ifw.filterAddresses orders sourceIP addresses
      = (Firewall.mk rules).filterAddresses sourceIP addresses := by
  refine filterAddresses_of_allows (by rw [hindex, index_new_eq_nil_iff]) ?_ orders addresses
  exact fun order _ hdest ↦ allows_of_loaded hindex hrules order hsource hdest

end IndexedFirewall

theorem ManagedFirewall.call_refines (m : ManagedFirewall) (l : LinearFirewall) (c : FirewallCall)
    (hc : c.Valid) (h : Refines m l) :
    (m.call c).2 = (l.call c).2 ∧ Refines (m.call c).1 (l.call c).1 := by
  cases c with
  | isAllowed order sourceIP destIP =>
    refine ⟨congrArg FirewallAnswer.checked ?_, { h with index := ?_ }⟩
    · exact IndexedFirewall.isAllowed_of_loaded h.index h.loaded order hc.1 hc.2
    · exact (IndexedFirewall.index_isAllowed m.ifw order sourceIP destIP).trans h.index
  | filterAddresses orders sourceIP addresses =>
    refine ⟨congrArg FirewallAnswer.filtered ?_, h⟩
    exact IndexedFirewall.filterAddresses_of_loaded h.index h.loaded orders hc addresses
  | reload now q =>
    rw [call, LinearFirewall.call, loadFromProvider, ← h.provider]
    rcases hrules : m.provider.getRules q with err | rules
    · exact ⟨rfl, h⟩
    · exact ⟨rfl, ⟨rfl, rfl, RulesProvider.loadedRule hrules, rfl⟩⟩

/-! ## Counters -/

/-- An answer of `IsAllowed`. -/
def FirewallAnswer.isCheck : FirewallAnswer → Bool
  | .checked _ => true
  | _ => false

/-- The counters after these answers have been given. -/
def FirewallStats.of (answers : List FirewallAnswer) : FirewallStats where
  totalChecks := Int64.ofNat (answers.countP FirewallAnswer.isCheck)
  totalAllowed := Int64.ofNat (answers.count (.checked true))
  totalBlocked := Int64.ofNat (answers.count (.checked false))

/-- The counters after one more answer. -/
def FirewallStats.record (stats : FirewallStats) : FirewallAnswer → FirewallStats
  | .checked true =>
    { stats with totalChecks := stats.totalChecks + 1, totalAllowed := stats.totalAllowed + 1 }
  | .checked false =>
    { stats with totalChecks := stats.totalChecks + 1, totalBlocked := stats.totalBlocked + 1 }
  | _ => stats

theorem ManagedFirewall.stats_call (m : ManagedFirewall) (c : FirewallCall) :
    (m.call c).1.ifw.stats = m.ifw.stats.record (m.call c).2 := by
  cases c with
  | isAllowed order sourceIP destIP =>
    simp only [call, IndexedFirewall.isAllowed]
    split_ifs <;> rfl
  | filterAddresses orders sourceIP addresses => rfl
  | reload now q =>
    rw [call]
    rcases m.provider.getRules q with err | rules <;> rfl

theorem FirewallStats.of_append (answers : List FirewallAnswer) (answer : FirewallAnswer) :
    FirewallStats.of (answers ++ [answer]) = (FirewallStats.of answers).record answer := by
  rcases answer with allowed | addresses | err
  · cases allowed <;>
      simp [FirewallStats.of, record, List.count_append, List.countP_append, Int64.ofNat_add,
        FirewallAnswer.isCheck]
  · simp [FirewallStats.of, record, List.count_append, List.countP_append, FirewallAnswer.isCheck]
  · simp [FirewallStats.of, record, List.count_append, List.countP_append, FirewallAnswer.isCheck]

theorem ManagedFirewall.stats_exec {m : ManagedFirewall} (before : List FirewallAnswer)
    (h : m.ifw.stats = FirewallStats.of before) (calls : List FirewallCall) :
    (Run.exec (fun m c ↦ (call m c).1) m calls).ifw.stats
      = FirewallStats.of (before ++ Run.outputs call m calls) := by
  induction calls generalizing m before with
  | nil =>
    rw [Run.outputs, List.append_nil]
    exact h
  | cons c calls ih =>
    have hcall : (m.call c).1.ifw.stats = FirewallStats.of (before ++ [(m.call c).2]) := by
      rw [FirewallStats.of_append, stats_call, h]
    rw [Run.exec_cons, ih _ hcall, Run.outputs, List.append_assoc]
    rfl

/-- **The indexed firewall over whole runs.** It can be made exactly when the linear firewall can be
loaded. From then on every call answers as the linear firewall does that holds the rules of the
last load that succeeded, and the counters say how many checks there were and how they ended. -/
theorem managed_refines (provider : RulesProvider) (q : RulesQuery) :
    (∃ err, ManagedFirewall.new provider q = .error err
        ∧ loadFromProvider provider q = .error err)
      ∨ ∃ m l, ManagedFirewall.new provider q = .ok m ∧ LinearFirewall.new provider q = .ok l
        ∧ ∀ calls : List FirewallCall, (∀ c ∈ calls, c.Valid) →
          Run.outputs ManagedFirewall.call m calls = Run.outputs LinearFirewall.call l calls
          ∧ (Run.exec (fun m c ↦ (ManagedFirewall.call m c).1) m calls).ifw.stats
            = FirewallStats.of (Run.outputs LinearFirewall.call l calls) := by
  rw [ManagedFirewall.new, LinearFirewall.new, loadFromProvider]
  rcases hrules : provider.getRules q with err | rules
  · exact Or.inl ⟨err, rfl, rfl⟩
  · refine Or.inr ⟨_, _, rfl, rfl, fun calls hcalls ↦ ?_⟩
    have hstart : Refines { provider := provider, ifw := IndexedFirewall.new rules }
        { provider := provider, firewall := ⟨rules⟩ } :=
      ⟨rfl, rfl, RulesProvider.loadedRule hrules, rfl⟩
    have houts := (Run.outputs_refine ManagedFirewall.call_refines hstart hcalls).1
    refine ⟨houts, ?_⟩
    rw [← houts, ManagedFirewall.stats_exec [] rfl, List.nil_append]

end TaskDiscovery
