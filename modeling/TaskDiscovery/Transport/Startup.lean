import TaskDiscovery.Firewall.Reload
import TaskDiscovery.Registry.Completeness
import TaskDiscovery.Registry.Expiry
import TaskDiscovery.Transport.NonLeak

/-!
# Starting the server

`cmd/server` decides from its flags whether there is a firewall and where its rules come from, and
then makes the registry: over a database if one is named, in memory otherwise. Whatever goes wrong
on the way ends the process. In particular there is no way from rules that cannot be loaded to a
server without a firewall.

Two statements join the start to what follows it. `started_answers_permitted` goes from the text of
a rule to the answers of the server: with a firewall, a query that is answered `OK` carries an
address that a line of the file, or a row of the table, lets the requestor reach. `started_knows` is
about a restart: a registry over a database that has just been started knows exactly the instances
that were active and have sent a heartbeat in time.
-/

namespace TaskDiscovery

open Go (IP IPNet)

/-! ## Flags and environment -/

/-- The flags that the start reads, after the prompts. -/
structure Flags where
  firewallRulesPath : String := ""
  firewallSource : String := "file"
  firewallDBURL : String := ""
  firewallEnabledFlag : Bool := false
  firewallDisabledFlag : Bool := false
  storeURL : String := ""
  cacheMaxSize : Int := 0
  cacheAdmitAfterMisses : Int := 1
  heartbeatTimeout : Time := 0

/-- A database of rules: what becomes of opening it, of the ping, of making the table, and of the
query. -/
inductive RulesDatabase
  | unopened (err : String)
  | unreachable (err : String)
  | uncreated (err : String)
  | ready (q : RulesQuery)

/-- A database of services: what becomes of opening it and of the migrations. -/
inductive ServiceDatabase
  | unopened (err : String)
  | unmigrated (err : String)
  | ready (store : PostgresStore)

/-- What the process finds: files, databases, and the variable `DATABASE_URL`. -/
structure HostEnvironment where
  files : String → Except String RulesFile
  rulesDatabases : String → RulesDatabase
  serviceDatabases : String → ServiceDatabase
  databaseURL : String := ""

/-- The readings of the clock during the start, and the orders in which the cache is warmed. -/
structure StartClock where
  created : Time
  cleanup₁ : Time
  cleanup₂ : Time
  warmed : Time
  ord : WarmOrders

/-- What `fatalError` reports. -/
inductive FatalError
  /-- "firewall enabled with database source, but no database URL was provided […]" -/
  | noDatabaseURL
  /-- "failed to load firewall rules from database: […]" -/
  | rulesDatabase (err : String)
  /-- "invalid firewall source […] (expected file or database)" -/
  | invalidSource (source : String)
  /-- "failed to load firewall rules: […]" -/
  | rulesFile (err : String)
  /-- "failed to initialize postgres store: […]" -/
  | store (err : String)
  /-- "failed to run migrations: […]" -/
  | migrations (err : String)

/-! ## The firewall -/

def determineEffectiveFirewallEnabled (flags : Flags) : Bool :=
  if flags.firewallDisabledFlag then false
  else if flags.firewallEnabledFlag then true
  else decide (flags.firewallRulesPath ≠ "")

/-- `strings.Trim` with the two quotation marks. -/
def trimQuotes (s : List Char) : List Char :=
  let quote : Char → Bool := fun c ↦ c = '"' ∨ c = Char.ofNat 39
  (s.dropWhile quote).rdropWhile quote

def normalizeDatabaseURL (raw : String) : String :=
  let trimmed := Go.trimText (trimQuotes (Go.trimText raw.toList))
  let lower := trimmed.map Go.lowerChar
  if lower.getLast? = some ')' ∧ Go.contains lower "sslmode=".toList = true then
    String.ofList (Go.trimText trimmed.dropLast)
  else String.ofList trimmed

def resolveFirewallDatabaseURL (flags : Flags) (env : HostEnvironment) : String :=
  if flags.firewallDBURL ≠ "" then normalizeDatabaseURL flags.firewallDBURL
  else if flags.storeURL ≠ "" then normalizeDatabaseURL flags.storeURL
  else normalizeDatabaseURL env.databaseURL

def loadFirewallFromDatabase : RulesDatabase → Except String Firewall
  | .unopened err => .error ("failed to open firewall database: " ++ err)
  | .unreachable err => .error ("failed to ping database: " ++ err)
  | .uncreated err => .error ("failed to create tables: " ++ err)
  | .ready q => loadFromProvider .database q

/-- The source of the rules, in the form in which it is compared. -/
def effectiveSource (flags : Flags) : List Char :=
  let source := (Go.trimText flags.firewallSource.toList).map Go.lowerChar
  if source = [] then "file".toList else source

def configureFirewall (flags : Flags) (env : HostEnvironment) (firewallEnabled : Bool) :
    Except FatalError (Option Firewall) :=
  if ¬firewallEnabled then .ok none
  else if effectiveSource flags = "database".toList then
    if resolveFirewallDatabaseURL flags env = "" then .error .noDatabaseURL
    else
      match loadFirewallFromDatabase
        (env.rulesDatabases (resolveFirewallDatabaseURL flags env)) with
      | .error err => .error (.rulesDatabase err)
      | .ok fw => .ok (some fw)
  else if effectiveSource flags ≠ "file".toList then .error (.invalidSource flags.firewallSource)
  else if flags.firewallRulesPath ≠ "" then
    match loadFromFile (env.files flags.firewallRulesPath) with
    | .error err => .error (.rulesFile err)
    | .ok fw => .ok (some fw)
  else .ok (some ⟨[]⟩)

/-! ## The registry -/

inductive StartedRegistry
  | memory (reg : MemoryRegistry)
  | storeBacked (sr : StoreBackedRegistry)

/-- The registry over a database, after the purge and the warming of its cache. An error of the
warming is only logged. -/
def startStoreBacked (flags : Flags) (clock : StartClock) (store : PostgresStore)
    (fw : Option Firewall) : StoreBackedRegistry :=
  let threshold := if flags.cacheAdmitAfterMisses ≤ 0 then 1 else flags.cacheAdmitAfterMisses
  let sr := StoreBackedRegistry.start store flags.cacheMaxSize clock.created threshold fw
  let sr := (sr.cleanup clock.cleanup₁ clock.cleanup₂ flags.heartbeatTimeout).1
  (sr.warmCacheFromDB clock.warmed clock.ord).1

/-- The database that the registry is over: the flag takes precedence over the variable. -/
def effectiveStoreURL (flags : Flags) (env : HostEnvironment) : String :=
  if flags.storeURL = "" then env.databaseURL else flags.storeURL

def initializeRegistry (flags : Flags) (env : HostEnvironment) (clock : StartClock)
    (fw : Option Firewall) : Except FatalError StartedRegistry :=
  if effectiveStoreURL flags env ≠ "" then
    match env.serviceDatabases (effectiveStoreURL flags env) with
    | .unopened err => .error (.store err)
    | .unmigrated err => .error (.migrations err)
    | .ready store => .ok (.storeBacked (startStoreBacked flags clock store fw))
  else .ok (.memory (MemoryRegistry.new.setFirewall fw))

def initializeServer (flags : Flags) (env : HostEnvironment) (clock : StartClock) :
    Except FatalError StartedRegistry :=
  match configureFirewall flags env (determineEffectiveFirewallEnabled flags) with
  | .error err => .error err
  | .ok fw => initializeRegistry flags env clock fw

/-! ## What the operator permits -/

/-- The rules that the flags name let the source reach the destination. -/
def Permits (flags : Flags) (env : HostEnvironment) (src dst : IP) : Prop :=
  if effectiveSource flags = "database".toList then
    ∃ rows, env.rulesDatabases (resolveFirewallDatabaseURL flags env) = .ready (.answered rows none)
      ∧ (rows = [] ∨ ∃ row ∈ rows, RowAllows row src dst)
  else
    flags.firewallRulesPath ≠ "" → ∃ file, env.files flags.firewallRulesPath = .ok file
      ∧ ((∀ line ∈ file.lines, Skipped line) ∨ ∃ line ∈ file.lines, LineAllows line src dst)

theorem isAllowed_of_loadFirewallFromDatabase {db : RulesDatabase} {fw : Firewall}
    (h : loadFirewallFromDatabase db = .ok fw) (src dst : IP) :
    fw.isAllowed src dst = true ↔ ∃ rows, db = .ready (.answered rows none)
      ∧ (rows = [] ∨ ∃ row ∈ rows, RowAllows row src dst) := by
  rcases db with err | err | err | ⟨err | ⟨rows, err⟩⟩
  · cases h
  · cases h
  · cases h
  · cases h
  · rw [loadFirewallFromDatabase, loadFromProvider, RulesProvider.getRules] at h
    rcases hrules : (RulesQuery.answered rows err).getRules with err' | rules
    · rw [hrules] at h
      cases h
    · rw [hrules] at h
      cases h
      obtain ⟨rfl, hscan⟩ := RulesQuery.answered_ok hrules
      rw [isAllowed_of_scanRows hscan]
      simp

theorem isAllowed_of_loadFromFile {opened : Except String RulesFile} {fw : Firewall}
    (h : loadFromFile opened = .ok fw) (src dst : IP) :
    fw.isAllowed src dst = true ↔ ∃ file, opened = .ok file
      ∧ ((∀ line ∈ file.lines, Skipped line) ∨ ∃ line ∈ file.lines, LineAllows line src dst) := by
  rcases opened with err | file
  · cases h
  · have hload := (RulesFile.loadLines_of_loadFromFile h).2
    rw [isAllowed_of_loadLines hload]
    simp

/-- If the firewall is enabled and the start goes on, there is a firewall, and it allows what the
rules permit. -/
theorem configureFirewall_ok {flags : Flags} {env : HostEnvironment} {fw : Option Firewall}
    (h : configureFirewall flags env true = .ok fw) :
    ∃ f, fw = some f ∧ ∀ src dst, f.isAllowed src dst = true ↔ Permits flags env src dst := by
  rw [configureFirewall, if_neg (by simp)] at h
  by_cases hdb : effectiveSource flags = "database".toList
  · rw [if_pos hdb] at h
    split_ifs at h
    rcases hload : loadFirewallFromDatabase
      (env.rulesDatabases (resolveFirewallDatabaseURL flags env)) with err | f
    · rw [hload] at h
      cases h
    · rw [hload] at h
      cases h
      refine ⟨f, rfl, fun src dst ↦ ?_⟩
      rw [isAllowed_of_loadFirewallFromDatabase hload, Permits, if_pos hdb]
  · rw [if_neg hdb] at h
    split_ifs at h with hsource hpath
    · rcases hload : loadFromFile (env.files flags.firewallRulesPath) with err | f
      · rw [hload] at h
        cases h
      · rw [hload] at h
        cases h
        refine ⟨f, rfl, fun src dst ↦ ?_⟩
        rw [isAllowed_of_loadFromFile hload, Permits, if_neg hdb]
        exact ⟨fun hperm _ ↦ hperm, fun hperm ↦ hperm hpath⟩
    · cases h
      refine ⟨⟨[]⟩, rfl, fun src dst ↦ ?_⟩
      rw [Permits, if_neg hdb]
      exact iff_of_true rfl fun hne ↦ absurd hne hpath

/-! ## The server that has started -/

/-- What the loops of `cmd/server` do beside the messages: the periodic cleanup, with a warm after
it if there is a dashboard, and the listing that the dashboard shows. -/
inductive ServerMaintenance
  | cleanup (now₁ now₂ : Time)
  | warmCacheFromDB (now : Time) (ord : WarmOrders)
  | listServices (now₁ now₂ : Time) (ord : WarmOrders)

namespace StartedRegistry

def firewall : StartedRegistry → Option Firewall
  | .memory reg => reg.firewall
  | .storeBacked sr => sr.memCache.firewall

def ops : RegistryOps StartedRegistry where
  register reg now₁ now₂ task addr :=
    match reg with
    | .memory reg => .memory (reg.register now₁ task addr)
    | .storeBacked sr => .storeBacked (sr.register now₁ now₂ task addr)
  registerWithCapacity := some fun reg now₁ now₂ task addr capacity ↦
    match reg with
    | .memory reg => .memory (reg.registerWithCapacity now₁ task addr capacity)
    | .storeBacked sr => .storeBacked (sr.registerWithCapacity now₁ now₂ task addr capacity)
  getServiceForRequestor reg task requestorIP :=
    match reg with
    | .memory reg =>
      (.memory (reg.getServiceForRequestor task requestorIP).1,
        (reg.getServiceForRequestor task requestorIP).2)
    | .storeBacked sr =>
      (.storeBacked (sr.getServiceForRequestor task requestorIP).1,
        (sr.getServiceForRequestor task requestorIP).2)

/-- The maintenance, with the timeout that the flags set. -/
def maintain (timeout : Time) (reg : StartedRegistry) (m : ServerMaintenance) : StartedRegistry :=
  match reg, m with
  | .memory reg, .cleanup now₁ _ => .memory (reg.cleanup now₁ timeout).1
  | .memory reg, .warmCacheFromDB _ _ => .memory reg
  | .memory reg, .listServices _ _ _ => .memory reg
  | .storeBacked sr, .cleanup now₁ now₂ => .storeBacked (sr.cleanup now₁ now₂ timeout).1
  | .storeBacked sr, .warmCacheFromDB now ord => .storeBacked (sr.warmCacheFromDB now ord).1
  | .storeBacked sr, .listServices now₁ now₂ ord => .storeBacked (sr.listServices now₁ now₂ ord).1

end StartedRegistry

/-- The server as `cmd/server` runs it. -/
def startedServer (flags : Flags) : Server StartedRegistry ServerMaintenance where
  ops := StartedRegistry.ops
  maintain := StartedRegistry.maintain flags.heartbeatTimeout

theorem startedServer_enforces (flags : Flags) (fw : Firewall) :
    Enforces (startedServer flags) fw fun reg ↦ reg.firewall = some fw := by
  refine ⟨?register, ?registerWithCapacity, ?lookup, ?maintain, ?reachable⟩
  case register =>
    rintro (reg | sr) now₁ now₂ task addr hfw
    · exact (memoryServer_enforces fw).register reg now₁ now₂ task addr hfw
    · exact (storeBackedServer_enforces fw).register sr now₁ now₂ task addr hfw
  case registerWithCapacity =>
    rintro f hf (reg | sr) now₁ now₂ task addr capacity hfw
    · obtain rfl := Option.some.inj hf
      exact (memoryServer_enforces fw).registerWithCapacity _ rfl reg now₁ now₂ task addr capacity
        hfw
    · obtain rfl := Option.some.inj hf
      exact (storeBackedServer_enforces fw).registerWithCapacity _ rfl sr now₁ now₂ task addr
        capacity hfw
  case lookup =>
    rintro (reg | sr) task requestorIP hfw
    · exact (memoryServer_enforces fw).lookup reg task requestorIP hfw
    · exact (storeBackedServer_enforces fw).lookup sr task requestorIP hfw
  case maintain =>
    rintro (reg | sr) (⟨now₁, now₂⟩ | ⟨now, ord⟩ | ⟨now₁, now₂, ord⟩) hfw
    · exact (memoryServer_enforces fw).maintain reg (now₁, flags.heartbeatTimeout) hfw
    · exact hfw
    · exact hfw
    · exact (storeBackedServer_enforces fw).maintain sr
        (.cleanup now₁ now₂ flags.heartbeatTimeout) hfw
    · exact (StoreBackedRegistry.warmCacheFromDB_config now ord).firewall.trans hfw
    · -- a listing is a warm, or it changes nothing
      have hconfig := StoreBackedRegistry.step_config sr (.listServices now₁ now₂ ord)
      exact hconfig.firewall.trans hfw
  case reachable =>
    rintro (reg | sr) task src addr hfw hget
    · exact (memoryServer_enforces fw).reachable reg task src addr hfw hget
    · exact (storeBackedServer_enforces fw).reachable sr task src addr hfw hget

theorem initializeServer_ok {flags : Flags} {env : HostEnvironment} {clock : StartClock}
    {reg : StartedRegistry} (h : initializeServer flags env clock = .ok reg) :
    ∃ fw, configureFirewall flags env (determineEffectiveFirewallEnabled flags) = .ok fw
      ∧ reg.firewall = fw
      ∧ (effectiveStoreURL flags env = "" ∧ reg = .memory (MemoryRegistry.new.setFirewall fw)
        ∨ effectiveStoreURL flags env ≠ "" ∧ ∃ store,
          env.serviceDatabases (effectiveStoreURL flags env) = .ready store
          ∧ reg = .storeBacked (startStoreBacked flags clock store fw)) := by
  rw [initializeServer] at h
  rcases hfw : configureFirewall flags env (determineEffectiveFirewallEnabled flags) with err | fw
  · rw [hfw] at h
    cases h
  rw [hfw] at h
  simp only [initializeRegistry] at h
  split_ifs at h with hurl
  · rcases hdb : env.serviceDatabases (effectiveStoreURL flags env) with err | err | store
    · rw [hdb] at h
      cases h
    · rw [hdb] at h
      cases h
    · rw [hdb] at h
      cases h
      refine ⟨fw, rfl, ?_, Or.inr ⟨hurl, store, rfl, rfl⟩⟩
      rw [StartedRegistry.firewall, startStoreBacked,
        (StoreBackedRegistry.warmCacheFromDB_config _ _).firewall,
        (StoreBackedRegistry.cleanup_config _ _ _).firewall]
      rfl
  · cases h
    exact ⟨fw, rfl, rfl, Or.inl ⟨not_not.mp hurl, rfl⟩⟩

/-- **From the rules to the answers.** Start the server with the firewall enabled, and let any
messages and any maintenance happen. A query from a known requestor that is then answered `OK`
carries an address whose destination the rules permit: those in the file, as its lines read, or
those in the table, as its rows read. -/
theorem started_answers_permitted {flags : Flags} {env : HostEnvironment} {clock : StartClock}
    {reg : StartedRegistry} (henabled : determineEffectiveFirewallEnabled flags = true)
    (hstart : initializeServer flags env clock = .ok reg)
    (evs : List (Event ServerMaintenance)) {now₁ now₂ : Time} {msg : CentralizedMessage} {src : IP}
    (hcmd : msg.command = "QUERY")
    (hok : (handleMessage StartedRegistry.ops (Run.exec (startedServer flags).step reg evs) now₁
      now₂ msg (some src)).2.status = "OK") :
    ∃ dst, destinationIPFromAddress (handleMessage StartedRegistry.ops
        (Run.exec (startedServer flags).step reg evs) now₁ now₂ msg (some src)).2.address = some dst
      ∧ Permits flags env src dst := by
  obtain ⟨fw, hconf, hfw, -⟩ := initializeServer_ok hstart
  rw [henabled] at hconf
  obtain ⟨f, rfl, hallows⟩ := configureFirewall_ok hconf
  obtain ⟨dst, hdst, hallowed⟩ := (startedServer_enforces flags f).run_query_ok hfw evs hcmd hok
  exact ⟨dst, hdst, (hallows src dst).mp hallowed⟩

/-- A file with a comment and one rule, and no database. -/
def oneRuleFile : HostEnvironment where
  files _ := .ok ⟨"# clients\n10.0.0.0/8 10.0.0.2\n".toList, none⟩
  rulesDatabases _ := .unreachable "no such host"
  serviceDatabases _ := .unopened "no such host"

def oneRuleRegistry : StartedRegistry :=
  .memory (MemoryRegistry.new.setFirewall (some
    ⟨[{ sourceNetwork := some ⟨[10, 0, 0, 0], [255, 0, 0, 0]⟩,
        destIP := Go.v4InV6Prefix ++ [10, 0, 0, 2] }]⟩))

theorem initializeServer_oneRuleFile (clock : StartClock) :
    initializeServer { firewallRulesPath := "rules" } oneRuleFile clock = .ok oneRuleRegistry := by
  have hload : loadFromFile (oneRuleFile.files "rules")
      = .ok ⟨[{ sourceNetwork := some ⟨[10, 0, 0, 0], [255, 0, 0, 0]⟩,
                destIP := Go.v4InV6Prefix ++ [10, 0, 0, 2] }]⟩ := by
    decide +kernel
  have hsource : effectiveSource { firewallRulesPath := "rules" } = "file".toList := by decide
  have hconf : configureFirewall { firewallRulesPath := "rules" } oneRuleFile true
      = .ok (some ⟨[{ sourceNetwork := some ⟨[10, 0, 0, 0], [255, 0, 0, 0]⟩,
                      destIP := Go.v4InV6Prefix ++ [10, 0, 0, 2] }]⟩) := by
    rw [configureFirewall, if_neg (by decide), if_neg (by rw [hsource]; decide),
      if_neg (by rw [hsource]; decide), if_pos (by decide), hload]
  have henabled : determineEffectiveFirewallEnabled { firewallRulesPath := "rules" } = true := by
    decide
  rw [initializeServer, henabled, hconf]
  rfl

/-- What happens to that server: two instances register. -/
def permittedAndOther : List (Event ServerMaintenance) :=
  [.message 1 1 { command := "REGISTER", task := "svc", address := "10.9.9.9:80" } none,
    .message 2 2 { command := "REGISTER", task := "svc", address := "10.0.0.2:80" } none]

/-- The instance that the rule names is given out, and the rule is the reason. -/
theorem oneRuleFile_permitted :
    ∃ dst, destinationIPFromAddress (handleMessage StartedRegistry.ops
        (Run.exec (startedServer { firewallRulesPath := "rules" }).step oneRuleRegistry
          permittedAndOther) 3 3 { command := "QUERY", task := "svc" }
        (some [10, 1, 2, 3])).2.address = some dst
      ∧ Permits { firewallRulesPath := "rules" } oneRuleFile [10, 1, 2, 3] dst :=
  started_answers_permitted (by decide)
    (initializeServer_oneRuleFile ⟨0, 0, 0, 0, WarmOrders.asStored⟩) permittedAndOther rfl
    (by decide +kernel)

/-! ## Restarts -/

namespace StoreBackedRegistry

theorem active_warmCacheFromDB {sr : StoreBackedRegistry} (hq : Quiet sr) {now : Time}
    {ord : WarmOrders} {task addr : String} (h : sr.store.table.Active task addr) :
    (sr.warmCacheFromDB now ord).1.store.table.Active task addr := by
  rw [(warmCacheFromDB_of_quiet hq now ord).2.1, warmedTable]
  obtain ⟨row, hrow, hact⟩ := h
  rcases lookup_syncTable sr.store.table (pairs ord.sync sr.memCache.listServices) (task, addr) with
    ⟨-, hlook⟩ | ⟨p, -, -, -, hlook⟩
  · exact ⟨row, hlook.trans hrow, hact⟩
  · exact ⟨_, hlook, rfl⟩

end StoreBackedRegistry

section Restart

variable {flags : Flags} {clock : StartClock} {store : PostgresStore} {fw : Option Firewall}

theorem quiet_startStoreBacked (hrel : store.Reliable) :
    (startStoreBacked flags clock store fw).Quiet :=
  StoreBackedRegistry.quiet_step (StoreBackedRegistry.quiet_step
    (StoreBackedRegistry.quiet_start hrel _ _ _ fw)
    (.cleanup clock.cleanup₁ clock.cleanup₂ flags.heartbeatTimeout))
    (.warmCacheFromDB clock.warmed clock.ord)

theorem known_startStoreBacked (hrel : store.Reliable) {task addr : String} :
    (startStoreBacked flags clock store fw).Known task addr
      ↔ ∃ row, store.table.lookup (task, addr) = some row ∧ row.isActive = true
        ∧ clock.cleanup₂ - flags.heartbeatTimeout ≤ row.lastHeartbeat := by
  simp only [startStoreBacked]
  generalize (if flags.cacheAdmitAfterMisses ≤ 0 then 1 else flags.cacheAdmitAfterMisses)
    = threshold
  have hq := StoreBackedRegistry.quiet_step
    (StoreBackedRegistry.quiet_start hrel flags.cacheMaxSize clock.created threshold fw)
    (.cleanup clock.cleanup₁ clock.cleanup₂ flags.heartbeatTimeout)
  have hactive : ((StoreBackedRegistry.start store flags.cacheMaxSize clock.created threshold
      fw).cleanup clock.cleanup₁ clock.cleanup₂ flags.heartbeatTimeout).1.store.table.Active task
        addr
      ↔ ∃ row, store.table.lookup (task, addr) = some row ∧ row.isActive = true
        ∧ clock.cleanup₂ - flags.heartbeatTimeout ≤ row.lastHeartbeat :=
    StoreBackedRegistry.active_cleanup hrel
  rw [← hactive]
  constructor
  · intro hknown
    -- the cache of the new registry is empty, and the purge leaves it so
    rcases StoreBackedRegistry.known_warmCacheFromDB hq hknown with hheld | hact
    · obtain ⟨e, he, -⟩ := StoreBackedRegistry.holds_cleanup.mp hheld
      cases he
    · exact hact
  · exact fun hact ↦ Or.inr (StoreBackedRegistry.active_warmCacheFromDB hq hact)

end Restart

/-- **Restarts.** A server that starts over a database that does not fail knows exactly the
instances that were active there and whose last heartbeat is not older than the timeout: none of
them is lost and no other is revived. Whatever is done after that, an address that a lookup returns
is one of these or has been registered since. -/
theorem started_knows {flags : Flags} {env : HostEnvironment} {clock : StartClock}
    {sr : StoreBackedRegistry} {store : PostgresStore}
    (hstart : initializeServer flags env clock = .ok (.storeBacked sr))
    (hdb : env.serviceDatabases (effectiveStoreURL flags env) = .ready store)
    (hrel : store.Reliable) :
    (∀ task addr, sr.Known task addr
        ↔ ∃ row, store.table.lookup (task, addr) = some row ∧ row.isActive = true
          ∧ clock.cleanup₂ - flags.heartbeatTimeout ≤ row.lastHeartbeat)
      ∧ sr.Complete
      ∧ ∀ (ops : List StoreBackedRegistry.Op) (task : String) (requestorIP : Option IP)
        (addr : String),
        ((Run.exec StoreBackedRegistry.step sr ops).getServiceForRequestor task requestorIP).2
            = .ok addr →
          sr.Known (Go.trimSpace task) addr
            ∨ ∃ op ∈ ops, op.Registers (Go.trimSpace task) addr := by
  obtain ⟨fw, -, -, ⟨-, hmem⟩ | ⟨-, store', hdb', hsr⟩⟩ := initializeServer_ok hstart
  · cases hmem
  rw [hdb] at hdb'
  cases hdb'
  cases hsr
  refine ⟨fun task addr ↦ known_startStoreBacked hrel, ?_, ?_⟩
  · exact StoreBackedRegistry.complete_warmCacheFromDB (StoreBackedRegistry.quiet_step
      (StoreBackedRegistry.quiet_start hrel _ _ _ fw)
      (.cleanup clock.cleanup₁ clock.cleanup₂ flags.heartbeatTimeout)) clock.warmed clock.ord
  · intro ops task requestorIP addr hok
    by_contra hnot
    rw [not_or, not_exists] at hnot
    have hops : ∀ op ∈ ops, ¬op.Registers (Go.trimSpace task) addr :=
      fun op hop hreg ↦ hnot.2 op ⟨hop, hreg⟩
    exact StoreBackedRegistry.not_known_exec (quiet_startStoreBacked hrel) hnot.1 hops
      (StoreBackedRegistry.known_of_ok hok)

/-- A database with two instances, one of which has been silent for long. -/
def twoRows : PostgresStore :=
  { PostgresStore.empty with
    table := ((∅ : Table).register "svc" ⟨"10.0.0.1:80", 95, 0, 1⟩).register "svc"
      ⟨"10.0.0.2:80", 40, 0, 1⟩ }

def twoRowsHost : HostEnvironment where
  files _ := .error "no such file"
  rulesDatabases _ := .unreachable "no such host"
  serviceDatabases _ := .ready twoRows

/-- After the restart one of them is known. -/
theorem twoRows_known :
    ∃ sr, initializeServer { storeURL := "postgres://tds", heartbeatTimeout := 30 }
        twoRowsHost ⟨100, 100, 100, 100, WarmOrders.asStored⟩ = .ok (.storeBacked sr)
      ∧ sr.Known "svc" "10.0.0.1:80" ∧ ¬sr.Known "svc" "10.0.0.2:80" := by
  have hstart : initializeServer { storeURL := "postgres://tds", heartbeatTimeout := 30 }
      twoRowsHost ⟨100, 100, 100, 100, WarmOrders.asStored⟩
        = .ok (.storeBacked (startStoreBacked
          { storeURL := "postgres://tds", heartbeatTimeout := 30 }
          ⟨100, 100, 100, 100, WarmOrders.asStored⟩ twoRows none)) := rfl
  have hknown := (started_knows hstart rfl PostgresStore.empty_reliable).1
  refine ⟨_, hstart, (hknown _ _).mpr ⟨⟨95, 0, 1, true⟩, ?_, rfl, ?_⟩, fun h ↦ ?_⟩
  · decide +kernel
  · decide
  · obtain ⟨row, hrow, -, hfresh⟩ := (hknown _ _).mp h
    have hstale : twoRows.table.lookup ("svc", "10.0.0.2:80") = some ⟨40, 0, 1, true⟩ := by
      decide +kernel
    rw [hstale] at hrow
    cases hrow
    exact absurd hfresh (by decide)

end TaskDiscovery
