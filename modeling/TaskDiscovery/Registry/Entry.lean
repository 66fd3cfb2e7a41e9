import TaskDiscovery.Firewall.Rules
import TaskDiscovery.Go.Url
import TaskDiscovery.Lib.Upsert

/-!
# Service entries and their selection

What the registries hold for a task is a list of entries, and a query picks one of them by a
weighted cursor. The types of `pkg/registry` and `pkg/store` carry the same fields, so one record
serves both.

Capacities and cursors are 64-bit machine integers: the running weight is summed with wrap-around
and the remainder is truncated, as in Go. Query counts are not bounded here. A count that is not
positive is not written back to the store (`syncQueryCountsToDB`), so this is the code as long as no
service has been asked for 2 ^ 63 times.

The two ways in which an address string is read as a destination are given side by side.
`destinationIPFromAddress` serves the cached path and understands URLs; `storeDestinationIP` is the
reading on the store fallback. Every destination the second finds is found by the first
(`destinationIPFromAddress_of_store`).
-/

namespace TaskDiscovery

open Go (IP)

/-- An instant, and a span of time. -/
abbrev Time := Int

/-- A registered instance of a service. -/
structure ServiceEntry where
  address : String
  lastHeartbeat : Time
  queryCount : Int := 0
  capacity : Int64
  deriving DecidableEq, Repr

/-- The errors of `pkg/registry`, and whatever a store call returns. -/
inductive RegistryError
  | notFound
  | noAllowedService
  | invalidTaskName
  | store (text : String)
  deriving DecidableEq, Repr

/-- The text of an error, as `Error()` prints it. -/
def RegistryError.text : RegistryError → String
  | notFound => "service not found"
  | noAllowedService => "no service allowed by firewall"
  | invalidTaskName => "invalid task name"
  | store text => text

/-- The key shared by query counters and retry marks. -/
def counterKey (task addr : String) : String := task ++ ":" ++ addr

/-- A capacity as the registry stores it: at least one. -/
def normalizedCapacity (capacity : Int64) : Int64 := if capacity ≤ 0 then 1 else capacity

theorem normalizedCapacity_pos (c : Int64) : 0 < normalizedCapacity c := by
  rw [normalizedCapacity]
  split_ifs with h
  · decide
  · exact Int64.not_le.mp h

theorem normalizedCapacity_of_pos {c : Int64} (h : 0 < c) : normalizedCapacity c = c :=
  if_neg (Int64.not_le.mpr h)

@[simp] theorem normalizedCapacity_idem (c : Int64) :
    normalizedCapacity (normalizedCapacity c) = normalizedCapacity c :=
  normalizedCapacity_of_pos (normalizedCapacity_pos c)

/-! ## Weighted selection -/

def serviceWeight (entry : ServiceEntry) : Int64 := normalizedCapacity entry.capacity

/-- `totalServiceWeight`, with the wrap-around of 64-bit addition. -/
def totalServiceWeight (entries : List ServiceEntry) : Int64 :=
  entries.foldl (fun total entry ↦ total + serviceWeight entry) 0

/-- The scan of `selectWeightedAddress` with the weight passed so far. -/
def selectWeightedFrom (running : Int64) : List ServiceEntry → Int64 → Option String
  | [], _ => none
  | entry :: entries, slot =>
    if slot < running + serviceWeight entry then some entry.address
    else selectWeightedFrom (running + serviceWeight entry) entries slot

def selectWeightedAddress (entries : List ServiceEntry) (slot : Int64) : Option String :=
  selectWeightedFrom 0 entries slot

theorem selectWeightedFrom_mem {running : Int64} {entries : List ServiceEntry} {slot : Int64}
    {addr : String} (h : selectWeightedFrom running entries slot = some addr) :
    ∃ entry ∈ entries, entry.address = addr := by
  induction entries generalizing running with
  | nil => simp [selectWeightedFrom] at h
  | cons entry entries ih =>
    rw [selectWeightedFrom] at h
    split_ifs at h with hslot
    · exact ⟨entry, List.mem_cons_self, Option.some.inj h⟩
    · obtain ⟨e, he, rfl⟩ := ih h
      exact ⟨e, List.mem_cons_of_mem _ he, rfl⟩

theorem selectWeightedAddress_mem {entries : List ServiceEntry} {slot : Int64} {addr : String}
    (h : selectWeightedAddress entries slot = some addr) :
    ∃ entry ∈ entries, entry.address = addr :=
  selectWeightedFrom_mem h

theorem selectWeightedFrom_eq_none {running : Int64} {entries : List ServiceEntry} {slot : Int64}
    (h : selectWeightedFrom running entries slot = none) (hne : entries ≠ []) :
    ¬slot < entries.foldl (fun total entry ↦ total + serviceWeight entry) running := by
  induction entries generalizing running with
  | nil => exact absurd rfl hne
  | cons entry entries ih =>
    rw [selectWeightedFrom] at h
    split_ifs at h with hslot
    rw [List.foldl_cons]
    rcases entries with _ | ⟨entry', entries⟩
    · exact hslot
    · exact ih h (by simp)

private theorem mod_lt_of_pos (a : Int64) {b : Int64} (hb : 0 < b) : a % b < b := by
  rw [Int64.lt_iff_toInt_lt, Int64.toInt_mod]
  exact Int.tmod_lt_of_pos _ (by simpa [Int64.lt_iff_toInt_lt] using hb)

/-- With a positive total weight every cursor selects some entry, even when the running sum has
wrapped around on the way. -/
theorem selectWeightedAddress_ne_none {entries : List ServiceEntry}
    (hpos : 0 < totalServiceWeight entries) (cursor : Int64) :
    selectWeightedAddress entries (cursor % totalServiceWeight entries) ≠ none := by
  intro hnone
  have hne : entries ≠ [] := by
    rintro rfl
    exact absurd hpos (by decide)
  exact selectWeightedFrom_eq_none hnone hne (mod_lt_of_pos cursor hpos)

/-! ## Reading a destination out of an address -/

/-- The host of an address that contains `://`, when it is an IP. -/
def urlDestinationIP (addr : List Char) : Option IP :=
  if Go.contains addr "://".toList then
    match Go.Url.parse addr with
    | none => none
    | some urlHost =>
      let host := Go.trimText (Go.Url.hostname urlHost)
      if host = [] then none else Go.parseIP host
  else none

/-- The host part of `host:port` without stray brackets, when it is an IP. -/
def hostDestinationIP (addr : List Char) : Option IP :=
  match Go.splitHostPort addr with
  | none => none
  | some (host, _) =>
    let bracket : Char → Bool := fun c ↦ decide (c = '[' ∨ c = ']')
    Go.parseIP ((host.dropWhile bracket).rdropWhile bracket)

/-- `destinationIPFromAddress`: a URL, `host:port`, or a bare address, in that order. -/
def destinationIPFromAddress (address : String) : Option IP :=
  let addr := Go.trimText address.toList
  if addr = [] then none
  else
    match urlDestinationIP addr with
    | some ip => some ip
    | none =>
      match hostDestinationIP addr with
      | some ip => some ip
      | none => Go.parseIP addr

/-- The destination as the store fallback reads it: `host:port`, else the whole text. -/
def storeDestinationIP (address : String) : Option IP :=
  match Go.splitHostPort address.toList with
  | some (host, _) => Go.parseIP host
  | none => Go.parseIP address.toList

/-! ### The two readings agree where the fallback finds an address -/

private theorem ne_of_isAddrChar {c x : Char} (h : Go.isAddrChar c = true)
    (hx : Go.isAddrChar x = false) : c ≠ x := by
  rintro rfl
  rw [h] at hx
  exact absurd hx (by simp)

private theorem notMem_of_parseIP {s : List Char} {d : IP} (h : Go.parseIP s = some d) {x : Char}
    (hx : Go.isAddrChar x = false) : x ∉ s := fun hmem ↦
  ne_of_isAddrChar (Go.parseIP_chars h x hmem) hx rfl

/-- Text whose every character belongs to an address is not a URL. -/
private theorem urlDestinationIP_of_parseIP {s : List Char} {d : IP}
    (h : Go.parseIP s = some d) : urlDestinationIP s = none := by
  have hno : Go.contains s "://".toList = false := by
    rw [Go.contains, decide_eq_false_iff_not]
    intro hin
    exact notMem_of_parseIP h (x := '/') (by decide) (hin.subset (by decide))
  rw [urlDestinationIP, hno, if_neg (by simp)]

private theorem hostDestinationIP_of_split {s h port : List Char} {d : IP}
    (hs : Go.splitHostPort s = some (h, port)) (hd : Go.parseIP h = some d) :
    hostDestinationIP s = some d := by
  have hbr : ∀ c ∈ h, decide (c = '[' ∨ c = ']') = false := by
    intro c hc
    rw [decide_eq_false_iff_not, not_or]
    exact ⟨ne_of_isAddrChar (Go.parseIP_chars hd c hc) (by decide),
      ne_of_isAddrChar (Go.parseIP_chars hd c hc) (by decide)⟩
  have hdrop : h.dropWhile (fun c ↦ decide (c = '[' ∨ c = ']')) = h := by
    cases h with
    | nil => rfl
    | cons c h => rw [List.dropWhile_cons, hbr c List.mem_cons_self, if_neg (by simp)]
  have hrdrop : h.rdropWhile (fun c ↦ decide (c = '[' ∨ c = ']')) = h := by
    rw [List.rdropWhile_eq_self_iff]
    intro hne
    rw [hbr _ (List.getLast_mem hne)]
    simp
  rw [hostDestinationIP, hs]
  simp only
  rw [hdrop, hrdrop, hd]

/-- A host and a port, bracketed or not: the shape both readings see. The host part starts with a
digit or a bracket and contains no separator of a URL. -/
private theorem destinationIP_of_hostPort {address : String} {c : Char} {a h port : List Char}
    {d : IP} (haddr : address.toList = c :: a ++ ':' :: port) (hc : Go.isSpace c = false)
    (halpha : Go.Url.isAlpha c = false) (hcolon : c ≠ ':')
    (hsep : '/' ∉ c :: a ∧ '?' ∉ c :: a ∧ '#' ∉ c :: a)
    (hsplit : ∀ port' : List Char, port' ⊆ port →
      Go.splitHostPort (c :: a ++ ':' :: port') = some (h, port'))
    (hd : Go.parseIP h = some d) : destinationIPFromAddress address = some d := by
  -- trimming can only shorten the port
  have htrim : Go.trimText address.toList = c :: a ++ ':' :: port.rdropWhile Go.isSpace := by
    rw [haddr, Go.trimText_append hc (by decide)]
  have hurl : urlDestinationIP (c :: a ++ ':' :: port.rdropWhile Go.isSpace) = none := by
    rw [urlDestinationIP, Go.Url.parse_hostPort_eq_none halpha hcolon hsep]
    simp
  have hhost := hostDestinationIP_of_split
    (hsplit _ (List.rdropWhile_prefix Go.isSpace port).subset) hd
  rw [destinationIPFromAddress, htrim, if_neg (by simp), hurl, hhost]

/-- **The fallback reading is the stricter one.** Whatever destination the store fallback finds in
an address, `destinationIPFromAddress` finds too. -/
theorem destinationIPFromAddress_of_store {address : String} {d : IP}
    (h : storeDestinationIP address = some d) : destinationIPFromAddress address = some d := by
  rw [storeDestinationIP] at h
  rcases hs : Go.splitHostPort address.toList with _ | ⟨host, port⟩
  · rw [hs] at h
    have hspace : ∀ c ∈ address.toList, Go.isSpace c = false := fun c hc ↦
      Go.isSpace_of_isAddrChar (Go.parseIP_chars h c hc)
    have hhost : hostDestinationIP address.toList = none := by rw [hostDestinationIP, hs]
    rw [destinationIPFromAddress, Go.trimText_eq_self hspace, if_neg (Go.parseIP_ne_nil h),
      urlDestinationIP_of_parseIP h, hhost]
    exact h
  · rw [hs] at h
    obtain ⟨hb, hp, hform⟩ := Go.splitHostPort_eq_some hs
    have hport : ∀ port' : List Char, port' ⊆ port →
        ':' ∉ port' ∧ '[' ∉ port' ∧ ']' ∉ port' := fun port' hsub ↦
      ⟨fun hm ↦ hp.1 (hsub hm), fun hm ↦ hp.2.1 (hsub hm), fun hm ↦ hp.2.2 (hsub hm)⟩
    have hno : ∀ x : Char, Go.isAddrChar x = false → x ∉ host := fun x hx ↦
      notMem_of_parseIP h hx
    rcases hform with ⟨hcol, haddr⟩ | haddr
    · obtain ⟨c, a, rfl, hdig⟩ := Go.parseIP_head_isDigit h hcol
      have hcaddr : Go.isAddrChar c = true := Go.isAddrChar_of_isDigit hdig
      refine destinationIP_of_hostPort haddr (Go.isSpace_of_isAddrChar hcaddr) ?_ ?_
        ⟨hno _ (by decide), hno _ (by decide), hno _ (by decide)⟩ ?_ h
      · simp only [Go.isDigit, decide_eq_true_eq] at hdig
        simp only [Go.Url.isAlpha, decide_eq_false_iff_not]
        omega
      · exact fun hc ↦ hcol (hc ▸ List.mem_cons_self)
      · exact fun port' hsub ↦ Go.splitHostPort_plain hcol hb (hport port' hsub)
    · have hform' : ∀ t : List Char,
          '[' :: host ++ ']' :: ':' :: t = '[' :: (host ++ [']']) ++ ':' :: t := by simp
      have hno' : ∀ x : Char, Go.isAddrChar x = false → x ≠ '[' → x ≠ ']' →
          x ∉ '[' :: (host ++ [']']) := by
        intro x hx h1 h2
        simp [hno x hx, h1, h2]
      refine destinationIP_of_hostPort (haddr.trans (hform' port)) (by decide) (by decide)
        (by decide) ⟨hno' _ (by decide) (by decide) (by decide),
          hno' _ (by decide) (by decide) (by decide),
          hno' _ (by decide) (by decide) (by decide)⟩ ?_ h
      intro port' hsub
      rw [← hform' port']
      exact Go.splitHostPort_bracketed hb (hport port' hsub)

end TaskDiscovery
