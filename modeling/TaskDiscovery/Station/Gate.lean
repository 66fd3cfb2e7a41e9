import Mathlib.Logic.Function.Basic
import TaskDiscovery.CardDb.Seeding
import TaskDiscovery.CardDb.Tokens
import TaskDiscovery.Station.Agreement
import TaskDiscovery.Station.Forwarding

/-!
# Taps at a gate

A tap goes through three components. The gate asks the card service whether a prepaid card is valid,
or has the payment authority exchange a bank card for a token. If the answer is yes, it sends a
transaction to the station computer, and it opens when that has accepted the transaction. Everything
else, and every error, is a refusal.

Taps are handled concurrently, at any number of gates. A request takes two steps of its own: the
component processes it, and the gate gets the reply. The gate may see an error at any time in
between, and then a request that is under way is still processed, but not a second time. So a tap
can be refused although its transaction was accepted, and the invariant says that this shows in the
reason: it is `station send failed` (`Tap.PhaseSound`).

The addresses that a gate resolves are assumed to lead to the components, or nowhere. Cards change
in any way at any time. Tokens are handed out by calls whose statements are interleaved, as in
`TokenService`. `accepted` remembers which tap each accepted transaction was for; the program does
not.
-/

namespace TaskDiscovery

namespace CardDb

def CardTable.find (t : CardTable) (cardId : String) : Option Record :=
  t.rows.find? fun r ↦ r.cardId = cardId

/-- The decision that `Validate` and `CardHasMinFunds` share. -/
def checkCard (enough : Int64 → Bool) (t : CardTable) (cardId : String) : Bool × String :=
  match t.find cardId with
  | none => (false, "unknown card")
  | some r =>
    if r.blocked then (false, "blocked")
    else if !r.active then (false, "inactive")
    else if !enough r.balanceCents then (false, "insufficient funds")
    else (true, "ok")

def validate : CardTable → String → Bool × String := checkCard fun balance ↦ decide (0 < balance)

def cardHasMinFunds (minCents : Int64) : CardTable → String → Bool × String :=
  checkCard fun balance ↦ decide (minCents ≤ balance)

/-- The card is in the table, in order, and has enough money. -/
def Good (enough : Int64 → Bool) (t : CardTable) (cardId : String) : Prop :=
  ∃ r ∈ t.rows, r.cardId = cardId ∧ r.blocked = false ∧ r.active = true
    ∧ enough r.balanceCents = true

theorem good_of_checkCard {enough : Int64 → Bool} {t : CardTable} {cardId : String}
    (h : (checkCard enough t cardId).1 = true) : Good enough t cardId := by
  rw [checkCard] at h
  cases hfind : t.find cardId with
  | none => simp [hfind] at h
  | some r =>
    have hcard : r.cardId = cardId := by simpa using List.find?_some hfind
    refine ⟨r, List.mem_of_find?_eq_some hfind, hcard, ?_⟩
    simp only [hfind] at h
    split_ifs at h with hblocked hactive henough
    · exact ⟨by simpa using hblocked, by simpa using hactive, by simpa using henough⟩

end CardDb

namespace Gate

open CardDb (CardTable TokenService TokenTable PaToken TokenEvent Good Weather)
open Station (Transaction Clock handleTransaction normalize)
open Go (trimSpace trimText toUpper)

/-! ## The text of a tap -/

/-- `parseTap`: the card type and the card. -/
def parseTap (line : String) : Except String (String × String) :=
  let line := trimText line.toList
  if line = [] then .error "empty tap"
  else if ':' ∉ line then .error "expected format <OY|PCTR>:<card_id>"
  else
    let parts := Go.cut ':' line
    let cardType := toUpper (trimSpace (String.ofList parts.1))
    let cardId := trimSpace (String.ofList parts.2)
    if cardType ≠ "OY" ∧ cardType ≠ "PCTR" then .error "card type must be OY or PCTR"
    else if cardId = "" then .error "missing card id"
    else .ok (cardType, cardId)

theorem parseTap_ok {line cardType cardId : String} (h : parseTap line = .ok (cardType, cardId)) :
    (cardType = "OY" ∨ cardType = "PCTR") ∧ trimSpace cardId = cardId := by
  simp only [parseTap] at h
  split_ifs at h with hempty hcolon htype hcard
  obtain ⟨rfl, rfl⟩ := Prod.mk.inj (Except.ok.inj h)
  refine ⟨?_, Go.trimSpace_idem _⟩
  by_contra hne
  exact htype (not_or.mp hne)

/-! ## One tap -/

/-- Where the handling of a tap is. -/
inductive TapPhase
  | absent
  | resolving
  | asking
  | resolvingStation
  | sending
  | done (allowed : Bool) (reason : String)
  deriving DecidableEq

/-- A reply to `/validate` or to `/tokenize`, with its status. -/
structure CardReply where
  status : ℕ
  ok : Bool
  token : String
  reason : String

/-- The request about the card. The payment authority checks the funds first and then looks for a
token. -/
inductive Asked
  | unsent
  | sent
  | funded
  | replied (reply : CardReply)

/-- The request with the transaction: the reply is a status and whether it was accepted. -/
inductive Sent
  | unsent
  | sent (tx : Transaction)
  | replied (status : ℕ) (accepted : Bool)

/-- The flags of a gate, whether it has loaded a key, and whether that is the key of the payment
authority. -/
structure GateConfig where
  gateId : String
  stationId : String
  hasKey : Bool
  keyFits : Bool

/-- What is known of a tap once it is read. -/
structure TapInfo where
  gate : GateConfig
  line : String
  cardType : String
  cardId : String
  tapTime : String

/-- The variables of `handleTap`, and the two requests. -/
structure Tap where
  phase : TapPhase := .absent
  info : TapInfo := ⟨⟨"", "", false, false⟩, "", "", "", ""⟩
  token : String := ""
  reason : String := ""
  asked : Asked := .unsent
  sent : Sent := .unsent

/-- The tables of the card service and of the payment authority. -/
structure Cards where
  cs : CardTable
  pa : CardTable

/-- What a bank card must hold, and the number of the station computer. -/
structure Setup where
  minFundsCents : Int64
  stationId : String

inductive TapEvent
  /-- `handleTap` begins. -/
  | begin (gate : GateConfig) (line tapTime : String)
  /-- `resolveBase` has returned, and the card is encrypted if it has to be. -/
  | resolve (base : String) (encrypted : Bool)
  /-- The component that is asked processes the request, up to the token. -/
  | serve (dbError : Bool)
  /-- `GetOrCreateToken` has returned to the payment authority: an error, or one of the results. -/
  | tokenize (result : Option ℕ)
  /-- The gate gets the reply. -/
  | answer
  /-- The gate sees an error instead. -/
  | askFails
  /-- `resolveBase` has returned for the station. -/
  | resolveStation (base transactionId : String)
  /-- The station computer processes the transaction. -/
  | arrive (now : Clock)
  /-- The gate gets the reply of the station. -/
  | acknowledge
  /-- The gate sees an error instead. -/
  | sendFails

/-- `httpPostJSON` takes a reply with this status for an answer. -/
def isSuccess (status : ℕ) : Bool := decide (200 ≤ status ∧ status < 300)

namespace TapInfo

variable (i : TapInfo)

/-- The reason for a refusal that depends on the component that was asked. -/
def blame (backend pa : String) : String := if i.cardType = "OY" then backend else pa

def transaction (token reason transactionId : String) : Transaction where
  transactionId := transactionId
  cardType := i.cardType
  cardId := if i.cardType = "OY" then i.cardId else ""
  token := token
  gateId := i.gate.gateId
  stationId := i.gate.stationId
  tapTime := i.tapTime
  allowed := true
  reason := reason

/-- The handler of `/validate`. -/
def validateReply (cs : CardTable) (dbError : Bool) : CardReply :=
  if trimSpace i.cardId = "" then ⟨400, false, "", "missing card_id"⟩
  else if dbError then ⟨503, false, "", "db error"⟩
  else
    let (valid, reason) := CardDb.validate cs (trimSpace i.cardId)
    ⟨200, valid, "", reason⟩

/-- The handler of `/tokenize` up to the check of the funds. -/
def checkFunds (setup : Setup) (pa : CardTable) (dbError : Bool) : Asked :=
  if !i.gate.keyFits then .replied ⟨400, false, "", "decrypt failed"⟩
  else if trimSpace i.cardId = "" then .replied ⟨400, false, "", "empty card"⟩
  else if dbError then .replied ⟨503, false, "", "db error"⟩
  else
    let (has, reason) := CardDb.cardHasMinFunds setup.minFundsCents pa (trimSpace i.cardId)
    if has then .funded else .replied ⟨200, false, "", reason⟩

/-- The rest of `/tokenize`. The result must be one for the card of the request. -/
def tokenReply (returned : List PaToken) : Option ℕ → Option CardReply
  | none => some ⟨503, false, "", "db error"⟩
  | some n =>
    match returned[n]? with
    | none => none
    | some r => if r.cardId = trimSpace i.cardId then some ⟨200, true, r.token, "ok"⟩ else none

end TapInfo

namespace Tap

variable (t : Tap)

/-- `handleTap` returns. -/
def finish (allowed : Bool) (reason : String) : Tap := { t with phase := .done allowed reason }

/-- The transaction that the station computer accepts in a step. -/
def accepts (setup : Setup) : TapEvent → Option Transaction
  | .arrive now =>
    match t.sent with
    | .sent tx => handleTransaction setup.stationId now tx
    | _ => none
  | _ => none

def step (setup : Setup) (cards : Cards) (returned : List PaToken) : TapEvent → Tap
  | .begin gate line tapTime =>
    if t.phase ≠ .absent then t
    else
      match parseTap line with
      | .error _ => t.finish false "invalid tap"
      | .ok (cardType, cardId) =>
        let read : Tap :=
          { t with info := ⟨gate, line, cardType, cardId, tapTime⟩, phase := .resolving }
        if cardType ≠ "OY" ∧ gate.hasKey = false then read.finish false "missing PCTR public key"
        else read
  | .resolve base encrypted =>
    if t.phase ≠ .resolving then t
    else if base = "" then t.finish false (t.info.blame "backend not found" "PA not found")
    else if t.info.cardType ≠ "OY" ∧ encrypted = false then t.finish false "encrypt failed"
    else { t with phase := .asking, asked := .sent }
  | .serve dbError =>
    match t.asked with
    | .sent =>
      if t.info.cardType = "OY" then
        { t with asked := .replied (t.info.validateReply cards.cs dbError) }
      else { t with asked := t.info.checkFunds setup cards.pa dbError }
    | _ => t
  | .tokenize result =>
    match t.asked, t.info.tokenReply returned result with
    | .funded, some reply => { t with asked := .replied reply }
    | _, _ => t
  | .answer =>
    match t.phase, t.asked with
    | .asking, .replied reply =>
      if isSuccess reply.status = false then
        t.finish false (t.info.blame "backend error" "PA error")
      else if reply.ok = false then t.finish false reply.reason
      else
        { t with
          phase := .resolvingStation, token := reply.token
          reason := if t.info.cardType = "OY" then reply.reason else "ok" }
    | _, _ => t
  | .askFails =>
    if t.phase ≠ .asking then t else t.finish false (t.info.blame "backend error" "PA error")
  | .resolveStation base transactionId =>
    if t.phase ≠ .resolvingStation then t
    else if base = "" then t.finish false "station not found"
    else
      { t with
        phase := .sending, sent := .sent (t.info.transaction t.token t.reason transactionId) }
  | .arrive now =>
    match t.sent with
    | .sent tx =>
      match handleTransaction setup.stationId now tx with
      | none => { t with sent := .replied 400 false }
      | some _ => { t with sent := .replied 200 true }
    | _ => t
  | .acknowledge =>
    match t.phase, t.sent with
    | .sending, .replied status accepted =>
      if isSuccess status = false then t.finish false "station send failed"
      else if accepted = false then t.finish false "station rejected"
      else t.finish true "ok"
    | _, _ => t
  | .sendFails => if t.phase ≠ .sending then t else t.finish false "station send failed"

end Tap

/-! ## What stands behind a tap -/

/-- The service that is asked about a card has it in its table, in order and with enough money. -/
def Approves (setup : Setup) (cards : Cards) (cardType cardId : String) : Prop :=
  if cardType = "OY" then Good (fun balance ↦ decide (0 < balance)) cards.cs cardId
  else Good (fun balance ↦ decide (setup.minFundsCents ≤ balance)) cards.pa cardId

/-- A prepaid card has no token, and a bank card the one in the table. -/
def TokenFor (rows : List PaToken) (cardType cardId token : String) : Prop :=
  if cardType = "OY" then token = "" else ⟨token, cardId⟩ ∈ rows

theorem TokenFor.mono {rows rows' : List PaToken} (hrows : ∀ r ∈ rows, r ∈ rows')
    {cardType cardId token : String} (h : TokenFor rows cardType cardId token) :
    TokenFor rows' cardType cardId token := by
  rw [TokenFor] at h ⊢
  split_ifs at h ⊢
  · exact h
  · exact hrows _ h

namespace TapInfo

variable (setup : Setup) (Seen : Cards → Prop) (rows : List PaToken)

/-- The tap was read and its card was approved, in a state of the tables that there has been. -/
structure Vouched (i : TapInfo) : Prop where
  read : parseTap i.line = .ok (i.cardType, i.cardId)
  approved : ∃ cards, Seen cards ∧ Approves setup cards i.cardType i.cardId

/-- What an accepted transaction says about a tap: it names the prepaid card, or the token of the
bank card and not the card. -/
structure Backed (i : TapInfo) (tx : Transaction) : Prop where
  vouched : i.Vouched setup Seen
  cardType : tx.cardType = i.cardType
  cardId : tx.cardId = if i.cardType = "OY" then i.cardId else ""
  token : ∃ token, tx.token = trimSpace token ∧ TokenFor rows i.cardType i.cardId token
  gateId : tx.gateId = trimSpace i.gate.gateId
  stationId : tx.stationId = setup.stationId

/-- The tap may go to the station, with this token. -/
structure Cleared (i : TapInfo) (token : String) : Prop where
  vouched : i.Vouched setup Seen
  token : TokenFor rows i.cardType i.cardId token

/-- What holds of the request about the card. -/
def AskedSound (i : TapInfo) : Asked → Prop
  | .unsent => True
  | .sent => parseTap i.line = .ok (i.cardType, i.cardId)
  | .funded => i.Vouched setup Seen ∧ i.cardType ≠ "OY"
  | .replied reply => reply.ok = true → i.Cleared setup Seen rows reply.token

/-- What holds of the request with the transaction, given the accepted transactions of the tap. -/
def SentSound (acc : List Transaction) (i : TapInfo) : Sent → Prop
  | .unsent => acc = []
  | .sent tx => acc = [] ∧ ∃ token reason transactionId,
    tx = i.transaction token reason transactionId ∧ i.Cleared setup Seen rows token
  | .replied status true => status = 200 ∧ ∃ tx, acc = [tx] ∧ i.Backed setup Seen rows tx
  | .replied status false => status = 400 ∧ acc = []

variable {setup Seen rows} {rows' : List PaToken} {i : TapInfo}

theorem Cleared.mono {token : String} (h : i.Cleared setup Seen rows token)
    (hrows : ∀ r ∈ rows, r ∈ rows') : i.Cleared setup Seen rows' token :=
  ⟨h.vouched, h.token.mono hrows⟩

theorem Backed.mono {tx : Transaction} (h : i.Backed setup Seen rows tx)
    (hrows : ∀ r ∈ rows, r ∈ rows') : i.Backed setup Seen rows' tx := by
  obtain ⟨token, htrim, htoken⟩ := h.token
  exact ⟨h.vouched, h.cardType, h.cardId, ⟨token, htrim, htoken.mono hrows⟩, h.gateId, h.stationId⟩

end TapInfo

namespace Tap

variable (setup : Setup) (Seen : Cards → Prop) (rows : List PaToken)

/-- How far the requests are in a phase. -/
def PhaseSound (t : Tap) : TapPhase → Prop
  | .absent => t.asked = .unsent ∧ t.sent = .unsent
  | .resolving => parseTap t.info.line = .ok (t.info.cardType, t.info.cardId)
    ∧ t.asked = .unsent ∧ t.sent = .unsent
  | .asking => t.sent = .unsent
  | .resolvingStation => t.sent = .unsent ∧ t.info.Cleared setup Seen rows t.token
  | .sending => True
  | .done true reason => reason = "ok" ∧ t.sent = .replied 200 true
  | .done false reason => reason ≠ "station send failed" → t.sent = .unsent

/-- What holds of a tap between two steps. -/
structure Sound (acc : List Transaction) (t : Tap) : Prop where
  asked : t.info.AskedSound setup Seen rows t.asked
  sent : t.info.SentSound setup Seen rows acc t.sent
  phase : t.PhaseSound setup Seen rows t.phase

variable {setup Seen rows} {t : Tap} {acc : List Transaction}

/-! ## What a step keeps -/

theorem Sound.of_phase (h : t.Sound setup Seen rows acc) {phase : TapPhase}
    (hphase : t.phase = phase) : t.PhaseSound setup Seen rows phase := hphase ▸ h.phase

theorem Sound.refuse (h : t.Sound setup Seen rows acc) (reason : String)
    (hsent : t.sent = .unsent) : (t.finish false reason).Sound setup Seen rows acc :=
  ⟨h.asked, h.sent, fun _ ↦ hsent⟩

theorem Sound.begin (h : t.Sound setup Seen rows acc) (cards : Cards) (returned : List PaToken)
    (gate : GateConfig) (line tapTime : String) :
    (t.step setup cards returned (.begin gate line tapTime)).Sound setup Seen rows acc := by
  simp only [step]
  split_ifs with habsent
  · exact h
  · obtain ⟨hasked, hunsent⟩ := h.of_phase (not_not.mp habsent)
    have hsent := h.sent
    rw [hunsent] at hsent
    cases hread : parseTap line with
    | error err => exact h.refuse _ hunsent
    | ok card =>
      obtain ⟨cardType, cardId⟩ := card
      -- nothing has been sent, so the requests say nothing about the card
      have hnew : ({ t with
          info := ⟨gate, line, cardType, cardId, tapTime⟩, phase := .resolving } : Tap).Sound
          setup Seen rows acc := by
        refine ⟨?_, ?_, hread, hasked, hunsent⟩
        · simp only [hasked]
          trivial
        · simp only [hunsent]
          exact hsent
      simp only
      split_ifs
      · exact hnew.refuse _ hunsent
      · exact hnew

theorem Sound.resolve (h : t.Sound setup Seen rows acc) (cards : Cards) (returned : List PaToken)
    (base : String) (encrypted : Bool) :
    (t.step setup cards returned (.resolve base encrypted)).Sound setup Seen rows acc := by
  simp only [step]
  split_ifs with hresolving
  · exact h
  all_goals obtain ⟨hread, -, hunsent⟩ := h.of_phase (not_not.mp hresolving)
  · exact h.refuse _ hunsent
  · exact h.refuse _ hunsent
  · exact ⟨hread, h.sent, hunsent⟩

/-- The request about the card makes progress, and the rest of the tap stays as it is. -/
theorem Sound.setAsked (h : t.Sound setup Seen rows acc) (hasked : t.asked ≠ .unsent)
    {asked : Asked} (hnew : t.info.AskedSound setup Seen rows asked) :
    ({ t with asked := asked } : Tap).Sound setup Seen rows acc := by
  refine ⟨hnew, h.sent, ?_⟩
  have hphase := h.phase
  show PhaseSound setup Seen rows { t with asked := asked } t.phase
  rcases hp : t.phase with _ | _ | _ | _ | _ | ⟨_ | _, reason⟩
  all_goals rw [hp] at hphase
  · exact absurd hphase.1 hasked
  · exact absurd hphase.2.1 hasked
  all_goals exact hphase

theorem approves_of_validate (setup : Setup) {i : TapInfo} {cards : Cards} {dbError : Bool}
    (hread : parseTap i.line = .ok (i.cardType, i.cardId)) (hoy : i.cardType = "OY")
    (hok : (i.validateReply cards.cs dbError).ok = true) :
    Approves setup cards i.cardType i.cardId ∧ (i.validateReply cards.cs dbError).token = "" := by
  obtain ⟨-, htrim⟩ := parseTap_ok hread
  simp only [TapInfo.validateReply, htrim] at hok ⊢
  split_ifs at hok ⊢
  refine ⟨?_, rfl⟩
  rw [Approves, if_pos hoy]
  exact CardDb.good_of_checkCard hok

theorem approves_of_checkFunds {i : TapInfo} {cards : Cards} {dbError : Bool}
    (hread : parseTap i.line = .ok (i.cardType, i.cardId)) (hoy : i.cardType ≠ "OY") :
    i.checkFunds setup cards.pa dbError = .funded ∧ Approves setup cards i.cardType i.cardId
      ∨ ∃ reply, i.checkFunds setup cards.pa dbError = .replied reply ∧ reply.ok = false := by
  obtain ⟨-, htrim⟩ := parseTap_ok hread
  simp only [TapInfo.checkFunds, htrim]
  split_ifs with hkey hempty hdb hfunds
  · exact .inr ⟨_, rfl, rfl⟩
  · exact .inr ⟨_, rfl, rfl⟩
  · exact .inr ⟨_, rfl, rfl⟩
  · refine .inl ⟨rfl, ?_⟩
    rw [Approves, if_neg hoy]
    exact CardDb.good_of_checkCard hfunds
  · exact .inr ⟨_, rfl, rfl⟩

theorem Sound.serve (h : t.Sound setup Seen rows acc) {cards : Cards} (hseen : Seen cards)
    (returned : List PaToken) (dbError : Bool) :
    (t.step setup cards returned (.serve dbError)).Sound setup Seen rows acc := by
  have hread := h.asked
  cases hasked : t.asked with
  | sent =>
    rw [hasked] at hread
    have hne : t.asked ≠ .unsent := by simp [hasked]
    simp only [step, hasked]
    split_ifs with hoy
    · refine h.setAsked hne fun hok ↦ ?_
      obtain ⟨happroves, htoken⟩ := approves_of_validate setup hread hoy hok
      refine ⟨⟨hread, cards, hseen, happroves⟩, ?_⟩
      rw [TokenFor, if_pos hoy, htoken]
    · refine h.setAsked hne ?_
      rcases approves_of_checkFunds hread hoy with ⟨hfunds, happroves⟩ | ⟨reply, hreply, hrefused⟩
      · rw [hfunds]
        exact ⟨⟨hread, cards, hseen, happroves⟩, hoy⟩
      · rw [hreply]
        exact fun hok ↦ absurd hok (by simp [hrefused])
  | _ => simpa only [step, hasked] using h

theorem Sound.tokenize (h : t.Sound setup Seen rows acc) (cards : Cards) {returned : List PaToken}
    (hreturned : ∀ r ∈ returned, r ∈ rows) (result : Option ℕ) :
    (t.step setup cards returned (.tokenize result)).Sound setup Seen rows acc := by
  have hfunded := h.asked
  cases hasked : t.asked with
  | funded =>
    rw [hasked] at hfunded
    obtain ⟨hvouched, hoy⟩ := hfunded
    have hne : t.asked ≠ .unsent := by simp [hasked]
    obtain ⟨-, htrim⟩ := parseTap_ok hvouched.read
    simp only [step, hasked]
    cases hreply : t.info.tokenReply returned result with
    | none => exact h
    | some reply =>
      refine h.setAsked hne fun hok ↦ ⟨hvouched, ?_⟩
      rw [TokenFor, if_neg hoy]
      cases result with
      | none =>
        cases hreply
        cases hok
      | some n =>
        simp only [TapInfo.tokenReply, htrim] at hreply
        cases hrow : returned[n]? with
        | none => simp [hrow] at hreply
        | some r =>
          simp only [hrow] at hreply
          split_ifs at hreply with hcard
          cases hreply
          rw [← hcard]
          exact hreturned r (List.mem_of_getElem? hrow)
  | _ => simpa only [step, hasked] using h

theorem Sound.answer (h : t.Sound setup Seen rows acc) (cards : Cards) (returned : List PaToken) :
    (t.step setup cards returned .answer).Sound setup Seen rows acc := by
  simp only [step]
  split
  · rename_i reply hphase hasked
    have hunsent : t.sent = .unsent := h.of_phase hphase
    split_ifs with hstatus hok
    · exact h.refuse _ hunsent
    · exact h.refuse _ hunsent
    all_goals
      have hcleared := h.asked
      rw [hasked] at hcleared
      exact ⟨h.asked, h.sent, hunsent, hcleared (Bool.eq_true_of_not_eq_false hok)⟩
  · exact h

theorem Sound.resolveStation (h : t.Sound setup Seen rows acc) (cards : Cards)
    (returned : List PaToken) (base transactionId : String) :
    (t.step setup cards returned (.resolveStation base transactionId)).Sound setup Seen rows
      acc := by
  simp only [step]
  split_ifs with hresolving
  · exact h
  all_goals obtain ⟨hunsent, hcleared⟩ := h.of_phase (not_not.mp hresolving)
  · exact h.refuse _ hunsent
  · have hsent := h.sent
    rw [hunsent] at hsent
    exact ⟨h.asked, ⟨hsent, _, _, _, rfl, hcleared⟩, trivial⟩

theorem backed_of_handleTransaction {i : TapInfo} {token reason transactionId : String}
    {now : Clock} {tx : Transaction} (hcleared : i.Cleared setup Seen rows token)
    (haccept : handleTransaction setup.stationId now (i.transaction token reason transactionId)
      = some tx) : i.Backed setup Seen rows tx := by
  obtain ⟨rfl, -⟩ := Station.handleTransaction_eq_some haccept
  obtain ⟨htype, htrim⟩ := parseTap_ok hcleared.vouched.read
  refine ⟨hcleared.vouched, ?_, ?_, ⟨token, rfl, hcleared.token⟩, rfl, rfl⟩
  · show toUpper (trimSpace i.cardType) = i.cardType
    rcases htype with htype | htype <;> rw [htype] <;> decide +kernel
  · show trimSpace (if i.cardType = "OY" then i.cardId else "") = _
    split_ifs
    · exact htrim
    · decide +kernel

theorem Sound.arrive (h : t.Sound setup Seen rows acc) (cards : Cards) (returned : List PaToken)
    (now : Clock) :
    (t.step setup cards returned (.arrive now)).Sound setup Seen rows
      (acc ++ (t.accepts setup (.arrive now)).toList) := by
  have hphase := h.phase
  have hsound := h.sent
  cases hsent : t.sent with
  | sent tx =>
    rw [hsent] at hsound
    obtain ⟨hnil, token, reason, transactionId, rfl, hcleared⟩ := hsound
    -- the gate is waiting, or it has given up
    have hlater : ∀ sent, ({ t with sent := sent } : Tap).PhaseSound setup Seen rows t.phase := by
      intro sent
      rcases hp : t.phase with _ | _ | _ | _ | _ | ⟨_ | _, why⟩
      all_goals rw [hp] at hphase
      · exact absurd hphase.2 (by simp [hsent])
      · exact absurd hphase.2.2 (by simp [hsent])
      · exact absurd hphase (by simp [PhaseSound, hsent])
      · exact absurd hphase.1 (by simp [hsent])
      · trivial
      · exact fun hne ↦ absurd (hphase hne) (by simp [hsent])
      · exact absurd hphase.2 (by simp [hsent])
    simp only [step, accepts, hsent, hnil]
    cases haccept : handleTransaction setup.stationId now
        (t.info.transaction token reason transactionId) with
    | none => exact ⟨h.asked, ⟨rfl, rfl⟩, hlater _⟩
    | some tx' =>
      exact ⟨h.asked, ⟨rfl, tx', rfl, backed_of_handleTransaction hcleared haccept⟩, hlater _⟩
  | _ => simpa only [step, accepts, hsent, Option.toList_none, List.append_nil] using h

theorem Sound.acknowledge (h : t.Sound setup Seen rows acc) (cards : Cards)
    (returned : List PaToken) :
    (t.step setup cards returned .acknowledge).Sound setup Seen rows acc := by
  simp only [step]
  split
  · rename_i status accepted hphase hsent
    have hsound := h.sent
    rw [hsent] at hsound
    -- the station computer refuses with a status that is no success
    cases accepted with
    | false =>
      obtain ⟨rfl, -⟩ := hsound
      exact ⟨h.asked, h.sent, fun hne ↦ absurd rfl hne⟩
    | true =>
      obtain ⟨rfl, -⟩ := hsound
      exact ⟨h.asked, h.sent, rfl, hsent⟩
  · exact h

theorem Sound.append_nil (h : t.Sound setup Seen rows acc) :
    t.Sound setup Seen rows (acc ++ []) := by
  rwa [List.append_nil]

/-- **One step of a tap.** It keeps what holds of the tap, and only the arrival of the transaction
at the station computer adds to what was accepted. -/
theorem Sound.step (h : t.Sound setup Seen rows acc) {cards : Cards} (hseen : Seen cards)
    {returned : List PaToken} (hreturned : ∀ r ∈ returned, r ∈ rows) (e : TapEvent) :
    (t.step setup cards returned e).Sound setup Seen rows
      (acc ++ (t.accepts setup e).toList) := by
  cases e with
  | begin gate line tapTime => exact (h.begin cards returned gate line tapTime).append_nil
  | resolve base encrypted => exact (h.resolve cards returned base encrypted).append_nil
  | serve dbError => exact (h.serve hseen returned dbError).append_nil
  | tokenize result => exact (h.tokenize cards hreturned result).append_nil
  | answer => exact (h.answer cards returned).append_nil
  | askFails =>
    refine Sound.append_nil ?_
    rw [Tap.step]
    split_ifs with hasking
    · exact h
    · exact h.refuse _ (h.of_phase (not_not.mp hasking))
  | resolveStation base transactionId =>
    exact (h.resolveStation cards returned base transactionId).append_nil
  | arrive now => exact h.arrive cards returned now
  | acknowledge => exact (h.acknowledge cards returned).append_nil
  | sendFails =>
    refine Sound.append_nil ?_
    rw [Tap.step]
    split_ifs with hsending
    · exact h
    · exact ⟨h.asked, h.sent, fun hne ↦ absurd rfl hne⟩

theorem Sound.mono {rows' : List PaToken} (h : t.Sound setup Seen rows acc)
    (hrows : ∀ r ∈ rows, r ∈ rows') : t.Sound setup Seen rows' acc := by
  obtain ⟨hasked, hsent, hphase⟩ := h
  refine ⟨?_, ?_, ?_⟩
  · rcases ha : t.asked with _ | _ | _ | reply
    all_goals rw [ha] at hasked
    · trivial
    · exact hasked
    · exact hasked
    · exact fun hok ↦ (hasked hok).mono hrows
  · rcases hs : t.sent with _ | tx | ⟨status, _ | _⟩
    all_goals rw [hs] at hsent
    · exact hsent
    · obtain ⟨hnil, token, reason, transactionId, htx, hc⟩ := hsent
      exact ⟨hnil, token, reason, transactionId, htx, hc.mono hrows⟩
    · exact hsent
    · obtain ⟨hstatus, tx, hacc, hbacked⟩ := hsent
      exact ⟨hstatus, tx, hacc, hbacked.mono hrows⟩
  · rcases hp : t.phase with _ | _ | _ | _ | _ | ⟨_ | _, reason⟩
    all_goals rw [hp] at hphase
    · exact hphase
    · exact hphase
    · exact hphase
    · exact ⟨hphase.1, hphase.2.mono hrows⟩
    · trivial
    · exact hphase
    · exact hphase

theorem Sound.accepted (h : t.Sound setup Seen rows acc) :
    acc = [] ∨ ∃ tx, acc = [tx] ∧ t.info.Backed setup Seen rows tx := by
  have hsent := h.sent
  rcases hs : t.sent with _ | tx | ⟨status, _ | _⟩
  all_goals rw [hs] at hsent
  · exact .inl hsent
  · exact .inl hsent.1
  · exact .inl hsent.2
  · exact .inr hsent.2

theorem Sound.allowed (h : t.Sound setup Seen rows acc) {reason : String}
    (hdone : t.phase = .done true reason) : reason = "ok" ∧ acc ≠ [] := by
  obtain ⟨hreason, hreplied⟩ := h.of_phase hdone
  have hsent := h.sent
  rw [hreplied] at hsent
  obtain ⟨-, tx, rfl, -⟩ := hsent
  exact ⟨hreason, List.cons_ne_nil tx []⟩

theorem Sound.refused (h : t.Sound setup Seen rows acc) {reason : String}
    (hdone : t.phase = .done false reason) (hreason : reason ≠ "station send failed") :
    acc = [] := by
  have hunsent : t.sent = .unsent := h.of_phase hdone hreason
  have hsent := h.sent
  rwa [hunsent] at hsent

end Tap

/-! ## All taps -/

/-- The tables, the calls for tokens, the station computer with its batches, and the taps. -/
structure GateWorld (κ : Type*) where
  cards : Cards
  tokens : TokenService
  station : Station.World
  taps : κ → Tap
  accepted : List (κ × Transaction)

inductive GateEvent (κ : Type*)
  /-- A step of a tap. -/
  | tap (k : κ) (e : TapEvent)
  /-- A statement of a call for a token. -/
  | token (e : TokenEvent)
  /-- Cards change. -/
  | change (cards : Cards)
  /-- The sender of a batch is told that it was accepted. -/
  | succeed (n : ℕ)
  /-- The sender of a batch sees an error. -/
  | fail (n : ℕ)
  /-- A batch reaches its back office. -/
  | deliver (n : ℕ) (wt : Weather)

namespace GateWorld

variable {κ : Type*} [DecidableEq κ] (setup : Setup)

def start (cards : Cards) (tokens : TokenTable) (batchSize : ℕ) (h : 0 < batchSize)
    (offices : BackOffices) : GateWorld κ where
  cards := cards
  tokens := .start tokens
  station := .start batchSize h offices
  taps _ := {}
  accepted := []

def acceptedOf (w : GateWorld κ) (k : κ) : List Transaction :=
  (w.accepted.filter fun p ↦ p.1 = k).map Prod.snd

/-- The station computer adds what it accepts. -/
def receive (w : Station.World) (tx : Option Transaction) : Station.World :=
  tx.elim w fun tx ↦ w.step (.add tx)

def step (w : GateWorld κ) : GateEvent κ → GateWorld κ
  | .tap k e =>
    let tx := (w.taps k).accepts setup e
    { w with
      taps := Function.update w.taps k ((w.taps k).step setup w.cards w.tokens.returned e)
      station := receive w.station tx
      accepted := w.accepted ++ tx.toList.map (k, ·) }
  | .token e => { w with tokens := w.tokens.step e }
  | .change cards => { w with cards := cards }
  | .succeed n => { w with station := w.station.step (.succeed n) }
  | .fail n => { w with station := w.station.step (.fail n) }
  | .deliver n wt => { w with station := w.station.step (.deliver n wt) }

/-- What holds between two events. -/
structure Sound (Seen : Cards → Prop) (batchSize : ℕ) (w : GateWorld κ) : Prop where
  taps : ∀ k, (w.taps k).Sound setup Seen w.tokens.table.rows (w.acceptedOf k)
  recorded : w.tokens.Recorded
  station : w.station.Accounted batchSize
  added : w.accepted.map Prod.snd = w.station.added

variable {setup} {Seen : Cards → Prop} {batchSize : ℕ} {w : GateWorld κ}

theorem sound_start {cards : Cards} {tokens : TokenTable} (h : 0 < batchSize)
    {offices : BackOffices} (hids : ∀ cardType, (offices.ids cardType).Nodup) :
    (start cards tokens batchSize h offices : GateWorld κ).Sound setup Seen batchSize where
  taps _ := ⟨trivial, rfl, rfl, rfl⟩
  recorded := by simp [start, TokenService.Recorded, TokenService.start]
  station := Station.World.accounted_start hids
  added := rfl

theorem acceptedOf_tap (k k' : κ) (e : TapEvent) :
    (w.step setup (.tap k e)).acceptedOf k'
      = w.acceptedOf k'
        ++ if k' = k then ((w.taps k).accepts setup e).toList else [] := by
  simp only [acceptedOf, step, List.filter_append, List.map_append]
  congr 1
  cases (w.taps k).accepts setup e with
  | none => simp
  | some tx =>
    by_cases hk : k' = k
    · simp [hk]
    · simp [hk, Ne.symm hk]

theorem Sound.tap (h : w.Sound setup Seen batchSize) (hseen : Seen w.cards) (k : κ)
    (e : TapEvent) : (w.step setup (.tap k e)).Sound setup Seen batchSize := by
  refine ⟨fun k' ↦ ?_, h.recorded, ?_, ?_⟩
  · rw [acceptedOf_tap]
    show Tap.Sound setup Seen w.tokens.table.rows _ (Function.update w.taps k _ k')
    by_cases hk : k' = k
    · rw [hk, Function.update_self, if_pos rfl]
      exact (h.taps k).step hseen h.recorded e
    · rw [Function.update_of_ne hk, if_neg hk, List.append_nil]
      exact h.taps k'
  · show (receive w.station _).Accounted batchSize
    cases (w.taps k).accepts setup e with
    | none => exact h.station
    | some tx => exact h.station.add tx
  · show (w.accepted ++ _).map Prod.snd = (receive w.station _).added
    rw [List.map_append, h.added]
    cases (w.taps k).accepts setup e with
    | none => exact List.append_nil _
    | some tx => rfl

/-- What the station computer does with its batches does not change what it was given. -/
theorem Sound.forward (h : w.Sound setup Seen batchSize) {e : Station.Event}
    (hadded : (w.station.step e).added = w.station.added) :
    ({ w with station := w.station.step e } : GateWorld κ).Sound setup Seen batchSize :=
  ⟨h.taps, h.recorded, h.station.step e, h.added.trans hadded.symm⟩

theorem Sound.step (h : w.Sound setup Seen batchSize) (hseen : Seen w.cards) (e : GateEvent κ) :
    (w.step setup e).Sound setup Seen batchSize := by
  cases e with
  | tap k e => exact h.tap hseen k e
  | token e =>
    have hgrows := TokenService.grows_step w.tokens e
    exact ⟨fun k ↦ (h.taps k).mono hgrows.rows, hgrows.recorded h.recorded, h.station, h.added⟩
  | change cards => exact ⟨h.taps, h.recorded, h.station, h.added⟩
  | succeed n =>
    refine h.forward ?_
    rw [Station.World.step]
    cases w.station.inFlight[n]? <;> rfl
  | fail n =>
    refine h.forward ?_
    rw [Station.World.step]
    cases w.station.inFlight[n]? <;> rfl
  | deliver n wt =>
    refine h.forward ?_
    rw [Station.World.step]
    cases w.station.emitted[n]? <;> rfl

/-- **Who gets through a gate.** Let any taps be handled at any gates, with any interleaving of
their requests and any errors, while cards change and batches are forwarded.

Every tap leads to at most one accepted transaction. That names the prepaid card, or the token that
the bank card has in the table and not the card; and at some time before, the service that was asked
had the card in its table, in order and with enough money. A gate only opens for a tap with such a
transaction, and a tap that is refused has none, unless the reason is `station send failed`. All
accepted transactions are in the buffers of the station computer, in flight or forwarded, counted as
often. -/
theorem gate_opens_backed {batchSize : ℕ} (hpos : 0 < batchSize) {offices : BackOffices}
    (hids : ∀ cardType, (offices.ids cardType).Nodup) (setup : Setup) (cards : Cards)
    (tokens : TokenTable) (events : List (GateEvent κ)) :
    let run := Run.exec (step setup) (start cards tokens batchSize hpos offices)
    let w := run events
    let Seen := fun cards ↦ ∃ before, before <+: events ∧ (run before).cards = cards
    (∀ k, w.acceptedOf k = [] ∨ ∃ tx, w.acceptedOf k = [tx]
        ∧ (w.taps k).info.Backed setup Seen w.tokens.table.rows tx)
      ∧ (∀ k reason, (w.taps k).phase = .done true reason → reason = "ok" ∧ w.acceptedOf k ≠ [])
      ∧ (∀ k reason, (w.taps k).phase = .done false reason → reason ≠ "station send failed" →
        w.acceptedOf k = [])
      ∧ (w.accepted.map Prod.snd).Perm (w.station.batcher.buffered ++ w.station.inFlight.flatten
        ++ w.station.forwarded.flatten) := by
  intro run w Seen
  have hseen : Run.Always (step setup) (fun w ↦ Seen w.cards)
      (start cards tokens batchSize hpos offices) events :=
    fun before hbefore ↦ ⟨before, hbefore, rfl⟩
  have h : w.Sound setup Seen batchSize :=
    hseen.invariant (fun _ e hseen h ↦ h.step hseen e) (sound_start hpos hids)
  refine ⟨fun k ↦ (h.taps k).accepted, fun k _ hdone ↦ (h.taps k).allowed hdone,
    fun k _ hdone hreason ↦ (h.taps k).refused hdone hreason, ?_⟩
  rw [h.added]
  exact h.station.conserved

end GateWorld

/-! ## A lost acknowledgement -/

/-- A prepaid card and a bank card, each with money. -/
def sampleCards : Cards where
  cs := ⟨[⟨"1001", true, false, 250⟩], by decide⟩
  pa := ⟨[⟨"2001", true, false, 1000⟩], by decide⟩

def blockedCards : Cards where
  cs := ⟨[⟨"1001", true, true, 250⟩], by decide⟩
  pa := ⟨[⟨"2001", true, true, 1000⟩], by decide⟩

def sampleGate : GateConfig := ⟨"gate-1", "station-1", true, true⟩

/-- A bank card and a prepaid card are tapped and approved, then both are blocked. Both transactions
are accepted, and the second reply is lost. -/
def lostAcknowledgement : List (GateEvent ℕ) :=
  [.tap 0 (.begin sampleGate " pctr : 2001 " "07:08"), .tap 1 (.begin sampleGate "OY:1001" "07:08"),
    .tap 0 (.resolve "http://pa" true), .tap 1 (.resolve "http://cs" true), .tap 1 (.serve false),
    .tap 0 (.serve false), .change blockedCards, .token (.call "2001"),
    .token (.execute 0 "f00d" true true), .token (.execute 0 "" true true),
    .token (.execute 0 "" true true), .tap 0 (.tokenize (some 0)), .tap 1 .answer, .tap 0 .answer,
    .tap 1 (.resolveStation "http://sc" "b"), .tap 0 (.resolveStation "http://sc" "a"),
    .tap 0 (.arrive Station.sampleClock), .tap 1 .sendFails, .tap 1 (.arrive Station.sampleClock),
    .tap 0 .acknowledge]

/-- The gate opens for the first tap only, although both have a transaction. -/
theorem lostAcknowledgement_backed :
    let run := Run.exec (GateWorld.step ⟨500, "1"⟩)
      (GateWorld.start sampleCards .empty 5 (by decide) .empty)
    let w := run lostAcknowledgement
    (w.taps 0).phase = .done true "ok" ∧ (w.taps 1).phase = .done false "station send failed"
      ∧ w.accepted.map (fun p ↦ (p.1, p.2.cardId, p.2.token)) = [(0, "", "f00d"), (1, "1001", "")]
      ∧ ∀ k, w.acceptedOf k = [] ∨ ∃ tx, w.acceptedOf k = [tx]
        ∧ (w.taps k).info.Backed ⟨500, "1"⟩
          (fun cards ↦ ∃ before, before <+: lostAcknowledgement ∧ (run before).cards = cards)
          w.tokens.table.rows tx := by
  refine ⟨by decide +kernel, by decide +kernel, by decide +kernel, ?_⟩
  exact (GateWorld.gate_opens_backed (by decide) (fun cardType ↦ by simp [BackOffices.ids_empty])
    ⟨500, "1"⟩ sampleCards .empty lostAcknowledgement).1

end Gate

end TaskDiscovery
