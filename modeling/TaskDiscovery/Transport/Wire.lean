import TaskDiscovery.Go.Buffers
import TaskDiscovery.Go.Json.Records
import TaskDiscovery.Transport.Messages

/-!
# The centralized protocol on the wire

Messages and responses travel as JSON objects, in datagrams or on lines. Their names and texts are
whatever a client makes up, so they may contain quotes, line ends and any other character. They are
texts, though: a string of Go may contain bytes that are not UTF-8, and `json.Marshal` writes U+FFFD
in their place, so nothing here is about those.

A message is read back as it was written, takes one line, and is not read at all when its end is
missing, and so is a response (`wire_faithful`). The error text that the reader gives for what it
does not read is not modelled, it is a parameter wherever it is sent on.
-/

namespace TaskDiscovery

open Go Go.Json

/-! ## The objects -/

/-- The tags of `CentralizedMessage`. -/
def CentralizedMessage.fields : List (JsonField CentralizedMessage) :=
  [stringField "cmd" false (·.command) fun s msg ↦ { msg with command := s },
   stringField "task" false (·.task) fun s msg ↦ { msg with task := s },
   stringField "address" true (·.address) fun s msg ↦ { msg with address := s },
   intField "capacity" true (·.capacity) fun n msg ↦ { msg with capacity := n }]

/-- The tags of `CentralizedResponse`. -/
def CentralizedResponse.fields : List (JsonField CentralizedResponse) :=
  [stringField "status" false (·.status) fun s resp ↦ { resp with status := s },
   stringField "address" true (·.address) fun s resp ↦ { resp with address := s },
   stringField "error" true (·.error) fun s resp ↦ { resp with error := s },
   unusedStrings "addresses"]

def marshalMessage (msg : CentralizedMessage) : List Char := marshal CentralizedMessage.fields msg

def unmarshalMessage (data : List Char) : Option CentralizedMessage :=
  unmarshal CentralizedMessage.fields { command := "", task := "" } data

def marshalResponse (resp : CentralizedResponse) : List Char :=
  marshal CentralizedResponse.fields resp

def unmarshalResponse (data : List Char) : Option CentralizedResponse :=
  unmarshal CentralizedResponse.fields { status := "" } data

/-- `Decoder.Decode` of a response. -/
def decodeResponse (stream : List Char) : Option CentralizedResponse :=
  decode CentralizedResponse.fields { status := "" } stream

/-! ## Messages and responses are read back -/

theorem nodup_messageFields : (CentralizedMessage.fields.map JsonField.name).Nodup := by decide

theorem nodup_responseFields : (CentralizedResponse.fields.map JsonField.name).Nodup := by decide

theorem shallow_messageFields : ∀ f ∈ CentralizedMessage.fields, f.Shallow := by
  intro f hf
  simp only [CentralizedMessage.fields, List.mem_cons, List.not_mem_nil, or_false] at hf
  rcases hf with rfl | rfl | rfl | rfl
  · exact shallow_stringField _ _ _ _
  · exact shallow_stringField _ _ _ _
  · exact shallow_stringField _ _ _ _
  · exact shallow_intField _ _ _ _

theorem shallow_responseFields : ∀ f ∈ CentralizedResponse.fields, f.Shallow := by
  intro f hf
  simp only [CentralizedResponse.fields, List.mem_cons, List.not_mem_nil, or_false] at hf
  rcases hf with rfl | rfl | rfl | rfl
  · exact shallow_stringField _ _ _ _
  · exact shallow_stringField _ _ _ _
  · exact shallow_stringField _ _ _ _
  · exact shallow_unusedStrings _

theorem copy_message (msg : CentralizedMessage) :
    CentralizedMessage.fields.foldlM (fun y f ↦ f.copy msg y) { command := "", task := "" }
      = some msg := by
  simp only [CentralizedMessage.fields, List.foldlM_cons, List.foldlM_nil, copy_stringField,
    copy_intField, Option.bind_eq_bind, Option.bind_some]
  rfl

theorem copy_response (resp : CentralizedResponse) :
    CentralizedResponse.fields.foldlM (fun y f ↦ f.copy resp y) { status := "" }
      = some resp := by
  simp only [CentralizedResponse.fields, List.foldlM_cons, List.foldlM_nil, copy_stringField,
    copy_unusedStrings, Option.bind_eq_bind, Option.bind_some]
  rfl

theorem unmarshalMessage_marshal (msg : CentralizedMessage) :
    unmarshalMessage (marshalMessage msg) = some msg := by
  have h := unmarshal_marshal nodup_messageFields shallow_messageFields msg
    { command := "", task := "" } (Or.inl rfl)
  rwa [List.append_nil, copy_message] at h

theorem unmarshalResponse_marshal (resp : CentralizedResponse) :
    unmarshalResponse (marshalResponse resp) = some resp := by
  have h := unmarshal_marshal nodup_responseFields shallow_responseFields resp { status := "" }
    (Or.inl rfl)
  rwa [List.append_nil, copy_response] at h

theorem unmarshalResponse_line (resp : CentralizedResponse) :
    unmarshalResponse (marshalResponse resp ++ ['\n']) = some resp :=
  (unmarshal_marshal nodup_responseFields shallow_responseFields resp { status := "" }
    (Or.inr rfl)).trans (copy_response resp)

theorem decodeResponse_line (resp : CentralizedResponse) (rest : List Char) :
    decodeResponse (marshalResponse resp ++ '\n' :: rest) = some resp :=
  (decode_marshal nodup_responseFields shallow_responseFields resp { status := "" } rest).trans
    (copy_response resp)

/-! ## One line each -/

theorem not_mem_of_printable {s : List Char} (h : Printable s) {c : Char} (hc : c.toNat < 0x20) :
    c ∉ s := by
  intro hmem
  have := h c hmem
  omega

theorem printable_message (msg : CentralizedMessage) : Printable (marshalMessage msg) :=
  printable_marshal shallow_messageFields msg

theorem printable_response (resp : CentralizedResponse) : Printable (marshalResponse resp) :=
  printable_marshal shallow_responseFields resp

/-! ## Datagrams that are cut off -/

theorem unmarshalMessage_readBuffer {n : ℕ} {msg : CentralizedMessage}
    (h : n < byteLength (marshalMessage msg)) :
    unmarshalMessage (readBuffer n (marshalMessage msg)) = none := by
  obtain ⟨p, q, k, htext, hq, hread⟩ := exists_readBuffer h
  rw [hread]
  exact unmarshal_cut shallow_messageFields htext hq fun c hc ↦ (List.mem_replicate.mp hc).2

theorem unmarshalResponse_readBuffer {n : ℕ} {resp : CentralizedResponse}
    (h : n < byteLength (marshalResponse resp)) :
    unmarshalResponse (readBuffer n (marshalResponse resp)) = none := by
  obtain ⟨p, q, k, htext, hq, hread⟩ := exists_readBuffer h
  rw [hread]
  exact unmarshal_cut shallow_responseFields htext hq fun c hc ↦ (List.mem_replicate.mp hc).2

/-- **Messages on the wire.** Whatever texts a message contains, it is read back from a buffer of
any size if and only if the buffer holds all of it, and otherwise nothing is read. The same holds
for responses. -/
theorem wire_faithful (n : ℕ) (msg : CentralizedMessage) (resp : CentralizedResponse) :
    unmarshalMessage (readBuffer n (marshalMessage msg))
        = (if byteLength (marshalMessage msg) ≤ n then some msg else none)
      ∧ unmarshalResponse (readBuffer n (marshalResponse resp))
        = if byteLength (marshalResponse resp) ≤ n then some resp else none := by
  constructor
  · split_ifs with h
    · rw [readBuffer_of_le h, unmarshalMessage_marshal]
    · exact unmarshalMessage_readBuffer (by omega)
  · split_ifs with h
    · rw [readBuffer_of_le h, unmarshalResponse_marshal]
    · exact unmarshalResponse_readBuffer (by omega)

end TaskDiscovery
