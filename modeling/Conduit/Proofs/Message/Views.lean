import Conduit.Message
import Conduit.Proofs.Json.RoundTrip

/-!
# Views of messages

The bytes of a document are text, and whoever reads them as a document gets the document back, its
members in their order (`Message.document_of_bytes_of_document`). Whole numbers, distinct keys and
at most 127 open brackets are what it takes; of these, distinct keys are what makes a value that of a
JSON document in the first place.
-/

namespace Conduit.Message

theorem asBytes_ofDocument (topic : String) (v : Value) :
    (ofDocument topic v).asBytes = v.toBytes := rfl

theorem asText_ofDocument (topic : String) (v : Value) :
    (ofDocument topic v).asText = .ok v.toText := by
  rw [asText, asBytes_ofDocument, Value.decode_toBytes]
  rfl

theorem asDocument_ofRaw (topic : String) {bytes : Bytes} {v : Value}
    (h : Json.parse bytes = .ok v) : (ofRaw topic bytes).asDocument = .ok v := by
  change ((Json.parse bytes).mapError _).mapError _ = _
  rw [h]
  rfl

/-- A document survives as bytes, whatever the topics of the messages are. -/
theorem document_of_bytes_of_document (topic topic' : String) (v : Value)
    (hwhole : v.AllWhole) (hnesting : v.nesting ≤ 127) (hdistinct : v.Distinct) :
    (ofDocument topic v).asText = .ok v.toText ∧
      (ofDocument topic v).asBytes = Utf8.encode v.toText ∧
      (ofRaw topic' (ofDocument topic v).asBytes).asDocument = .ok v := by
  refine ⟨asText_ofDocument topic v, ?_, ?_⟩
  · rw [asBytes_ofDocument, Value.toBytes, Utf8.encode, Value.toText, String.toList_ofList]
  · exact asDocument_ofRaw topic' (Value.parse_toBytes hnesting hwhole hdistinct)

/-- The numbers at both ends of the range, controls, quotes and characters of every length in keys
and strings, and empty brackets. -/
def extremes : Value := .object [
  ("z", .number (.whole ⟨-0x8000000000000000, by decide⟩)),
  ("a\x00\n\"", .array [.number (.whole ⟨0xffffffffffffffff, by decide⟩), .array [], .null]),
  ("\\\x7fé€😀", .object [("", .object []), ("\x1f", .string "\t\x08\x0c\r/")])]

theorem document_of_bytes_of_extremes :
    (extremes.AllWhole ∧ extremes.nesting ≤ 127 ∧ extremes.Distinct) ∧
      (ofDocument "in" extremes).asText = .ok extremes.toText ∧
      (ofDocument "in" extremes).asBytes = Utf8.encode extremes.toText ∧
      (ofRaw "out" (ofDocument "in" extremes).asBytes).asDocument = .ok extremes := by
  have hwhole : extremes.AllWhole := by simp [extremes, Value.AllWhole]
  have hnesting : extremes.nesting ≤ 127 := by decide
  have hdistinct : extremes.Distinct := by simp [extremes, Value.Distinct, Members.keys]
  exact ⟨⟨hwhole, hnesting, hdistinct⟩,
    document_of_bytes_of_document "in" "out" extremes hwhole hnesting hdistinct⟩

end Conduit.Message
