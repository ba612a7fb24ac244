import Conduit.Proofs.Dictionary
import Conduit.Proofs.Message.Views

/-!
# Binary maps as documents

The document of a binary map has a member for each field: a text where the bytes are text, else the
list of the bytes. Bytes are text in one way only, and a list is no text, so the value of a field
tells its bytes (`Message.fieldValue_injective`). The document nests two deep and has whole numbers
only, so it is read back from its bytes, and with it the names and the bytes of the map
(`Message.binaryMap_of_bytes`).
-/

namespace Conduit.Message

/-! ## Fields -/

/-- The value of a field tells its bytes, whether they are text or not. -/
theorem fieldValue_injective : Function.Injective fieldValue := by
  intro bytes bytes' h
  unfold fieldValue at h
  cases hd : Utf8.decode bytes with
  | ok text =>
    cases hd' : Utf8.decode bytes' with
    | ok text' =>
      rw [hd, hd'] at h
      obtain rfl : text = text' := Value.string.inj h
      rw [Utf8.decode_eq_ok_iff.1 hd, Utf8.decode_eq_ok_iff.1 hd']
    | error e' =>
      rw [hd, hd'] at h
      cases h
  | error e =>
    cases hd' : Utf8.decode bytes' with
    | ok text' =>
      rw [hd, hd'] at h
      cases h
    | error e' =>
      rw [hd, hd'] at h
      have hbyte : Function.Injective fun b ↦ Value.number (.ofByte b) := by
        intro b b' hb
        have hn := congrArg Subtype.val (Number.whole.inj (Value.number.inj hb))
        exact UInt8.toNat_inj.1 (Int.ofNat.inj hn)
      exact List.map_injective_iff.2 hbyte (Value.array.inj h)

theorem allWhole_fieldValue (bytes : Bytes) : (fieldValue bytes).AllWhole := by
  unfold fieldValue
  split
  · simp [Value.AllWhole]
  · simp [Value.AllWhole, Number.ofByte]

theorem distinct_fieldValue (bytes : Bytes) : (fieldValue bytes).Distinct := by
  unfold fieldValue
  split
  · exact Value.distinct_string
  · refine Value.distinct_array.2 fun v hv ↦ ?_
    obtain ⟨b, -, rfl⟩ := List.mem_map.1 hv
    exact Value.distinct_number

theorem nesting_fieldValue (bytes : Bytes) : (fieldValue bytes).nesting ≤ 1 := by
  unfold fieldValue
  split
  · exact Nat.zero_le 1
  · refine Value.nesting_array_le_iff.2 fun v hv ↦ ?_
    obtain ⟨b, -, rfl⟩ := List.mem_map.1 hv
    exact Nat.le_refl 0

/-! ## Maps -/

/-- The document of a binary map tells its names and its bytes. -/
theorem binaryMapDocument_injective : Function.Injective binaryMapDocument := by
  intro fields fields' h
  have hentry : Function.Injective fun f : String × Bytes ↦ (f.1, fieldValue f.2) := by
    intro f f' hf
    obtain ⟨hname, hvalue⟩ := Prod.mk.inj hf
    exact Prod.ext hname (fieldValue_injective hvalue)
  exact Dictionary.ext (List.map_injective_iff.2 hentry (Value.object.inj h))

/-- The document of a binary map is read back from its bytes. -/
theorem parse_binaryMapDocument (fields : Dictionary Bytes) :
    Json.parse (binaryMapDocument fields).toBytes = .ok (binaryMapDocument fields) := by
  have hmember {m : String × Value}
      (hm : m ∈ fields.entries.map fun f ↦ (f.1, fieldValue f.2)) :
      ∃ bytes, m.2 = fieldValue bytes := by
    obtain ⟨f, -, rfl⟩ := List.mem_map.1 hm
    exact ⟨f.2, rfl⟩
  refine Value.parse_toBytes ?_ ?_ ?_
  · have htwo : (binaryMapDocument fields).nesting ≤ 2 :=
      Value.nesting_object_le_iff.2 fun m hm ↦ by
        obtain ⟨bytes, hv⟩ := hmember hm
        exact hv ▸ nesting_fieldValue bytes
    exact Nat.le_trans htwo (by decide)
  · refine Value.allWhole_object.2 fun m hm ↦ ?_
    obtain ⟨bytes, hv⟩ := hmember hm
    exact hv ▸ allWhole_fieldValue bytes
  · refine Value.distinct_object.2 ⟨?_, fun m hm ↦ ?_⟩
    · rw [Members.keys, List.map_map]
      exact fields.nodup_names
    · obtain ⟨bytes, hv⟩ := hmember hm
      exact hv ▸ distinct_fieldValue bytes

/-- A binary map has a view as bytes, which is the text of its document. Whoever reads them as a
document gets that document, and no other binary map has the same bytes, whatever the topics of the
messages are. -/
theorem binaryMap_of_bytes (topic topic' : String) (fields : Dictionary Bytes) :
    let m := ofBinaryMap topic fields
    m.ensure .raw = .ok () ∧
      (∃ doc, m.asDocument = .ok doc ∧ m.asText = .ok doc.toText ∧
        m.asBytes = Utf8.encode doc.toText ∧ (ofRaw topic' m.asBytes).asDocument = .ok doc) ∧
      ∀ fields', (ofBinaryMap topic' fields').asBytes = m.asBytes ↔ fields' = fields := by
  have hparse := parse_binaryMapDocument fields
  refine ⟨rfl, ⟨binaryMapDocument fields, rfl, asText_ofDocument topic _, ?_, ?_⟩, fun fields' ↦ ?_⟩
  · change (binaryMapDocument fields).toBytes = _
    rw [Value.toBytes, Utf8.encode, Value.toText, String.toList_ofList]
  · exact asDocument_ofRaw topic' hparse
  · constructor
    · intro h
      have hbytes : (binaryMapDocument fields').toBytes = (binaryMapDocument fields).toBytes := h
      have hparse' := parse_binaryMapDocument fields'
      rw [hbytes, hparse] at hparse'
      exact (binaryMapDocument_injective (Except.ok.inj hparse')).symm
    · rintro rfl
      rfl

end Conduit.Message
