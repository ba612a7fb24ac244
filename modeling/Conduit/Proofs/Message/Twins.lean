import Conduit.Message
import Mathlib.Data.List.Forall2

/-!
# Messages that are the same but for names

Pieces carry the name of their family, and the names are handed out anew in every run. Two messages
are twins if they are the same but for such names, which correspond to each other. No view of a
message shows the name, so twins have the same views.
-/

namespace Conduit

variable {ρ : String → String → Prop}

/-- The same mark, with names that correspond. -/
structure ChunkTag.Twin (ρ : String → String → Prop) (t t' : ChunkTag) : Prop where
  messageId : ρ t.messageId t'.messageId
  sequence : t.sequence = t'.sequence
  last : t.last = t'.last

theorem ChunkTag.Twin.eq (hρ : ∀ name name', ρ name name' → name = name') {t t' : ChunkTag}
    (h : t.Twin ρ t') : t = t' := by
  obtain ⟨name, sequence, last⟩ := t
  obtain ⟨hname, rfl, rfl⟩ := h
  obtain rfl := hρ _ _ hname
  rfl

namespace Message

variable {m m' : Message}

structure Twin (ρ : String → String → Prop) (m m' : Message) : Prop where
  topic : m.topic = m'.topic
  payload : m.payload = m'.payload
  chunk : Option.Rel (ChunkTag.Twin ρ) m.chunk m'.chunk

theorem Twin.refl (hρ : ∀ name, ρ name name) (m : Message) : m.Twin ρ m where
  topic := rfl
  payload := rfl
  chunk := by
    cases m.chunk with
    | none => exact .none
    | some t => exact .some ⟨hρ _, rfl, rfl⟩

/-- If only equal names correspond, twins are the same message. -/
theorem Twin.eq (hρ : ∀ name name', ρ name name' → name = name') (h : m.Twin ρ m') : m = m' := by
  obtain ⟨topic, payload, chunk⟩ := m
  obtain ⟨topic', payload', chunk'⟩ := m'
  obtain ⟨htopic, hpayload, hchunk⟩ := h
  cases htopic
  cases hpayload
  cases hchunk with
  | none => rfl
  | some ht => rw [ht.eq hρ]

/-! ## Views -/

section Views

variable (h : m.Twin ρ m')

include h

theorem Twin.kind : m.kind = m'.kind := by
  unfold Message.kind
  rw [h.payload]

theorem Twin.asDocument : m.asDocument = m'.asDocument := by
  unfold Message.asDocument
  rw [h.payload]

theorem Twin.asBytes : m.asBytes = m'.asBytes := by
  unfold Message.asBytes
  rw [h.payload]

theorem Twin.ensure (kind : Representation) : m.ensure kind = m'.ensure kind := by
  unfold Message.ensure
  rw [h.asDocument, h.kind]

/-! ## Changes -/

theorem Twin.withTopic (topic : String) : (m.withTopic topic).Twin ρ (m'.withTopic topic) :=
  ⟨rfl, h.payload, h.chunk⟩

theorem Twin.withDocument (value : Value) : (m.withDocument value).Twin ρ (m'.withDocument value) :=
  ⟨h.topic, rfl, h.chunk⟩

theorem Twin.withRaw (bytes : Bytes) : (m.withRaw bytes).Twin ρ (m'.withRaw bytes) :=
  ⟨h.topic, rfl, h.chunk⟩

end Views

end Message

namespace Wrapper

variable {w w' : Wrapper}

structure Twin (ρ : String → String → Prop) (w w' : Wrapper) : Prop where
  incoming : w.incoming.Twin ρ w'.incoming
  working : w.working.Twin ρ w'.working
  accepted : w.accepted = w'.accepted
  redirects : w.redirects = w'.redirects
  metadata : w.metadata = w'.metadata

theorem Twin.eq (hρ : ∀ name name', ρ name name' → name = name') (h : w.Twin ρ w') : w = w' := by
  obtain ⟨incoming, working, accepted, redirects, metadata⟩ := w
  obtain ⟨incoming', working', accepted', redirects', metadata'⟩ := w'
  obtain ⟨hincoming, hworking, rfl, rfl, rfl⟩ := h
  obtain rfl := hincoming.eq hρ
  obtain rfl := hworking.eq hρ
  rfl

theorem twin_ofMessage {m m' : Message} (h : m.Twin ρ m') : (ofMessage m).Twin ρ (ofMessage m') :=
  ⟨h, h, rfl, rfl, rfl⟩

theorem Twin.mergeMetadata (h : w.Twin ρ w') (extra : Members) :
    (w.mergeMetadata extra).Twin ρ (w'.mergeMetadata extra) :=
  { h with metadata := by rw [Wrapper.mergeMetadata, Wrapper.mergeMetadata, h.metadata] }

/-- Twins that are decided about in the same way. -/
theorem Twin.decide (h : w.Twin ρ w') (accepted : Bool) :
    ({ w with accepted } : Wrapper).Twin ρ { w' with accepted } :=
  { h with accepted := rfl }

/-- Twins whose working messages change in the same way. -/
theorem Twin.rework (h : w.Twin ρ w') {m m' : Message} (hm : m.Twin ρ m') :
    ({ w with working := m } : Wrapper).Twin ρ { w' with working := m' } :=
  { h with working := hm }

end Wrapper

end Conduit
