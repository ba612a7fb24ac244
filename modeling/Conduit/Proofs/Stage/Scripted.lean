import Mathlib
import Conduit.Stage.Scripted
import Conduit.Proofs.Script.Running
import Conduit.Proofs.Script.Values
import Conduit.Proofs.Text.Utf8

/-!
# A script that touches nothing

The ready-made script that accepts everything leaves its variables as they are
(`Script.run_truth`), so a message comes out as the way from a payload to a value of the script and
back leaves it. Bytes come back, text or not, and so do documents, but for the order of members. The
way back does not know what the payload was, though: a document that is a text comes back as bytes,
an empty binary map as a document, and every other binary map is an error
(`Scripted.pass_process`).
-/

namespace Conduit

namespace Script

/-! ## The run -/

/-- The program that is always true. -/
def truth : Program where
  body := [.expr (.literal (.bool true))]
  functions := []

theorem parse?_pass : Program.parse? Ready.pass = some truth := by cbv

theorem Eval.body_literal (f : Frame) (fuel : Nat) (d : Datum) (scope : List Binding) :
    body f (fuel + 3) [.expr (.literal d)] .unit { scope } = .ok d { scope, operations := 2 } := by
  have hstmt : stmt f (fuel + 2) (.expr (.literal d)) { scope } =
      .ok d { scope, operations := 2 } := by
    rw [stmt, bind_of_ok (tick_of_lt (show 0 < 100000 by decide))]
    exact expr_literal (show 1 < 100000 by decide) d
  rw [body, bind_of_ok hstmt, body]
  rfl

/-- The program leaves all variables as they are, those that were captured out of their cells. -/
theorem run_truth (setting : Library.Setting) (scope : List Binding) :
    truth.run setting scope =
      .ok (.bool true, scope.map fun b ↦ { b with value := b.value.fill fun _ ↦ .unit }) := by
  have hfuel : evalFuel = 999997 + 3 := rfl
  have hbody := Eval.body_literal ⟨truth, setting⟩ 999997 (.bool true) scope
  unfold Program.run
  simp only [EStateM.run, hfuel]
  rw [show truth.body = [.expr (.literal (.bool true))] from rfl, hbody]
  rfl

theorem execute_truth {script : Compiled} (hscript : script.program = truth) (input : Input)
    (hpayload : input.payload.fill (fun _ ↦ .unit) = input.payload)
    (hmetadata : input.metadata.fill (fun _ ↦ .unit) = input.metadata)
    (setting : Library.Setting) :
    script.execute input setting =
      .done ⟨input.payload, input.topic, input.metadata, true⟩ := by
  rw [Compiled.execute, hscript, run_truth]
  simp only [Input.scope, List.map_cons, List.map_nil, hpayload, hmetadata]
  rfl

end Script

namespace Stage.Scripted

open Script

theorem ofSource_pass : ofSource Ready.pass = .ok { script := ⟨"stage", Ready.pass, truth⟩ } := by
  have hcompile : (Cache.compile .empty "stage" Ready.pass).1 =
      .ok ⟨"stage", Ready.pass, truth⟩ := by
    rw [Cache.compile, parse?_pass]
    rfl
  rw [ofSource, hcompile]
  rfl

/-! ## There and back -/

theorem fill_payloadDatum (content : Nat → Datum) (p : Payload) :
    (payloadDatum p).fill content = payloadDatum p := by
  cases p with
  | raw bytes =>
    rw [payloadDatum]
    split <;> rfl
  | document v => exact Datum.fill_ofValue content v
  | binaryMap fields =>
    rw [payloadDatum, Datum.fill]
    congr 1
    induction fields.entries with
    | nil => rfl
    | cons f rest ih =>
      rw [List.map_cons, Datum.fillFields, ih]
      rfl

/-- A stage whose program is always true hands back what its script was shown. -/
theorem outcome_truth {s : Scripted} (hscript : s.script.program = truth) (moment : Moment)
    (w : Wrapper) :
    (s.process moment w).outcome = match leave w ⟨payloadDatum w.working.payload, w.working.topic,
        .ofValue w.metadata, true⟩ with
      | .ok w => .done w
      | .error e => .failed e := by
  rw [process]
  simp only [execute_truth hscript (input w) (fill_payloadDatum _ _) (Datum.fill_ofValue _ _)]
  rfl

theorem toJson_eq_ok {d : Datum} {v : Value} (h : d.toValue? = some v) : toJson d = .ok v := by
  rw [toJson, h]

/-- A document that is no text comes back but for the order of members. -/
theorem exists_withPayload_document {m : Message} {v : Value} (hm : m.payload = .document v)
    (hdistinct : v.Distinct) (hrange : v.InRange) (htext : ∀ text, v ≠ .string text) :
    ∃ w, v.Reorders w ∧
      withPayload m (payloadDatum (.document v)) = .ok { m with payload := .document w } := by
  obtain ⟨w, hw, hreorders⟩ := Datum.exists_reorders hdistinct hrange
  refine ⟨w, hreorders, ?_⟩
  have hjson : withPayload m (.ofValue v) =
      ((toJson (.ofValue v)).map m.withDocument).mapError scriptError →
        withPayload m (.ofValue v) = .ok { m with payload := .document w } := fun h ↦ by
    rw [h, toJson_eq_ok hw]
    rfl
  cases v with
  | null =>
    obtain rfl : Value.null = w := Option.some.inj hw
    obtain ⟨topic, payload, chunk⟩ := m
    cases hm
    rfl
  | string s => exact absurd rfl (htext s)
  | number n =>
    refine hjson ?_
    cases n with
    | whole n =>
      rw [Datum.ofValue]
      split <;> rfl
    | double d => rfl
  | _ => exact hjson rfl

/-- Bytes come back whether they are text or not. -/
theorem withPayload_raw (m : Message) (bytes : Bytes) :
    withPayload m (payloadDatum (.raw bytes)) = .ok (m.withRaw bytes) := by
  rw [payloadDatum]
  cases hdecode : Utf8.decode bytes with
  | ok text =>
    rw [Utf8.decode_eq_ok_iff.1 hdecode]
    rfl
  | error e => rfl

/-- There is no JSON for a record of bytes, unless it is empty. -/
theorem withPayload_binaryMap {fields : Dictionary Bytes} (h : fields ≠ .empty) (m : Message) :
    ∃ problem, withPayload m (payloadDatum (.binaryMap fields)) = .error (.script problem) := by
  obtain ⟨entries, hsorted⟩ := fields
  cases entries with
  | nil => exact absurd rfl h
  | cons f rest => exact ⟨_, rfl⟩

theorem exists_newMetadata {old : Value} (hobject : old.isObject = true) (hdistinct : old.Distinct)
    (hrange : old.InRange) :
    ∃ metadata, newMetadata old (.ofValue old) = .ok metadata ∧ old.Reorders metadata := by
  cases old with
  | object members =>
    obtain ⟨v, hv, hreorders⟩ := Datum.exists_reorders hdistinct hrange
    obtain ⟨others, rfl⟩ := hreorders.exists_object
    refine ⟨_, ?_, hreorders⟩
    rw [Datum.ofValue] at hv ⊢
    rw [newMetadata, toJson_eq_ok hv]
    intro h
    cases h
  | _ => cases hobject

/-- The stage accepts, and but for the payload, and the order of the metadata, leaves everything as
it was. -/
def Leaves (s : Scripted) (moment : Moment) (w : Wrapper) (payload : Payload) : Prop :=
  ∃ metadata, w.metadata.Reorders metadata ∧ (s.process moment w).outcome =
    .done { w with working := { w.working with payload }, metadata, accepted := true }

section

variable {s : Scripted} {moment : Moment} {w : Wrapper}

theorem leaves_of_withPayload (hscript : s.script.program = truth)
    (hobject : w.metadata.isObject = true) (hdistinct : w.metadata.Distinct)
    (hrange : w.metadata.InRange) {payload : Payload}
    (h : withPayload w.working (payloadDatum w.working.payload) = .ok { w.working with payload }) :
    s.Leaves moment w payload := by
  obtain ⟨metadata, hmetadata, hreorders⟩ := exists_newMetadata hobject hdistinct hrange
  refine ⟨metadata, hreorders, ?_⟩
  rw [outcome_truth hscript, leave, h, hmetadata]
  rfl

theorem fails_of_withPayload (hscript : s.script.program = truth) {e : PipelineError}
    (h : withPayload w.working (payloadDatum w.working.payload) = .error e) :
    (s.process moment w).outcome = .failed e := by
  rw [outcome_truth hscript, leave, h]
  rfl

end

/-- The ready-made script accepts raw bytes and documents as they are, but for the order of members,
unless the document is a text. What it makes of other payloads is not what they were. -/
theorem pass_process (moment : Moment) (w : Wrapper) (hobject : w.metadata.isObject = true)
    (hdistinct : w.metadata.Distinct) (hrange : w.metadata.InRange) :
    ∃ fresh, ofSource Ready.pass = .ok fresh ∧ ∀ s : Scripted, s.script = fresh.script →
      (∀ bytes, w.working.payload = .raw bytes → s.Leaves moment w (.raw bytes)) ∧
      (∀ doc, w.working.payload = .document doc → doc.Distinct → doc.InRange →
        (∀ text, doc ≠ .string text) →
          ∃ doc', doc.Reorders doc' ∧ s.Leaves moment w (.document doc')) ∧
      (∀ text, w.working.payload = .document (.string text) →
        s.Leaves moment w (.raw (Utf8.encode text))) ∧
      (w.working.payload = .binaryMap .empty → s.Leaves moment w (.document (.object []))) ∧
      (∀ fields, w.working.payload = .binaryMap fields → fields ≠ .empty →
        ∃ problem, (s.process moment w).outcome = .failed (.script problem)) := by
  refine ⟨_, ofSource_pass, fun s hscript ↦ ?_⟩
  have hprogram : s.script.program = truth := by rw [hscript]
  have hleaves (payload : Payload) (h : withPayload w.working (payloadDatum w.working.payload) =
      .ok { w.working with payload }) : s.Leaves moment w payload :=
    leaves_of_withPayload hprogram hobject hdistinct hrange h
  refine ⟨fun bytes hpayload ↦ hleaves _ ?_, fun doc hpayload hdoc hdocRange htext ↦ ?_,
    fun text hpayload ↦ hleaves _ ?_, fun hpayload ↦ hleaves _ ?_,
    fun fields hpayload hfields ↦ ?_⟩
  · rw [hpayload]
    exact withPayload_raw _ bytes
  · obtain ⟨doc', hreorders, hback⟩ :=
      exists_withPayload_document hpayload hdoc hdocRange htext
    exact ⟨doc', hreorders, hleaves _ (hpayload ▸ hback)⟩
  · rw [hpayload]
    rfl
  · rw [hpayload]
    rfl
  · obtain ⟨problem, hproblem⟩ := withPayload_binaryMap hfields w.working
    exact ⟨problem, fails_of_withPayload hprogram (hpayload ▸ hproblem)⟩

/-- A document in which neither names nor kinds of values are in order, as a piece of a family. -/
theorem pass_process_reading :
    let doc := Value.object [("b", .array [.null, .number (.ofByte 1), .string "x"]),
      ("a", .object [("z", .bool true), ("y", .object [])])]
    let m := (Message.ofDocument "t" doc).withChunk ⟨"f", 3, true⟩
    let w : Wrapper := { incoming := m, working := m, metadata := .object [("seq", .null)] }
    w.metadata.isObject = true ∧ w.metadata.Distinct ∧ w.metadata.InRange ∧
      doc.Distinct ∧ doc.InRange ∧ ∃ fresh, ofSource Ready.pass = .ok fresh ∧
        ∃ doc', doc.Reorders doc' ∧ fresh.Leaves ⟨5, 0⟩ w (.document doc') := by
  intro doc m w
  have hmetadata : w.metadata.Distinct ∧ w.metadata.InRange := by
    simp [w, Value.Distinct, Value.InRange, Members.keys]
  have hdoc : doc.Distinct ∧ doc.InRange := by
    simp [doc, Value.Distinct, Value.InRange, Members.keys, Number.ofByte]
  obtain ⟨fresh, hfresh, hprocess⟩ := pass_process ⟨5, 0⟩ w rfl hmetadata.1 hmetadata.2
  exact ⟨rfl, hmetadata.1, hmetadata.2, hdoc.1, hdoc.2, fresh, hfresh,
    (hprocess fresh rfl).2.1 doc rfl hdoc.1 hdoc.2 (by simp [doc])⟩

/-- The script refuses a binary map with a field, and turns a document that is a text into bytes. -/
theorem pass_changes :
    let fields := Dictionary.empty.insert "level" [0x00, 0xff]
    ∃ fresh, ofSource Ready.pass = .ok fresh ∧
      (∃ problem, (fresh.process ⟨0, 0⟩ (.ofMessage (.ofBinaryMap "t" fields))).outcome =
        .failed (.script problem)) ∧
      fresh.Leaves ⟨0, 0⟩ (.ofMessage (.ofDocument "t" (.string "on"))) (.raw [0x6f, 0x6e]) := by
  intro fields
  refine ⟨_, ofSource_pass, ?_, leaves_of_withPayload rfl rfl ?_ ?_ rfl⟩
  · obtain ⟨problem, hproblem⟩ := withPayload_binaryMap (show fields ≠ .empty by decide) _
    exact ⟨problem, fails_of_withPayload rfl hproblem⟩
  · simp [Wrapper.ofMessage, Members.keys]
  · simp [Wrapper.ofMessage, Value.InRange]

end Stage.Scripted

end Conduit
