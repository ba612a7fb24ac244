import Conduit.Stage.Build
import Conduit.Proofs.Basic

/-!
# Fields as they describe themselves

Stages are read from shapes, but they show themselves as fields. The two agree: the parameters of a
stage that is built have fields only, among them all that must be there, and a default that a field
shows is what its absence means (`build_fields`).

What is read of parameters is followed along the reading: each of its parts may insist on something
(`Insists`), and each may overlook a certain member (`Overlooks`).
-/

namespace Conduit.Stage

open Json Config

variable {α β ε δ : Type}

/-! ## Defaults as they are shown -/

def FieldKind.admits : FieldKind → Value → Bool
  | .string, .string _ | .integer, .number (.whole _) | .number, .number _ | .boolean, .bool _
  | .object, .object _ | .array, .array _ | .any, _ => true
  | _, _ => false

/-- What a text means as a value of the kind: a string stands for itself, anything else is written
as JSON. -/
def FieldKind.read? (kind : FieldKind) (text : String) : Option Value :=
  if kind = .string then some (.string text)
  else (parse (Utf8.encode text)).toOption.filter kind.admits

/-- A member in any place of an object without it makes no difference. -/
def Overlooks (name : String) (v : Value) (build : Members → α) : Prop :=
  ∀ before after, name ∉ Members.keys (before ++ after) →
    build (before ++ (name, v) :: after) = build (before ++ after)

/-- A field with a default may be missing, and to write the default out makes no difference. -/
def Field.HasDefault (f : Field) (build : Members → α) : Prop :=
  ∀ text, f.default = some text →
    f.required = false ∧ ∃ v, f.kind.read? text = some v ∧ Overlooks f.name v build

/-- Reading succeeds on members with the property only. -/
def Insists (P : Members → Prop) (build : Members → Except ε α) : Prop :=
  ∀ ms a, build ms = .ok a → P ms

/-! ## What reading overlooks -/

namespace Overlooks

variable {name : String} {v : Value}

theorem const (a : α) : Overlooks name v fun _ ↦ a := fun _ _ _ ↦ rfl

theorem comp {build : Members → α} (h : Overlooks name v build) (f : α → β) :
    Overlooks name v fun ms ↦ f (build ms) :=
  fun before after hname ↦ congrArg f (h before after hname)

theorem bind {x : Members → Except ε α} {f : Members → α → Except ε β} (hx : Overlooks name v x)
    (hf : ∀ a, Overlooks name v fun ms ↦ f ms a) : Overlooks name v fun ms ↦ x ms >>= f ms :=
  fun before after hname ↦ by
    have hrest : f (before ++ (name, v) :: after) = f (before ++ after) :=
      funext fun a ↦ hf a before after hname
    change (x _ >>= f _) = (x _ >>= f _)
    rw [hx before after hname, hrest]

theorem get?_of_ne {other : String} (hne : other ≠ name) :
    Overlooks name v fun ms ↦ ms.get? other := fun before after _ ↦ by
  simp only [Members.get?, List.lookup_append, lookup_cons_eq_ite, if_neg hne]

theorem required {other : String} (hne : other ≠ name) (shape : Shape α) :
    Overlooks name v fun ms ↦ Json.required ms other shape := fun before after hname ↦ by
  have hget := get?_of_ne (v := v) hne before after hname
  simp only [Json.required, hget]

theorem withDefault {other : String} (hne : other ≠ name) (shape : Shape α) (default : α) :
    Overlooks name v fun ms ↦ Json.withDefault ms other shape default := fun before after hname ↦ by
  have hget := get?_of_ne (v := v) hne before after hname
  simp only [Json.withDefault, hget]

/-- A field is overlooked if it says what its absence means. -/
theorem withDefault_self {shape : Shape α} {default : α} (h : shape v = .ok default) :
    Overlooks name v fun ms ↦ Json.withDefault ms name shape default := fun before after hname ↦ by
  have hnone : Members.get? (before ++ after) name = none := lookup_eq_none_of_notMem hname
  have hsome : Members.get? (before ++ (name, v) :: after) name = some v := by
    rw [Members.keys, List.map_append, List.mem_append, not_or] at hname
    rw [Members.get?, List.lookup_append, lookup_eq_none_of_notMem hname.1, lookup_cons_eq_ite,
      if_pos rfl, Option.none_or]
  simp only [Json.withDefault, hnone, hsome, h]

theorem checkFields {shapes : List (String × Shape Unit)} {check : Shape Unit}
    (hfield : shapes.lookup name = some check) (hcheck : check v = .ok ()) :
    Overlooks name v (Json.checkFields shapes) := fun before after hname ↦ by
  clear hname
  induction before with
  | nil =>
    rw [List.nil_append, Json.checkFields, hfield]
    change (check v >>= _) = _
    rw [hcheck]
    rfl
  | cons m before ih =>
    rw [List.cons_append, List.cons_append, Json.checkFields, Json.checkFields]
    split
    · rfl
    · rename_i other hother
      change (other m.2 >>= fun _ ↦ Json.checkFields shapes _) = _
      rw [ih]

theorem readParams {shapes : List (String × Shape Unit)} {check : Shape Unit}
    (hfield : shapes.lookup name = some check) (hcheck : check v = .ok ())
    {build : Members → Except Mismatch α} (hbuild : Overlooks name v build) :
    Overlooks name v fun ms ↦ Stage.readParams shapes ms build :=
  (bind (checkFields hfield hcheck) fun _ ↦ hbuild).comp _

end Overlooks

/-! ## What reading insists on -/

namespace Insists

variable {P : Members → Prop}

theorem left {x : Members → Except ε α} (h : Insists P x) (f : Members → α → Except ε β) :
    Insists P fun ms ↦ x ms >>= f ms := fun ms _ hb ↦
  let ⟨a, ha, _⟩ := bind_eq_ok hb
  h ms a ha

theorem right {x : Members → Except ε α} {f : Members → α → Except ε β}
    (h : ∀ a, Insists P fun ms ↦ f ms a) : Insists P fun ms ↦ x ms >>= f ms := fun ms b hb ↦
  let ⟨a, _, hb⟩ := bind_eq_ok hb
  h a ms b hb

theorem map {x : Members → Except ε α} (h : Insists P x) (f : α → β) :
    Insists P fun ms ↦ (x ms).map f := fun ms _ hb ↦
  let ⟨a, ha, _⟩ := map_eq_ok hb
  h ms a ha

theorem mapError {x : Members → Except ε α} (h : Insists P x) (f : ε → δ) :
    Insists P fun ms ↦ (x ms).mapError f := fun ms a ha ↦ h ms a (mapError_eq_ok ha)

theorem required (name : String) (shape : Shape α) :
    Insists (name ∈ ·.keys) fun ms ↦ Json.required ms name shape := fun ms a h ↦ by
  dsimp only [Json.required] at h
  split at h
  · rename_i v hv
    exact List.mem_map_of_mem (mem_of_lookup hv)
  · cases h

theorem checkFields (shapes : List (String × Shape Unit)) :
    Insists (fun ms ↦ ∀ key ∈ ms.keys, key ∈ shapes.map Prod.fst) (Json.checkFields shapes) := by
  intro ms u h
  induction ms with
  | nil => exact fun key hkey ↦ absurd hkey List.not_mem_nil
  | cons m ms ih =>
    rw [Json.checkFields] at h
    split at h
    · cases h
    · rename_i check hfield
      obtain ⟨_, _, hrest⟩ := bind_eq_ok h
      exact List.forall_mem_cons.2 ⟨lookup_isSome_iff_mem.1 (hfield ▸ rfl), ih hrest⟩

theorem readParams_keys (shapes : List (String × Shape Unit))
    (build : Members → Except Mismatch α) :
    Insists (fun ms ↦ ∀ key ∈ ms.keys, key ∈ shapes.map Prod.fst)
      fun ms ↦ Stage.readParams shapes ms build :=
  ((checkFields shapes).left _).mapError _

theorem readParams {build : Members → Except Mismatch α} (h : Insists P build)
    (shapes : List (String × Shape Unit)) :
    Insists P fun ms ↦ Stage.readParams shapes ms build :=
  (right fun _ ↦ h).mapError _

end Insists

/-! ## Fields of one kind of stage -/

namespace Field

/-- What a field promises about reading the parameters. -/
structure Holds (f : Field) (build : Members → Except ε α) : Prop where
  present : f.required → Insists (f.name ∈ ·.keys) build
  default : f.HasDefault build

section

variable {build : Members → Except ε α} {name : String} {kind : FieldKind} {allowed : List String}

theorem hasDefault_require : (Field.require name kind allowed).HasDefault build :=
  fun _ htext ↦ nomatch htext

theorem hasDefault_mayHave : (Field.mayHave name kind none allowed).HasDefault build :=
  fun _ htext ↦ nomatch htext

theorem hasDefault_mayHave_some {text : String} {v : Value} (hread : kind.read? text = some v)
    (h : Overlooks name v build) : (Field.mayHave name kind (some text) allowed).HasDefault build :=
  fun _ htext ↦ Option.some.inj htext ▸ ⟨rfl, v, hread, h⟩

theorem holds_require (h : Insists (name ∈ ·.keys) build) :
    (Field.require name kind allowed).Holds build :=
  ⟨fun _ ↦ h, hasDefault_require⟩

theorem holds_mayHave : (Field.mayHave name kind none allowed).Holds build :=
  ⟨(nomatch ·), hasDefault_mayHave⟩

theorem holds_mayHave_some {text : String} {v : Value} (hread : kind.read? text = some v)
    (h : Overlooks name v build) : (Field.mayHave name kind (some text) allowed).Holds build :=
  ⟨(nomatch ·), hasDefault_mayHave_some hread h⟩

theorem HasDefault.comp {f : Field} {build : Members → α} (h : f.HasDefault build) (g : α → β) :
    f.HasDefault fun ms ↦ g (build ms) := fun text htext ↦
  let ⟨hoptional, v, hread, hv⟩ := h text htext
  ⟨hoptional, v, hread, hv.comp g⟩

theorem Holds.map {f : Field} (h : f.Holds build) (g : α → β) :
    f.Holds fun ms ↦ (build ms).map g :=
  ⟨fun hrequired ↦ (h.present hrequired).map g, h.default.comp _⟩

theorem Holds.mapError {f : Field} (h : f.Holds build) (g : ε → δ) :
    f.Holds fun ms ↦ (build ms).mapError g :=
  ⟨fun hrequired ↦ (h.present hrequired).mapError g, h.default.comp _⟩

end

end Field

/-- Fields describe how parameters are read. -/
structure Describes (fields : List Field) (build : Members → Except ε α) : Prop where
  known : Insists (fun ms ↦ ∀ key ∈ ms.keys, key ∈ fields.map Field.name) build
  holds : ∀ f ∈ fields, f.Holds build

namespace Describes

section

variable {fields : List Field} {build : Members → Except ε α}

theorem map (h : Describes fields build) (g : α → β) :
    Describes fields fun ms ↦ (build ms).map g :=
  ⟨h.known.map g, fun f hf ↦ (h.holds f hf).map g⟩

theorem mapError (h : Describes fields build) (g : ε → δ) :
    Describes fields fun ms ↦ (build ms).mapError g :=
  ⟨h.known.mapError g, fun f hf ↦ (h.holds f hf).mapError g⟩

end

open Overlooks Stage.Field List

theorem comparator : Describes Comparator.fields Comparator.ofParams where
  known := (Insists.readParams_keys Comparator.shapes _).left _
  holds := by
    refine forall_mem_cons.2 ⟨holds_require ?key, forall_mem_cons.2
      ⟨holds_mayHave_some rfl ?operator, forall_mem_cons.2 ⟨holds_require ?value,
      forall_mem_nil _⟩⟩⟩
    case key => exact (((Insists.required "key" _).left _).readParams _).left _
    case operator =>
      exact .bind (.readParams rfl rfl (.bind (.required (by decide) _) fun _ ↦
        .bind (withDefault_self rfl) fun _ ↦ .bind (.required (by decide) _) fun _ ↦ .const _))
        fun _ ↦ .const _
    case value =>
      exact ((Insists.right fun _ ↦ .right fun _ ↦
        (Insists.required "value" _).left _).readParams _).left _

theorem search : Describes Search.fields Search.ofParams where
  known := Insists.readParams_keys Search.shapes _
  holds := by
    refine forall_mem_cons.2 ⟨holds_mayHave_some rfl ?mode, forall_mem_cons.2
      ⟨holds_require ?value, forall_mem_nil _⟩⟩
    case mode =>
      exact .readParams rfl rfl (.bind (withDefault_self rfl) fun _ ↦
        .bind (.required (by decide) _) fun _ ↦ .const _)
    case value => exact (Insists.right fun _ ↦ (Insists.required "value" _).left _).readParams _

theorem eraser : Describes Eraser.fields Eraser.ofParams where
  known := Insists.readParams_keys Eraser.shapes _
  holds := forall_mem_cons.2
    ⟨holds_require (((Insists.required "keys" _).left _).readParams _), forall_mem_nil _⟩

theorem builder : Describes Builder.fields Builder.ofParams where
  known := (Insists.readParams_keys Builder.shapes _).left _
  holds := by
    refine forall_mem_cons.2 ⟨holds_require ?template, forall_mem_cons.2
      ⟨holds_mayHave_some rfl ?merge, forall_mem_cons.2 ⟨holds_mayHave, forall_mem_nil _⟩⟩⟩
    case template => exact (((Insists.required "template" _).left _).readParams _).left _
    case merge =>
      exact .bind (.readParams rfl rfl (.bind (.required (by decide) _) fun _ ↦
        .bind (withDefault_self rfl) fun _ ↦ .bind (.withDefault (by decide) _ _) fun _ ↦
        .const _)) fun _ ↦ .const _

theorem limiter : Describes Limiter.fields Limiter.ofParams where
  known := Insists.readParams_keys Limiter.shapes _
  holds := forall_mem_cons.2
    ⟨holds_require (((Insists.required "size" _).left _).readParams _), forall_mem_nil _⟩

theorem throttle : Describes Throttle.fields Throttle.ofParams where
  known := (Insists.readParams_keys Throttle.shapes _).left _
  holds := by
    refine forall_mem_cons.2 ⟨holds_require ?rate, forall_mem_cons.2
      ⟨holds_mayHave_some (v := .number (.whole ⟨1000, by decide⟩)) rfl ?period,
        forall_mem_cons.2 ⟨holds_mayHave_some rfl ?mode, forall_mem_nil _⟩⟩⟩
    case rate => exact (((Insists.required "rate" _).left _).readParams _).left _
    case period =>
      exact .bind (.readParams rfl rfl (.bind (.required (by decide) _) fun _ ↦
        .bind (withDefault_self rfl) fun _ ↦ .bind (.withDefault (by decide) _ _) fun _ ↦
        .const _)) fun _ ↦ .const _
    case mode =>
      exact .bind (.readParams rfl rfl (.bind (.required (by decide) _) fun _ ↦
        .bind (.withDefault (by decide) _ _) fun _ ↦ .bind (withDefault_self rfl) fun _ ↦
        .const _)) fun _ ↦ .const _

theorem splitter : Describes Splitter.fields Splitter.ofParams where
  known := (Insists.readParams_keys Splitter.shapes _).left _
  holds := by
    refine forall_mem_cons.2 ⟨holds_require ?size, forall_mem_cons.2
      ⟨holds_mayHave_some rfl ?mode, forall_mem_cons.2 ⟨holds_mayHave, forall_mem_nil _⟩⟩⟩
    case size => exact (((Insists.required "chunk_size" _).left _).readParams _).left _
    case mode =>
      exact .bind (.readParams rfl rfl (.bind (.required (by decide) _) fun _ ↦
        .bind (withDefault_self rfl) fun _ ↦ .bind (.withDefault (by decide) _ _) fun _ ↦
        .const _)) fun _ ↦ .const _

theorem pass : Describes Pass.fields Pass.ofParams where
  known := Insists.readParams_keys Pass.shapes _
  holds := forall_mem_nil _

theorem script : Describes Scripted.fields Scripted.ofParams where
  known := (Insists.readParams_keys Scripted.shapes _).left _
  holds := forall_mem_cons.2
    ⟨holds_require (((Insists.required "script" _).readParams _).left _), forall_mem_nil _⟩

theorem image : Describes Image.fields Image.ofParams where
  known := (Insists.readParams_keys Image.shapes _).left _
  holds := forall_mem_cons.2
    ⟨holds_require ((((Insists.required "operation" _).left _).readParams _).left _),
      forall_mem_cons.2 ⟨holds_mayHave, forall_mem_cons.2 ⟨holds_mayHave,
        forall_mem_cons.2 ⟨holds_mayHave, forall_mem_nil _⟩⟩⟩⟩

end Describes

theorem Builtin.describes_ofParams : (kind : Kind) → Describes kind.fields (ofParams kind)
  | .comparator => Describes.comparator.map Builtin.comparator
  | .search => Describes.search.map Builtin.search
  | .eraser => Describes.eraser.map Builtin.eraser
  | .builder => Describes.builder.map Builtin.builder
  | .limiter => Describes.limiter.map Builtin.limiter
  | .throttle => Describes.throttle.map Builtin.throttle
  | .splitter => Describes.splitter.map Builtin.splitter
  | .pass => Describes.pass.map Builtin.pass
  | .script => Describes.script.map Builtin.script
  | .image => Describes.image.map Builtin.image

/-! ## The fields of every stage -/

namespace Routing

/-- What was seen before matters for the names to come only. -/
theorem checkOnce_congr {seen seen' : List String} {ms : Members}
    (h : ∀ key ∈ ms.keys, key ∈ seen ↔ key ∈ seen') : checkOnce seen ms = checkOnce seen' ms := by
  induction ms generalizing seen seen' with
  | nil => rfl
  | cons m ms ih =>
    obtain ⟨hm, hrest⟩ := List.forall_mem_cons.1 h
    rw [checkOnce, checkOnce, ih hrest]
    split
    · rfl
    · have hseen : seen.contains m.1 = seen'.contains m.1 := by
        rw [Bool.eq_iff_iff, List.contains_iff_mem, List.contains_iff_mem, hm]
      have htail : checkOnce (m.1 :: seen) ms = checkOnce (m.1 :: seen') ms :=
        ih fun key hkey ↦ by rw [List.mem_cons, List.mem_cons, hrest key hkey]
      rw [hseen, htail]

section

variable {name : String} {v : Value} {check : Shape Unit}
  (hfield : shapes.lookup name = some check) (hcheck : check v = .ok ())

include hfield in
theorem overlooks_params :
    Overlooks name v fun ms ↦ ms.filter fun m ↦ !isField m.1 := fun before after _ ↦ by
  have hname : isField name = true := by rw [isField, hfield]; rfl
  simp [hname]

include hfield hcheck in
theorem overlooks_checkOnce {seen : List String} (hseen : name ∉ seen) :
    Overlooks name v (checkOnce seen) := fun before after hname ↦ by
  induction before generalizing seen with
  | nil =>
    -- From here on the name counts as seen, but it does not come again.
    have hafter : checkOnce (name :: seen) after = checkOnce seen after :=
      checkOnce_congr fun key hkey ↦ by
        rw [List.mem_cons, or_iff_right]
        rintro rfl
        exact hname hkey
    rw [List.nil_append, checkOnce, hfield]
    dsimp only
    rw [if_neg (by simpa using hseen), hcheck]
    exact hafter
  | cons m before ih =>
    obtain ⟨hm, hrest⟩ := not_or.1 (mt List.mem_cons.2 hname)
    rw [List.cons_append, List.cons_append, checkOnce, checkOnce, ih hseen hrest,
      ih (mt List.mem_cons.1 (not_or.2 ⟨hm, hseen⟩)) hrest]

end

theorem overlooks_expect : Overlooks "expect" (.string "any") ofMembers :=
  .bind (overlooks_checkOnce rfl rfl List.not_mem_nil) fun _ ↦
    .bind (.withDefault (by decide) _ _) fun _ ↦ .bind (.withDefault_self rfl) fun _ ↦
    .bind (.withDefault (by decide) _ _) fun _ ↦ .bind (.withDefault (by decide) _ _) fun _ ↦
    .bind (.withDefault (by decide) _ _) fun _ ↦ .bind (.withDefault (by decide) _ _) fun _ ↦
    .bind (.withDefault (by decide) _ _) fun _ ↦ .bind (.withDefault (by decide) _ _) fun _ ↦
    .const _

theorem overlooks_not : Overlooks "not" (.bool false) ofMembers :=
  .bind (overlooks_checkOnce rfl rfl List.not_mem_nil) fun _ ↦
    .bind (.withDefault (by decide) _ _) fun _ ↦ .bind (.withDefault (by decide) _ _) fun _ ↦
    .bind (.withDefault_self rfl) fun _ ↦ .bind (.withDefault (by decide) _ _) fun _ ↦
    .bind (.withDefault (by decide) _ _) fun _ ↦ .bind (.withDefault (by decide) _ _) fun _ ↦
    .bind (.withDefault (by decide) _ _) fun _ ↦ .bind (.withDefault (by decide) _ _) fun _ ↦
    .const _

theorem overlooks_entry {name : String} {v : Value} (type : String) {check : Shape Unit}
    (hfield : shapes.lookup name = some check) (h : Overlooks name v ofMembers) :
    Overlooks name v (StageEntry.ofMembers type) :=
  .bind h fun routing ↦ (overlooks_params hfield).comp fun params ↦
    (.ok { type, routing, params := .ofList params } : Except Mismatch StageEntry)

open Stage.Field List in
theorem hasDefault_fields (type : String) :
    ∀ f ∈ fields, f.HasDefault (StageEntry.ofMembers type) :=
  forall_mem_cons.2 ⟨hasDefault_require, forall_mem_cons.2 ⟨hasDefault_mayHave,
    forall_mem_cons.2 ⟨hasDefault_mayHave_some rfl (overlooks_entry type rfl overlooks_expect),
    forall_mem_cons.2 ⟨hasDefault_mayHave_some rfl (overlooks_entry type rfl overlooks_not),
    forall_mem_cons.2 ⟨hasDefault_mayHave, forall_mem_cons.2 ⟨hasDefault_mayHave,
    forall_mem_cons.2 ⟨hasDefault_mayHave, forall_mem_cons.2 ⟨hasDefault_mayHave,
    forall_mem_cons.2 ⟨hasDefault_mayHave, forall_mem_nil _⟩⟩⟩⟩⟩⟩⟩⟩⟩

end Routing

/-! ## Building -/

theorem Kind.ofName?_name (kind : Kind) : ofName? kind.name = some kind := by
  cases kind <;> rfl

/-- Of an entry that names its kind, building reads the parameters and keeps the routing. -/
theorem build_eq (kind : Kind) (index : Nat) (routing : Routing) (params : Members) :
    build index { type := kind.name, routing, params } =
      ((Builtin.ofParams kind params).map (Slot.mk routing)).mapError fun problem ↦
        .invalidStage index (kind.name ++ ": " ++ problem.message) := by
  simp only [build, Kind.ofName?_name]
  cases Builtin.ofParams kind params <;> rfl

theorem describes_build (kind : Kind) (index : Nat) (routing : Routing) :
    Describes kind.fields fun params ↦ build index { type := kind.name, routing, params } := by
  rw [funext (build_eq kind index routing)]
  exact ((Builtin.describes_ofParams kind).map _).mapError _

/-- The fields that a kind of stage shows agree with how its stages are built. If a stage can be
built, every parameter is one of the fields and every field that must be there is. A default that a
field shows, read according to the kind of the field, changes nothing where it is written out:
neither whether the stage can be built, nor the error, nor the stage. The same is true of the
defaults of the fields that every stage has. -/
theorem build_fields (kind : Kind) (index : Nat) (routing : Routing) :
    (∀ params slot, build index { type := kind.name, routing, params } = .ok slot →
      (∀ key ∈ params.keys, key ∈ kind.fields.map Field.name) ∧
        ∀ f ∈ kind.fields, f.required → f.name ∈ params.keys) ∧
    (∀ f ∈ kind.fields,
      f.HasDefault fun params ↦ build index { type := kind.name, routing, params }) ∧
    ∀ type, ∀ f ∈ Routing.fields, f.HasDefault (StageEntry.ofMembers type) := by
  obtain ⟨hknown, hholds⟩ := describes_build kind index routing
  refine ⟨fun params slot h ↦ ⟨hknown params slot h, fun f hf hrequired ↦ ?_⟩,
    fun f hf ↦ (hholds f hf).default, Routing.hasDefault_fields⟩
  exact (hholds f hf).present hrequired params slot h

/-- A throttle with a rate only is the same with the period that its fields show, and its entry is
the same with the word that it is not turned around. -/
theorem build_fields_throttle :
    (∃ slot, build 2 { type := "throttle", params := [("rate", .number (.ofByte 5))] } = .ok slot) ∧
    "rate" ∈ Kind.throttle.fields.map Field.name ∧
    build 2 { type := "throttle", params := [("period_ms", .number (.ofNat64 1000)),
        ("rate", .number (.ofByte 5))] } =
      build 2 { type := "throttle", params := [("rate", .number (.ofByte 5))] } ∧
    StageEntry.ofMembers "throttle" [("rate", .number (.ofByte 5)), ("not", .bool false)] =
      StageEntry.ofMembers "throttle" [("rate", .number (.ofByte 5))] := by
  obtain ⟨hkeys, hparams, hentries⟩ := build_fields .throttle 2 {}
  have hbuilt : ∃ slot, build 2 { type := "throttle", params := [("rate", .number (.ofByte 5))] } =
      .ok slot := ⟨_, rfl⟩
  refine ⟨hbuilt, ?rate, ?period, ?negate⟩
  case rate =>
    obtain ⟨slot, hslot⟩ := hbuilt
    exact (hkeys _ slot hslot).1 "rate" List.mem_cons_self
  case period =>
    obtain ⟨-, v, hv, hsame⟩ :=
      hparams (.mayHave "period_ms" .integer (some "1000")) (by decide) "1000" rfl
    have hread : FieldKind.integer.read? "1000" = some (.number (.ofNat64 1000)) := by
      decide +kernel
    obtain rfl := Option.some.inj (hv.symm.trans hread)
    exact hsame [] [("rate", .number (.ofByte 5))] (by decide)
  case negate =>
    obtain ⟨-, v, hv, hsame⟩ :=
      hentries "throttle" (.mayHave "not" .boolean (some "false")) (by decide) "false" rfl
    obtain rfl := Option.some.inj hv
    exact hsame [("rate", .number (.ofByte 5))] [] (by decide)

end Conduit.Stage
