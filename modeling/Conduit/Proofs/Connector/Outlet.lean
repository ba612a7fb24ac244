import Conduit.Connector.Outlet
import Conduit.Proofs.Connector.Lines
import Conduit.Proofs.Files
import Conduit.Proofs.Json.Lines
import Conduit.Proofs.Json.RoundTrip

/-!
# What a file connector writes, another reads

A sink adds a line to its file for each message that it is sent in a session, and nothing else, in
any number of sessions (`Outlet.Records`). The compact text of a document is one line that is not
blank, and the document is read back from it (`Connector.receive_document`). So a source on a file
that was fresh gives the documents that were sent, in order, and then waits until it is stopped
(`Outlet.source_of_sink`).
-/

namespace Conduit

/-! ## Writing -/

namespace Connector

variable {path : String} {isOpen : Bool} {s : Surroundings} {files files' : Files}

/-- The files, with the folder that a file is to stand in. -/
def room (files : Files) (path : String) : Except FileError Files :=
  match Files.parent path with
  | some up => if up = "" then .ok files else files.makeFolders up
  | none => .ok files

/-- There is a folder for the file. -/
def Roomy (files : Files) (path : String) : Prop :=
  ∀ up, Files.parent path = some up → up ≠ "" → files.Folded up

theorem Roomy.room_eq (h : Roomy files path) : room files path = .ok files := by
  unfold room
  split
  · rename_i up hup
    split
    · rfl
    · rename_i hempty
      exact (h up hup hempty).makeFolders_eq
  · rfl

theorem roomy_of_room (h : room files path = .ok files') : Roomy files' path := by
  intro up hup hempty
  rw [room, hup] at h
  dsimp only at h
  rw [if_neg hempty] at h
  exact Files.folded_of_makeFolders hempty h

theorem read_of_room {other : String} {content : Bytes} (h : room files path = .ok files')
    (hread : files'.read other = .ok content) : files.read other = .ok content := by
  unfold room at h
  split at h
  · split at h
    · exact Except.ok.inj h ▸ hread
    · exact Files.read_of_makeFolders h hread
  · exact Except.ok.inj h ▸ hread

theorem connect_sink_eq (path : String) (isOpen : Bool) (s : Surroundings) :
    (sink path isOpen).connect s =
      match room s.files path with
      | .error e => (.error (.transport e.message), .sink path isOpen, s)
      | .ok files =>
        match files.append path [] with
        | .ok files => (.ok (), .sink path true, { s with files })
        | .error e =>
          (.error (.transport (path ++ ": " ++ e.message)), .sink path isOpen, { s with files }) :=
  rfl

/-- A session of a sink opens where there is room for the file and it is none but a file. -/
theorem connect_sink (isOpen : Bool) (hroom : room s.files path = .ok files)
    (happend : files.append path [] = .ok files') :
    (sink path isOpen).connect s = (.ok (), .sink path true, { s with files := files' }) := by
  rw [connect_sink_eq, hroom]
  dsimp only
  rw [happend]

theorem exists_of_connect_sink (h : ((sink path isOpen).connect s).1 = .ok ()) :
    ∃ files files', room s.files path = .ok files ∧ files.append path [] = .ok files' := by
  rw [connect_sink_eq] at h
  split at h
  · cases h
  · rename_i files hroom
    split at h
    · rename_i files' happend
      exact ⟨files, files', hroom, happend⟩
    · cases h

/-- In a session a sink takes what its file takes. -/
theorem send?_sink {w : Wrapper}
    (happend : s.files.append path (w.working.asBytes ++ [0x0a]) = .ok files) :
    (sink path true).send? s w = some (.ok (), .sink path true, { s with files }) := by
  rw [send?]
  simp only [Bool.not_true, Bool.false_eq_true, if_false, happend]

end Connector

namespace Outlet

open Connector

variable {o : Outlet} {path : String} {isOpen : Bool} {s : Surroundings}

/-- The line that a sink writes. -/
def line (w : Wrapper) : Bytes := w.working.asBytes ++ [0x0a]

/-- A sink whose file has the lines of what it has taken, and can be added to. -/
structure Records (o : Outlet) (path : String) (isOpen : Bool) : Prop where
  connector : o.connector = .sink path isOpen
  read : o.around.files.read path = .ok (o.taken.flatMap line)
  roomy : Roomy o.around.files path

/-- Whether a session is open after an act. -/
def Act.leaves (isOpen : Bool) : Act → Bool
  | .connect => true
  | .disconnect => false
  | .send _ => isOpen

theorem sent_cons (isOpen : Bool) (a : Act) (acts : List Act) :
    sent isOpen (a :: acts) = sent isOpen [a] ++ sent (a.leaves isOpen) acts := by
  rcases a with _ | _ | w
  · rfl
  · rfl
  · cases isOpen <;> rfl

/-- Something is added to the file. -/
theorem Records.append (h : Records o path isOpen) (bytes : Bytes) :
    ∃ files, o.around.files.append path bytes = .ok files ∧
      files.read path = .ok (o.taken.flatMap line ++ bytes) ∧ Roomy files path := by
  obtain ⟨files, hfiles⟩ := Files.edit_of_read h.read (· ++ bytes)
  exact ⟨files, hfiles, Files.read_of_append h.read hfiles,
    fun up hup hempty ↦ (h.roomy up hup hempty).edit hfiles⟩

/-- Every act leaves the file with the lines of what has been taken, and in a session everything is
taken. -/
theorem Records.act (h : Records o path isOpen) (a : Act) :
    Records (o.act a) path (a.leaves isOpen) ∧ (o.act a).taken = o.taken ++ sent isOpen [a] := by
  obtain ⟨connector, around, taken⟩ := o
  obtain rfl : connector = .sink path isOpen := h.connector
  cases a with
  | connect =>
    obtain ⟨files, happend, hread, hroomy⟩ := h.append []
    rw [Outlet.act]
    dsimp only
    rw [connect_sink isOpen h.roomy.room_eq happend]
    refine ⟨⟨rfl, ?_, hroomy⟩, (List.append_nil taken).symm⟩
    rwa [List.append_nil] at hread
  | disconnect => exact ⟨⟨rfl, h.read, h.roomy⟩, (List.append_nil taken).symm⟩
  | send w =>
    cases isOpen with
    | false => exact ⟨h, (List.append_nil taken).symm⟩
    | true =>
      obtain ⟨files, happend, hread, hroomy⟩ := h.append (line w)
      rw [Outlet.act]
      dsimp only
      rw [send?_sink happend]
      refine ⟨⟨rfl, ?_, hroomy⟩, rfl⟩
      rw [hread, List.flatMap_append, List.flatMap_singleton]

/-- So it is in any number of sessions. -/
theorem Records.after (h : Records o path isOpen) (acts : List Act) :
    (∃ isOpen', Records (o.after acts) path isOpen') ∧
      (o.after acts).taken = o.taken ++ sent isOpen acts := by
  induction acts generalizing o isOpen with
  | nil => exact ⟨⟨isOpen, h⟩, (List.append_nil o.taken).symm⟩
  | cons a acts ih =>
    obtain ⟨hact, htaken⟩ := h.act a
    obtain ⟨hrecords, hrest⟩ := ih hact
    refine ⟨hrecords, ?_⟩
    rw [sent_cons, ← List.append_assoc, ← htaken]
    exact hrest

/-- The first session finds nothing in the file, or makes it. -/
theorem records_first (hfresh : ∀ content, s.files.read path = .ok content → content = [])
    (hopen : ((sink path false).connect s).1 = .ok ()) :
    Records (act ⟨.sink path false, s, []⟩ .connect) path true := by
  obtain ⟨files, files', hroom, happend⟩ := exists_of_connect_sink hopen
  rw [act]
  dsimp only
  rw [connect_sink false hroom happend]
  refine ⟨rfl, ?_, fun up hup hempty ↦ (roomy_of_room hroom up hup hempty).edit happend⟩
  rw [Files.read_of_edit happend, List.append_nil]
  cases hread : files.read path with
  | error e => rfl
  | ok content => rw [hfresh content (read_of_room hroom hread)]; rfl

/-- Before the first session nothing happens. -/
theorem after_of_notMem (path : String) (s : Surroundings) {acts : List Act}
    (h : .connect ∉ acts) :
    after ⟨.sink path false, s, []⟩ acts = ⟨.sink path false, s, []⟩ ∧ sent false acts = [] := by
  induction acts with
  | nil => exact ⟨rfl, rfl⟩
  | cons a acts ih =>
    obtain ⟨ha, hacts⟩ := not_or.1 (mt List.mem_cons.2 h)
    cases a with
    | connect => exact absurd rfl ha
    | disconnect => exact ih hacts
    | send w => exact ih hacts

/-- With the first session everything that is sent in sessions is written. -/
theorem records_after (hfresh : ∀ content, s.files.read path = .ok content → content = [])
    (hopen : ((sink path false).connect s).1 = .ok ()) {acts : List Act}
    (hsession : .connect ∈ acts) :
    (∃ isOpen, Records (after ⟨.sink path false, s, []⟩ acts) path isOpen) ∧
      (after ⟨.sink path false, s, []⟩ acts).taken = sent false acts := by
  induction acts with
  | nil => exact absurd hsession List.not_mem_nil
  | cons a acts ih =>
    cases a with
    | connect => exact (records_first hfresh hopen).after acts
    | disconnect => exact ih ((List.mem_cons.1 hsession).resolve_left nofun)
    | send w => exact ih ((List.mem_cons.1 hsession).resolve_left nofun)

end Outlet

/-! ## Reading -/

namespace Connector

variable {path topic : String} {s : Surroundings} {content rest : Bytes} {r : LineReader}

/-- A connector that has nothing to give, whatever happens around it, until it is stopped. -/
structure Spent (c : Connector) : Prop where
  receive : ∀ s, c.receive s = .blocked c
  stop : ∀ s s', (c.stop s).1.receive s' = refuse (c.stop s).1 s' .stopped

/-- A connector gives these messages and no others: each receive gives the next one and can do
nothing else, and after the last it waits until it is stopped. -/
inductive Gives (s : Surroundings) : Connector → List Message → Prop
  | spent {c c' : Connector} : c.receive s = .blocked c' → Spent c' → Gives s c []
  | next {c c' : Connector} {m : Message} {ms : List Message} :
      c.receive s = .ready [(.ok m, c', s)] → Gives s c' ms → Gives s c (m :: ms)

theorem encode_toText (v : Value) : Utf8.encode v.toText = v.toBytes := by
  rw [Utf8.encode, Value.toText, String.toList_ofList]
  rfl

/-- The line of a document is read as the document. -/
theorem lineMessage_toText {v : Value} (hdepth : v.nesting ≤ Json.maxDepth) (hwhole : v.AllWhole)
    (hdistinct : v.Distinct) : lineMessage topic true v.toText = .ok (.ofDocument topic v) := by
  rw [lineMessage, if_pos rfl, encode_toText, Json.parseText,
    Value.parse_toBytes hdepth hwhole hdistinct]
  rfl

/-- The next document is received. -/
theorem receive_document {v : Value} (hdepth : v.nesting ≤ Json.maxDepth) (hwhole : v.AllWhole)
    (hdistinct : v.Distinct) (hread : s.files.read path = .ok content)
    (hunread : r.unread content = v.toBytes ++ 0x0a :: rest) :
    ∃ r', receive (.source path topic true (some r) false) s =
        .ready [(.ok (.ofDocument topic v), .source path topic true (some r') false, s)] ∧
      r'.unread content = rest := by
  have hline : 0x0a ∉ v.toBytes := fun hb ↦ absurd (Value.le_of_mem_toBytes hwhole hb) (by decide)
  have hreturn : v.toBytes.getLast? ≠ some 0x0d := fun hb ↦
    absurd (Value.le_of_mem_toBytes hwhole (List.mem_of_getLast? hb)) (by decide)
  obtain ⟨r', hnext, hrest⟩ := LineReader.nextFilled_line content.length hline hreturn
    v.decode_toBytes (Value.not_isBlank_toText hwhole) hunread
  refine ⟨r', ?_, hrest⟩
  have hgives : nextLine path topic true (some r) s.files =
      (some (.ok (.ofDocument topic v)), some r') := by
    rw [nextLine]
    simp only [hread, hnext, lineMessage_toText hdepth hwhole hdistinct]
  rw [receive]
  simp only [hgives, Bool.false_eq_true, if_false]

/-- At the end of the file there is nothing to receive. -/
theorem receive_end (hread : s.files.read path = .ok content) (hunread : r.unread content = []) :
    receive (.source path topic true (some r) false) s =
      .blocked (.source path topic true none false) := by
  obtain ⟨r', hnext⟩ := LineReader.nextFilled_end content.length hunread
  have hgives : nextLine path topic true (some r) s.files = (none, none) := by
    rw [nextLine]
    simp only [hread, hnext]
  rw [receive]
  simp only [hgives, Bool.false_eq_true, if_false]

/-- Without a session there is nothing to receive. -/
theorem spent_source (path topic : String) : Spent (.source path topic true none false) where
  receive _ := rfl
  stop _ _ := rfl

/-- The lines of documents are given as the documents. -/
theorem gives_documents {documents : List Value}
    (hdocuments : ∀ v ∈ documents, v.nesting ≤ Json.maxDepth ∧ v.AllWhole ∧ v.Distinct)
    (hread : s.files.read path = .ok content)
    (hunread : r.unread content = documents.flatMap fun v ↦ v.toBytes ++ [0x0a]) :
    Gives s (.source path topic true (some r) false) (documents.map (.ofDocument topic)) := by
  induction documents generalizing r with
  | nil => exact .spent (receive_end hread hunread) (spent_source path topic)
  | cons v documents ih =>
    obtain ⟨⟨hdepth, hwhole, hdistinct⟩, hdocuments⟩ := List.forall_mem_cons.1 hdocuments
    rw [List.flatMap_cons, List.append_assoc] at hunread
    obtain ⟨r', hreceive, hrest⟩ := receive_document hdepth hwhole hdistinct hread hunread
    exact .next hreceive (ih hdocuments hrest)

end Connector

namespace Outlet

open Connector

/-- A sink takes all that it is sent in sessions, however many there are. If its file was fresh and
the messages are documents of whole numbers that nest no deeper than a reader goes, a source on the
file then gives these documents, in order and each once, and nothing more until it is stopped. -/
theorem source_of_sink {path : String} {s : Surroundings} {acts : List Act}
    {documents : List Value}
    (hfresh : ∀ content, s.files.read path = .ok content → content = [])
    (hopen : ((Connector.sink path false).connect s).1 = .ok ())
    (hthere : .connect ∈ acts ∨ s.files.read path = .ok [])
    (hsent : (sent false acts).map (·.working.payload) = documents.map .document)
    (hdocuments : ∀ v ∈ documents, v.nesting ≤ 127 ∧ v.AllWhole ∧ v.Distinct)
    (topic : String) (session : Option LineReader) (stopped : Bool) :
    let o := after ⟨.sink path false, s, []⟩ acts
    o.taken = sent false acts ∧
      ∃ source, (Connector.source path topic true session stopped).connect o.around =
          (.ok (), source, o.around) ∧
        Gives o.around source (documents.map (.ofDocument topic)) := by
  have hlines : (sent false acts).flatMap line =
      documents.flatMap fun v ↦ v.toBytes ++ [0x0a] := calc
    _ = ((sent false acts).map (·.working.payload)).flatMap fun p ↦
        Message.asBytes { topic, payload := p } ++ [0x0a] := by
      rw [List.flatMap_map]
      rfl
    _ = _ := by
      rw [hsent, List.flatMap_map]
      rfl
  obtain ⟨htaken, hread⟩ : (after ⟨.sink path false, s, []⟩ acts).taken = sent false acts ∧
      (after ⟨.sink path false, s, []⟩ acts).around.files.read path =
        .ok ((sent false acts).flatMap line) := by
    by_cases hsession : .connect ∈ acts
    · obtain ⟨⟨isOpen, hrecords⟩, htaken⟩ := records_after hfresh hopen hsession
      exact ⟨htaken, htaken ▸ hrecords.read⟩
    · obtain ⟨hafter, hnone⟩ := after_of_notMem path s hsession
      rw [hafter, hnone]
      exact ⟨rfl, hthere.resolve_left hsession⟩
  refine ⟨htaken, .source path topic true (some {}) false, ?_, ?_⟩
  · rw [connect, Files.read_eq_ok_iff.1 hread]
  · exact gives_documents hdocuments hread (by rw [LineReader.unread_start, hlines])

/-- A sink is sent documents in two sessions, and one before them. -/
def pages : List Act := [
  .send (.ofMessage (.ofDocument "t" .null)), .connect,
  .send (.ofMessage (.ofDocument "t" (.object [("a", .string "\n"), ("\x0d", .array [])]))),
  .disconnect, .connect, .send (.ofMessage (.ofDocument "u" (.number (.whole ⟨-2, by decide⟩))))]

theorem source_of_sink_pages :
    let s : Surroundings := {}
    let documents : List Value :=
      [.object [("a", .string "\n"), ("\x0d", .array [])], .number (.whole ⟨-2, by decide⟩)]
    let o := after ⟨.sink "logs/out.jsonl" false, s, []⟩ pages
    ((∀ content, s.files.read "logs/out.jsonl" = .ok content → content = []) ∧
      ((Connector.sink "logs/out.jsonl" false).connect s).1 = .ok () ∧
      (.connect ∈ pages ∨ s.files.read "logs/out.jsonl" = .ok []) ∧
      (sent false pages).map (·.working.payload) = documents.map .document ∧
      (∀ v ∈ documents, v.nesting ≤ 127 ∧ v.AllWhole ∧ v.Distinct)) ∧
    o.taken = sent false pages ∧
      ∃ source, (Connector.source "logs/out.jsonl" "lines" true none false).connect o.around =
          (.ok (), source, o.around) ∧
        Gives o.around source (documents.map (.ofDocument "lines")) := by
  intro s documents o
  have hread : s.files.read "logs/out.jsonl" = .error .notFound := by decide +kernel
  have hfresh : ∀ content, s.files.read "logs/out.jsonl" = .ok content → content = [] :=
    fun content h ↦ by cases hread.symm.trans h
  have hopen : ((Connector.sink "logs/out.jsonl" false).connect s).1 = .ok () := by
    decide +kernel
  have hthere : .connect ∈ pages ∨ s.files.read "logs/out.jsonl" = .ok [] := .inl (by decide)
  have hsent : (sent false pages).map (·.working.payload) = documents.map .document := rfl
  have hdocuments : ∀ v ∈ documents, v.nesting ≤ 127 ∧ v.AllWhole ∧ v.Distinct := by
    refine List.forall_mem_cons.2 ⟨⟨by decide, ?_, ?_⟩,
      List.forall_mem_singleton.2 ⟨by decide, ?_, ?_⟩⟩
    · simp [Value.AllWhole]
    · simp [Value.Distinct, Members.keys]
    · simp [Value.AllWhole]
    · simp [Value.Distinct]
  exact ⟨⟨hfresh, hopen, hthere, hsent, hdocuments⟩,
    source_of_sink hfresh hopen hthere hsent hdocuments "lines" none false⟩

end Outlet

end Conduit
