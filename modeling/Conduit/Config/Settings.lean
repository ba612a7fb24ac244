import Conduit.Config.Entry
import Conduit.Files
import Conduit.Toml.Reader
import Conduit.Toml.Writer

/-!
# Settings

The settings of the application: the sizes of the queues that every pipeline has, logging, and
where the pipeline definitions are. Every setting has a default, so all of them may be left out.
Settings are kept in a TOML file; they can also be read from JSON.
-/

namespace Conduit.Config

open Json

/-- The sizes of queues, zero for no bound, and the bound on stage visits. -/
structure Sizing where
  inbound : Nat := 1024
  outbound : Nat := 1024
  events : Nat := 256
  control : Nat := 16
  fanout : Nat := 1024
  maxHops : Nat := 1024
deriving DecidableEq, Repr

structure Logging where
  level : String := "info,msgbridge_rs=debug"
  directory : Option String := none
  json : Bool := false
deriving DecidableEq, Repr

structure Settings where
  sizing : Sizing := {}
  logging : Logging := {}
  pipelinesFile : Option String := none
  /-- The folder that the settings come from; it is not part of them. -/
  baseDir : Option String := none
deriving DecidableEq, Repr

/-! ## The fields -/

structure SizeField where
  name : String
  get : Sizing → Nat
  set : Sizing → Nat → Sizing

def Sizing.fields : List SizeField :=
  [⟨"inbound_capacity", (·.inbound), fun s n => { s with inbound := n }⟩,
    ⟨"outbound_capacity", (·.outbound), fun s n => { s with outbound := n }⟩,
    ⟨"event_capacity", (·.events), fun s n => { s with events := n }⟩,
    ⟨"control_capacity", (·.control), fun s n => { s with control := n }⟩,
    ⟨"fanout_capacity", (·.fanout), fun s n => { s with fanout := n }⟩,
    ⟨"max_hops", (·.maxHops), fun s n => { s with maxHops := n }⟩]

/-! ## As JSON -/

namespace Sizing

def toValue (s : Sizing) : Value :=
  .object (fields.map fun f => (f.name, .ofNat64 (UInt64.ofNat (f.get s))))

def readMember (_ : Nat) (state : List String × Sizing) (key : String) (s : Bytes) :
    Except Fault ((List String × Sizing) × Bytes) := do
  match fields.find? (·.name = key) with
  | none => return (state, ← skipMember s)
  | some f =>
    let old := if state.1.contains key then some 0 else none
    let (n, rest) ← readField key old (readScalar .size) s
    return ((key :: state.1, f.set state.2 (n.getD 0)), rest)

/-- Reads sizes by position. -/
def readItems (_ : Nat) : Reader Sizing := fun s => do
  let step := fun (state : Bool × Sizing × Bytes) (f : SizeField) => do
    let (first, sizing, s) := state
    let (n, s) ← readItemOr first (readScalar .size) (.ok (f.get sizing)) s
    pure (false, f.set sizing n, s)
  let (_, sizing, s) ← fields.foldlM step (true, {}, s)
  return (sizing, s)

def read (depth : Nat) : Reader Sizing :=
  readRecord "struct RuntimeSettings" depth ([], {}) readMember (fun state => .ok state.2) readItems

end Sizing

namespace Logging

def toValue (l : Logging) : Value :=
  .object ([("level", .string l.level)] ++
    (l.directory.map fun d => ("directory", Value.string d)).toList ++ [("json", .bool l.json)])

structure Parts where
  level : Option String := none
  directory : Option (Option String) := none
  json : Option Bool := none

def Parts.whole (p : Parts) : Logging where
  level := p.level.getD ({} : Logging).level
  directory := p.directory.getD none
  json := p.json.getD false

def directoryShape : Shape (Option String) := .optional .path

def readMember (_ : Nat) (p : Parts) (key : String) (s : Bytes) : Except Fault (Parts × Bytes) := do
  match key with
  | "level" =>
    let (level, rest) ← readField key p.level (readScalar .string) s
    return ({ p with level }, rest)
  | "directory" =>
    let (directory, rest) ← readField key p.directory (readScalar directoryShape) s
    return ({ p with directory }, rest)
  | "json" =>
    let (json, rest) ← readField key p.json (readScalar .flag) s
    return ({ p with json }, rest)
  | _ => return (p, ← skipMember s)

def readItems (_ : Nat) : Reader Logging := fun s => do
  let (level, s) ← readItemOr true (readScalar .string) (.ok ({} : Logging).level) s
  let (directory, s) ← readItemOr false (readScalar directoryShape) (.ok none) s
  let (json, s) ← readItemOr false (readScalar .flag) (.ok false) s
  return ({ level, directory, json }, s)

def read (depth : Nat) : Reader Logging :=
  readRecord "struct LoggingSettings" depth ({} : Parts) readMember (fun p => .ok p.whole) readItems

end Logging

namespace Settings

def toValue (s : Settings) : Value :=
  .object ([("runtime", s.sizing.toValue), ("logging", s.logging.toValue)] ++
    (s.pipelinesFile.map fun p => ("pipelines_file", Value.string p)).toList)

structure Parts where
  sizing : Option Sizing := none
  logging : Option Logging := none
  pipelinesFile : Option (Option String) := none

def Parts.whole (p : Parts) : Settings where
  sizing := p.sizing.getD {}
  logging := p.logging.getD {}
  pipelinesFile := p.pipelinesFile.getD none

def readMember (depth : Nat) (p : Parts) (key : String) (s : Bytes) :
    Except Fault (Parts × Bytes) := do
  match key with
  | "runtime" =>
    let (sizing, rest) ← readField key p.sizing (Sizing.read depth) s
    return ({ p with sizing }, rest)
  | "logging" =>
    let (logging, rest) ← readField key p.logging (Logging.read depth) s
    return ({ p with logging }, rest)
  | "pipelines_file" =>
    let (pipelinesFile, rest) ←
      readField key p.pipelinesFile (readScalar Logging.directoryShape) s
    return ({ p with pipelinesFile }, rest)
  | _ => return (p, ← skipMember s)

def readItems (depth : Nat) : Reader Settings := fun s => do
  let (sizing, s) ← readItemOr true (Sizing.read depth) (.ok {}) s
  let (logging, s) ← readItemOr false (Logging.read depth) (.ok {}) s
  let (pipelinesFile, s) ← readItemOr false (readScalar Logging.directoryShape) (.ok none) s
  return ({ sizing, logging, pipelinesFile }, s)

def read (depth : Nat) : Reader Settings :=
  readRecord "struct BridgeConfig" depth ({} : Parts) readMember (fun p => .ok p.whole) readItems

end Settings

/-! ## As TOML

A record may be a table or, by position, an array. A date in the place of a record has none of its
fields. -/

def tomlText : Toml → Option String
  | .string s => some s
  | _ => none

def tomlFlag : Toml → Option Bool
  | .boolean b => some b
  | _ => none

def tomlSize : Toml → Option Nat
  | .integer n => if 0 ≤ n then some n.toNat else none
  | _ => none

/-- The fields of a record by name. -/
def tomlFields (names : List String) : Toml → Option (List (String × Toml))
  | .array items => some (names.zip items)
  | .datetime => some []
  | t => t.entries?

/-- A field that may be missing but not of another shape. -/
def tomlField (fields : List (String × Toml)) (name : String) (shape : Toml → Option α)
    (default : α) : Option α :=
  match fields.lookup name with
  | some t => shape t
  | none => some default

def Sizing.ofToml (t : Toml) : Option Sizing := do
  let given ← tomlFields (fields.map (·.name)) t
  fields.foldlM (fun s f => (tomlField given f.name tomlSize (f.get s)).map (f.set s)) {}

def Logging.ofToml (t : Toml) : Option Logging := do
  let given ← tomlFields ["level", "directory", "json"] t
  return {
    level := ← tomlField given "level" tomlText ({} : Logging).level
    directory := ← tomlField given "directory" (fun t => (tomlText t).map some) none
    json := ← tomlField given "json" tomlFlag false }

namespace Settings

def ofToml (t : Toml) : Option Settings := do
  let given ← tomlFields ["runtime", "logging", "pipelines_file"] t
  return {
    sizing := ← tomlField given "runtime" Sizing.ofToml {}
    logging := ← tomlField given "logging" Logging.ofToml {}
    pipelinesFile := ← tomlField given "pipelines_file" (fun t => (tomlText t).map some) none }

/-- The settings that a text spells. -/
def parse (text : String) : Except BridgeError Settings :=
  match (Toml.parse? text).bind ofToml with
  | some s => .ok s
  | none => .error (.config "Failed to parse settings: not a settings file")

def textLine (name : String) (text : Option String) : List String :=
  (text.map fun t => name ++ " = " ++ Toml.writeString t).toList

/-- The settings as TOML. Numbers above those that TOML can hold cannot be written. -/
def toToml (s : Settings) : Except BridgeError String :=
  if Sizing.fields.any fun f => 0x8000000000000000 ≤ f.get s.sizing then
    .error (.serialization "Failed to serialize settings: out of range")
  else
    let top := textLine "pipelines_file" s.pipelinesFile
    let sizing := Sizing.fields.map fun f => s!"{f.name} = {f.get s.sizing}"
    let logging := ["level = " ++ Toml.writeString s.logging.level] ++
      textLine "directory" s.logging.directory ++
      [if s.logging.json then "json = true" else "json = false"]
    let lines := (if top.isEmpty then [] else top ++ [""]) ++ ["[runtime]"] ++ sizing ++
      ["", "[logging]"] ++ logging
    .ok (String.join (lines.map (· ++ "\n")))

/-! ## In files -/

/-- Where settings are when nobody says. -/
def defaultDir : String := "/cfg/msgbridge-rs"

def defaultPath : String := Files.join defaultDir "msgbridge.toml"

/-- Loads the settings of a file. Without the file all settings have their defaults. -/
def load (files : Files) (path : Option String) : Except BridgeError Settings := do
  let path := path.getD defaultPath
  let baseDir := Files.parent path
  if !files.exists path then return { baseDir }
  let text ← (files.readText path).mapError fun e =>
    .config ("Failed to read settings: " ++ e.message)
  let settings ← (parse text).mapError (.withContext ("loading " ++ path))
  return { settings with baseDir }

/-- As `load`, with the defaults for settings that cannot be loaded. -/
def loadOrDefault (files : Files) (path : Option String) : Settings :=
  (load files path).toOption.getD {}

def save (s : Settings) (files : Files) (path : String) : Except BridgeError Files := do
  let files ← match Files.parent path with
    | none => pure files
    | some up =>
      if up = "" then pure files else (files.makeFolders up).mapError fun e => .io e.message
  let text ← s.toToml
  (files.write path (Utf8.encode text)).mapError fun e =>
    .config ("Failed to write settings: " ++ e.message)

/-- Where the pipeline definitions are. -/
def pipelinesPath (s : Settings) : String :=
  Files.join (s.baseDir.getD defaultDir) (s.pipelinesFile.getD "pipelines.json")

end Settings

end Conduit.Config
