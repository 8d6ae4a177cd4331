import FieldSchema.Command.Arguments
import FieldSchema.Command.Path
import FieldSchema.Json.Reading
import FieldSchema.Json.Written
import FieldSchema.Loading
import FieldSchema.Schema.Validation

/-!
# Running commands

A command loads the declarations of a file and checks them, describes the schema or validates a
value. What it prints and the status it ends with depend on nothing but the request and the files.
-/

namespace FieldSchema.Command

/-- What stands at a path. -/
inductive FileState where
  | absent
  | directory
  | text (s : String)

/-- What is at which path. -/
abbrev Files := String → FileState

/-- An end of a command that no report was foreseen for. -/
inductive Escape where
  | fault (fault : Fault)
  | json (fault : Json.Fault)
  | directory (path : String)

def Escape.message : Escape → String
  | .fault f => f.message
  | .json f => f.message
  | .directory path => "[Errno 21] Is a directory: " ++ (Value.text path).shown

/-- What a command ends with. -/
structure Outcome where
  status : Nat
  output : String
  errors : String
  escape? : Option Escape

/-- How important a line of the log is. -/
inductive Level where
  | info
  | debug
  deriving DecidableEq

/-- A line of the log. -/
structure LogLine where
  level : Level
  text : String

def Reporting.shows (r : Reporting) (level : Level) : Bool :=
  !r.quiet &&
    match level with
    | .info => 1 ≤ r.verbosity
    | .debug => 2 ≤ r.verbosity

def Reporting.logText (r : Reporting) (log : List LogLine) : String :=
  String.join ((log.filter (r.shows ·.level)).map fun line =>
    (match line.level with
      | .info => "INFO: "
      | .debug => "DEBUG: ") ++ line.text ++ "\n")

def Reporting.none : Reporting := ⟨0, false⟩

/-- Why a command ends early: with a line for the errors, or unforeseen. -/
inductive Halt where
  | reported (text : String)
  | unforeseen (escape : Escape)

def Halt.outcome (halt : Halt) (logText : String) : Outcome :=
  match halt with
  | .reported text => ⟨1, "", logText ++ text ++ "\n", .none⟩
  | .unforeseen escape => ⟨1, "", logText, some escape⟩

def loadHalt (fault : Fault) : Halt :=
  match fault with
  | .markup (.flaw f) =>
    .reported ("Error: Invalid YAML syntax: " ++ (Markup.Fault.flaw f).message)
  | fault =>
    if fault.isDeclarationError then .reported ("Error: " ++ fault.message)
    else .unforeseen (.fault fault)

/-- Loads the schema that a file declares, with the log of it. -/
def loadSchema (files : Files) (path : String) : List LogLine × Except Halt Schema :=
  let opened : LogLine := ⟨.info, "Loading declarations from " ++ path⟩
  match files path with
  | .absent => ([], .error (.reported ("Error: File not found: " ++ path)))
  | .directory => ([opened], .error (.unforeseen (.directory path)))
  | .text s =>
    let build := Context.empty.load s.toList
    (opened :: build.notes.map fun note => ⟨.debug, note.text⟩, build.result.mapError loadHalt)

/-- Reads a JSON value, with the words for one that is not well formed. -/
def readJson (words s : String) : Except Halt Value :=
  match Json.read s.toList with
  | .ok v => .ok v
  | .error .malformed => .error (.reported (words ++ Json.Fault.malformed.message))
  | .error fault => .error (.unforeseen (.json fault))

/-- Reads the value to be validated: JSON, or the name of a file of JSON after an at-sign. Nothing
is null. -/
def readInput (files : Files) (input? : Option String) : Except Halt Value :=
  match input? with
  | none => .ok .null
  | some input =>
    match input.toList with
    | '@' :: name =>
      let path := normalPath (String.ofList name)
      match files path with
      | .absent => .error (.reported ("Error: Input file not found: " ++ path))
      | .directory => .error (.unforeseen (.directory path))
      | .text s => readJson "Error: Invalid JSON in input file: " s
    | _ => readJson "Error: Invalid JSON in --input: " input

def jsonText (v : Value) : Except Halt String :=
  match Json.written v with
  | .ok s => .ok (s ++ "\n")
  | .error m => .error (.unforeseen (.fault (.misuse m)))

def checkOutcome (path : String) (r : Reporting) (log : List LogLine) (s : Schema) : Outcome :=
  let line := "✓ " ++ path ++ " is valid (" ++ toString s.fields.length ++ " fields)\n"
  ⟨0, if r.quiet then "" else line, r.logText log, .none⟩

def describeOutcome (form : Form) (s : Schema) : Outcome :=
  match jsonText (if form = .tests then s.described else s.document) with
  | .ok text => ⟨0, text, "", .none⟩
  | .error halt => halt.outcome ""

/-- The log of a validation with failures. An absent value is not looked into. -/
def failureLog (s : Schema) (v : Value) (failures : List Failure) : List LogLine :=
  if (s.cast v).isNull then []
  else [⟨.debug, "Validation produced " ++ toString failures.length ++ " error(s)"⟩]

def validateOutcome (all : Bool) (r : Reporting) (log : List LogLine) (s : Schema) (v : Value) :
    Outcome :=
  match s.validate v all with
  | .ok w =>
    if r.quiet then ⟨0, "", r.logText log, .none⟩
    else
      match jsonText w with
      | .ok text => ⟨0, text, r.logText log, .none⟩
      | .error halt => halt.outcome (r.logText log)
  | .error (.invalid failures) =>
    let logText := r.logText (log ++ failureLog s v failures)
    match jsonText (Failure.report failures) with
    | .ok text => ⟨1, "", logText ++ text, .none⟩
    | .error halt => halt.outcome logText
  | .error fault => (Halt.unforeseen (.fault fault)).outcome (r.logText log)

def versionText : String := "schemaforge 0.1.0"

def run (files : Files) (request : Request) : Outcome :=
  match request with
  | .nothing | .help => ⟨0, "", "", .none⟩
  | .version => ⟨0, versionText ++ "\n", "", .none⟩
  | .check file r =>
    let path := normalPath file
    match loadSchema files path with
    | (log, .ok s) => checkOutcome path r log s
    | (log, .error halt) => halt.outcome (r.logText log)
  | .describe file form =>
    match loadSchema files (normalPath file) with
    | (_, .ok s) => describeOutcome form s
    | (_, .error halt) => halt.outcome ""
  | .validate file input? all r =>
    match loadSchema files (normalPath file) with
    | (log, .ok s) =>
      match readInput files input? with
      | .ok v => validateOutcome all r log s v
      | .error halt => halt.outcome (r.logText log)
    | (log, .error halt) => halt.outcome (r.logText log)

end FieldSchema.Command
