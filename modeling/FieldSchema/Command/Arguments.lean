/-!
# Command lines

A command line is a command with its switches and one operand, the file of declarations. A switch
has a long name, most have a short one too, and some take a value, which follows it or is attached
to it. Short switches can be joined. After `--` all is operands.
-/

namespace FieldSchema.Command

/-- The switches of the commands. -/
inductive Switch where
  | version
  | help
  | input
  | allErrors
  | verbose
  | quiet
  | format
  deriving DecidableEq

namespace Switch

def long : Switch → String
  | .version => "--version"
  | .help => "--help"
  | .input => "--input"
  | .allErrors => "--all-errors"
  | .verbose => "--verbose"
  | .quiet => "--quiet"
  | .format => "--format"

def short? : Switch → Option Char
  | .input => some 'i'
  | .verbose => some 'v'
  | .quiet => some 'q'
  | .format => some 'f'
  | _ => none

def takesValue : Switch → Bool
  | .input | .format => true
  | _ => false

end Switch

/-- The switches and operands of a command line, in order. A switch without a value has an empty
one. -/
structure Parts where
  switches : List (Switch × String)
  operands : List String

namespace Parts

def has (p : Parts) (s : Switch) : Bool := p.switches.any (·.1 = s)

def count (p : Parts) (s : Switch) : Nat := (p.switches.filter (·.1 = s)).length

def value? (p : Parts) (s : Switch) : Option String :=
  (p.switches.reverse.find? (·.1 = s)).map (·.2)

def after (switches : List (Switch × String)) (p : Parts) : Parts :=
  { p with switches := switches ++ p.switches }

end Parts

def splitLong (arg : List Char) : String × Option String :=
  match arg.dropWhile (· ≠ '=') with
  | [] => (String.ofList arg, none)
  | _ :: value => (String.ofList (arg.takeWhile (· ≠ '=')), some (String.ofList value))

/-- The switches that one argument gives, and the one among them that still needs its value. -/
abbrev Given := List (Switch × String) × Option Switch

/-- Joined short switches. What follows a switch with a value is the value. -/
def shortSwitches? (known : List Switch) : List Char → Option Given
  | [] => some ([], none)
  | c :: rest =>
    match known.find? (·.short? = some c) with
    | none => none
    | some s =>
      if s.takesValue then
        if rest.isEmpty then some ([], some s) else some ([(s, String.ofList rest)], none)
      else
        match shortSwitches? known rest with
        | some (more, waiting) => some ((s, "") :: more, waiting)
        | none => none

def longSwitch? (known : List Switch) (arg : List Char) : Option Given :=
  let (name, value?) := splitLong arg
  match known.find? (·.long = name) with
  | none => none
  | some s =>
    match s.takesValue, value? with
    | true, some value => some ([(s, value)], none)
    | true, none => some ([], some s)
    | false, some _ => none
    | false, none => some ([(s, "")], none)

/-- The switches that an argument gives, if it is not an operand. -/
def switches? (known : List Switch) (arg : List Char) : Option Given :=
  match arg with
  | '-' :: '-' :: _ => longSwitch? known arg
  | _ :: rest => shortSwitches? known rest
  | [] => none

/-- Whether an argument gives switches: it starts with a dash and has more. -/
def isSwitch (arg : List Char) : Bool := arg.head? = some '-' && 1 < arg.length

/-- Takes a command line apart, `none` if it uses a switch that is not known or lacks a value. With
`mixed` switches can follow operands, otherwise the first operand ends them. -/
def parts? (known : List Switch) (mixed : Bool) : List String → Option Parts
  | [] => some ⟨[], []⟩
  | arg :: rest =>
    if arg = "--" then some ⟨[], rest⟩
    else if isSwitch arg.toList then
      match switches? known arg.toList with
      | none => none
      | some (given, none) => (parts? known mixed rest).map (.after given)
      | some (given, some waiting) =>
        match rest with
        | [] => none
        | value :: rest => (parts? known mixed rest).map (.after (given ++ [(waiting, value)]))
    else if mixed then
      (parts? known mixed rest).map fun p => { p with operands := arg :: p.operands }
    else some ⟨[], arg :: rest⟩

/-- How much is reported on the way. -/
structure Reporting where
  verbosity : Nat
  quiet : Bool

/-- In which form a schema is described. -/
inductive Form where
  | document
  | tests
  deriving DecidableEq

/-- What a command line asks for. -/
inductive Request where
  | nothing
  | help
  | version
  | check (file : String) (reporting : Reporting)
  | validate (file : String) (input? : Option String) (all : Bool) (reporting : Reporting)
  | describe (file : String) (form : Form)

namespace Request

def reporting (p : Parts) : Reporting := ⟨p.count .verbose, p.has .quiet⟩

def form? (name : Option String) : Option Form :=
  match name with
  | none => some .document
  | some "json" => some .document
  | some "tests" => some .tests
  | some _ => none

/-- The request of a command with its parts. There must be one operand. -/
def ofParts? (make : String → Parts → Option Request) (p : Parts) : Option Request :=
  if p.has .help then some .help
  else
    match p.operands with
    | [file] => make file p
    | _ => none

def ofCommand? (name : String) (arguments : List String) : Option Request :=
  match name with
  | "check" =>
    (parts? [.help, .verbose, .quiet] true arguments).bind <| ofParts? fun file p =>
      some (.check file (reporting p))
  | "validate" =>
    (parts? [.help, .input, .allErrors, .verbose, .quiet] true arguments).bind <|
      ofParts? fun file p =>
        some (.validate file (p.value? .input) (p.has .allErrors) (reporting p))
  | "describe" =>
    (parts? [.help, .format] true arguments).bind <| ofParts? fun file p =>
      (form? (p.value? .format)).map (.describe file)
  | _ => none

/-- The request of a command line, `none` if it is not used as it should be. -/
def ofArguments? (arguments : List String) : Option Request :=
  if arguments.isEmpty then none
  else
    match parts? [.help, .version] false arguments with
    | none => none
    | some p =>
      match p.switches.head? with
      | some (.version, _) => some .version
      | some _ => some .help
      | none =>
        match p.operands with
        | [] => some .nothing
        | name :: rest => ofCommand? name rest

end Request

end FieldSchema.Command
