import FieldSchema.Pattern.Term
import FieldSchema.Pattern.Fault
import FieldSchema.Text.Word
import FieldSchema.Text.Blank
import FieldSchema.Number.Reading

/-!
# The source of a pattern

A pattern is read symbol by symbol, a symbol being one character or a backslash with the character
that it escapes. One symbol is looked at ahead, so a backslash that ends the pattern is reported as
soon as the symbol before it is taken. The reader's state also keeps what the pattern has said so
far about groups and flags.
-/

namespace FieldSchema.Pattern

/-- A character, escaped or not. -/
structure Symbol where
  escaped : Bool
  char : Char
  deriving DecidableEq

def Symbol.text (s : Symbol) : List Char := if s.escaped then ['\\', s.char] else [s.char]

def Symbol.is (s : Symbol) (c : Char) : Bool := !s.escaped && s.char = c

/-- What has been read and what is left. -/
structure Source where
  /-- The symbol looked at. -/
  next : Option Symbol
  /-- What follows it. -/
  rest : List Char
  /-- The position behind it. -/
  index : Nat
  /-- The flags set for the whole pattern. -/
  flags : List Flag
  /-- The groups opened so far, from the first; those that are closed have widths. -/
  groups : List (Option (Nat × Nat))
  /-- The names of groups. -/
  names : List (List Char × Nat)
  /-- How many groups there were where the outermost look-behind began, if one is open. -/
  lookBehind : Option Nat
  /-- Groups that conditions refer to by number, with the position of the first such reference. -/
  references : List (Nat × Nat)

/-- Readers of parts of a pattern. -/
abbrev Reader := StateT Source (Except Fault)

/-- Splits off the first symbol of a text that starts at `index`. -/
def firstSymbol (cs : List Char) (index : Nat) : Except Fault (Option Symbol × List Char × Nat) :=
  match cs with
  | [] => .ok (none, [], index)
  | ['\\'] => .error (.flaw .danglingEscape index)
  | '\\' :: c :: rest => .ok (some ⟨true, c⟩, rest, index + 2)
  | c :: rest => .ok (some ⟨false, c⟩, rest, index + 1)

def Source.start (cs : List Char) : Except Fault Source := do
  let (next, rest, index) ← firstSymbol cs 0
  pure ⟨next, rest, index, [], [], [], none, []⟩

def Source.position (s : Source) : Nat :=
  s.index - match s.next with
    | some symbol => symbol.text.length
    | none => 0

namespace Reader

def peek : Reader (Option Symbol) := do pure (← get).next

def position : Reader Nat := do pure (← get).position

/-- Takes the symbol looked at and looks at the one behind it. -/
def take : Reader (Option Symbol) := do
  let s ← get
  let (next, rest, index) ← firstSymbol s.rest s.index
  set { s with next, rest, index }
  pure s.next

def sees (c : Char) : Reader Bool := do
  pure (match ← peek with
    | some symbol => symbol.is c
    | none => false)

/-- Takes the symbol looked at if it is a given character, and says whether it was. -/
def takeIf (c : Char) : Reader Bool := do
  if ← sees c then
    discard take
    pure true
  else pure false

/-- Reports a flaw that began `back` characters before the position. -/
def fail {α : Type} (f : Flaw) (back : Nat) : Reader α := do
  throw (.flaw f ((← position) - back))

/-- Takes at most `count` characters of a class. -/
def takeWhile (ok : Char → Bool) : (count : Nat) → Reader (List Char)
  | 0 => pure []
  | count + 1 => do
    match ← peek with
    | some ⟨false, c⟩ =>
      if ok c then
        discard take
        pure (c :: (← takeWhile ok count))
      else pure []
    | _ => pure []

/-- Takes what stands before a terminator, and the terminator. -/
def takeUntil (terminator : Char) (what : String) : Reader (List Char) := do
  let rec loop (taken : List Char) : Nat → Reader (List Char)
    | 0 => throw .tooDeep
    | fuel + 1 => do
      match ← take with
      | none =>
        if taken.isEmpty then fail (.missing what) 0
        else fail (.unterminatedName terminator) taken.length
      | some symbol =>
        if symbol.is terminator then
          if taken.isEmpty then fail (.missing what) 1 else pure taken
        else loop (taken ++ symbol.text) fuel
  loop [] ((← get).rest.length + 2)

def openGroup (name : Option (List Char)) : Reader Nat := do
  let s ← get
  let index := s.groups.length + 1
  match name with
  | none =>
    set { s with groups := s.groups ++ [none] }
  | some name =>
    match s.names.find? (·.1 = name) with
    | some (_, taken) => fail (.nameTaken name index taken) (name.length + 1)
    | none => set { s with groups := s.groups ++ [none], names := s.names ++ [(name, index)] }
  pure index

def widthOf (s : Source) (index : Nat) : Nat × Nat :=
  ((s.groups[index - 1]?).join).getD (0, 0)

def closeGroup (index : Nat) (body : List Term) : Reader Unit :=
  modify fun s =>
    { s with groups := s.groups.set (index - 1) (some (Term.bodyWidths (widthOf s) body)) }

def isClosed (index : Nat) : Reader Bool := do
  pure (1 ≤ index && (((← get).groups[index - 1]?).join).isSome)

/-- Inside a look-behind only groups closed before it may be referred to. -/
def checkLookBehind (index : Nat) : Reader Unit := do
  match (← get).lookBehind with
  | none => pure ()
  | some groups =>
    if !(← isClosed index) then fail .openGroup 0
    else if groups < index then fail .lookBehindGroup 0
    else pure ()

end Reader

/-- Whether a text can name a group: a letter or underscore, then letters, digits and
underscores. -/
def isName (cs : List Char) : Bool :=
  match cs with
  | [] => false
  | c :: _ => Text.isWord c && !Text.isDecimalDigit c && cs.all Text.isWord

end FieldSchema.Pattern
