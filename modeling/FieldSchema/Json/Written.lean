import FieldSchema.Misuse
import FieldSchema.Text.Quoted

/-!
# Written JSON

Values are written on several lines, each level two places further in; an empty list or mapping
stays on its line. Characters outside ASCII are escaped. A value that JSON has no form for is
written as its text. A whole number of more than `maxDigits` digits is not written.
-/

namespace FieldSchema.Json

def escapeUnit (n : Nat) : List Char := '\\' :: 'u' :: Text.hexText 4 n

def escapeChar (c : Char) : List Char :=
  if c = '"' || c = '\\' then ['\\', c]
  else if c = '\n' then ['\\', 'n']
  else if c = '\r' then ['\\', 'r']
  else if c = '\t' then ['\\', 't']
  else if c = '\x08' then ['\\', 'b']
  else if c = '\x0c' then ['\\', 'f']
  else if ' ' ≤ c && c ≤ '~' then [c]
  else if c.toNat < 0x10000 then escapeUnit c.toNat
  else
    escapeUnit (0xD800 + (c.toNat - 0x10000) / 0x400) ++
      escapeUnit (0xDC00 + (c.toNat - 0x10000) % 0x400)

def quoted (s : String) : String :=
  String.ofList ('"' :: (s.toList.flatMap escapeChar ++ ['"']))

/-- A number; not-a-number and the infinities by their names. -/
def numberWritten : Number → Except Misuse String
  | .int n =>
    if maxDigits < (Nat.toDigits 10 n.natAbs).length then .error .tooManyDigits
    else .ok (toString n)
  | .float .nan => .ok "NaN"
  | .float (.infinite negative) => .ok (if negative then "-Infinity" else "Infinity")
  | .float x => .ok x.text

/-- A key. Only scalars other than dates can be keys. -/
def keyWritten : Value → Except Misuse String
  | .text s => .ok (quoted s)
  | .null => .ok (quoted "null")
  | .bool b => .ok (quoted (if b then "true" else "false"))
  | .number n => quoted <$> numberWritten n
  | v => .error (.jsonKey v)

def newLine (level : Nat) : String := "\n" ++ "".pushn ' ' (2 * level)

/-- Parts between brackets, each on a line of its own one level further in. -/
def bracketed (opening closing : String) (level : Nat) (parts : List String) : String :=
  if parts.isEmpty then opening ++ closing
  else
    opening ++ newLine (level + 1) ++ ("," ++ newLine (level + 1)).intercalate parts ++
      newLine level ++ closing

mutual

def writtenAt (level : Nat) : Value → Except Misuse String
  | .null => .ok "null"
  | .bool b => .ok (if b then "true" else "false")
  | .number n => numberWritten n
  | .text s => .ok (quoted s)
  | .list items => bracketed "[" "]" level <$> itemsWritten (level + 1) items
  | .tuple items => bracketed "[" "]" level <$> itemsWritten (level + 1) items
  | .map entries => bracketed "\x7b" "\x7d" level <$> entriesWritten (level + 1) entries
  | v => .ok (quoted v.plain)
  termination_by structural v => v

def itemsWritten (level : Nat) : List Value → Except Misuse (List String)
  | [] => .ok []
  | v :: vs => do
    let s ← writtenAt level v
    let rest ← itemsWritten level vs
    pure (s :: rest)
  termination_by structural vs => vs

def entriesWritten (level : Nat) : List (Value × Value) → Except Misuse (List String)
  | [] => .ok []
  | (key, v) :: entries => do
    let k ← keyWritten key
    let s ← writtenAt level v
    let rest ← entriesWritten level entries
    pure ((k ++ ": " ++ s) :: rest)
  termination_by structural entries => entries

end

def written (v : Value) : Except Misuse String := writtenAt 0 v

end FieldSchema.Json
