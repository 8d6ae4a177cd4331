import FieldSchema.Number.Reading
import FieldSchema.Value.Basic

/-!
# Reading JSON

A number with a fraction or an exponent is a floating-point number, infinite if it is too large, and
any other is whole. Not-a-number and the infinities are read by their names. Of two equal keys the
first keeps its place and the last its value.
-/

namespace FieldSchema.Json

/-- Why a text gives no value: it is not well formed, or a whole number is too long to be read. -/
inductive Fault where
  | malformed
  | tooManyDigits (count : Nat)
  deriving DecidableEq

def Fault.message : Fault → String
  | .malformed => "the text is not well formed"
  | .tooManyDigits count =>
    "Exceeds the limit (" ++ toString maxDigits ++
      " digits) for integer string conversion: value has " ++ toString count ++
      " digits; use sys.set_int_max_str_digits() to increase the limit"

def isSpace (c : Char) : Bool := c = ' ' || c = '\t' || c = '\n' || c = '\r'

def skipSpace (cs : List Char) : List Char := cs.dropWhile isSpace

/-- The character that a letter after a backslash stands for. -/
def escaped? : Char → Option Char
  | '"' => some '"'
  | '\\' => some '\\'
  | '/' => some '/'
  | 'b' => some '\x08'
  | 'f' => some '\x0c'
  | 'n' => some '\n'
  | 'r' => some '\r'
  | 't' => some '\t'
  | _ => none

def isHexDigit (c : Char) : Bool :=
  c.isDigit || ('a' ≤ c && c ≤ 'f') || ('A' ≤ c && c ≤ 'F')

def codeUnit? : List Char → Option (Nat × List Char)
  | a :: b :: c :: d :: rest =>
    if [a, b, c, d].all isHexDigit then some (digitsValue 16 [a, b, c, d], rest) else none
  | _ => none

/-- The character after `\u`: two units of a pair give one character. A unit without its partner
gives the replacement character. -/
def unicode? (cs : List Char) : Option (Char × List Char) :=
  match codeUnit? cs with
  | none => none
  | some (high, rest) =>
    if 0xD800 ≤ high ∧ high < 0xDC00 then
      match rest with
      | '\\' :: 'u' :: more =>
        match codeUnit? more with
        | none => none
        | some (low, after) =>
          if 0xDC00 ≤ low ∧ low < 0xE000 then
            some (Char.ofNat (0x10000 + (high - 0xD800) * 0x400 + (low - 0xDC00)), after)
          else some ('\ufffd', rest)
      | _ => some ('\ufffd', rest)
    else if 0xDC00 ≤ high ∧ high < 0xE000 then some ('\ufffd', rest)
    else some (Char.ofNat high, rest)

/-- The rest of a text between quotes, the opening quote being read. -/
def readText : (fuel : Nat) → List Char → Option (List Char × List Char)
  | 0, _ => none
  | _ + 1, [] => none
  | _ + 1, '"' :: rest => some ([], rest)
  | fuel + 1, '\\' :: 'u' :: rest => do
    let (c, rest) ← unicode? rest
    let (cs, rest) ← readText fuel rest
    pure (c :: cs, rest)
  | fuel + 1, '\\' :: c :: rest => do
    let c ← escaped? c
    let (cs, rest) ← readText fuel rest
    pure (c :: cs, rest)
  | fuel + 1, c :: rest =>
    if c.toNat < 0x20 || c = '\\' then none
    else do
      let (cs, rest) ← readText fuel rest
      pure (c :: cs, rest)

def takeDigits (cs : List Char) : List Char × List Char :=
  (cs.takeWhile Char.isDigit, cs.dropWhile Char.isDigit)

/-- The whole part of a number in front: a zero, or digits that do not start with one. -/
def takeWhole? (cs : List Char) : Option (List Char × List Char) :=
  match cs with
  | '0' :: rest => some (['0'], rest)
  | cs =>
    let (digits, rest) := takeDigits cs
    if digits.isEmpty then none else some (digits, rest)

def takeFraction (cs : List Char) : List Char × List Char :=
  match cs with
  | '.' :: rest =>
    let (digits, after) := takeDigits rest
    if digits.isEmpty then ([], cs) else ('.' :: digits, after)
  | cs => ([], cs)

def takeExponent (cs : List Char) : List Char × List Char :=
  match cs with
  | e :: rest =>
    if e = 'e' || e = 'E' then
      let (sign, more) := match rest with
        | '+' :: more => (['+'], more)
        | '-' :: more => (['-'], more)
        | more => ([], more)
      let (digits, after) := takeDigits more
      if digits.isEmpty then ([], cs) else (e :: sign ++ digits, after)
    else ([], cs)
  | [] => ([], [])

def readNumber (cs : List Char) : Except Fault (Value × List Char) :=
  let (sign, unsigned) := match cs with
    | '-' :: rest => (['-'], rest)
    | cs => ([], cs)
  match takeWhole? unsigned with
  | none => .error .malformed
  | some (whole, rest) =>
    let (fraction, rest) := takeFraction rest
    let (exponent, rest) := takeExponent rest
    if fraction.isEmpty && exponent.isEmpty then
      if maxDigits < whole.length then .error (.tooManyDigits whole.length)
      else .ok (.int (signed (!sign.isEmpty) (digitsValue 10 whole)), rest)
    else
      match readDecimal? (sign ++ whole ++ fraction ++ exponent) with
      | some x => .ok (.float x, rest)
      | none => .error .malformed

def words : List (String × Value) :=
  [("null", .null), ("true", .bool true), ("false", .bool false), ("NaN", .float .nan),
    ("Infinity", .float (.infinite false)), ("-Infinity", .float (.infinite true))]

def readWord? (cs : List Char) : Option (Value × List Char) :=
  match words.find? fun w => w.1.toList.isPrefixOf cs with
  | some (word, v) => some (v, cs.drop word.length)
  | none => none

mutual

/-- Reads the value in front, space before it being passed over. -/
def readValue : (fuel : Nat) → List Char → Except Fault (Value × List Char)
  | 0, _ => .error .malformed
  | fuel + 1, cs =>
    match skipSpace cs with
    | '"' :: rest =>
      match readText (rest.length + 1) rest with
      | some (s, rest) => .ok (.text (String.ofList s), rest)
      | none => .error .malformed
    | '[' :: rest =>
      match skipSpace rest with
      | ']' :: rest => .ok (.list [], rest)
      | rest => do
        let (items, rest) ← readItems fuel rest
        pure (.list items, rest)
    | '\x7b' :: rest =>
      match skipSpace rest with
      | '\x7d' :: rest => .ok (.map [], rest)
      | rest => do
        let (entries, rest) ← readEntries fuel rest
        pure (.map (Entries.putAll [] entries), rest)
    | cs =>
      match readWord? cs with
      | some (v, rest) => .ok (v, rest)
      | none => readNumber cs
  termination_by structural fuel => fuel

def readItems : (fuel : Nat) → List Char → Except Fault (List Value × List Char)
  | 0, _ => .error .malformed
  | fuel + 1, cs => do
    let (v, rest) ← readValue fuel cs
    match skipSpace rest with
    | ',' :: rest => do
      let (vs, rest) ← readItems fuel rest
      pure (v :: vs, rest)
    | ']' :: rest => pure ([v], rest)
    | _ => throw .malformed
  termination_by structural fuel => fuel

def readEntries : (fuel : Nat) → List Char → Except Fault (List (Value × Value) × List Char)
  | 0, _ => .error .malformed
  | fuel + 1, cs => do
    let (key, rest) ←
      match skipSpace cs with
      | '"' :: rest =>
        match readText (rest.length + 1) rest with
        | some (s, rest) => pure (Value.text (String.ofList s), rest)
        | none => throw Fault.malformed
      | _ => throw Fault.malformed
    match skipSpace rest with
    | ':' :: rest =>
      let (v, rest) ← readValue fuel rest
      match skipSpace rest with
      | ',' :: rest => do
        let (entries, rest) ← readEntries fuel rest
        pure ((key, v) :: entries, rest)
      | '\x7d' :: rest => pure ([(key, v)], rest)
      | _ => throw .malformed
    | _ => throw .malformed
  termination_by structural fuel => fuel

end

/-- Reads a text that is one value. No step goes deeper without a character read, or with more than
one of the three functions at a place, so twice the length bounds the depth. -/
def read (cs : List Char) : Except Fault Value := do
  let (v, rest) ← readValue (2 * cs.length + 2) cs
  if (skipSpace rest).isEmpty then pure v else throw .malformed

end FieldSchema.Json
