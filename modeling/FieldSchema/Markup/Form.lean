import FieldSchema.Markup.Cursor
import FieldSchema.Number.Reading
import FieldSchema.Text.Word
import FieldSchema.Text.Blank
import FieldSchema.Text.Case
import FieldSchema.Calendar.DateTime

/-!
# Forms of plain scalars

A plain scalar stands for null, a truth value, a number or a date if it has the form of one, and for
itself otherwise. Each kind comes with its form and with its reader, which also takes scalars that
are declared to be of the kind and need not have the form.
-/

namespace FieldSchema.Markup

/-- What a scalar or collection is. -/
inductive Tag where
  | null
  | bool
  | int
  | float
  | timestamp
  | str
  | merge
  | value
  | seq
  | map
  | pairs
  | other
  deriving DecidableEq

def Tag.ofName (name : List Char) : Tag :=
  match String.ofList name with
  | "tag:yaml.org,2002:null" => .null
  | "tag:yaml.org,2002:bool" => .bool
  | "tag:yaml.org,2002:int" => .int
  | "tag:yaml.org,2002:float" => .float
  | "tag:yaml.org,2002:timestamp" => .timestamp
  | "tag:yaml.org,2002:str" => .str
  | "tag:yaml.org,2002:merge" => .merge
  | "tag:yaml.org,2002:value" => .value
  | "tag:yaml.org,2002:seq" => .seq
  | "tag:yaml.org,2002:map" => .map
  | "tag:yaml.org,2002:omap" => .pairs
  | "tag:yaml.org,2002:pairs" => .pairs
  | _ => .other

def nullWords : List String := ["~", "null", "Null", "NULL"]

def truthWords : List (String × Bool) := [
  ("yes", true), ("Yes", true), ("YES", true), ("no", false), ("No", false), ("NO", false),
  ("true", true), ("True", true), ("TRUE", true), ("false", false), ("False", false),
  ("FALSE", false), ("on", true), ("On", true), ("ON", true), ("off", false), ("Off", false),
  ("OFF", false)]

def isSpacedDigit (c : Char) : Bool := c.isDigit || c = '_'

def isDigitRun (cs : List Char) : Bool :=
  match cs with
  | [] => false
  | c :: rest => c.isDigit && rest.all isSpacedDigit

def splitColons (cs : List Char) : List (List Char) :=
  cs.foldr (fun c parts =>
    if c = ':' then [] :: parts
    else match parts with
      | [] => [[c]]
      | part :: more => (c :: part) :: more) [[]]

def isSixty (cs : List Char) : Bool :=
  match cs with
  | [c] => c.isDigit
  | [c, d] => '0' ≤ c && c ≤ '5' && d.isDigit
  | _ => false

def isSexagesimal (cs : List Char) : Bool :=
  match splitColons cs with
  | first :: next :: more => isDigitRun first && (next :: more).all isSixty
  | _ => false

/-- The form of whole numbers: binary, octal, decimal, hexadecimal, or to the base sixty. -/
def isIntForm (cs : List Char) : Bool :=
  match (takeSign cs).2 with
  | ['0'] => true
  | '0' :: 'b' :: rest => !rest.isEmpty && rest.all fun c => c = '0' || c = '1' || c = '_'
  | '0' :: 'x' :: rest => !rest.isEmpty && rest.all fun c => isHexDigit c || c = '_'
  | '0' :: rest => !rest.isEmpty && rest.all fun c => ('0' ≤ c && c ≤ '7') || c = '_'
  | cs => isDigitRun cs || isSexagesimal cs
where
  isHexDigit (c : Char) : Bool := c.isDigit || ('a' ≤ c && c ≤ 'f') || ('A' ≤ c && c ≤ 'F')

/-- The form of what follows the point of a decimal number: digits, and an exponent with a sign. -/
def isFractionForm (cs : List Char) : Bool :=
  match cs.dropWhile isSpacedDigit with
  | [] => true
  | e :: sign :: digits =>
    (e = 'e' || e = 'E') && (sign = '+' || sign = '-') && !digits.isEmpty && digits.all Char.isDigit
  | _ => false

/-- The form of decimal numbers, which have a point, of infinities and of not-a-number. -/
def isFloatForm (cs : List Char) : Bool :=
  let (_, size) := takeSign cs
  let word := String.ofList size
  let before := size.takeWhile (· ≠ '.')
  match size.dropWhile (· ≠ '.') with
  | [] => false
  | _ :: after =>
    if before.isEmpty then
      (word = ".inf" || word = ".Inf" || word = ".INF") ||
      (size = cs && (word = ".nan" || word = ".NaN" || word = ".NAN" ||
        ((after.head?.map Char.isDigit).getD false && isFractionForm after)))
    else (isDigitRun before && isFractionForm after) ||
      (isSexagesimal before && after.all isSpacedDigit)

/-- The numbers of a date, and of its clock time and offset, as written. -/
structure Stamp where
  year : Nat
  month : Nat
  day : Nat
  clock : Option (Nat × Nat × Nat × List Char)
  /-- The sign, hours and minutes of the offset. -/
  offset : Option (Bool × Nat × Nat)
  /-- Whether month and day have two digits each. -/
  full : Bool

/-- Takes at least `least` and at most `most` digits. -/
def takeDigits? (least most : Nat) (cs : List Char) : Option (List Char × List Char) :=
  let digits := (cs.take most).takeWhile Char.isDigit
  if least ≤ digits.length then some (digits, cs.drop digits.length) else none

def takeChar? (c : Char) : List Char → Option (List Char)
  | d :: rest => if d = c then some rest else none
  | [] => none

def isTabOrSpace (c : Char) : Bool := c = ' ' || c = '\t'

def stampOffset? (cs : List Char) : Option (Option (Bool × Nat × Nat)) :=
  match cs with
  | [] => some none
  | _ =>
    match cs.dropWhile isTabOrSpace with
    | ['Z'] => some (some (false, 0, 0))
    | sign :: rest => do
      if sign ≠ '+' ∧ sign ≠ '-' then none
      else
        let (hours, rest) ← takeDigits? 1 2 rest
        let minutes ←
          match rest with
          | [] => some []
          | _ => do
            let (minutes, rest) ← takeDigits? 2 2 (← takeChar? ':' rest)
            if rest.isEmpty then some minutes else none
        some (some (sign = '-', digitsValue 10 hours, digitsValue 10 minutes))
    | [] => none

/-- Reads a time stamp: a date, or a date with a clock time and perhaps an offset. -/
def stamp? (cs : List Char) : Option Stamp := do
  let (year, rest) ← takeDigits? 4 4 cs
  let (month, rest) ← takeDigits? 1 2 (← takeChar? '-' rest)
  let (day, rest) ← takeDigits? 1 2 (← takeChar? '-' rest)
  let date (clock) (offset) : Stamp :=
    ⟨digitsValue 10 year, digitsValue 10 month, digitsValue 10 day, clock, offset,
      month.length = 2 && day.length = 2⟩
  match rest with
  | [] => some (date none none)
  | c :: more =>
    let rest ←
      if c = 'T' ∨ c = 't' then some more
      else if isTabOrSpace c then some (more.dropWhile isTabOrSpace)
      else none
    let (hour, rest) ← takeDigits? 1 2 rest
    let (minute, rest) ← takeDigits? 2 2 (← takeChar? ':' rest)
    let (second, rest) ← takeDigits? 2 2 (← takeChar? ':' rest)
    let (fraction, rest) :=
      match rest with
      | '.' :: rest => rest.span Char.isDigit
      | rest => ([], rest)
    let offset ← stampOffset? rest
    some (date (some (digitsValue 10 hour, digitsValue 10 minute, digitsValue 10 second, fraction))
      offset)

/-- The form of dates: without a clock time month and day have two digits. -/
def isStampForm (cs : List Char) : Bool :=
  match stamp? cs with
  | some s => s.full || s.clock.isSome
  | none => false

/-- What a plain scalar is by its form. A line feed at the end does not count. -/
def Tag.ofPlain (text : List Char) : Tag :=
  let cs := if text.getLast? = some '\n' then text.dropLast else text
  let word := String.ofList cs
  if text.isEmpty then .null
  else if cs.isEmpty then .str
  else if (truthWords.lookup word).isSome then .bool
  else if isFloatForm cs then .float
  else if isIntForm cs then .int
  else if word = "<<" then .merge
  else if nullWords.contains word then .null
  else if isStampForm cs then .timestamp
  else if word = "=" then .value
  else .str

def plainDigits (cs : List Char) : List Char :=
  cs.map fun c =>
    match Text.digitRanges.find? fun (low, high) => low ≤ c.toNat && c.toNat ≤ high with
    | some (low, _) => Char.ofNat ('0'.toNat + (c.toNat - low) % 10)
    | none => c

/-- The digits behind the mark of a base, if it has one and it is there. -/
def dropBaseMark (base : Nat) (cs : List Char) : List Char :=
  match cs with
  | '0' :: mark :: rest =>
    let low := mark.toLower
    if (base = 2 ∧ low = 'b') ∨ (base = 8 ∧ low = 'o') ∨ (base = 16 ∧ low = 'x') then rest else cs
  | _ => cs

/-- Reads a whole number in a base: blanks around it, a sign and a base mark are allowed. -/
def readWhole (base : Nat) (text : List Char) : Except Fault Int :=
  let (negative, cs) := takeSign (plainDigits (Text.trim text))
  let digits := dropBaseMark base cs
  let isDigit (c : Char) : Bool :=
    (c.isDigit || ('a' ≤ c.toLower && c.toLower ≤ 'f')) && digitValue c < base
  if digits.isEmpty || !digits.all isDigit then .error (.notWhole base text)
  else if base = 10 ∧ maxDigits < digits.length then .error (.tooManyDigits digits.length)
  else .ok (signed negative (digitsValue base digits))

def numberSign (cs : List Char) : Except Fault (Bool × List Char) :=
  if cs.isEmpty then .error .emptyNumber else .ok (takeSign cs)

def sixties (places : List Int) : Int := places.foldl (fun n place => 60 * n + place) 0

def readInt (text : List Char) : Except Fault Int := do
  let (negative, cs) ← numberSign (text.filter (· ≠ '_'))
  let size ←
    match cs with
    | ['0'] => pure 0
    | '0' :: 'b' :: rest => readWhole 2 rest
    | '0' :: 'x' :: rest => readWhole 16 rest
    | '0' :: _ => readWhole 8 cs
    | [] => throw .emptyNumber
    | cs =>
      if cs.contains ':' then do
        let places ← (splitColons cs).mapM (readWhole 10)
        pure (sixties places)
      else readWhole 10 cs
  pure (if negative then -size else size)

def readReal (text : List Char) : Except Fault Binary64 :=
  let cs := plainDigits (Text.trim text)
  let (negative, size) := takeSign cs
  let word := String.ofList (size.map Char.toLower)
  if word = "inf" ∨ word = "infinity" then .ok (.infinite negative)
  else if word = "nan" then .ok .nan
  else
    match readDecimal? cs with
    | some x => .ok x
    | none => .error (.notDecimal text)

/-- The number nearest to a count of units of `2 ^ (-1074)`. -/
def ofUnits (n : Int) : Binary64 := .ofRatio (n < 0) n.natAbs Binary64.unitsPerOne

/-- The sum of two finite numbers, the second taken some number of times; both steps are rounded. -/
def addTimes (x y : Binary64) (times : Nat) : Binary64 :=
  match x, y with
  | .finite n m e, .finite n' m' e' =>
    match ofUnits (Binary64.units n' m' e' * times) with
    | .finite n' m' e' => ofUnits (Binary64.units n m e + Binary64.units n' m' e')
    | y => y
  | _, _ => .nan

/-- The number of decimal places to the base sixty, added up from the last. -/
def realSixties (places : List Binary64) : Binary64 :=
  (places.reverse.foldl (fun (sum, base) place => (addTimes sum place base, 60 * base))
    (ofUnits 0, 1)).1

def negate : Binary64 → Binary64
  | .nan => .nan
  | .infinite negative => .infinite (!negative)
  | .finite negative m e => .finite (!negative) m e

def readFloat (text : List Char) : Except Fault Binary64 := do
  let (negative, cs) ← numberSign (Text.lower (text.filter (· ≠ '_')))
  let size ←
    if cs = ".inf".toList then pure (.infinite false)
    else if cs = ".nan".toList then pure .nan
    else if cs.contains ':' then do
      let places ← (splitColons cs).mapM readReal
      pure (realSixties places)
    else readReal cs
  pure (if negative then negate size else size)

def readTruth (text : List Char) : Except Fault Bool :=
  let word := Text.lower text
  match truthWords.lookup (String.ofList word) with
  | some b => .ok b
  | none => .error (.notTruth word)

def readStamp (text : List Char) : Except Fault (Date ⊕ DateTime) := do
  let cs := if text.getLast? = some '\n' then text.dropLast else text
  match stamp? cs with
  | none => throw .notDate
  | some s =>
    match s.clock with
    | none => .inl <$> (Date.ofParts s.year s.month s.day).mapError .calendar
    | some (hour, minute, second, fraction) =>
      let digits := fraction.take 6
      let micro := digitsValue 10 digits * Nat.pow 10 (6 - digits.length)
      let offset ←
        match s.offset with
        | none => pure none
        | some (negative, hours, minutes) =>
          let micros := signed negative ((hours * 60 + minutes) * 60000000)
          match Offset.ofMicros? micros with
          | some offset => pure (some offset)
          | none => throw (.offset micros)
      let date ← (Date.ofParts s.year s.month s.day).mapError .calendar
      let clock ← (Clock.ofParts hour minute second micro).mapError .calendar
      pure (.inr ⟨date, clock, offset⟩)

end FieldSchema.Markup
