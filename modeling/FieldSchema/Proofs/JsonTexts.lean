import FieldSchema.Json.Reading

/-!
# Texts of JSON

The notation of JSON as trees: what every part is written as, white space between the parts
included, and the value that it has.
-/

namespace FieldSchema.Json

/-! ## Parts -/

/-- White space between parts. -/
structure Gap where
  chars : List Char
  isSpace : ∀ c ∈ chars, isSpace c = true

/-- Digits, one at least. -/
structure Digits where
  chars : List Char
  ne_nil : chars ≠ []
  isDigit : ∀ c ∈ chars, c.isDigit = true

inductive Sign where
  | absent
  | plus
  | minus

structure Exponent where
  upper : Bool
  sign : Sign
  digits : Digits

/-- A number: digits that start with a zero only if that is all of them, and perhaps a fraction and
an exponent. -/
structure Numeral where
  negative : Bool
  whole : Digits
  leading : whole.chars.head? = some '0' → whole.chars = ['0']
  fraction : Option Digits
  exponent : Option Exponent

/-- Whether a character stands for itself between quotes. -/
def isRaw (c : Char) : Bool := 0x20 ≤ c.toNat && c ≠ '"' && c ≠ '\\'

/-- Whether a code is half of a pair that encodes a character. -/
def isHalf (n : Nat) : Bool := 0xD800 ≤ n && n < 0xE000

/-- A part of a text between quotes. Codes are those of whole characters. -/
inductive Piece where
  | raw (c : Char) (h : isRaw c = true)
  | escape (letter c : Char) (h : escaped? letter = some c)
  | code (a b c d : Char) (h : [a, b, c, d].all isHexDigit = true)
      (hhalf : isHalf (digitsValue 16 [a, b, c, d]) = false)

inductive Word where
  | null
  | true
  | false

/-- A part with the white space around it. -/
structure Item (α : Type) where
  before : Gap
  content : α
  after : Gap

structure Member (α : Type) where
  key : Item (List Piece)
  value : Item α

/-- A value as it is written. White space in a list or record without contents stands by itself. -/
inductive Tree where
  | word (w : Word)
  | number (n : Numeral)
  | text (ps : List Piece)
  | list (blank : Gap) (items : List (Item Tree))
  | record (blank : Gap) (members : List (Member Tree))

/-! ## How they are written -/

def Sign.written : Sign → List Char
  | .absent => []
  | .plus => ['+']
  | .minus => ['-']

def Exponent.written (e : Exponent) : List Char :=
  (if e.upper then 'E' else 'e') :: (e.sign.written ++ e.digits.chars)

def Numeral.size (n : Numeral) : List Char :=
  n.whole.chars ++ ((n.fraction.elim [] fun f => '.' :: f.chars) ++ n.exponent.elim [] (·.written))

def Numeral.written (n : Numeral) : List Char := (if n.negative then ['-'] else []) ++ n.size

def Piece.written : Piece → List Char
  | .raw c _ => [c]
  | .escape letter _ _ => ['\\', letter]
  | .code a b c d _ _ => ['\\', 'u', a, b, c, d]

def Word.written : Word → List Char
  | .null => "null".toList
  | .true => "true".toList
  | .false => "false".toList

/-- Pieces with the quote that ends them. -/
def writtenQuote (ps : List Piece) : List Char := ps.flatMap Piece.written ++ ['"']

/-- The key of a member with the white space around it, and the colon. -/
def writtenKey (key : Item (List Piece)) : List Char :=
  key.before.chars ++ ('"' :: writtenQuote key.content ++ (key.after.chars ++ [':']))

mutual

def Tree.written : Tree → List Char
  | .word w => w.written
  | .number n => n.written
  | .text ps => '"' :: writtenQuote ps
  | .list blank items =>
    '[' :: ((if items.isEmpty then blank.chars else []) ++ writtenItems true items)
  | .record blank members =>
    '\x7b' :: ((if members.isEmpty then blank.chars else []) ++ writtenMembers true members)
  termination_by structural t => t

/-- Items up to the bracket that closes them, each but the first behind a comma. -/
def writtenItems (first : Bool) : List (Item Tree) → List Char
  | [] => [']']
  | ⟨before, t, after⟩ :: items =>
    (if first then [] else [',']) ++
      (before.chars ++ t.written ++ (after.chars ++ writtenItems false items))
  termination_by structural items => items

def writtenMembers (first : Bool) : List (Member Tree) → List Char
  | [] => ['\x7d']
  | ⟨key, ⟨before, t, after⟩⟩ :: members =>
    (if first then [] else [',']) ++ (writtenKey key ++
      (before.chars ++ t.written ++ (after.chars ++ writtenMembers false members)))
  termination_by structural members => members

end

/-! ## Their values -/

def Exponent.value (e : Exponent) : Int :=
  match e.sign with
  | .minus => -(digitsValue 10 e.digits.chars : Int)
  | _ => digitsValue 10 e.digits.chars

def Numeral.value (n : Numeral) : Value :=
  match n.fraction, n.exponent with
  | none, none => .int (signed n.negative (digitsValue 10 n.whole.chars))
  | fraction, exponent =>
    let places := fraction.elim [] (·.chars)
    .float (.ofDecimal n.negative (digitsValue 10 (n.whole.chars ++ places))
      (exponent.elim 0 (·.value) - places.length))

def Piece.char : Piece → Char
  | .raw c _ => c
  | .escape _ c _ => c
  | .code a b c d _ _ => Char.ofNat (digitsValue 16 [a, b, c, d])

/-- The characters that pieces stand for. -/
def chars (ps : List Piece) : List Char := ps.map Piece.char

def textOf (ps : List Piece) : Value := .text (String.ofList (chars ps))

def Word.value : Word → Value
  | .null => .null
  | .true => .bool Bool.true
  | .false => .bool Bool.false

mutual

def Tree.value : Tree → Value
  | .word w => w.value
  | .number n => n.value
  | .text ps => textOf ps
  | .list _ items => .list (itemValues items)
  | .record _ members => .map (Entries.putAll [] (memberValues members))
  termination_by structural t => t

def itemValues : List (Item Tree) → List Value
  | [] => []
  | ⟨_, t, _⟩ :: items => t.value :: itemValues items
  termination_by structural items => items

def memberValues : List (Member Tree) → Entries Value
  | [] => []
  | ⟨key, ⟨_, t, _⟩⟩ :: members => (textOf key.content, t.value) :: memberValues members
  termination_by structural members => members

end

mutual

/-- Whether no record in a tree has a key twice. -/
def Tree.isDistinct : Tree → Bool
  | .word _ | .number _ | .text _ => Bool.true
  | .list _ items => areDistinct items
  | .record _ members =>
    decide (members.map fun m => chars m.key.content).Nodup && membersDistinct members
  termination_by structural t => t

def areDistinct : List (Item Tree) → Bool
  | [] => true
  | ⟨_, t, _⟩ :: items => t.isDistinct && areDistinct items
  termination_by structural items => items

def membersDistinct : List (Member Tree) → Bool
  | [] => true
  | ⟨_, ⟨_, t, _⟩⟩ :: members => t.isDistinct && membersDistinct members
  termination_by structural members => members

end

/-! ## Tests of all parts -/

section Tests

variable (key : Item (List Piece) → Bool) (number : Numeral → Bool) (text : List Piece → Bool)

mutual

/-- Whether all keys, numbers and other texts in a tree pass a test each. -/
def Tree.all : Tree → Bool
  | .word _ => Bool.true
  | .number n => number n
  | .text ps => text ps
  | .list _ items => allItems items
  | .record _ members => allMembers members
  termination_by structural t => t

def allItems : List (Item Tree) → Bool
  | [] => true
  | ⟨_, t, _⟩ :: items => t.all && allItems items
  termination_by structural items => items

def allMembers : List (Member Tree) → Bool
  | [] => true
  | ⟨k, ⟨_, t, _⟩⟩ :: members => key k && t.all && allMembers members
  termination_by structural members => members

end

variable {key number text} {key' : Item (List Piece) → Bool} {number' : Numeral → Bool}
  {text' : List Piece → Bool}

mutual

/-- A tree whose parts pass two tests each passes both. -/
theorem Tree.all_and : (t : Tree) → t.all (fun k => key k && key' k)
    (fun n => number n && number' n) (fun ps => text ps && text' ps) =
      (t.all key number text && t.all key' number' text')
  | .word _ => rfl
  | .number _ => rfl
  | .text _ => rfl
  | .list _ items => allItems_and items
  | .record _ members => allMembers_and members
  termination_by structural t => t

theorem allItems_and : (items : List (Item Tree)) → allItems (fun k => key k && key' k)
    (fun n => number n && number' n) (fun ps => text ps && text' ps) items =
      (allItems key number text items && allItems key' number' text' items)
  | [] => rfl
  | ⟨_, t, _⟩ :: items => by
    simp only [allItems, t.all_and, allItems_and items]
    ac_rfl
  termination_by structural items => items

theorem allMembers_and : (members : List (Member Tree)) → allMembers (fun k => key k && key' k)
    (fun n => number n && number' n) (fun ps => text ps && text' ps) members =
      (allMembers key number text members && allMembers key' number' text' members)
  | [] => rfl
  | ⟨k, ⟨_, t, _⟩⟩ :: members => by
    simp only [allMembers, t.all_and, allMembers_and members]
    ac_rfl
  termination_by structural members => members

end

/-- The test of the keys by itself. -/
theorem Tree.all_keys (t : Tree) : t.all key number text =
    (t.all key (fun _ => Bool.true) (fun _ => Bool.true) &&
      t.all (fun _ => Bool.true) number text) := by
  rw [← Tree.all_and]
  simp

end Tests

end FieldSchema.Json
