import FieldSchema.Markup.Fault

/-!
# Cursors

A cursor is what is left of a text with its place: how many characters were passed, in which line it
stands and in which column. Past the end a zero character is seen, which no text contains.
-/

namespace FieldSchema.Markup

/-- What is left of a text, and its place. -/
structure Cursor where
  rest : List Char
  index : Nat
  line : Nat
  column : Nat

def endMark : Char := '\x00'

def isBreak (c : Char) : Bool :=
  c = '\n' || c = '\r' || c = '\x85' || c = '\u2028' || c = '\u2029'

def isBreakOrEnd (c : Char) : Bool := isBreak c || c = endMark

def isSpaceOrEnd (c : Char) : Bool := isBreakOrEnd c || c = ' '

def isGap (c : Char) : Bool := isSpaceOrEnd c || c = '\t'

/-- The characters of names: ASCII letters and digits, hyphen and underscore. -/
def isNameChar (c : Char) : Bool := c.isAlphanum || c = '-' || c = '_'

namespace Cursor

def start (cs : List Char) : Cursor := ⟨cs, 0, 0, 0⟩

/-- The character `n` places ahead. -/
def ahead (c : Cursor) (n : Nat) : Char := c.rest[n]?.getD endMark

def char (c : Cursor) : Char := c.rest.head?.getD endMark

/-- Passes one character. A byte order mark takes no column, and of a carriage return with a line
feed only the second ends the line. -/
def next (c : Cursor) : Cursor :=
  match c.rest with
  | [] => c
  | ch :: rest =>
    if isBreak ch && !(ch = '\r' && rest.head? = some '\n') then
      ⟨rest, c.index + 1, c.line + 1, 0⟩
    else ⟨rest, c.index + 1, c.line, if ch = '\ufeff' then c.column else c.column + 1⟩

/-- Passes `n` characters. -/
def skip (c : Cursor) : Nat → Cursor
  | 0 => c
  | n + 1 => c.next.skip n

def run (c : Cursor) (test : Char → Bool) : List Char := c.rest.takeWhile test

def skipWhile (c : Cursor) (test : Char → Bool) : Cursor := c.skip (c.run test).length

def takeWhile (c : Cursor) (test : Char → Bool) : List Char × Cursor :=
  (c.run test, c.skipWhile test)

def skipSpaces (c : Cursor) : Cursor := c.skipWhile (· = ' ')

def skipComment (c : Cursor) : Cursor :=
  if c.char = '#' then c.skipWhile (!isBreakOrEnd ·) else c

/-- Takes a line break, which reads as a line feed unless it is a separator of its own. Nothing is
taken where there is none. -/
def takeBreak (c : Cursor) : List Char × Cursor :=
  let ch := c.char
  if ch = '\r' || ch = '\n' || ch = '\x85' then
    (['\n'], if ch = '\r' && c.ahead 1 = '\n' then c.skip 2 else c.next)
  else if ch = '\u2028' || ch = '\u2029' then ([ch], c.next)
  else ([], c)

def seesMarker (c : Cursor) (mark : Char) : Bool :=
  c.char = mark && c.ahead 1 = mark && c.ahead 2 = mark && isGap (c.ahead 3)

def seesSeparator (c : Cursor) : Bool := c.seesMarker '-' || c.seesMarker '.'

def fuel (c : Cursor) : Nat := c.rest.length + 1

end Cursor

def flaw {α : Type} (f : Flaw) : Except Fault α := .error (.flaw f)

end FieldSchema.Markup
