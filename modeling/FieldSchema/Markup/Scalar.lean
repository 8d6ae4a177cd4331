import FieldSchema.Markup.Cursor
import FieldSchema.Number.Reading

/-!
# Scalars

The four ways to write a scalar: between single or double quotes, as an indented block that keeps or
folds its lines, and plain. Each reader takes the scalar at a cursor and gives its text.

A text is made of characters, so it cannot hold the half of a surrogate pair, which an escape can
write.
-/

namespace FieldSchema.Markup

def isHex (c : Char) : Bool := c.isDigit || ('a' ≤ c && c ≤ 'f') || ('A' ≤ c && c ≤ 'F')

/-- The character that an escaped one stands for between double quotes. -/
def escapedChar? (c : Char) : Option Char :=
  match c with
  | '0' => some '\x00'
  | 'a' => some '\x07'
  | 'b' => some '\x08'
  | 't' => some '\t'
  | '\t' => some '\t'
  | 'n' => some '\n'
  | 'v' => some '\x0b'
  | 'f' => some '\x0c'
  | 'r' => some '\r'
  | 'e' => some '\x1b'
  | ' ' => some ' '
  | '"' => some '"'
  | '\\' => some '\\'
  | '/' => some '/'
  | 'N' => some '\x85'
  | '_' => some '\xa0'
  | 'L' => some '\u2028'
  | 'P' => some '\u2029'
  | _ => none

def escapeLength? (c : Char) : Option Nat :=
  match c with
  | 'x' => some 2
  | 'u' => some 4
  | 'U' => some 8
  | _ => none

/-- Reads the code of a character as `count` hexadecimal digits. -/
def escapedCode (count : Nat) (c : Cursor) : Except Fault (Nat × Cursor) :=
  let digits := c.rest.take count
  let n := digitsValue 16 digits
  if digits.length ≠ count || !digits.all isHex then flaw .badEscape
  else if 0x7fffffff < n then .error .codeTooLarge
  else if 0x10ffff < n then .error .notCharacter
  else .ok (n, c.skip count)

def lowHalf? (c : Cursor) : Option Nat :=
  match c.rest with
  | '\\' :: 'u' :: rest =>
    let digits := rest.take 4
    let n := digitsValue 16 digits
    if digits.length = 4 && digits.all isHex && 0xdc00 ≤ n && n ≤ 0xdfff then some n else none
  | _ => none

/-- The character of a code. A text would keep the two halves of a pair that are escaped one after
the other as two; here they are joined into the character of the pair, and a half alone gives the
replacement character. -/
def joinHalves (n : Nat) (c : Cursor) : Char × Cursor :=
  if 0xd800 ≤ n ∧ n ≤ 0xdfff then
    match if n ≤ 0xdbff then lowHalf? c else none with
    | some low => (Char.ofNat (0x10000 + (n - 0xd800) * 0x400 + (low - 0xdc00)), c.skip 6)
    | none => ('\ufffd', c)
  else (Char.ofNat n, c)

/-- Passes blank lines inside quotes and gives their breaks. No document may end there. -/
def quotedBreaks : (fuel : Nat) → Cursor → Except Fault (List Char × Cursor)
  | 0, _ => flaw .tooDeep
  | fuel + 1, c => do
    if c.seesSeparator then flaw .separatorInText
    else
      let c := c.skipWhile fun ch => ch = ' ' || ch = '\t'
      if isBreak c.char then
        let (lineBreak, c) := c.takeBreak
        let (breaks, c) ← quotedBreaks fuel c
        pure (lineBreak ++ breaks, c)
      else pure ([], c)

/-- Reads blanks between quotes. A single line break folds into a space, and blanks beside a break
are dropped. -/
def quotedBlanks (c : Cursor) : Except Fault (List Char × Cursor) := do
  let (blanks, c) := c.takeWhile fun ch => ch = ' ' || ch = '\t'
  if c.rest.isEmpty then flaw .unterminatedText
  else if isBreak c.char then
    let (lineBreak, c) := c.takeBreak
    let (breaks, c) ← quotedBreaks c.fuel c
    if lineBreak ≠ ['\n'] then pure (lineBreak ++ breaks, c)
    else if breaks.isEmpty then pure ([' '], c)
    else pure (breaks, c)
  else pure (blanks, c)

/-- Reads text between quotes up to a blank, the end or the closing quote. -/
def quotedRun (double : Bool) : (fuel : Nat) → Cursor → Except Fault (List Char × Cursor)
  | 0, _ => flaw .tooDeep
  | fuel + 1, c => do
    let (plain, c) := c.takeWhile fun ch => !isGap ch && ch ≠ '\'' && ch ≠ '"' && ch ≠ '\\'
    let ch := c.char
    let step ←
      if !double && ch = '\'' && c.ahead 1 = '\'' then pure (some (['\''], c.skip 2))
      else if (double && ch = '\'') || (!double && (ch = '"' || ch = '\\')) then
        pure (some ([ch], c.next))
      else if double && ch = '\\' then
        let c := c.next
        let ch := c.char
        if c.rest.isEmpty then flaw .badEscape
        else
          match escapedChar? ch, escapeLength? ch with
          | some d, _ => pure (some ([d], c.next))
          | none, some count =>
            let (n, c) ← escapedCode count c.next
            let (d, c) := joinHalves n c
            pure (some ([d], c))
          | none, none =>
            if isBreak ch then
              let c := c.takeBreak.2
              let (breaks, c) ← quotedBreaks c.fuel c
              pure (some (breaks, c))
            else flaw .badEscape
      else pure none
    match step with
    | some (cs, c) =>
      let (more, c) ← quotedRun double fuel c
      pure (plain ++ cs ++ more, c)
    | none => pure (plain, c)

/-- Reads text between quotes up to the closing one, which is passed. -/
def quotedText (quote : Char) : (fuel : Nat) → Cursor → Except Fault (List Char × Cursor)
  | 0, _ => flaw .tooDeep
  | fuel + 1, c => do
    let (text, c) ← quotedRun (quote = '"') c.fuel c
    if c.char = quote then pure (text, c.next)
    else
      let (blanks, c) ← quotedBlanks c
      let (more, c) ← quotedText quote fuel c
      pure (text ++ blanks ++ more, c)

def quotedScalar (c : Cursor) : Except Fault (List Char × Cursor) :=
  quotedText c.char c.fuel c.next

/-- What happens to the line breaks that end a block. -/
inductive Chomping where
  | clip
  | strip
  | keep
  deriving DecidableEq

def chomping? (c : Char) : Option Chomping :=
  if c = '+' then some .keep else if c = '-' then some .strip else none

/-- Reads the header of a block: chomping and indentation in either order. -/
def blockHeader (c : Cursor) : Except Fault (Chomping × Option Nat × Cursor) := do
  let digit? (c : Cursor) : Except Fault (Option Nat × Cursor) :=
    if c.char.isDigit then
      if c.char = '0' then flaw .badBlockHeader else pure (some (digitValue c.char), c.next)
    else pure (none, c)
  let (chomping, increment, c) ←
    match chomping? c.char with
    | some chomping =>
      let (increment, c) ← digit? c.next
      pure (chomping, increment, c)
    | none =>
      let (increment, c) ← digit? c
      match increment, chomping? c.char with
      | some _, some chomping => pure (chomping, increment, c.next)
      | _, _ => pure (Chomping.clip, increment, c)
  if !isSpaceOrEnd c.char then flaw .badBlockHeader
  else
    let c := c.skipSpaces.skipComment
    if !isBreakOrEnd c.char then flaw .badBlockHeader
    else pure (chomping, increment, c.takeBreak.2)

/-- Passes the blank lines that start a block: their breaks, and the widest indentation seen. -/
def blockStart : (fuel : Nat) → (widest : Nat) → Cursor → List Char × Nat × Cursor
  | 0, widest, c => ([], widest, c)
  | fuel + 1, widest, c =>
    if c.char = ' ' then
      let c := c.next
      blockStart fuel (max widest c.column) c
    else if isBreak c.char then
      let (lineBreak, c) := c.takeBreak
      let (breaks, widest, c) := blockStart fuel widest c
      (lineBreak ++ breaks, widest, c)
    else ([], widest, c)

def indentation (column : Nat) : (fuel : Nat) → Cursor → Cursor
  | 0, c => c
  | fuel + 1, c =>
    if c.column < column && c.char = ' ' then indentation column fuel c.next else c

/-- Passes blank lines in a block and the indentation of the line that follows. -/
def blockBreaks (column : Nat) : (fuel : Nat) → Cursor → List Char × Cursor
  | 0, c => ([], c)
  | fuel + 1, c =>
    let c := indentation column c.fuel c
    if isBreak c.char then
      let (lineBreak, c) := c.takeBreak
      let (breaks, c) := blockBreaks column fuel c
      (lineBreak ++ breaks, c)
    else ([], c)

/-- Reads the lines of a block that starts with some blank lines: its text without the last line
break, that break, and the blank lines behind it. -/
def blockLines (folded : Bool) (column : Nat) : (fuel : Nat) → (breaks : List Char) → Cursor →
    List Char × List Char × List Char × Cursor
  | 0, breaks, c => ([], [], breaks, c)
  | fuel + 1, breaks, c =>
    if c.column = column && !c.rest.isEmpty then
      let flush := c.char ≠ ' ' && c.char ≠ '\t'
      let (text, c) := c.takeWhile (!isBreakOrEnd ·)
      let (lineBreak, c) := c.takeBreak
      let (after, c) := blockBreaks column c.fuel c
      if c.column = column && !c.rest.isEmpty then
        let joint :=
          if folded && lineBreak = ['\n'] && flush && c.char ≠ ' ' && c.char ≠ '\t' then
            if after.isEmpty then [' '] else []
          else lineBreak
        let (more, last, breaksAfter, c) := blockLines folded column fuel after c
        (breaks ++ text ++ joint ++ more, last, breaksAfter, c)
      else (breaks ++ text, lineBreak, after, c)
    else ([], [], breaks, c)

/-- Reads a block scalar inside a collection that is indented to `indent`. -/
def blockScalar (indent : Int) (c : Cursor) : Except Fault (List Char × Cursor) := do
  let folded := c.char = '>'
  let (chomping, increment, c) ← blockHeader c.next
  let least := (max (indent + 1) 1).toNat
  let (breaks, column, c) :=
    match increment with
    | none =>
      let (breaks, widest, c) := blockStart c.fuel 0 c
      (breaks, max least widest, c)
    | some n =>
      let column := least + n - 1
      let (breaks, c) := blockBreaks column c.fuel c
      (breaks, column, c)
  let (text, last, after, c) := blockLines folded column c.fuel breaks c
  let text := if chomping = .strip then text else text ++ last
  pure (if chomping = .keep then text ++ after else text, c)

/-- Where a plain scalar ends: before a gap, before a colon that ends a key, and inside brackets
before what has a meaning there. -/
def plainEnds (flow : Bool) (c : Char) (after : Char) : Bool :=
  let bracket (c : Char) : Bool := c = ',' || c = '[' || c = ']' || c = '{' || c = '}'
  isGap c || (c = ':' && (isGap after || (flow && bracket after))) ||
    (flow && (bracket c || c = '?'))

def plainRun (flow : Bool) : List Char → List Char
  | [] => []
  | c :: cs => if plainEnds flow c (cs.head?.getD endMark) then [] else c :: plainRun flow cs

/-- Passes blank lines inside a plain scalar, `none` where a document ends. -/
def plainBreaks? : (fuel : Nat) → Cursor → Option (List Char) × Cursor
  | 0, c => (some [], c)
  | fuel + 1, c =>
    if c.char = ' ' then plainBreaks? fuel c.next
    else if isBreak c.char then
      let (lineBreak, c) := c.takeBreak
      if c.seesSeparator then (none, c)
      else
        let (breaks, c) := plainBreaks? fuel c
        (breaks.map (lineBreak ++ ·), c)
    else (some [], c)

/-- Reads the gap behind a part of a plain scalar: what it contributes if the scalar goes on, and
whether a line ended. -/
def plainGap (c : Cursor) : List Char × Bool × Cursor :=
  let (blanks, c) := c.takeWhile (· = ' ')
  if isBreak c.char then
    let (lineBreak, c) := c.takeBreak
    if c.seesSeparator then ([], true, c)
    else
      match plainBreaks? c.fuel c with
      | (none, c) => ([], true, c)
      | (some breaks, c) =>
        if lineBreak ≠ ['\n'] then (lineBreak ++ breaks, true, c)
        else if breaks.isEmpty then ([' '], true, c)
        else (breaks, true, c)
  else (blanks, false, c)

/-- Reads the rest of a plain scalar: its text, whether a line ended behind the last part, and the
cursor. `gap` stands before the next part. -/
def plainParts (flow : Bool) (indent : Int) : (fuel : Nat) → (gap : List Char) →
    (ended : Bool) → Cursor → List Char × Bool × Cursor
  | 0, _, ended, c => ([], ended, c)
  | fuel + 1, gap, ended, c =>
    let text := if c.char = '#' then [] else plainRun flow c.rest
    if text.isEmpty then ([], ended, c)
    else
      let (after, ended, c) := plainGap (c.skip text.length)
      if after.isEmpty || c.char = '#' || (!flow && (c.column : Int) < indent + 1) then
        (gap ++ text, ended, c)
      else
        let (more, ended, c) := plainParts flow indent fuel after ended c
        (gap ++ text ++ more, ended, c)

/-- Reads a plain scalar inside a collection that is indented to `indent`. -/
def plainScalar (flow : Bool) (indent : Int) (c : Cursor) : List Char × Bool × Cursor :=
  plainParts flow indent c.fuel [] false c

end FieldSchema.Markup
