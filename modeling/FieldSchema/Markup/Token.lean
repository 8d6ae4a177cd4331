import FieldSchema.Markup.Scalar

/-!
# Tokens

A declaration text is first cut into tokens. Indentation becomes tokens that open and close block
collections. A simple key, one written without a question mark, is recognised only at the colon
behind it, so its place among the tokens is remembered and the tokens that open it are put in there
later. It must stand on one line and be at most 1024 characters long.
-/

namespace FieldSchema.Markup

/-- A token. -/
inductive Token where
  | version (major : Nat)
  | handle (name expansion : List Char)
  | directive
  | documentStart
  | documentEnd
  | sequenceStart
  | mappingStart
  | blockEnd
  | listStart
  | listEnd
  | recordStart
  | recordEnd
  | entry
  | separator
  | key
  | value
  | alias (name : List Char)
  | anchor (name : List Char)
  | tag (handle : Option (List Char)) (suffix : List Char)
  | scalar (text : List Char) (plain : Bool)
  deriving DecidableEq

/-- A place where a simple key may have begun: the number of its first token, whether it must be a
key, and its place in the text. -/
structure KeyPlace where
  token : Nat
  required : Bool
  index : Nat
  line : Nat
  column : Nat

/-- What has been cut so far. -/
structure Scan where
  cursor : Cursor
  tokens : Array Token
  /-- How many brackets are open. -/
  depth : Nat
  /-- The column of the innermost block collection, `-1` outside all. -/
  indent : Int
  /-- The columns of the collections around it. -/
  outer : List Int
  /-- Whether a simple key may begin here. -/
  keyAllowed : Bool
  /-- Where one may have begun, by bracket depth. -/
  places : List (Nat × KeyPlace)

def maxKeyLength : Nat := 1024

namespace Scan

/-- The start of a text; a byte order mark there is passed. -/
def start (cs : List Char) : Scan := ⟨.start cs, #[], 0, -1, [], true, []⟩

def push (s : Scan) (t : Token) : Scan := { s with tokens := s.tokens.push t }

/-- Passes `n` characters. -/
def skip (s : Scan) (n : Nat) : Scan := { s with cursor := s.cursor.skip n }

def insert (s : Scan) (position : Nat) (t : Token) : Scan :=
  { s with tokens := (s.tokens.take position).push t ++ s.tokens.drop position }

/-- Passes spaces, comments and line breaks up to the next token. Outside brackets a simple key may
begin on a new line. -/
def toNextToken : (fuel : Nat) → Scan → Scan
  | 0, s => s
  | fuel + 1, s =>
    let c := s.cursor.skipSpaces.skipComment
    if isBreak c.char then
      toNextToken fuel
        { s with cursor := c.takeBreak.2, keyAllowed := s.keyAllowed || s.depth = 0 }
    else { s with cursor := c }

def dropStale (s : Scan) : Except Fault Scan :=
  let stale (k : KeyPlace) : Bool :=
    k.line ≠ s.cursor.line || maxKeyLength < s.cursor.index - k.index
  if s.places.any fun (_, k) => stale k && k.required then flaw .keyWithoutValue
  else .ok { s with places := s.places.filter fun (_, k) => !stale k }

def dropPlace (s : Scan) : Except Fault Scan :=
  match s.places.lookup s.depth with
  | some k =>
    if k.required then flaw .keyWithoutValue
    else .ok { s with places := s.places.filter (·.1 ≠ s.depth) }
  | none => .ok s

/-- Remembers that a simple key may begin with the next token. -/
def savePlace (s : Scan) : Except Fault Scan :=
  if s.keyAllowed then do
    let required := s.depth = 0 && s.indent = s.cursor.column
    let s ← s.dropPlace
    let place : KeyPlace :=
      ⟨s.tokens.size, required, s.cursor.index, s.cursor.line, s.cursor.column⟩
    pure { s with places := s.places ++ [(s.depth, place)] }
  else .ok s

/-- Closes the block collections that are indented further than a column. -/
def closeTo (column : Int) : List Int → Scan → Scan
  | [], s => s
  | outer :: rest, s =>
    if column < s.indent then
      closeTo column rest { s.push .blockEnd with indent := outer, outer := rest }
    else s

def unwind (s : Scan) (column : Int) : Scan :=
  if s.depth = 0 then closeTo column s.outer s else s

/-- Opens a block collection at a column if it is indented further than the innermost one. -/
def openBlock (s : Scan) (column : Nat) (position : Nat) (t : Token) : Scan :=
  if s.indent < column then
    { s.insert position t with indent := column, outer := s.indent :: s.outer }
  else s

def openBracket (s : Scan) (t : Token) : Except Fault Scan := do
  let s ← s.savePlace
  pure { (s.push t).skip 1 with depth := s.depth + 1, keyAllowed := true }

def closeBracket (s : Scan) (t : Token) : Except Fault Scan := do
  let s ← s.dropPlace
  pure { (s.push t).skip 1 with depth := s.depth - 1, keyAllowed := false }

/-- Takes a marker of three characters that starts or ends a document. -/
def documentMarker (s : Scan) (t : Token) : Except Fault Scan := do
  let s ← (s.unwind (-1)).dropPlace
  pure { (s.push t).skip 3 with keyAllowed := false }

def flowSeparator (s : Scan) : Except Fault Scan := do
  let s ← s.dropPlace
  pure { (s.push .separator).skip 1 with keyAllowed := true }

def blockEntry (s : Scan) : Except Fault Scan := do
  if s.depth = 0 && !s.keyAllowed then flaw .entryNotAllowed
  else
    let s :=
      if s.depth = 0 then s.openBlock s.cursor.column s.tokens.size .sequenceStart else s
    let s ← s.dropPlace
    pure { (s.push .entry).skip 1 with keyAllowed := true }

def explicitKey (s : Scan) : Except Fault Scan := do
  if s.depth = 0 && !s.keyAllowed then flaw .keyNotAllowed
  else
    let s := if s.depth = 0 then s.openBlock s.cursor.column s.tokens.size .mappingStart else s
    let s ← s.dropPlace
    pure { (s.push .key).skip 1 with keyAllowed := s.depth = 0 }

/-- Takes the colon of a value. If a simple key may have begun, it has, and is opened now. -/
def valueMark (s : Scan) : Except Fault Scan := do
  match s.places.lookup s.depth with
  | some k =>
    let s := { s with places := s.places.filter (·.1 ≠ s.depth), keyAllowed := false }
    let s := s.insert k.token .key
    let s := if s.depth = 0 then s.openBlock k.column k.token .mappingStart else s
    pure ((s.push .value).skip 1)
  | none =>
    if s.depth = 0 && !s.keyAllowed then flaw .valueNotAllowed
    else
      let s := if s.depth = 0 then s.openBlock s.cursor.column s.tokens.size .mappingStart else s
      let s ← s.dropPlace
      pure { (s.push .value).skip 1 with keyAllowed := s.depth = 0 }

def endsAnchor (c : Char) : Bool :=
  isGap c || c = '?' || c = ':' || c = ',' || c = ']' || c = '}' || c = '%' || c = '@' || c = '\x60'

def anchorName (s : Scan) (make : List Char → Token) : Except Fault Scan := do
  let s ← s.savePlace
  let (name, c) := s.cursor.next.takeWhile isNameChar
  if name.isEmpty || !endsAnchor c.char then flaw .badAnchor
  else pure { s.push (make name) with cursor := c, keyAllowed := false }

def decodeBytes? (bytes : List Nat) : Option (List Char) :=
  (String.fromUTF8? ⟨(bytes.map (·.toUInt8)).toArray⟩).map (·.toList)

/-- Reads bytes written as a percent sign and two hexadecimal digits each. -/
def percentBytes : (fuel : Nat) → Cursor → Except Fault (List Nat × Cursor)
  | 0, c => .ok ([], c)
  | fuel + 1, c => do
    if c.char = '%' then
      let digits := c.next.rest.take 2
      if digits.length = 2 && digits.all isHex then
        let (more, c) ← percentBytes fuel (c.skip 3)
        pure (digitsValue 16 digits :: more, c)
      else flaw .badTag
    else pure ([], c)

def isTagChar (c : Char) : Bool := isNameChar c || ";/?:@&=+$,_.!~*'()[]".toList.contains c

def tagText : (fuel : Nat) → Cursor → Except Fault (List Char × Cursor)
  | 0, c => .ok ([], c)
  | fuel + 1, c => do
    let (text, c) := c.takeWhile isTagChar
    if c.char = '%' then
      let (bytes, c) ← percentBytes c.fuel c
      match decodeBytes? bytes with
      | some decoded =>
        let (more, c) ← tagText fuel c
        pure (text ++ decoded ++ more, c)
      | none => flaw .badTag
    else pure (text, c)

def tagSuffix (c : Cursor) : Except Fault (List Char × Cursor) := do
  let (text, after) ← tagText c.fuel c
  if after.index = c.index then flaw .badTag else pure (text, after)

/-- Reads a tag handle: an exclamation mark, alone or with another one behind a name. -/
def tagHandle (c : Cursor) : Except Fault (List Char × Cursor) := do
  if c.char ≠ '!' then flaw .badTag
  else if c.ahead 1 = ' ' then pure (['!'], c.next)
  else
    let (name, c) := c.next.takeWhile isNameChar
    if c.char = '!' then pure ('!' :: name ++ ['!'], c.next) else flaw .badTag

/-- Takes a tag: verbatim in angle brackets, the bare mark, or a handle and a suffix. -/
def tag (s : Scan) : Except Fault Scan := do
  let s ← s.savePlace
  let c := s.cursor
  let after := c.ahead 1
  let (handle, suffix, c) ←
    if after = '<' then
      let (suffix, c) ← tagSuffix (c.skip 2)
      if c.char ≠ '>' then flaw .badTag else pure (none, suffix, c.next)
    else if isGap after then pure (none, ['!'], c.next)
    else
      let word := c.next.run (!isSpaceOrEnd ·)
      let (handle, c) ← if word.contains '!' then tagHandle c else pure (['!'], c.next)
      let (suffix, c) ← tagSuffix c
      pure (some handle, suffix, c)
  if !isSpaceOrEnd c.char then flaw .badTag
  else pure { s.push (.tag handle suffix) with cursor := c, keyAllowed := false }

def versionPart (c : Cursor) : Except Fault (Nat × Cursor) :=
  let (digits, after) := c.takeWhile Char.isDigit
  if digits.isEmpty then flaw .badDirective else .ok (digitsValue 10 digits, after)

/-- Reads a directive behind its percent sign, up to the end of its line. -/
def directiveToken (c : Cursor) : Except Fault (Token × Cursor) := do
  let (name, c) := c.takeWhile isNameChar
  if name.isEmpty || !isSpaceOrEnd c.char then flaw .badDirective
  else if name = "YAML".toList then
    let (major, c) ← versionPart c.skipSpaces
    if c.char ≠ '.' then flaw .badDirective
    else
      let (_, c) ← versionPart c.next
      if !isSpaceOrEnd c.char then flaw .badDirective else pure (.version major, c)
  else if name = "TAG".toList then
    let (handle, c) ← tagHandle c.skipSpaces
    if c.char ≠ ' ' then flaw .badDirective
    else
      let (expansion, c) ← tagSuffix c.skipSpaces
      if !isSpaceOrEnd c.char then flaw .badDirective else pure (.handle handle expansion, c)
  else pure (.directive, c.skipWhile (!isBreakOrEnd ·))

def directive (s : Scan) : Except Fault Scan := do
  let s ← (s.unwind (-1)).dropPlace
  let (token, c) ← directiveToken s.cursor.next
  let c := c.skipSpaces.skipComment
  if !isBreakOrEnd c.char then flaw .badDirective
  else pure { s.push token with cursor := c.takeBreak.2, keyAllowed := false }

def quoted (s : Scan) : Except Fault Scan := do
  let s ← s.savePlace
  let (text, c) ← quotedScalar s.cursor
  pure { s.push (.scalar text false) with cursor := c, keyAllowed := false }

def block (s : Scan) : Except Fault Scan := do
  let s ← s.dropPlace
  let (text, c) ← blockScalar s.indent s.cursor
  pure { s.push (.scalar text false) with cursor := c, keyAllowed := true }

/-- Takes a plain scalar. If a line ended behind it, a simple key may follow. -/
def plain (s : Scan) : Except Fault Scan := do
  let s ← s.savePlace
  let (text, ended, c) := plainScalar (s.depth ≠ 0) s.indent s.cursor
  pure { s.push (.scalar text true) with cursor := c, keyAllowed := ended }

def seesPlain (s : Scan) : Bool :=
  let c := s.cursor.char
  if isGap c then false
  else if c = '-' then !isGap (s.cursor.ahead 1)
  else if c = '?' || c = ':' then s.depth = 0 && !isGap (s.cursor.ahead 1)
  else !",[]\x7b\x7d#&*!|>'\"%@\x60".toList.contains c

def step (s : Scan) : Except Fault Scan :=
  let c := s.cursor
  let ch := c.char
  if ch = '%' && c.column = 0 then s.directive
  else if c.column = 0 && c.seesMarker '-' then s.documentMarker .documentStart
  else if c.column = 0 && c.seesMarker '.' then s.documentMarker .documentEnd
  else if ch = '[' then s.openBracket .listStart
  else if ch = '{' then s.openBracket .recordStart
  else if ch = ']' then s.closeBracket .listEnd
  else if ch = '}' then s.closeBracket .recordEnd
  else if ch = ',' then s.flowSeparator
  else if ch = '-' && isGap (c.ahead 1) then s.blockEntry
  else if ch = '?' && (s.depth ≠ 0 || isGap (c.ahead 1)) then s.explicitKey
  else if ch = ':' && (s.depth ≠ 0 || isGap (c.ahead 1)) then s.valueMark
  else if ch = '*' then s.anchorName .alias
  else if ch = '&' then s.anchorName .anchor
  else if ch = '!' then s.tag
  else if (ch = '|' || ch = '>') && s.depth = 0 then s.block
  else if ch = '\'' || ch = '"' then s.quoted
  else if s.seesPlain then s.plain
  else flaw .unexpectedCharacter

def toEnd : (fuel : Nat) → Scan → Except Fault (Array Token)
  | 0, _ => flaw .tooDeep
  | fuel + 1, s => do
    let s := s.toNextToken s.cursor.fuel
    let s ← s.dropStale
    let s := s.unwind s.cursor.column
    if s.cursor.rest.isEmpty then
      let s ← (s.unwind (-1)).dropPlace
      pure s.tokens
    else
      let s ← s.step
      toEnd fuel s

end Scan

def isAllowed (c : Char) : Bool :=
  c = '\t' || c = '\n' || c = '\r' || (' ' ≤ c && c ≤ '~') || c = '\x85' ||
    ('\xa0' ≤ c && c ≠ '\ufffe' && c ≠ '\uffff')

/-- Cuts a text into tokens. A byte order mark at its start is passed. -/
def tokens (cs : List Char) : Except Fault (List Token) := do
  if !cs.all isAllowed then flaw .unprintable
  else
    let scan := Scan.start cs
    let scan := if scan.cursor.char = '\ufeff' then scan.skip 1 else scan
    let tokens ← scan.toEnd (cs.length + 2)
    pure tokens.toList

end FieldSchema.Markup
