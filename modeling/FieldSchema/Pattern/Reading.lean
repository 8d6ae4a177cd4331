import FieldSchema.Pattern.Source

/-!
# Reading patterns

The grammar of regular expressions with groups, look-around, lazy and possessive repetition, named
groups, inline flags and conditionals. `read` gives the terms of a pattern and the flags it sets for
the whole, or the first fault in reading order.

The names of characters are not known, so an escape that names one is refused
(`Pattern.Reader.namedCode`).
-/

namespace FieldSchema.Pattern

/-- A pattern as it was read: the flags of the whole, the widths of its groups and its terms. -/
structure Compiled where
  flags : List Flag
  groups : List (Nat × Nat)
  body : List Term

def Compiled.widthOf (p : Compiled) (index : Nat) : Nat × Nat :=
  (p.groups[index - 1]?).getD (0, 0)

def Flag.ofLetter? (c : Char) : Option Flag :=
  match c with
  | 'i' => some .ignoreCase
  | 'L' => some .locale
  | 'm' => some .multiline
  | 's' => some .dotAll
  | 'x' => some .verbose
  | 'a' => some .ascii
  | 't' => some .template
  | 'u' => some .unicode
  | _ => none

def Symbol.flag? (s : Symbol) : Option Flag := if s.escaped then none else Flag.ofLetter? s.char

def isHexDigit (c : Char) : Bool := c.isDigit || ('a' ≤ c && c ≤ 'f') || ('A' ≤ c && c ≤ 'F')

def isOctalDigit (c : Char) : Bool := '0' ≤ c && c ≤ '7'

def isLayout (c : Char) : Bool :=
  c = ' ' || c = '\t' || c = '\n' || c = '\r' || c = '\x0b' || c = '\x0c'

/-- The control character that an escaped letter stands for. -/
def controlCode? (c : Char) : Option Nat :=
  match c with
  | 'a' => some 7
  | 'b' => some 8
  | 'f' => some 12
  | 'n' => some 10
  | 'r' => some 13
  | 't' => some 9
  | 'v' => some 11
  | '\\' => some 92
  | _ => none

def category? (c : Char) : Option SetItem :=
  match c with
  | 'd' => some (.category .digit false)
  | 'D' => some (.category .digit true)
  | 's' => some (.category .space false)
  | 'S' => some (.category .space true)
  | 'w' => some (.category .word false)
  | 'W' => some (.category .word true)
  | _ => none

def anchor? (c : Char) : Option Anchor :=
  match c with
  | 'A' => some .textStart
  | 'b' => some .boundary
  | 'B' => some .notBoundary
  | 'Z' => some .textEnd
  | _ => none

namespace Reader

/-- Reads a code point of exactly `count` hexadecimal digits. -/
def hexCode (letter : Char) (count : Nat) : Reader Nat := do
  let digits ← takeWhile isHexDigit count
  let escape := '\\' :: letter :: digits
  if digits.length ≠ count then fail (.incompleteEscape escape) escape.length
  else
    let n := digitsValue 16 digits
    if 0x10ffff < n then fail (.badEscape escape) escape.length else pure n

/-- Reads a character by its name in braces. No names are known. -/
def namedCode : Reader Nat := do
  if ← takeIf '{' then
    let name ← takeUntil '}' "character name"
    fail (.undefinedCharacter name) (name.length + 4)
  else fail (.missing "\x7b") 0

/-- Reads the octal code that starts with the given digits and takes up to two more. -/
def octalCode (first : Char) : Reader Nat := do
  let digits := first :: (← takeWhile isOctalDigit 2)
  let n := digitsValue 8 digits
  if 0o377 < n then fail (.octalTooLarge ('\\' :: digits)) (digits.length + 1) else pure n

/-- Reads the code point of an escape that both sets and sequences know, `none` for others. -/
def escapedCode? (c : Char) : Reader (Option Nat) := do
  if c = 'x' then some <$> hexCode c 2
  else if c = 'u' then some <$> hexCode c 4
  else if c = 'U' then some <$> hexCode c 8
  else if c = 'N' then some <$> namedCode
  else pure none

/-- An escaped character that has no meaning of its own stands for itself, unless it is a letter
or a digit. -/
def plainEscape (c : Char) : Reader Nat :=
  if c.isAlphanum then fail (.badEscape ['\\', c]) 2 else pure c.toNat

def setEscape (c : Char) : Reader SetItem := do
  match controlCode? c, category? c with
  | some n, _ => pure (.code n)
  | none, some item => pure item
  | none, none =>
    match ← escapedCode? c with
    | some n => pure (.code n)
    | none =>
      if isOctalDigit c then .code <$> octalCode c
      else .code <$> plainEscape c

def numberedReference (digits : List Char) : Reader Term := do
  let index := digitsValue 10 digits
  if index ≤ (← get).groups.length then
    if !(← isClosed index) then fail .openGroup (digits.length + 1)
    else
      checkLookBehind index
      pure (.reference index)
  else fail (.badReference index) digits.length

/-- Reads what follows a backslash and a digit: an octal code of three digits, or a group
number. -/
def digitEscape (first : Char) : Reader Term := do
  match ← takeWhile Char.isDigit 1 with
  | [second] =>
    if isOctalDigit first && isOctalDigit second then
      match ← takeWhile isOctalDigit 1 with
      | [third] =>
        let n := digitsValue 8 [first, second, third]
        if 0o377 < n then fail (.octalTooLarge ['\\', first, second, third]) 4
        else pure (.code n)
      | _ => numberedReference [first, second]
    else numberedReference [first, second]
  | _ => numberedReference [first]

def escape (c : Char) : Reader Term := do
  match anchor? c, category? c, controlCode? c with
  | some a, _, _ => pure (.anchor a)
  | none, some item, _ => pure (.set false [item])
  | none, none, some n => pure (.code n)
  | none, none, none =>
    match ← escapedCode? c with
    | some n => pure (.code n)
    | none =>
      if c = '0' then pure (.code (digitsValue 8 (c :: (← takeWhile isOctalDigit 2))))
      else if c.isDigit then digitEscape c
      else .code <$> plainEscape c

def setMember (symbol : Symbol) : Reader SetItem :=
  if symbol.escaped then setEscape symbol.char else pure (.code symbol.char.toNat)

/-- Takes a symbol of a set that began at `start`. -/
def takeInSet (start : Nat) : Reader Symbol := do
  match ← take with
  | some symbol => pure symbol
  | none => fail .unterminatedSet ((← position) - start)

/-- Reads the members of a set up to the bracket that closes it. A bracket that comes first is a
member, and so is a hyphen that comes last. -/
def setItems (start : Nat) : (fuel : Nat) → List SetItem → Reader (List SetItem)
  | 0, _ => throw .tooDeep
  | fuel + 1, items => do
    let symbol ← takeInSet start
    if symbol.is ']' && !items.isEmpty then pure items
    else
      let low ← setMember symbol
      if ← takeIf '-' then
        let last ← takeInSet start
        if last.is ']' then pure (items ++ [low, .code '-'.toNat])
        else
          let high ← setMember last
          let flaw := Flaw.badRange symbol.text last.text
          let back := symbol.text.length + 1 + last.text.length
          match low, high with
          | .code m, .code n =>
            if n < m then fail flaw back else setItems start fuel (items ++ [.range m n])
          | _, _ => fail flaw back
      else setItems start fuel (items ++ [low])

def characterSet : Reader Term := do
  let start := (← position) - 1
  let negated ← takeIf '^'
  let items ← setItems start ((← get).rest.length + 2) []
  pure (.set negated items)

def isLetter (c : Char) : Bool := Text.isWord c && !Text.isDecimalDigit c && c ≠ '_'

/-- The flaw of a symbol that stands where a flag or one of some marks is expected. -/
def flagFlaw (symbol : Symbol) (expected : String) : Flaw :=
  if !symbol.escaped && isLetter symbol.char then .unknownFlag else .missing expected

/-- Reads flags to be added, from one already taken, and the mark that ends them. -/
def addedFlags : (fuel : Nat) → Flag → List Flag → Reader (List Flag × Char)
  | 0, _, _ => throw .tooDeep
  | fuel + 1, flag, flags => do
    if flag = .locale then fail .localeFlag 0
    else if flag.isAlphabet && flags.any (fun f => f.isAlphabet && f ≠ flag) then
      fail .alphabetFlags 0
    else
      let flags := flags ++ [flag]
      match ← take with
      | none => fail (.missing "-, : or )") 0
      | some symbol =>
        if symbol.is ')' || symbol.is '-' || symbol.is ':' then pure (flags, symbol.char)
        else
          match symbol.flag? with
          | some next => addedFlags fuel next flags
          | none => fail (flagFlaw symbol "-, : or )") symbol.text.length

/-- Reads flags to be removed, from one already taken, up to the colon. -/
def removedFlags : (fuel : Nat) → Flag → List Flag → Reader (List Flag)
  | 0, _, _ => throw .tooDeep
  | fuel + 1, flag, flags => do
    if flag.isAlphabet then fail .removedAlphabet 0
    else
      let flags := flags ++ [flag]
      match ← take with
      | none => fail (.missing ":") 0
      | some symbol =>
        if symbol.is ':' then pure flags
        else
          match symbol.flag? with
          | some next => removedFlags fuel next flags
          | none => fail (flagFlaw symbol ":") symbol.text.length

/-- Reads the flags of a group, whose first symbol has been taken: those added and those removed, or
`none` if they were for the whole pattern. -/
def groupFlags (symbol : Symbol) : Reader (Option (List Flag × List Flag)) := do
  let fuel := (← get).rest.length + 2
  let (added, mark) ←
    match symbol.flag? with
    | some flag => addedFlags fuel flag []
    | none => pure ([], '-')
  if mark = ')' then
    modify fun s => { s with flags := s.flags ++ added }
    pure none
  else if added.contains .template then fail .globalAdded 1
  else
    let removed ←
      if mark = '-' then
        match ← take with
        | none => fail (.missing "flag") 0
        | some symbol =>
          match symbol.flag? with
          | some flag => removedFlags fuel flag []
          | none => fail (flagFlaw symbol "flag") symbol.text.length
      else pure []
    if removed.contains .template then fail .globalRemoved 1
    else if added.any removed.contains then fail .addedAndRemoved 1
    else pure (some (added, removed))

def skipLine : (fuel : Nat) → Reader Unit
  | 0 => throw .tooDeep
  | fuel + 1 => do
    match ← take with
    | none => pure ()
    | some symbol => if symbol.is '\n' then pure () else skipLine fuel

/-- Passes over a comment in a group that began at `start`. -/
def skipComment (start : Nat) : (fuel : Nat) → Reader Unit
  | 0 => throw .tooDeep
  | fuel + 1 => do
    match ← peek with
    | none => fail .unterminatedComment ((← position) - start)
    | some symbol =>
      discard take
      if symbol.is ')' then pure () else skipComment start fuel

/-- The greatest number of repetitions that can be asked for. -/
def maxRepeat : Nat := 4294967295

/-- Reads the bounds of a repetition behind its opening brace. A brace that does not enclose bounds
is a character, and reading goes on behind it. -/
def repeatBounds? : Reader (Option (Nat × Option Nat)) := do
  let start ← get
  let here := start.position
  if ← sees '}' then pure none
  else
    let fuel := start.rest.length + 1
    let low ← takeWhile Char.isDigit fuel
    let high ← if ← takeIf ',' then takeWhile Char.isDigit fuel else pure low
    if !(← takeIf '}') then
      set start
      pure none
    else
      let least := digitsValue 10 low
      let most := if high.isEmpty then none else some (digitsValue 10 high)
      if maxRepeat ≤ least then throw .repeatTooLarge
      else
        match most with
        | some n =>
          if maxRepeat ≤ n then throw .repeatTooLarge
          else if n < least then fail .repeatBounds ((← position) - here)
          else pure (some (least, most))
        | none => pure (some (least, none))

/-- Applies a repetition to the last term of a sequence in reverse. `mark` is the position of the
repetition sign. -/
def repeatLast (mark least : Nat) (most : Option Nat) (done : List Term) : Reader (List Term) := do
  match done with
  | [] => fail .nothingToRepeat ((← position) - mark)
  | last :: before =>
    if last.isAnchor then fail .nothingToRepeat ((← position) - mark)
    else if last.isRepeat then fail .multipleRepeat ((← position) - mark)
    else
      if ← takeIf '?' then pure (.repeat .reluctant least most [last] :: before)
      else if ← takeIf '+' then pure (.repeat .possessive least most [last] :: before)
      else pure (.repeat .greedy least most [last] :: before)

def conditionGroup : Reader Nat := do
  let name ← takeUntil ')' "group name"
  let back := name.length + 1
  if isName name then
    match (← get).names.find? (·.1 = name) with
    | some (_, index) => pure index
    | none => fail (.unknownName name) back
  else
    match readInt? (Text.trim name) with
    | some (.ofNat index) =>
      if index = 0 then fail .badGroupNumber back
      else
        modify fun s =>
          if s.references.any (·.1 = index) then s
          else { s with references := s.references ++ [(index, s.position - back)] }
        pure index
    | _ => fail (.badName name) back

def groupName (terminator : Char) : Reader (List Char) := do
  let name ← takeUntil terminator "group name"
  if isName name then pure name else fail (.badName name) (name.length + 1)

def namedReference : Reader Term := do
  let name ← groupName ')'
  match (← get).names.find? (·.1 = name) with
  | none => fail (.unknownName name) (name.length + 1)
  | some (_, index) =>
    if !(← isClosed index) then fail .openGroup (name.length + 1)
    else
      checkLookBehind index
      pure (.reference index)

/-- Takes the parenthesis that closes a group begun at `start`. -/
def takeClose (start : Nat) : Reader Unit := do
  if ← takeIf ')' then pure () else fail .unterminatedGroup ((← position) - start)

mutual

/-- Reads alternatives. `whole` says that they are those of the whole pattern. -/
def alternatives (whole : Bool) : (fuel : Nat) → (verbose : Bool) → (done : List (List Term)) →
    Reader (List Term)
  | 0, _, _ => throw .tooDeep
  | fuel + 1, verbose, done => do
    let body ← sequence (whole && done.isEmpty) fuel verbose []
    let done := done ++ [body]
    if ← takeIf '|' then
      let flags := (← get).flags
      let verbose := if whole then flags.contains .verbose else verbose
      alternatives whole fuel verbose done
    else
      pure (match done with
        | [body] => body
        | bodies => [.branch bodies])

/-- Reads terms up to the end of an alternative. `first` says that the sequence starts the whole
pattern, and `done` holds the terms read so far in reverse. -/
def sequence (first : Bool) : (fuel : Nat) → (verbose : Bool) → (done : List Term) →
    Reader (List Term)
  | 0, _, _ => throw .tooDeep
  | fuel + 1, verbose, done => do
    match ← peek with
    | none => pure done.reverse
    | some symbol =>
      if symbol.is '|' || symbol.is ')' then pure done.reverse
      else
        let mark ← position
        discard take
        if symbol.escaped then
          let term ← escape symbol.char
          sequence first fuel verbose (term :: done)
        else
          let c := symbol.char
          if verbose && isLayout c then sequence first fuel verbose done
          else if verbose && c = '#' then
            skipLine ((← get).rest.length + 2)
            sequence first fuel verbose done
          else if c = '[' then
            let term ← characterSet
            sequence first fuel verbose (term :: done)
          else if c = '?' then
            sequence first fuel verbose (← repeatLast mark 0 (some 1) done)
          else if c = '*' then
            sequence first fuel verbose (← repeatLast mark 0 none done)
          else if c = '+' then
            sequence first fuel verbose (← repeatLast mark 1 none done)
          else if c = '{' then
            match ← repeatBounds? with
            | none => sequence first fuel verbose (.code c.toNat :: done)
            | some (least, most) =>
              sequence first fuel verbose (← repeatLast mark least most done)
          else if c = '.' then sequence first fuel verbose (.any :: done)
          else if c = '^' then sequence first fuel verbose (.anchor .lineStart :: done)
          else if c = '$' then sequence first fuel verbose (.anchor .lineEnd :: done)
          else if c = '(' then
            match ← group (first && done.isEmpty) mark fuel verbose with
            | some term => sequence first fuel verbose (term :: done)
            | none =>
              let flags := (← get).flags
              let verbose := verbose || (first && done.isEmpty && flags.contains .verbose)
              sequence first fuel verbose done
          else sequence first fuel verbose (.code c.toNat :: done)

/-- Reads a group behind its opening parenthesis, which stands at `start`: its term, or `none` for
a comment or for flags of the whole pattern, which may stand only at its beginning. -/
def group (atStart : Bool) (start : Nat) : (fuel : Nat) → (verbose : Bool) → Reader (Option Term)
  | 0, _ => throw .tooDeep
  | fuel + 1, verbose => do
    if !(← takeIf '?') then
      some <$> capture none start fuel verbose
    else
      match ← take with
      | none => fail .unexpectedEnd 0
      | some symbol =>
        if symbol.is 'P' then
          if ← takeIf '<' then
            let name ← groupName '>'
            some <$> capture (some name) start fuel verbose
          else if ← takeIf '=' then some <$> namedReference
          else
            match ← take with
            | none => fail .unexpectedEnd 0
            | some next =>
              fail (.unknownExtension ('?' :: 'P' :: next.text)) (next.text.length + 2)
        else if symbol.is ':' then
          let body ← alternatives false fuel verbose []
          takeClose start
          pure (some (.group none [] [] body))
        else if symbol.is '#' then
          skipComment start ((← get).rest.length + 2)
          pure none
        else if symbol.is '=' || symbol.is '!' then
          let body ← alternatives false fuel verbose []
          takeClose start
          pure (some (.look true (symbol.is '!') body))
        else if symbol.is '<' then
          match ← take with
          | none => fail .unexpectedEnd 0
          | some next =>
            if !(next.is '=' || next.is '!') then
              fail (.unknownExtension ('?' :: '<' :: next.text)) (next.text.length + 2)
            else
              let outer := (← get).lookBehind
              modify fun s =>
                { s with lookBehind := some (outer.getD s.groups.length) }
              let body ← alternatives false fuel verbose []
              modify fun s => { s with lookBehind := outer }
              takeClose start
              pure (some (.look false (next.is '!') body))
        else if symbol.is '(' then
          let index ← conditionGroup
          checkLookBehind index
          let yes ← sequence false fuel verbose []
          let no ←
            if ← takeIf '|' then
              let no ← sequence false fuel verbose []
              if ← sees '|' then fail .manyBranches 0 else pure no
            else pure []
          takeClose start
          pure (some (.conditional index yes no))
        else if symbol.is '>' then
          let body ← alternatives false fuel verbose []
          takeClose start
          pure (some (.atomic body))
        else if symbol.flag?.isSome || symbol.is '-' then
          match ← groupFlags symbol with
          | none => if atStart then pure none else fail .lateFlags ((← position) - start)
          | some (add, remove) =>
            let verbose := (verbose || add.contains .verbose) && !remove.contains .verbose
            let body ← alternatives false fuel verbose []
            takeClose start
            pure (some (.group none add remove body))
        else fail (.unknownExtension ('?' :: symbol.text)) (symbol.text.length + 1)

def capture (name : Option (List Char)) (start : Nat) : (fuel : Nat) → (verbose : Bool) →
    Reader Term
  | 0, _ => throw .tooDeep
  | fuel + 1, verbose => do
    let index ← openGroup name
    let body ← alternatives false fuel verbose []
    takeClose start
    closeGroup index body
    pure (.group (some index) [] [] body)

end

def whole (fuel : Nat) : Reader Compiled := do
  let body ← alternatives true fuel false []
  let s ← get
  if s.flags.contains .ascii && s.flags.contains .unicode then throw .alphabetConflict
  else if s.next.isSome then fail .unbalanced 0
  else
    match s.references.find? (s.groups.length < ·.1) with
    | some (index, position) => throw (.flaw (.badReference index) position)
    | none => pure ⟨s.flags, s.groups.map (·.getD (0, 0)), body⟩

end Reader

def Greed.name : Greed → String
  | .greedy => "MAX_REPEAT"
  | .reluctant => "MIN_REPEAT"
  | .possessive => "POSSESSIVE_REPEAT"

mutual

/-- The first term in reading order that cannot be matched: a look-behind without a single width, or
a repetition in a template. -/
def Term.fault? (template : Bool) (groups : Nat → Nat × Nat) : Term → Option Fault
  | .group _ _ _ body | .atomic body => bodyFault? template groups body
  | .repeat greed _ _ body =>
    if template then some (.templateRepeat greed.name) else bodyFault? template groups body
  | .branch bodies => branchFault? template groups bodies
  | .look ahead _ body =>
    let (low, high) := Term.bodyWidths groups body
    if ahead then bodyFault? template groups body
    else if Reader.maxRepeat < low then some .lookBehindTooFar
    else if low ≠ high then some .lookBehindWidth
    else bodyFault? template groups body
  | .conditional _ yes no =>
    (bodyFault? template groups yes).or (bodyFault? template groups no)
  | _ => none
  termination_by structural t => t

def bodyFault? (template : Bool) (groups : Nat → Nat × Nat) : List Term → Option Fault
  | [] => none
  | t :: ts => (Term.fault? template groups t).or (bodyFault? template groups ts)
  termination_by structural ts => ts

def branchFault? (template : Bool) (groups : Nat → Nat × Nat) : List (List Term) → Option Fault
  | [] => none
  | body :: bodies => (bodyFault? template groups body).or (branchFault? template groups bodies)
  termination_by structural bodies => bodies

end

/-- Reads a pattern. Every step of the reader takes a symbol or enters a part, and parts are entered
by taking symbols, so a multiple of the length bounds the depth. -/
def read (cs : List Char) : Except Fault Compiled := do
  let source ← Source.start cs
  let (compiled, _) ← (Reader.whole (4 * cs.length + 8)).run source
  match bodyFault? (compiled.flags.contains .template) compiled.widthOf compiled.body with
  | some fault => throw fault
  | none => pure compiled

end FieldSchema.Pattern
