import FieldSchema.Pattern.Reading
import FieldSchema.Text.Case

/-!
# Matching patterns

A pattern is matched by backtracking: a term is given a place in the text and what is to be matched
behind it, and tries its possibilities in order. `search` says whether a pattern matches anywhere.

A repetition that has its least count is entered again only after it has moved on, so the number of
its rounds is bounded by its least count and the length of the text.
-/

namespace FieldSchema.Pattern

def Category.holds (ascii : Bool) : Category → Char → Bool
  | .digit, c => if ascii then c.isDigit else Text.isDecimalDigit c
  | .space, c => if ascii then isLayout c else Text.isBlank c
  | .word, c => if ascii then Text.isAsciiWord c else Text.isWord c

/-- The code points that a character stands for under the flags. -/
def mates (flags : List Flag) (c : Char) : List Nat :=
  if !flags.contains .ignoreCase then [c.toNat]
  else if flags.contains .ascii then [c.toNat, c.toLower.toNat, c.toUpper.toNat]
  else c.toNat :: Text.caseMates c.toNat

/-- Whether a character, given with the code points that it stands for, is a member of a set. -/
def SetItem.holds (flags : List Flag) (codes : List Nat) (c : Char) : SetItem → Bool
  | .code n => codes.contains n
  | .range low high => codes.any fun n => low ≤ n && n ≤ high
  | .category kind negated => kind.holds (flags.contains .ascii) c != negated

def sameChar (flags : List Flag) (c d : Char) : Bool :=
  if !flags.contains .ignoreCase then c = d
  else if flags.contains .ascii then c.toLower = d.toLower
  else Text.lowerCode c.toNat = Text.lowerCode d.toNat

/-- A place in the text, with where each group was last entered and left. -/
structure Spot where
  position : Nat
  entered : List (Nat × Nat)
  left : List (Nat × Nat)

def Spot.span? (spot : Spot) (index : Nat) : Option (Nat × Nat) :=
  match spot.entered.lookup index, spot.left.lookup index with
  | some first, some last => if first ≤ last then some (first, last) else none
  | _, _ => none

/-- What is matched behind a term. -/
abbrev Rest := Spot → Option Spot

def wordAt (text : Array Char) (ascii : Bool) (position : Nat) : Bool :=
  match text[position]? with
  | some c => Category.word.holds ascii c
  | none => false

/-- Whether a place is where an anchor asks for. A text without characters has neither boundaries
nor places that are none. -/
def Anchor.holds (text : Array Char) (flags : List Flag) (position : Nat) : Anchor → Bool
  | .lineStart =>
    position = 0 || (flags.contains .multiline && text[position - 1]? = some '\n')
  | .lineEnd =>
    position = text.size || (text[position]? = some '\n' &&
      (flags.contains .multiline || position + 1 = text.size))
  | .textStart => position = 0
  | .textEnd => position = text.size
  | .boundary => !text.isEmpty && atBoundary
  | .notBoundary => !text.isEmpty && !atBoundary
where
  atBoundary : Bool :=
    let ascii := flags.contains .ascii
    (position ≠ 0 && wordAt text ascii (position - 1)) != wordAt text ascii position

def oneChar (text : Array Char) (test : Char → Bool) (spot : Spot) (rest : Rest) : Option Spot :=
  match text[spot.position]? with
  | some c => if test c then rest { spot with position := spot.position + 1 } else none
  | none => none

def repeatSpan (text : Array Char) (flags : List Flag) (first : Nat) : (count : Nat) → Spot →
    Rest → Option Spot
  | 0, spot, rest => rest spot
  | count + 1, spot, rest =>
    match text[first]?, text[spot.position]? with
    | some c, some d =>
      if sameChar flags c d then
        repeatSpan text flags (first + 1) count { spot with position := spot.position + 1 } rest
      else none
    | _, _ => none

/-- Whether another round is allowed after `count`. -/
def mayRepeat (most : Option Nat) (count : Nat) : Bool :=
  match most with
  | some most => count < most
  | none => true

/-- Rounds of a repetition that backtracks into them. `last` is where the previous optional round
began. -/
def rounds (body : Spot → Rest → Option Spot) (eager : Bool) (least : Nat) (most : Option Nat)
    (rest : Rest) : (fuel count : Nat) → (last : Option Nat) → Rest
  | 0, _, _, spot => rest spot
  | fuel + 1, count, last, spot =>
    if count < least then body spot (rounds body eager least most rest fuel (count + 1) last)
    else
      let again (_ : Unit) : Option Spot :=
        if mayRepeat most count && some spot.position ≠ last then
          body spot (rounds body eager least most rest fuel (count + 1) (some spot.position))
        else none
      if eager then
        match again () with
        | some spot => some spot
        | none => rest spot
      else
        match rest spot with
        | some spot => some spot
        | none => again ()

/-- Rounds of a repetition that keeps the first way each round matches. -/
def settledRounds (body : Spot → Option Spot) (least : Nat) (most : Option Nat) :
    (fuel count : Nat) → (last : Option Nat) → Spot → Option Spot
  | 0, _, _, spot => some spot
  | fuel + 1, count, last, spot =>
    if count < least then
      match body spot with
      | some spot => settledRounds body least most fuel (count + 1) last spot
      | none => none
    else if mayRepeat most count && some spot.position ≠ last then
      match body spot with
      | some next => settledRounds body least most fuel (count + 1) (some spot.position) next
      | none => some spot
    else some spot

mutual

def Term.run (text : Array Char) (groups : Nat → Nat × Nat) (flags : List Flag) :
    Term → Spot → Rest → Option Spot
  | .code n, spot, rest =>
    oneChar text (fun c => (mates flags c).contains n) spot rest
  | .any, spot, rest => oneChar text (fun c => flags.contains .dotAll || c ≠ '\n') spot rest
  | .set negated items, spot, rest =>
    oneChar text (fun c =>
      let codes := mates flags c
      items.any (·.holds flags codes c) != negated) spot rest
  | .anchor a, spot, rest => if a.holds text flags spot.position then rest spot else none
  | .group index add remove body, spot, rest =>
    let flags := Flag.combine flags add remove
    match index with
    | none => runBody text groups flags body spot rest
    | some index =>
      runBody text groups flags body { spot with entered := (index, spot.position) :: spot.entered }
        fun spot => rest { spot with left := (index, spot.position) :: spot.left }
  | .atomic body, spot, rest =>
    match runBody text groups flags body spot some with
    | some spot => rest spot
    | none => none
  | .repeat greed least most body, spot, rest =>
    let fuel := least + text.size + 2
    match greed with
    | .greedy => rounds (runBody text groups flags body) true least most rest fuel 0 none spot
    | .reluctant => rounds (runBody text groups flags body) false least most rest fuel 0 none spot
    | .possessive =>
      match settledRounds (runBody text groups flags body · some) least most fuel 0 none spot with
      | some spot => rest spot
      | none => none
  | .branch bodies, spot, rest => runBranch text groups flags bodies spot rest
  | .look ahead negated body, spot, rest =>
    let back := if ahead then 0 else (Term.bodyWidths groups body).1
    let found :=
      if spot.position < back then none
      else runBody text groups flags body { spot with position := spot.position - back } some
    match found with
    | some after => if negated then none else rest { after with position := spot.position }
    | none => if negated then rest spot else none
  | .reference index, spot, rest =>
    match spot.span? index with
    | some (first, last) => repeatSpan text flags first (last - first) spot rest
    | none => none
  | .conditional index yes no, spot, rest =>
    if (spot.span? index).isSome then runBody text groups flags yes spot rest
    else runBody text groups flags no spot rest
  termination_by structural t => t

def runBody (text : Array Char) (groups : Nat → Nat × Nat) (flags : List Flag) :
    List Term → Spot → Rest → Option Spot
  | [], spot, rest => rest spot
  | t :: ts, spot, rest =>
    Term.run text groups flags t spot fun spot => runBody text groups flags ts spot rest
  termination_by structural ts => ts

/-- Matches one of several alternatives, the first that leads on, and what follows it. -/
def runBranch (text : Array Char) (groups : Nat → Nat × Nat) (flags : List Flag) :
    List (List Term) → Spot → Rest → Option Spot
  | [], _, _ => none
  | body :: bodies, spot, rest =>
    match runBody text groups flags body spot rest with
    | some spot => some spot
    | none => runBranch text groups flags bodies spot rest
  termination_by structural bodies => bodies

end

def Compiled.matchesAt (p : Compiled) (text : Array Char) (position : Nat) : Bool :=
  (runBody text p.widthOf p.flags p.body ⟨position, [], []⟩ some).isSome

def Compiled.search (p : Compiled) (text : Array Char) : Bool :=
  (List.range (text.size + 1)).any (p.matchesAt text)

end FieldSchema.Pattern
