/-!
# Pattern terms

A pattern is a sequence of terms. Literals are code points, so that a pattern may name one that no
text contains. `Term.widths` gives the least and the greatest length of what a sequence can match;
a look-behind must have one length.
-/

namespace FieldSchema.Pattern

/-- A mode that part of a pattern is matched in. -/
inductive Flag where
  | ignoreCase
  | multiline
  | dotAll
  | verbose
  | ascii
  | unicode
  | locale
  | template
  deriving DecidableEq

namespace Flag

/-- Whether a flag chooses the alphabet; only one of these is in force. -/
def isAlphabet : Flag → Bool
  | .ascii | .unicode | .locale => true
  | _ => false

/-- The flags in force inside a group that adds some and removes others. -/
def combine (flags add remove : List Flag) : List Flag :=
  let kept := if add.any isAlphabet then flags.filter (!·.isAlphabet) else flags
  (kept ++ add).filter fun f => !remove.contains f

end Flag

/-- A class of characters with a letter of its own. -/
inductive Category where
  | digit
  | space
  | word
  deriving DecidableEq

/-- A member of a character set. -/
inductive SetItem where
  | code (n : Nat)
  | range (low high : Nat)
  | category (c : Category) (negated : Bool)
  deriving DecidableEq

/-- A place in the text. -/
inductive Anchor where
  | lineStart
  | lineEnd
  | textStart
  | textEnd
  | boundary
  | notBoundary
  deriving DecidableEq

/-- How many repetitions are tried first, and whether fewer or more are tried later. -/
inductive Greed where
  | greedy
  | reluctant
  | possessive
  deriving DecidableEq

/-- A term of a pattern. -/
inductive Term where
  | code (n : Nat)
  | any
  | set (negated : Bool) (items : List SetItem)
  | anchor (a : Anchor)
  | group (index : Option Nat) (add remove : List Flag) (body : List Term)
  | atomic (body : List Term)
  | repeat (greed : Greed) (least : Nat) (most : Option Nat) (body : List Term)
  | branch (alternatives : List (List Term))
  | look (ahead negated : Bool) (body : List Term)
  | reference (index : Nat)
  | conditional (index : Nat) (yes no : List Term)

def maxWidth : Nat := Nat.pow 2 64

namespace Term

mutual

/-- The least and the greatest width of a term, given the widths of the groups. -/
def widths (groups : Nat → Nat × Nat) : Term → Nat × Nat
  | .code _ | .any | .set .. => (1, 1)
  | .anchor _ | .look .. => (0, 0)
  | .group _ _ _ body | .atomic body => bodyWidths groups body
  | .repeat _ least most body =>
    let (low, high) := bodyWidths groups body
    (low * least,
      match most with
      | some most => high * most
      | none => if high = 0 then 0 else maxWidth)
  | .branch alternatives => branchWidths groups alternatives
  | .reference index => groups index
  | .conditional _ yes no =>
    let (lowYes, highYes) := bodyWidths groups yes
    let (lowNo, highNo) := bodyWidths groups no
    (min lowYes lowNo, max highYes highNo)
  termination_by structural t => t

def bodyWidths (groups : Nat → Nat × Nat) : List Term → Nat × Nat
  | [] => (0, 0)
  | t :: ts =>
    let (low, high) := widths groups t
    let (lows, highs) := bodyWidths groups ts
    (min (low + lows) maxWidth, min (high + highs) maxWidth)
  termination_by structural ts => ts

def branchWidths (groups : Nat → Nat × Nat) : List (List Term) → Nat × Nat
  | [] => (maxWidth, 0)
  | body :: bodies =>
    let (low, high) := bodyWidths groups body
    let (lows, highs) := branchWidths groups bodies
    (min low lows, max high highs)
  termination_by structural bodies => bodies

end

/-- Whether a term is a place in the text, which cannot be repeated. -/
def isAnchor : Term → Bool
  | .anchor _ => true
  | _ => false

/-- Whether a term is a repetition, which cannot be repeated directly. -/
def isRepeat : Term → Bool
  | .repeat .. => true
  | _ => false

end Term

end FieldSchema.Pattern
