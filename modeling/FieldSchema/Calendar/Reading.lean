import FieldSchema.Calendar.Written
import FieldSchema.Text.Blank

/-!
# Reading dates

ISO 8601 in the basic and the extended form: calendar dates and week dates, then optionally one
separator of any kind, a time of day and an offset. Of a fraction six digits count. Where the date
ends is decided from the characters after the year, before anything is read.

Positions are those of the text's UTF-8 form, so every character is first repeated as often as it
has bytes. One that is not ASCII is never accepted outside the separator, and its copies keep the
positions right.
-/

namespace FieldSchema

/-- Why a text is not a date. -/
inductive DateTextFault where
  | malformed (text : List Char)
  | calendar (fault : CalendarFault)
  | offset (micros : Int)
  deriving DecidableEq

namespace DateText

def widen (cs : List Char) : List Char := cs.flatMap fun c => List.replicate c.utf8Size c

/-- Reads exactly `count` digits. -/
def readDigits? (count : Nat) (cs : List Char) : Option (Nat × List Char) :=
  let digits := cs.take count
  if digits.length = count ∧ digits.all Char.isDigit then
    some (digits.foldl (fun n c => 10 * n + (c.toNat - '0'.toNat)) 0, cs.drop count)
  else none

/-- The position where the date ends and the separator stands; `none` where no date can stand. -/
def separatorPosition? (cs : List Char) : Option Nat :=
  let digitAt (i : Nat) : Bool := (cs[i]?.map Char.isDigit).getD false
  if cs.length = 7 then some 7
  else if cs[4]? = some '-' then
    if cs[5]? = some 'W' then
      if cs.length < 8 then none
      else if cs[8]? = some '-' then
        if cs.length = 9 then none else if digitAt 10 then some 8 else some 10
      else some 8
    else some 10
  else if cs[4]? = some 'W' then
    let past := 7 + ((cs.drop 7).takeWhile Char.isDigit).length
    if past < 9 then some past else if past % 2 = 0 then some 7 else some 8
  else some 8

/-- Reads a date that fills the first `length` characters: year, month and day as numbers, not yet
checked against the calendar. -/
def readDate? (length : Nat) (cs : List Char) : Option (Nat × Nat × Nat) := do
  let (year, rest) ← readDigits? 4 cs
  let dashed := rest.head? = some '-'
  let rest := if dashed then rest.drop 1 else rest
  if rest.head? = some 'W' then
    let (week, rest) ← readDigits? 2 (rest.drop 1)
    if cs.length - rest.length < length then
      if dashed ∧ rest.head? ≠ some '-' then none
      else
        let (day, _) ← readDigits? 1 (if dashed then rest.drop 1 else rest)
        Date.partsOfWeek? year week day
    else Date.partsOfWeek? year week 1
  else
    let (month, rest) ← readDigits? 2 rest
    if dashed ∧ rest.head? ≠ some '-' then none
    else
      let (day, _) ← readDigits? 2 (if dashed then rest.drop 1 else rest)
      some (year, month, day)

/-- Numbers of a clock time as read, and whether text is left over behind them. -/
structure ClockParts where
  hour : Nat
  minute : Nat
  second : Nat
  micro : Nat
  extra : Bool

/-- Whether text is left over; a zero character ends the text. -/
def isExtra : List Char → Bool
  | [] => false
  | c :: _ => c ≠ '\x00'

/-- Reads a fraction of a second: up to six digits, further digits being passed over. -/
def readFraction? (cs : List Char) : Option (Nat × Bool) := do
  let count := min 6 cs.length
  let (n, rest) ← readDigits? count cs
  some (n * Nat.pow 10 (6 - count), isExtra (rest.dropWhile Char.isDigit))

/-- What follows a two-digit number of a clock time. -/
inductive ClockStep where
  | done (extra : Bool)
  | next (rest : List Char)
  | fraction (rest : List Char)
  | bad

/-- Decides on the character behind a number. A last character of any kind counts as left over.
With colons another colon leads on, without them the next digit does, and a point or a comma starts
the fraction. -/
def clockStep (colons : Bool) : List Char → ClockStep
  | [] => .done false
  | [c] => .done (c ≠ '\x00')
  | c :: rest =>
    if colons ∧ c = ':' then .next rest
    else if c = '.' ∨ c = ',' then .fraction rest
    else if colons then .bad
    else .next (c :: rest)

/-- Reads a clock time: hours, minutes and seconds of two digits each, as many as there are, and a
fraction. -/
def readClock? (cs : List Char) : Option ClockParts := do
  let (hour, rest) ← readDigits? 2 cs
  let colons := rest.head? = some ':'
  match clockStep colons rest with
  | .bad => none
  | .done extra => some ⟨hour, 0, 0, 0, extra⟩
  | .fraction rest =>
    let (micro, extra) ← readFraction? rest
    some ⟨hour, 0, 0, micro, extra⟩
  | .next rest =>
    let (minute, rest) ← readDigits? 2 rest
    match clockStep colons rest with
    | .bad => none
    | .done extra => some ⟨hour, minute, 0, 0, extra⟩
    | .fraction rest =>
      let (micro, extra) ← readFraction? rest
      some ⟨hour, minute, 0, micro, extra⟩
    | .next rest =>
      let (second, rest) ← readDigits? 2 rest
      match clockStep colons rest with
      | .bad => none
      | .done extra => some ⟨hour, minute, second, 0, extra⟩
      | .fraction rest | .next rest =>
        let (micro, extra) ← readFraction? rest
        some ⟨hour, minute, second, micro, extra⟩

def startsOffset (c : Char) : Bool := c = '+' || c = '-' || c = 'Z'

/-- Reads a time of day and the microseconds of its offset, if it has one. Only before an offset
may text be left over behind the clock time. -/
def readTime? (cs : List Char) : Option (ClockParts × Option Int) := do
  let (front, zone) := cs.span (!startsOffset ·)
  let parts ← readClock? front
  match zone with
  | [] => if parts.extra then none else some (parts, none)
  | 'Z' :: rest => if isExtra rest then none else some (parts, some 0)
  | sign :: rest =>
    let offset ← readClock? rest
    if offset.extra then none
    else
      let seconds := (offset.hour * 60 + offset.minute) * 60 + offset.second
      -- an offset of no whole seconds is universal time, whatever its fraction
      let size : Int := if seconds = 0 then 0 else (seconds * 1000000 + offset.micro : Nat)
      some (parts, some (if sign = '-' then -size else size))

/-- The numbers of a date and time as read, before they are checked. -/
def readParts? (cs : List Char) :
    Option ((Nat × Nat × Nat) × Option (ClockParts × Option Int)) := do
  let wide := widen cs
  let position ← separatorPosition? wide
  let date ← readDate? position wide
  match wide.drop position with
  | [] => some (date, none)
  | separator :: rest =>
    let time ← readTime? (rest.drop (separator.utf8Size - 1))
    some (date, some time)

/-- Checks the numbers of a date and time: first the offset, then the date, then the clock. -/
def checkParts (date : Nat × Nat × Nat) (time : Option (ClockParts × Option Int)) :
    Except DateTextFault DateTime := do
  let offset ←
    match time with
    | some (_, some micros) =>
      match Offset.ofMicros? micros with
      | some offset => pure (some offset)
      | none => throw (.offset micros)
    | _ => pure none
  let (year, month, day) := date
  let date ← (Date.ofParts year month day).mapError .calendar
  let clock ←
    match time with
    | some (parts, _) =>
      (Clock.ofParts parts.hour parts.minute parts.second parts.micro).mapError .calendar
    | none => pure .midnight
  pure ⟨date, clock, offset⟩

def readExact (cs : List Char) : Except DateTextFault DateTime :=
  match readParts? cs with
  | some (date, time) => checkParts date time
  | none => .error (.malformed cs)

/-- Spells a final `Z` as the offset it stands for. -/
def spellZulu (cs : List Char) : List Char :=
  if cs.getLast? = some 'Z' then cs.dropLast ++ "+00:00".toList else cs

end DateText

/-- Reads a date or a date and time, blanks around it being passed over. -/
def DateTime.read (cs : List Char) : Except DateTextFault DateTime :=
  DateText.readExact (DateText.spellZulu (Text.trim cs))

/-- Reads a date or a date and time, `none` where there is none. -/
def DateTime.read? (cs : List Char) : Option DateTime := (DateTime.read cs).toOption

end FieldSchema
