import FieldSchema.Calendar.Date

/-!
# Dates with a time of day

A `DateTime` is a date with a clock time to the microsecond and, if it is zoned, an offset from
universal time. Two are compared on one line of microseconds: zoned ones by the instant they name,
the others as written. A zoned one and one that is not are compared after the zone is dropped.
-/

namespace FieldSchema

def microsPerDay : Nat := 86400000000

/-- An offset from universal time in microseconds, less than a day either way. -/
structure Offset where
  micros : Int
  bounds : -(microsPerDay : Int) < micros ∧ micros < microsPerDay
  deriving DecidableEq

/-- The offset of a number of microseconds, unless it is a day or more. -/
def Offset.ofMicros? (micros : Int) : Option Offset :=
  if h : -(microsPerDay : Int) < micros ∧ micros < microsPerDay then some ⟨micros, h⟩ else none

def Offset.utc : Offset := ⟨0, by decide⟩

/-- A time of day. -/
structure Clock where
  hour : Nat
  minute : Nat
  second : Nat
  micro : Nat
  hour_lt : hour < 24
  minute_lt : minute < 60
  second_lt : second < 60
  micro_lt : micro < 1000000
  deriving DecidableEq

namespace Clock

def midnight : Clock := ⟨0, 0, 0, 0, by decide, by decide, by decide, by decide⟩

/-- The time of four numbers, or the first of them that is out of range. Microseconds beyond a
second are cut. -/
def ofParts (hour minute second micro : Nat) : Except CalendarFault Clock :=
  if hh : hour < 24 then
    if hm : minute < 60 then
      if hs : second < 60 then
        .ok ⟨hour, minute, second, micro % 1000000, hh, hm, hs, Nat.mod_lt _ (by decide)⟩
      else .error .second
    else .error .minute
  else .error .hour

def toMicros (c : Clock) : Nat := ((c.hour * 60 + c.minute) * 60 + c.second) * 1000000 + c.micro

end Clock

/-- A date and a time of day, with an offset if zoned. -/
structure DateTime where
  date : Date
  clock : Clock
  offset : Option Offset
  deriving DecidableEq

namespace DateTime

def ofDate (d : Date) : DateTime := ⟨d, .midnight, none⟩

def isZoned (t : DateTime) : Bool := t.offset.isSome

def dropZone (t : DateTime) : DateTime := { t with offset := none }

/-- Microseconds since the start of the calendar, as written. -/
def localMicros (t : DateTime) : Int := t.date.toOrdinal * microsPerDay + t.clock.toMicros

/-- Microseconds since the start of the calendar, in universal time if the offset is known. -/
def instant (t : DateTime) : Int :=
  t.localMicros - match t.offset with
    | some offset => offset.micros
    | none => 0

/-- A pair that can be ordered: the zone is dropped from both unless both or neither have one. -/
def comparable (a b : DateTime) : DateTime × DateTime :=
  if a.isZoned = b.isZoned then (a, b) else (a.dropZone, b.dropZone)

def before (a b : DateTime) : Bool := a.instant < b.instant

/-- The same instant. One with a zone never equals one without. -/
def same (a b : DateTime) : Bool := a.isZoned = b.isZoned && a.instant = b.instant

def notAfter (a b : DateTime) : Bool :=
  let (a, b) := comparable a b
  a.instant ≤ b.instant

end DateTime

end FieldSchema
