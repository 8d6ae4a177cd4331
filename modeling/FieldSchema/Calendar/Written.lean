import FieldSchema.Calendar.DateTime

/-!
# Written dates

The extended ISO 8601 form: `2020-04-15`, `2020-04-15T10:30:00.000005+02:00`. A fraction is written
with six digits where it is not zero, and the seconds of an offset only where they are not zero.
-/

namespace FieldSchema

/-- A number padded with zeros to `width` digits. -/
def padded (width : Nat) (n : Nat) : List Char :=
  let digits := Nat.toDigits 10 n
  List.replicate (width - digits.length) '0' ++ digits

def Date.written (d : Date) : List Char :=
  padded 4 d.year ++ '-' :: padded 2 d.month ++ '-' :: padded 2 d.day

def fractionWritten (micro : Nat) : List Char :=
  if micro = 0 then [] else '.' :: padded 6 micro

def Clock.written (c : Clock) : List Char :=
  padded 2 c.hour ++ ':' :: padded 2 c.minute ++ ':' :: padded 2 c.second ++ fractionWritten c.micro

def Offset.written (o : Offset) : List Char :=
  let size := o.micros.natAbs
  let seconds := size / 1000000
  let micro := size % 1000000
  let tail :=
    if seconds % 60 = 0 ∧ micro = 0 then []
    else ':' :: padded 2 (seconds % 60) ++ fractionWritten micro
  (if o.micros < 0 then '-' else '+') ::
    (padded 2 (seconds / 3600) ++ ':' :: padded 2 (seconds / 60 % 60) ++ tail)

/-- The written form of a date and time, with `separator` between the two. -/
def DateTime.writtenWith (separator : Char) (t : DateTime) : List Char :=
  t.date.written ++ separator :: t.clock.written ++
    match t.offset with
    | some offset => offset.written
    | none => []

def DateTime.written (t : DateTime) : List Char := t.writtenWith 'T'

end FieldSchema
