import FieldSchema.Calendar.Reading
import FieldSchema.Text.Quoted

/-!
# Dates as messages show them

Dates, spans and offsets in the form from which their kind can be told, and the reports on texts
that are no dates.
-/

namespace FieldSchema

/-- A span of time: days and seconds with the sign of the whole, days rounded down. -/
def spanShown (micros : Int) : String :=
  let days := Int.fdiv micros microsPerDay
  let rest := (Int.fmod micros microsPerDay).toNat
  let parts : List (String × Int) :=
    [("days", days), ("seconds", (rest / 1000000 : Nat)), ("microseconds", (rest % 1000000 : Nat))]
  let shown := (parts.filter (·.2 ≠ 0)).map fun (name, n) => name ++ "=" ++ toString n
  "datetime.timedelta(" ++ (if shown.isEmpty then "0" else ", ".intercalate shown) ++ ")"

def Offset.shown (o : Offset) : String :=
  if o.micros = 0 then "datetime.timezone.utc"
  else "datetime.timezone(" ++ spanShown o.micros ++ ")"

def Date.shown (d : Date) : String :=
  "datetime.date(" ++ ", ".intercalate ([d.year, d.month, d.day].map toString) ++ ")"

/-- A date and time as messages show it: seconds and microseconds only down to the last that is not
zero. -/
def DateTime.shown (t : DateTime) : String :=
  let clock :=
    if t.clock.micro ≠ 0 then [t.clock.hour, t.clock.minute, t.clock.second, t.clock.micro]
    else if t.clock.second ≠ 0 then [t.clock.hour, t.clock.minute, t.clock.second]
    else [t.clock.hour, t.clock.minute]
  let zone :=
    match t.offset with
    | some offset => ["tzinfo=" ++ offset.shown]
    | none => []
  "datetime.datetime(" ++
    ", ".intercalate (([t.date.year, t.date.month, t.date.day] ++ clock).map toString ++ zone) ++
    ")"

def DateTextFault.message : DateTextFault → String
  | .malformed text => "Invalid isoformat string: " ++ String.ofList (Text.quoted text)
  | .calendar fault => fault.message
  | .offset micros =>
    "offset must be a timedelta strictly between -timedelta(hours=24) and " ++
      "timedelta(hours=24), not " ++ spanShown micros ++ "."

end FieldSchema
