import FieldSchema.Proofs.Answers

/-!
# Bounds of dates

A bound of dates is kept in its written form and read again for every value. That form loses an
offset of less than a second (`DateTime.lostMicros`), and nothing else, so the comparison with the
bound as it was declared comes out the same for every value but those whose instant is as near to
the bound as that (`Schema.validate_dateBounds`).
-/

namespace FieldSchema

namespace DateTime

variable {a b : DateTime}

/-- The part of an offset that the written form loses: all of it if it is less than a second. -/
def lostMicros (t : DateTime) : Int :=
  match t.offset with
  | some offset => if offset.micros.natAbs < 1000000 then offset.micros else 0
  | none => 0

theorem isZoned_settled (t : DateTime) : t.settled.isZoned = t.isZoned := by
  simp [settled, isZoned]

theorem dropZone_settled (t : DateTime) : t.settled.dropZone = t.dropZone := rfl

theorem instant_settled (t : DateTime) : t.settled.instant = t.instant + t.lostMicros := by
  rcases t with ⟨date, clock, _ | offset⟩
  · simp [settled, instant, lostMicros]
  · simp only [settled, instant, lostMicros, localMicros, Option.map_some]
    split_ifs <;> simp [Offset.utc]

theorem lostMicros_of_not_isZoned (h : b.isZoned = false) : b.lostMicros = 0 := by
  rcases b with ⟨date, clock, _ | offset⟩
  · rfl
  · simp [isZoned] at h

theorem notAfter_iff_of_isZoned_eq (h : a.isZoned = b.isZoned) :
    a.notAfter b = true ↔ a.instant ≤ b.instant := by
  simp [notAfter, comparable, h]

theorem notAfter_of_isZoned_ne (h : a.isZoned ≠ b.isZoned) :
    a.notAfter b = decide (a.dropZone.instant ≤ b.dropZone.instant) := by
  simp [notAfter, comparable, h]

/-- A moment is held to be at or after another by its written form, but for one that is no further
from it than what the form loses. -/
theorem settled_notAfter_iff : (b.settled.notAfter a = true ↔ b.notAfter a = true) ↔
    ¬ (a.isZoned = true ∧ min 0 b.lostMicros ≤ a.instant - b.instant ∧
      a.instant - b.instant < max 0 b.lostMicros) := by
  by_cases hzone : b.isZoned = a.isZoned
  · rw [notAfter_iff_of_isZoned_eq hzone,
      notAfter_iff_of_isZoned_eq (b.isZoned_settled.trans hzone),
      instant_settled]
    cases ha : a.isZoned with
    | false =>
      rw [ha] at hzone
      simp [lostMicros_of_not_isZoned hzone]
    | true =>
      simp only [true_and]
      omega
  · have hzone' : b.settled.isZoned ≠ a.isZoned := b.isZoned_settled ▸ hzone
    rw [notAfter_of_isZoned_ne hzone, notAfter_of_isZoned_ne hzone', dropZone_settled]
    refine iff_of_true .rfl ?_
    rintro ⟨ha, hlow, hhigh⟩
    have hb : b.isZoned = false := by simpa [ha] using hzone
    rw [lostMicros_of_not_isZoned hb] at hlow hhigh
    omega

theorem notAfter_settled_iff : (a.notAfter b.settled = true ↔ a.notAfter b = true) ↔
    ¬ (a.isZoned = true ∧ min 0 b.lostMicros < a.instant - b.instant ∧
      a.instant - b.instant ≤ max 0 b.lostMicros) := by
  by_cases hzone : a.isZoned = b.isZoned
  · rw [notAfter_iff_of_isZoned_eq hzone,
      notAfter_iff_of_isZoned_eq (hzone.trans b.isZoned_settled.symm), instant_settled]
    cases ha : a.isZoned with
    | false =>
      rw [ha] at hzone
      simp [lostMicros_of_not_isZoned hzone.symm]
    | true =>
      simp only [true_and]
      omega
  · have hzone' : a.isZoned ≠ b.settled.isZoned := b.isZoned_settled ▸ hzone
    rw [notAfter_of_isZoned_ne hzone, notAfter_of_isZoned_ne hzone', dropZone_settled]
    refine iff_of_true .rfl ?_
    rintro ⟨ha, hlow, hhigh⟩
    have hb : b.isZoned = false := by simpa [ha] using hzone
    rw [lostMicros_of_not_isZoned hb] at hlow hhigh
    omega

end DateTime

theorem Value.toDateTime_text {s : String} {t : DateTime} (h : DateTime.read s.toList = .ok t) :
    (Value.text s).toDateTime = .dateTime t := by
  simp [toDateTime, readDate, DateTime.read?, h, Except.toOption]

/-! ## Schemas with a bound -/

namespace Context

variable {limit : Value} {b : DateTime}

/-- Every value that is a date, or reads as one, is a limit. -/
theorem exists_dateArgument (h : limit.toDateTime = .dateTime b) :
    ∃ bound, dateArgument limit = .ok bound ∧ bound.reading = b.settled := by
  cases limit with
  | date d =>
    obtain rfl := Value.dateTime.inj h
    exact ⟨.day d, rfl, rfl⟩
  | dateTime t =>
    obtain rfl := Value.dateTime.inj h
    exact ⟨.moment t, rfl, rfl⟩
  | text s =>
    simp only [Value.toDateTime, Value.readDate, DateTime.read?] at h
    cases hread : DateTime.read s.toList with
    | error fault => simp [hread, Except.toOption] at h
    | ok t =>
      simp only [hread, Except.toOption, Value.dateTime.injEq] at h
      exact ⟨.written s t, by simp [dateArgument, hread], h ▸ rfl⟩
  | _ => cases h

theorem invoke_min {bound : DateLimit} (h : dateArgument limit = .ok bound) :
    empty.invoke (.ofKind .date) "min" (.one limit) =
      .ok ((Schema.ofKind .date).withRule (.notBefore bound) .null) := by
  rw [invoke_eq_apply (m := .min) rfl rfl]
  show (Rule.notBefore <$> dateArgument limit >>= fun rule => _) = _
  rw [h]
  rfl

theorem invoke_max {bound : DateLimit} (h : dateArgument limit = .ok bound) :
    empty.invoke (.ofKind .date) "max" (.one limit) =
      .ok ((Schema.ofKind .date).withRule (.notAfter bound) .null) := by
  rw [invoke_eq_apply (m := .max) rfl rfl]
  show (Rule.notAfter <$> dateArgument limit >>= fun rule => _) = _
  rw [h]
  rfl

end Context

namespace Schema

variable {x limit : Value} {rule : Rule} {a b : DateTime} {all : Bool}

theorem reachable_notBefore {bound : DateLimit} (h : Context.dateArgument limit = .ok bound) :
    (ruled .date (.notBefore bound)).Reachable :=
  .rule (.ofKind .date) (show Method.min ∈ _ by decide)
    (show some (Rule.notBefore <$> Context.dateArgument limit) = _ by rw [h]; rfl) .null

theorem reachable_notAfter {bound : DateLimit} (h : Context.dateArgument limit = .ok bound) :
    (ruled .date (.notAfter bound)).Reachable :=
  .rule (.ofKind .date) (show Method.max ∈ _ by decide)
    (show some (Rule.notAfter <$> Context.dateArgument limit) = _ by rw [h]; rfl) .null

theorem coerce_date (hx : x.toDateTime = .dateTime a) :
    Kind.date.coerce x = .dateTime a ∨ ∃ d, Kind.date.coerce x = .date d ∧ a = .ofDate d := by
  cases x with
  | date d => exact .inr ⟨d, rfl, (Value.dateTime.inj hx).symm⟩
  | _ => exact .inl hx

/-- A value that is a date, or reads as one, is returned if what it is cast to is as demanded. -/
theorem exists_validate_dated_iff (h : (ruled .date rule).Reachable)
    (hx : x.toDateTime = .dateTime a) :
    (∃ w, (ruled .date rule).validate x all = .ok w) ↔ rule.admits (Kind.date.coerce x) = true := by
  have hnull : x.isNull = false := by
    cases x <;> first | rfl | cases hx
  have hdate : Kind.date.describes (Kind.date.coerce x) = true ∧
      (Kind.date.coerce x).isNull = false := by
    rcases coerce_date hx with hd | ⟨d, hd, -⟩ <;> rw [hd] <;> exact ⟨rfl, rfl⟩
  exact exists_validate_ruled_iff h (by decide) hnull hdate.1 hdate.2

theorem exists_validate_notBefore_iff {bound : DateLimit}
    (h : (ruled .date (.notBefore bound)).Reachable) (hx : x.toDateTime = .dateTime a) :
    (∃ w, (ruled .date (.notBefore bound)).validate x all = .ok w) ↔
      bound.reading.notAfter a = true := by
  rw [exists_validate_dated_iff h hx]
  rcases coerce_date hx with hd | ⟨d, hd, rfl⟩ <;>
    simp [hd, Rule.admits, Rule.demands, Demand.isMetBy]

theorem exists_validate_notAfter_iff {bound : DateLimit}
    (h : (ruled .date (.notAfter bound)).Reachable) (hx : x.toDateTime = .dateTime a) :
    (∃ w, (ruled .date (.notAfter bound)).validate x all = .ok w) ↔
      a.notAfter bound.reading = true := by
  rw [exists_validate_dated_iff h hx]
  rcases coerce_date hx with hd | ⟨d, hd, rfl⟩ <;>
    simp [hd, Rule.admits, Rule.demands, Demand.isMetBy]

/-- Dates with a limit: whatever the limit and the value are, if both are dates or read as ones, the
validation is answered, and it returns the value exactly if it is not before the limit, or not
after it. Only where a limit with an offset of less than a second and a value with an offset are no
further apart than that offset, the value is compared with the limit without it. -/
theorem validate_dateBounds (hlimit : limit.toDateTime = .dateTime b)
    (hx : x.toDateTime = .dateTime a) (all : Bool) :
    (∃ s, Context.empty.invoke (.ofKind .date) "min" (.one limit) = .ok s ∧ s.Answers x all ∧
      (((∃ w, s.validate x all = .ok w) ↔ b.notAfter a = true) ↔
        ¬ (a.isZoned = true ∧ min 0 b.lostMicros ≤ a.instant - b.instant ∧
          a.instant - b.instant < max 0 b.lostMicros))) ∧
    ∃ s, Context.empty.invoke (.ofKind .date) "max" (.one limit) = .ok s ∧ s.Answers x all ∧
      (((∃ w, s.validate x all = .ok w) ↔ a.notAfter b = true) ↔
        ¬ (a.isZoned = true ∧ min 0 b.lostMicros < a.instant - b.instant ∧
          a.instant - b.instant ≤ max 0 b.lostMicros)) := by
  obtain ⟨bound, hbound, hreading⟩ := Context.exists_dateArgument hlimit
  have hleast := reachable_notBefore hbound
  have hmost := reachable_notAfter hbound
  refine ⟨⟨_, Context.invoke_min hbound, answers_of_isTextual hleast (isTextual_ruled _ _), ?_⟩,
    _, Context.invoke_max hbound, answers_of_isTextual hmost (isTextual_ruled _ _), ?_⟩
  · rw [← DateTime.settled_notAfter_iff, ← hreading]
    exact iff_congr (exists_validate_notBefore_iff hleast hx) .rfl
  · rw [← DateTime.notAfter_settled_iff, ← hreading]
    exact iff_congr (exists_validate_notAfter_iff hmost hx) .rfl

/-- Noon of the first of January 2020, at an offset. -/
def noonAt (offset : Option Offset) : DateTime where
  date := ⟨2020, 1, 1, ⟨Nat.le_of_ble_eq_true rfl, Nat.le_of_ble_eq_true rfl⟩,
    ⟨Nat.le_of_ble_eq_true rfl, Nat.le_of_ble_eq_true rfl⟩,
    ⟨Nat.le_of_ble_eq_true rfl, Nat.le_of_ble_eq_true rfl⟩⟩
  clock := ⟨12, 0, 0, 0, Nat.le_of_ble_eq_true rfl, Nat.le_of_ble_eq_true rfl,
    Nat.le_of_ble_eq_true rfl, Nat.le_of_ble_eq_true rfl⟩
  offset := offset

/-- A limit in writing, and a value with another offset that is before it. -/
theorem validate_dateBounds_noon :
    (Value.text "2020-01-01T12:00:00Z").toDateTime = .dateTime (noonAt (some .utc)) ∧
    (Value.dateTime (noonAt (some ⟨9000000000, by decide⟩))).toDateTime =
      .dateTime (noonAt (some ⟨9000000000, by decide⟩)) ∧
    ∃ s, Context.empty.invoke (.ofKind .date) "min" (.one (.text "2020-01-01T12:00:00Z")) = .ok s ∧
      s.Answers (.dateTime (noonAt (some ⟨9000000000, by decide⟩))) false ∧
      ¬ ∃ w, s.validate (.dateTime (noonAt (some ⟨9000000000, by decide⟩))) false = .ok w := by
  have hread : DateTime.read "2020-01-01T12:00:00Z".toList = .ok (noonAt (some .utc)) := by
    decide +kernel
  have hlimit := Value.toDateTime_text hread
  obtain ⟨s, hs, hanswers, hlaw⟩ := (validate_dateBounds hlimit
    (x := .dateTime (noonAt (some ⟨9000000000, by decide⟩))) rfl false).1
  refine ⟨hlimit, rfl, s, hs, hanswers, ?_⟩
  rw [hlaw.2 (by decide +kernel)]
  decide +kernel

/-- Half a second before a limit a value is returned, since the written limit is as much earlier. -/
theorem validate_notBefore_lost : ∃ s,
    Context.empty.invoke (.ofKind .date) "min"
      (.one (.dateTime (noonAt (some ⟨-500000, by decide⟩)))) = .ok s ∧
    (∃ w, s.validate (.dateTime (noonAt (some .utc))) false = .ok w) ∧
    (noonAt (some ⟨-500000, by decide⟩)).notAfter (noonAt (some .utc)) = false := by
  have hbound : Context.dateArgument (.dateTime (noonAt (some ⟨-500000, by decide⟩))) =
      .ok (.moment (noonAt (some ⟨-500000, by decide⟩))) := rfl
  refine ⟨_, Context.invoke_min hbound, ?_, by decide +kernel⟩
  exact (exists_validate_notBefore_iff (reachable_notBefore hbound) rfl).2 (by decide +kernel)

end Schema

end FieldSchema
