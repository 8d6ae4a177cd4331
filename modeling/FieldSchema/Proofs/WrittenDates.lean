import FieldSchema.Calendar.Reading
import FieldSchema.Proofs.Characters
import Mathlib.Algebra.Group.Nat.Defs

/-!
# Written dates are read back

The written form of a date reads as its midnight (`DateTime.read_written_date`), and that of a date
and time as itself, but for an offset of less than a second, which reads as none at all
(`DateTime.read_written`).
-/

namespace FieldSchema

/-! ## Padded numbers -/

theorem length_padded (width : Nat) {n : Nat} (hw : 0 < width) (hn : n < 10 ^ width) :
    (padded width n).length = width := by
  have h := (Nat.length_toDigits_le_iff (b := 10) (by decide) hw).2 hn
  simp only [padded, List.length_append, List.length_replicate]
  omega

theorem isDigit_of_mem_padded {width n : Nat} {c : Char} (hc : c ∈ padded width n) :
    c.isDigit = true := by
  simp only [padded, List.mem_append, List.mem_replicate] at hc
  rcases hc with ⟨-, rfl⟩ | hc
  · rfl
  · exact Nat.isDigit_of_mem_toDigits (by decide) (by decide) hc

namespace DateText

theorem foldl_replicate_zero (k : Nat) :
    (List.replicate k '0').foldl (fun n c => 10 * n + (c.toNat - '0'.toNat)) 0 = 0 := by
  induction k with
  | zero => rfl
  | succ k ih => simpa [List.replicate_succ] using ih

theorem foldl_padded (width n : Nat) :
    (padded width n).foldl (fun n c => 10 * n + (c.toNat - '0'.toNat)) 0 = n := by
  simp only [padded, List.foldl_append]
  rw [foldl_replicate_zero, ← Nat.ofDigitChars_eq_foldl, Nat.ofDigitChars_ten_toDigits]

theorem readDigits?_padded (width : Nat) {n : Nat} (hw : 0 < width) (hn : n < 10 ^ width)
    (rest : List Char) : readDigits? width (padded width n ++ rest) = some (n, rest) := by
  have hlen := length_padded width hw hn
  have htake : (padded width n ++ rest).take width = padded width n := List.take_left' hlen
  have hdrop : (padded width n ++ rest).drop width = rest := List.drop_left' hlen
  have hall : (padded width n).all Char.isDigit = true :=
    List.all_eq_true.2 fun c hc => isDigit_of_mem_padded hc
  simp only [readDigits?, htake, hdrop, hlen, hall, foldl_padded, and_self, if_true]

/-! ## The characters of written dates -/

/-- Whether a character can stand in a written date. -/
def isStamp (c : Char) : Bool := c.isDigit || [':', '-', '.', '+', 'T'].contains c

theorem isStamp_of_isDigit {c : Char} (h : c.isDigit = true) : isStamp c = true := by
  simp [isStamp, h]

theorem bounds_of_isStamp {c : Char} (h : isStamp c = true) : 33 ≤ c.toNat ∧ c.toNat ≤ 84 := by
  simp only [isStamp, Bool.or_eq_true] at h
  rcases h with h | h
  · have := Text.bounds_of_isDigit h
    omega
  · simp only [List.contains_iff_mem, List.mem_cons, List.not_mem_nil, or_false] at h
    rcases h with rfl | rfl | rfl | rfl | rfl <;> decide

/-- A character of a written date is ASCII, not blank, and not a `Z`. -/
theorem ascii_of_isStamp {c : Char} (h : isStamp c = true) :
    c.utf8Size = 1 ∧ Text.isBlank c = false ∧ c ≠ 'Z' := by
  obtain ⟨h1, h2⟩ := bounds_of_isStamp h
  refine ⟨?_, ?_, ?_⟩
  · rw [Char.utf8Size_eq_one_iff, UInt32.le_iff_toNat_le]
    exact Nat.le_trans h2 (by decide)
  · exact Text.isBlank_eq_false h1 (by omega)
  · rintro rfl
    exact absurd h2 (by decide)

theorem widen_eq_self {cs : List Char} (h : ∀ c ∈ cs, isStamp c = true) : widen cs = cs := by
  induction cs with
  | nil => rfl
  | cons c cs ih =>
    have hc := (ascii_of_isStamp (h c List.mem_cons_self)).1
    have ih := ih fun c hc => h c (List.mem_cons_of_mem _ hc)
    simp only [widen] at ih
    simp [widen, hc, ih]

theorem trim_eq_self {cs : List Char} (h : ∀ c ∈ cs, isStamp c = true) : Text.trim cs = cs :=
  Text.trim_eq_self fun c hc => (ascii_of_isStamp (h c hc)).2.1

theorem spellZulu_eq_self {cs : List Char} (h : ∀ c ∈ cs, isStamp c = true) :
    spellZulu cs = cs := by
  rw [spellZulu, if_neg]
  intro hlast
  exact (ascii_of_isStamp (h 'Z' (List.mem_of_getLast? hlast))).2.2 rfl

theorem read_eq_readExact {cs : List Char} (h : ∀ c ∈ cs, isStamp c = true) :
    DateTime.read cs = readExact cs := by
  rw [DateTime.read, trim_eq_self h, spellZulu_eq_self h]

/-! ## Reading the parts -/

theorem readFraction?_padded {micro : Nat} (h : micro < 1000000) :
    readFraction? (padded 6 micro) = some (micro, false) := by
  have hlen : (padded 6 micro).length = 6 := length_padded 6 (by decide) h
  have hread := readDigits?_padded 6 (by decide) h []
  rw [List.append_nil] at hread
  simp [readFraction?, hlen, hread, isExtra]

theorem padded_eq_cons (width : Nat) {n : Nat} (hw : 0 < width) (hn : n < 10 ^ width) :
    ∃ c cs, padded width n = c :: cs ∧ c.isDigit = true := by
  have hlen := length_padded width hw hn
  cases hp : padded width n with
  | nil =>
    rw [hp, List.length_nil] at hlen
    omega
  | cons c cs => exact ⟨c, cs, rfl, isDigit_of_mem_padded (hp ▸ List.mem_cons_self)⟩

theorem clockStep_colon (width : Nat) {n : Nat} (hw : 0 < width) (hn : n < 10 ^ width)
    (rest : List Char) :
    clockStep true (':' :: (padded width n ++ rest)) = .next (padded width n ++ rest) := by
  obtain ⟨c, cs, hp, -⟩ := padded_eq_cons width hw hn
  simp [hp, clockStep]

/-- Behind the seconds stands a fraction, if it is not zero. -/
theorem clockStep_fractionWritten {micro : Nat} (h : micro < 1000000) :
    (micro = 0 ∧ clockStep true (fractionWritten micro) = .done false) ∨
      clockStep true (fractionWritten micro) = .fraction (padded 6 micro) := by
  by_cases h0 : micro = 0
  · exact .inl ⟨h0, by simp [fractionWritten, h0, clockStep]⟩
  · obtain ⟨c, cs, hp, -⟩ := padded_eq_cons 6 (by decide) h
    exact .inr (by simp [fractionWritten, h0, hp, clockStep])

theorem readClock?_seconds {h m s micro : Nat} (hh : h < 100) (hm : m < 100) (hs : s < 100)
    (hmicro : micro < 1000000) :
    readClock? (padded 2 h ++ ':' :: (padded 2 m ++ ':' :: (padded 2 s ++ fractionWritten micro))) =
      some ⟨h, m, s, micro, false⟩ := by
  have htwo : ∀ n < 100, ∀ rest, readDigits? 2 (padded 2 n ++ rest) = some (n, rest) :=
    fun n hn rest => readDigits?_padded 2 (by decide) hn rest
  rw [readClock?, htwo h hh]
  simp only [Option.bind_eq_bind, Option.bind_some, List.head?_cons, decide_true,
    clockStep_colon 2 (by decide) hm, htwo m hm,
    clockStep_colon 2 (by decide) hs, htwo s hs]
  rcases clockStep_fractionWritten hmicro with ⟨h0, hstep⟩ | hstep
  · rw [hstep, h0]
  · rw [hstep]
    simp [readFraction?_padded hmicro]

theorem readClock?_minutes {h m : Nat} (hh : h < 100) (hm : m < 100) :
    readClock? (padded 2 h ++ ':' :: padded 2 m) = some ⟨h, m, 0, 0, false⟩ := by
  have hstep := clockStep_colon 2 (by decide) hm []
  have hread := readDigits?_padded 2 (by decide) hm []
  rw [List.append_nil] at hstep hread
  have hend : clockStep true [] = .done false := rfl
  rw [readClock?, readDigits?_padded 2 (by decide) hh]
  simp only [Option.bind_eq_bind, Option.bind_some, List.head?_cons, decide_true, hstep, hread,
    hend]

/-- Microseconds of an offset as its written form reads: less than a second reads as none. -/
def settledMicros (micros : Int) : Int := if micros.natAbs < 1000000 then 0 else micros

theorem readClock?_offset {size : Nat} (h : size < microsPerDay) :
    readClock? (padded 2 (size / 1000000 / 3600) ++ ':' :: padded 2 (size / 1000000 / 60 % 60) ++
        if size / 1000000 % 60 = 0 ∧ size % 1000000 = 0 then []
        else ':' :: padded 2 (size / 1000000 % 60) ++ fractionWritten (size % 1000000)) =
      some ⟨size / 1000000 / 3600, size / 1000000 / 60 % 60, size / 1000000 % 60, size % 1000000,
        false⟩ := by
  have hh : size / 1000000 / 3600 < 100 := by
    simp only [microsPerDay] at h
    omega
  split
  · rename_i h0
    rw [List.append_nil, readClock?_minutes hh (by omega), h0.1, h0.2]
  · simp only [List.append_assoc, List.cons_append]
    rw [readClock?_seconds hh (by omega) (by omega) (by omega)]

theorem not_startsOffset_of_mem_clock {c : Clock} {ch : Char} (h : ch ∈ c.written) :
    startsOffset ch = false ∧ isStamp ch = true := by
  have hdigit : ch.isDigit = true → startsOffset ch = false ∧ isStamp ch = true := by
    intro hd
    refine ⟨?_, isStamp_of_isDigit hd⟩
    simp only [startsOffset, Bool.or_eq_false_iff, decide_eq_false_iff_not]
    refine ⟨⟨?_, ?_⟩, ?_⟩ <;> rintro rfl <;> exact absurd hd (by decide)
  simp only [Clock.written, fractionWritten, List.mem_append, List.mem_cons] at h
  rcases h with ((h | rfl | h) | rfl | h) | h
  · exact hdigit (isDigit_of_mem_padded h)
  · decide
  · exact hdigit (isDigit_of_mem_padded h)
  · decide
  · exact hdigit (isDigit_of_mem_padded h)
  · split at h
    · simp at h
    · rcases List.mem_cons.1 h with rfl | h
      · decide
      · exact hdigit (isDigit_of_mem_padded h)

/-- The written form of an offset is a sign and a clock time. -/
theorem readClock?_written_offset (o : Offset) : ∃ rest h m s,
    o.written = (if o.micros < 0 then '-' else '+') :: rest ∧
      readClock? rest = some ⟨h, m, s, o.micros.natAbs % 1000000, false⟩ ∧
      (h * 60 + m) * 60 + s = o.micros.natAbs / 1000000 := by
  have hsize : o.micros.natAbs < microsPerDay := by
    have := o.bounds
    omega
  exact ⟨_, _, _, _, rfl, readClock?_offset hsize, by omega⟩

/-- The written form of an offset, if there is one. -/
def zoneWritten : Option Offset → List Char
  | some offset => offset.written
  | none => []

theorem readTime?_written (c : Clock) (offset : Option Offset) :
    readTime? (c.written ++ zoneWritten offset) =
      some (⟨c.hour, c.minute, c.second, c.micro, false⟩,
        offset.map fun o => settledMicros o.micros) := by
  have hclock : readClock? c.written = some ⟨c.hour, c.minute, c.second, c.micro, false⟩ := by
    have hh : c.hour < 100 := Nat.lt_trans c.hour_lt (by decide)
    have hm : c.minute < 100 := Nat.lt_trans c.minute_lt (by decide)
    have hs : c.second < 100 := Nat.lt_trans c.second_lt (by decide)
    simpa [Clock.written] using readClock?_seconds hh hm hs c.micro_lt
  have hspan : ∀ zone, List.span (!startsOffset ·) (c.written ++ zone) =
      (c.written ++ zone.takeWhile (!startsOffset ·), zone.dropWhile (!startsOffset ·)) := by
    have hfront : ∀ ch ∈ c.written, (!startsOffset ch) = true := fun ch h => by
      simp [(not_startsOffset_of_mem_clock h).1]
    intro zone
    rw [List.span_eq_takeWhile_dropWhile, List.takeWhile_append_of_pos hfront,
      List.dropWhile_append_of_pos hfront]
  cases offset with
  | none =>
    have hfront := hspan []
    rw [List.takeWhile_nil, List.dropWhile_nil, List.append_nil] at hfront
    rw [zoneWritten, List.append_nil, readTime?, hfront]
    simp [hclock]
  | some o =>
    obtain ⟨rest, h, m, s, hw, hread, hsum⟩ := readClock?_written_offset o
    generalize hn : o.micros.natAbs = n at hread hsum
    rw [zoneWritten, hw, readTime?, hspan]
    by_cases hneg : o.micros < 0
    · rw [if_pos hneg, List.takeWhile_cons_of_neg (by decide),
        List.dropWhile_cons_of_neg (by decide), List.append_nil]
      simp [hclock, hread, settledMicros, hn]
      split_ifs <;> omega
    · rw [if_neg hneg, List.takeWhile_cons_of_neg (by decide),
        List.dropWhile_cons_of_neg (by decide), List.append_nil]
      simp [hclock, hread, settledMicros, hn]
      split_ifs <;> omega

/-! ## Reading dates -/

theorem isStamp_of_mem_date {d : Date} {ch : Char} (h : ch ∈ d.written) : isStamp ch = true := by
  simp only [Date.written, List.mem_append, List.mem_cons] at h
  rcases h with (h | rfl | h) | rfl | h
  · exact isStamp_of_isDigit (isDigit_of_mem_padded h)
  · decide
  · exact isStamp_of_isDigit (isDigit_of_mem_padded h)
  · decide
  · exact isStamp_of_isDigit (isDigit_of_mem_padded h)

theorem isStamp_of_mem_offset {o : Offset} {ch : Char} (h : ch ∈ o.written) :
    isStamp ch = true := by
  have hdigit : ∀ {width n : Nat}, ch ∈ padded width n → isStamp ch = true := fun h =>
    isStamp_of_isDigit (isDigit_of_mem_padded h)
  simp only [Offset.written, List.mem_cons, List.mem_append] at h
  rcases h with h | (h | rfl | h) | h
  · rw [h]
    split <;> decide
  · exact hdigit h
  · decide
  · exact hdigit h
  · split at h
    · simp at h
    · simp only [fractionWritten, List.mem_cons, List.mem_append] at h
      rcases h with (rfl | h) | h
      · decide
      · exact hdigit h
      · split at h
        · simp at h
        · rcases List.mem_cons.1 h with rfl | h
          · decide
          · exact hdigit h

theorem daysInMonth_le (year month : Nat) : daysInMonth year month ≤ 31 := by
  unfold daysInMonth
  split_ifs <;> omega

theorem date_bounds (d : Date) : d.year < 10000 ∧ d.month < 100 ∧ d.day < 100 := by
  have hy := d.year_bounds
  have hm := d.month_bounds
  have hd := d.day_bounds
  have hmonth := daysInMonth_le d.year d.month
  omega

/-- Behind a written date the separator stands at position 10. -/
theorem separatorPosition?_date (d : Date) (rest : List Char) :
    separatorPosition? (d.written ++ rest) = some 10 := by
  obtain ⟨hy, hm, hd⟩ := date_bounds d
  have hyear : (padded 4 d.year).length = 4 := length_padded 4 (by decide) hy
  have hmonth : (padded 2 d.month).length = 2 := length_padded 2 (by decide) hm
  have hday : (padded 2 d.day).length = 2 := length_padded 2 (by decide) hd
  obtain ⟨c, cs, hcs, hdigit⟩ := padded_eq_cons 2 (by decide) hm
  have hc : c ≠ 'W' := by
    rintro rfl
    exact absurd hdigit (by decide)
  have hlength : (d.written ++ rest).length = 10 + rest.length := by
    simp only [Date.written, List.length_append, List.length_cons, hyear, hmonth, hday]
  have h4 : (d.written ++ rest)[4]? = some '-' := by
    simp [Date.written, hyear]
  have h5 : (d.written ++ rest)[5]? = some c := by
    simp [Date.written, List.getElem?_append, hyear, hcs]
  simp only [separatorPosition?, hlength, h4, h5]
  rw [if_neg (by omega), if_pos trivial, if_neg (by simpa using hc)]

theorem readDate?_date (d : Date) (rest : List Char) :
    readDate? 10 (d.written ++ rest) = some (d.year, d.month, d.day) := by
  obtain ⟨hy, hm, hd⟩ := date_bounds d
  obtain ⟨c, cs, hcs, hdigit⟩ := padded_eq_cons 2 (by decide) hm
  have hc : c ≠ 'W' := by
    rintro rfl
    exact absurd hdigit (by decide)
  have hmonth := readDigits?_padded 2 (by decide) hm ('-' :: (padded 2 d.day ++ rest))
  rw [hcs] at hmonth
  simp only [Date.written, List.append_assoc, List.cons_append, hcs] at hmonth ⊢
  rw [readDate?, readDigits?_padded 4 (by decide) hy]
  simp [hc, hmonth, readDigits?_padded 2 (by decide) hd]

theorem readParts?_date {rest : List Char} (d : Date) (h : ∀ c ∈ rest, isStamp c = true) :
    readParts? (d.written ++ rest) = match rest with
      | [] => some ((d.year, d.month, d.day), none)
      | _ :: rest => (readTime? rest).map fun time => ((d.year, d.month, d.day), some time) := by
  have hstamps : ∀ c ∈ d.written ++ rest, isStamp c = true := by
    intro c hc
    rcases List.mem_append.1 hc with hc | hc
    · exact isStamp_of_mem_date hc
    · exact h c hc
  have hlength : d.written.length = 10 := by
    obtain ⟨hy, hm, hd⟩ := date_bounds d
    simp only [Date.written, List.length_append, List.length_cons,
      length_padded 4 (by decide) hy, length_padded 2 (by decide) hm,
      length_padded 2 (by decide) hd]
  rw [readParts?, widen_eq_self hstamps, separatorPosition?_date]
  simp only [Option.bind_eq_bind, Option.bind_some, readDate?_date, List.drop_left' hlength]
  cases rest with
  | nil => rfl
  | cons c rest =>
    have hc := (ascii_of_isStamp (h c List.mem_cons_self)).1
    simp only [hc, Nat.sub_self, List.drop_zero]
    cases readTime? rest <;> rfl

end DateText

theorem Date.ofParts_self (d : Date) : ofParts d.year d.month d.day = .ok d := by
  rw [ofParts, dif_pos d.year_bounds, dif_pos d.month_bounds, dif_pos d.day_bounds]

theorem Clock.ofParts_self (c : Clock) : ofParts c.hour c.minute c.second c.micro = .ok c := by
  rw [ofParts, dif_pos c.hour_lt, dif_pos c.minute_lt, dif_pos c.second_lt]
  congr
  exact Nat.mod_eq_of_lt c.micro_lt

namespace DateTime

/-- The date and time that its written form reads as. -/
def settled (t : DateTime) : DateTime :=
  { t with offset := t.offset.map fun o => if o.micros.natAbs < 1000000 then .utc else o }

theorem checkParts_written (d : Date) (c : Clock) (offset : Option Offset) :
    DateText.checkParts (d.year, d.month, d.day)
      (some (⟨c.hour, c.minute, c.second, c.micro, false⟩,
        offset.map fun o => DateText.settledMicros o.micros)) =
      .ok (settled ⟨d, c, offset⟩) := by
  cases offset with
  | none =>
    simp [DateText.checkParts, Date.ofParts_self, Clock.ofParts_self, settled]
    rfl
  | some o =>
    have hoffset : Offset.ofMicros? (DateText.settledMicros o.micros) =
        some (if o.micros.natAbs < 1000000 then .utc else o) := by
      rw [DateText.settledMicros]
      split
      · rfl
      · rw [Offset.ofMicros?, dif_pos o.bounds]
    simp [DateText.checkParts, Date.ofParts_self, Clock.ofParts_self, hoffset, settled]
    rfl

/-- The written form of a date reads as its midnight. -/
theorem read_written_date (d : Date) : DateTime.read d.written = .ok (.ofDate d) := by
  have hparts := DateText.readParts?_date d (List.forall_mem_nil _)
  rw [List.append_nil] at hparts
  rw [DateText.read_eq_readExact fun _ => DateText.isStamp_of_mem_date, DateText.readExact, hparts]
  simp [DateText.checkParts, Date.ofParts_self, ofDate]
  rfl

/-- The written form of a date and time reads as itself, but for an offset of less than a second. -/
theorem read_written (t : DateTime) : DateTime.read t.written = .ok t.settled := by
  obtain ⟨d, c, offset⟩ := t
  have hwritten : written ⟨d, c, offset⟩ =
      d.written ++ 'T' :: (c.written ++ DateText.zoneWritten offset) := by
    rw [written, writtenWith, List.append_assoc]
    rfl
  have htail : ∀ ch ∈ 'T' :: (c.written ++ DateText.zoneWritten offset),
      DateText.isStamp ch = true := by
    intro ch hch
    rcases List.mem_cons.1 hch with rfl | hch
    · decide
    · rcases List.mem_append.1 hch with hch | hch
      · exact (DateText.not_startsOffset_of_mem_clock hch).2
      · cases offset with
        | none => simp [DateText.zoneWritten] at hch
        | some o => exact DateText.isStamp_of_mem_offset hch
  have hparts := DateText.readParts?_date d htail
  simp only [DateText.readTime?_written, Option.map_some] at hparts
  rw [hwritten, DateText.read_eq_readExact fun ch hch => ?_, DateText.readExact, hparts]
  · exact checkParts_written d c offset
  · rcases List.mem_append.1 hch with hch | hch
    · exact DateText.isStamp_of_mem_date hch
    · exact htail ch hch

end DateTime

end FieldSchema
