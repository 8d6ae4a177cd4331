import FieldSchema.Proofs.Characters
import FieldSchema.Proofs.JsonTexts
import FieldSchema.Value.Coercion
import Mathlib.Algebra.Group.Nat.Defs
import Mathlib.Data.List.Basic

/-!
# Numbers as they are written

A decimal number is a sign or none, digits with a point before, among or behind them or without one,
and an exponent or none (`NumberText`). Exactly the texts of this form are read as decimal numbers
(`readDecimal?_eq_some_iff`), and exactly those of them that have neither a point nor an exponent
and at most `maxDigits` digits as whole numbers (`readInt?_eq_some_iff`). A text becomes a number if
it has the form, but for the blanks around it, and is the text that it was otherwise
(`Value.toNumber_text`); so a whole number that was made a text becomes a number again.
-/

namespace FieldSchema

/-! ## Parts of numbers -/

namespace Json

open Text (ne_of_isDigit)

theorem Digits.exists_cons (d : Digits) : ∃ c cs, d.chars = c :: cs ∧ c.isDigit = true := by
  obtain ⟨c, cs, hcs⟩ := List.exists_cons_of_ne_nil d.ne_nil
  exact ⟨c, cs, hcs, d.isDigit c (by simp [hcs])⟩

theorem Digits.head_ne_sign (d : Digits) (rest : List Char) :
    ∀ c ∈ (d.chars ++ rest).head?, c ≠ '+' ∧ c ≠ '-' := by
  obtain ⟨c, cs, hcs, hc⟩ := d.exists_cons
  simp [hcs, ne_of_isDigit hc (d := '+') rfl, ne_of_isDigit hc (d := '-') rfl]

/-- A sign is taken off whatever does not start with another one. -/
theorem takeSign_append (sign : Sign) {cs : List Char}
    (h : ∀ c ∈ cs.head?, c ≠ '+' ∧ c ≠ '-') :
    takeSign (sign.written ++ cs) = (sign matches .minus, cs) := by
  cases sign with
  | plus | minus => rfl
  | absent =>
    simp only [Sign.written, List.nil_append]
    unfold takeSign
    split <;> simp_all

theorem takeSign_split (cs : List Char) : ∃ sign : Sign, cs = sign.written ++ (takeSign cs).2 ∧
    (takeSign cs).1 = (sign matches .minus) := by
  unfold takeSign
  split
  · exact ⟨.minus, rfl, rfl⟩
  · exact ⟨.plus, rfl, rfl⟩
  · exact ⟨.absent, rfl, rfl⟩

theorem takeSign_written (negative : Bool) (d : Digits) (rest : List Char) :
    takeSign ((if negative then ['-'] else []) ++ (d.chars ++ rest)) =
      (negative, d.chars ++ rest) := by
  cases negative with
  | true => rfl
  | false => exact takeSign_append .absent (d.head_ne_sign rest)

theorem takeSign_sign (sign : Sign) (d : Digits) :
    takeSign (sign.written ++ d.chars) = (sign matches .minus, d.chars) :=
  takeSign_append sign (by simpa using d.head_ne_sign [])

theorem Exponent.value_eq (e : Exponent) :
    e.value = signed (e.sign matches .minus) (digitsValue 10 e.digits.chars) := by
  obtain ⟨upper, sign, digits⟩ := e
  cases sign <;> rfl

theorem readExponent?_written (exponent : Option Exponent) :
    readExponent? (exponent.elim [] (·.written)) = some (exponent.elim 0 (·.value)) := by
  rcases exponent with _ | e
  · rfl
  · have hletter : (if e.upper then 'E' else 'e') = 'e' ∨ (if e.upper then 'E' else 'e') = 'E' := by
      cases e.upper <;> simp
    have hdigits : e.digits.chars ≠ [] ∧ e.digits.chars.all Char.isDigit = true :=
      ⟨e.digits.ne_nil, List.all_eq_true.2 e.digits.isDigit⟩
    simp only [Option.elim_some, Exponent.written, readExponent?, takeSign_sign, e.value_eq]
    rw [if_pos hletter, if_pos hdigits]

/-- What is read as an exponent is written as one, or is empty. -/
theorem exists_of_readExponent? {cs : List Char} {n : Int} (h : readExponent? cs = some n) :
    ∃ exponent : Option Exponent,
      exponent.elim [] (·.written) = cs ∧ exponent.elim 0 (·.value) = n := by
  rcases cs with _ | ⟨c, cs⟩
  · exact ⟨none, rfl, Option.some.inj h⟩
  · unfold readExponent? at h
    obtain ⟨sign, hsign, hminus⟩ := takeSign_split cs
    simp only at h
    split_ifs at h with hletter hdigits
    let digits : Digits := ⟨(takeSign cs).2, hdigits.1, List.all_eq_true.1 hdigits.2⟩
    refine ⟨some ⟨c = 'E', sign, digits⟩, ?_, ?_⟩
    · rcases hletter with rfl | rfl <;> simp [Exponent.written, digits, ← hsign]
    · rw [← Option.some.inj h, hminus]
      exact Exponent.value_eq _

theorem stops_exponent (exponent : Option Exponent) :
    ∀ c ∈ (exponent.elim [] (·.written)).head?, c.isDigit = false ∧ c ≠ '.' := by
  rcases exponent with _ | ⟨upper, sign, digits⟩
  · simp
  · cases upper <;> simp [Exponent.written]

end Json

/-! ## Decimal numbers -/

open Json (Sign Digits Exponent takeSign_append takeSign_sign takeSign_split
  readExponent?_written exists_of_readExponent? stops_exponent)
open Text (span_run ne_of_isDigit)

/-- The digits behind a point, none if there is no point, and what follows. -/
def takePlaces : List Char → List Char × List Char
  | '.' :: cs => cs.span Char.isDigit
  | cs => ([], cs)

theorem readDecimal?_eq (cs : List Char) : readDecimal? cs =
    let (negative, unsigned) := takeSign cs
    let (whole, behind) := unsigned.span Char.isDigit
    let (places, rest) := takePlaces behind
    if whole = [] ∧ places = [] then none
    else
      (readExponent? rest).map fun exponent =>
        .ofDecimal negative (digitsValue 10 (whole ++ places)) (exponent - places.length) := rfl

/-- A number as it is written. There are digits before the point or behind it. -/
structure NumberText where
  sign : Sign
  whole : List Char
  fraction : Option (List Char)
  exponent : Option Exponent
  isDigit : ∀ c ∈ whole ++ fraction.getD [], c.isDigit = true
  ne_nil : whole ++ fraction.getD [] ≠ []

/-- The characters of numbers. -/
def isNumberChar (c : Char) : Bool := c.isDigit || ['+', '-', '.', 'e', 'E'].contains c

theorem isNumberChar_of_isDigit {c : Char} (h : c.isDigit = true) : isNumberChar c = true := by
  simp [isNumberChar, h]

theorem isNumberChar_sign (sign : Sign) : ∀ c ∈ sign.written, isNumberChar c = true := by
  cases sign <;> simp [Sign.written, isNumberChar]

namespace NumberText

/-- What follows the digits before the point. -/
def behindWhole (d : NumberText) : List Char :=
  (d.fraction.elim [] ('.' :: ·)) ++ d.exponent.elim [] (·.written)

def written (d : NumberText) : List Char := d.sign.written ++ (d.whole ++ d.behindWhole)

/-- The binary number nearest to the one that is written. -/
def value (d : NumberText) : Binary64 :=
  .ofDecimal (d.sign matches .minus) (digitsValue 10 (d.whole ++ d.fraction.getD []))
    (d.exponent.elim 0 (·.value) - (d.fraction.getD []).length)

/-- Whether a number has a point, an exponent or more digits than are read of a whole number. -/
def IsBeyondWhole (d : NumberText) : Prop :=
  d.fraction.isSome ∨ d.exponent.isSome ∨ maxDigits < d.whole.length

variable (d : NumberText)

theorem behindWhole_head : ∀ c ∈ d.behindWhole.head?, c.isDigit = false := by
  rw [behindWhole]
  rcases d.fraction with _ | fraction
  · exact fun c hc => (stops_exponent d.exponent c hc).1
  · simp [Char.isDigit]

theorem takeSign_written :
    takeSign d.written = (d.sign matches .minus, d.whole ++ d.behindWhole) := by
  refine takeSign_append d.sign fun c hc => ?_
  rcases hwhole : d.whole with _ | ⟨digit, digits⟩
  · -- without a digit before it the point comes first
    have hne := d.ne_nil
    rw [hwhole, behindWhole] at hc
    rcases hfraction : d.fraction with _ | fraction
    · simp [hwhole, hfraction] at hne
    · rw [hfraction] at hc
      obtain rfl : '.' = c := by simpa using hc
      decide
  · have hdigit : digit.isDigit = true := d.isDigit digit (by simp [hwhole])
    rw [hwhole] at hc
    obtain rfl : digit = c := by simpa using hc
    exact ⟨ne_of_isDigit hdigit rfl, ne_of_isDigit hdigit rfl⟩

theorem takePlaces_behindWhole :
    takePlaces d.behindWhole = (d.fraction.getD [], d.exponent.elim [] (·.written)) := by
  rw [behindWhole]
  rcases hfraction : d.fraction with _ | fraction
  · rcases d.exponent with _ | e
    · rfl
    · cases hupper : e.upper <;> simp [takePlaces, Exponent.written, hupper]
  · have hdigits : ∀ c ∈ fraction, c.isDigit = true :=
      fun c hc => d.isDigit c (by simp [hfraction, hc])
    have hstop : ∀ c ∈ (d.exponent.elim [] (·.written)).head?, c.isDigit = false :=
      fun c hc => (stops_exponent d.exponent c hc).1
    exact span_run hdigits hstop

/-- What is written as a number is read as one. -/
theorem readDecimal?_written : readDecimal? d.written = some d.value := by
  have hwhole : ∀ c ∈ d.whole, c.isDigit = true := fun c hc => d.isDigit c (by simp [hc])
  have hne : ¬ (d.whole = [] ∧ d.fraction.getD [] = []) := by
    simpa using d.ne_nil
  simp only [readDecimal?_eq, d.takeSign_written, span_run hwhole d.behindWhole_head,
    d.takePlaces_behindWhole, if_neg hne, readExponent?_written]
  rfl

theorem isNumberChar_written : ∀ c ∈ d.written, isNumberChar c = true := by
  have hdigits : ∀ c ∈ d.whole ++ d.fraction.getD [], isNumberChar c = true :=
    fun c hc => isNumberChar_of_isDigit (d.isDigit c hc)
  have hfraction : ∀ c ∈ d.fraction.elim [] ('.' :: ·), isNumberChar c = true := by
    rcases hfraction : d.fraction with _ | fraction
    · simp
    · refine List.forall_mem_cons.2 ⟨rfl, fun c hc => hdigits c ?_⟩
      simp [hfraction, hc]
  have hexponent : ∀ c ∈ d.exponent.elim [] (·.written), isNumberChar c = true := by
    rcases d.exponent with _ | ⟨upper, sign, digits⟩
    · simp
    · refine List.forall_mem_cons.2 ⟨by cases upper <;> rfl, ?_⟩
      exact List.forall_mem_append.2 ⟨isNumberChar_sign sign,
        fun c hc => isNumberChar_of_isDigit (digits.isDigit c hc)⟩
  rw [written, behindWhole]
  simp only [List.forall_mem_append] at hdigits ⊢
  exact ⟨isNumberChar_sign d.sign, hdigits.1, hfraction, hexponent⟩

theorem written_ne_nil : d.written ≠ [] := by
  have hne := d.ne_nil
  rw [written, behindWhole]
  rcases hfraction : d.fraction with _ | fraction
  · simp_all
  · simp

end NumberText

theorem takePlaces_split (cs : List Char) : ∃ fraction : Option (List Char),
    cs = fraction.elim [] ('.' :: ·) ++ (takePlaces cs).2 ∧
      (takePlaces cs).1 = fraction.getD [] ∧ ∀ c ∈ fraction.getD [], c.isDigit = true := by
  unfold takePlaces
  split
  · rename_i cs
    refine ⟨some (cs.takeWhile Char.isDigit), ?_, ?_, fun c hc => List.mem_takeWhile_imp hc⟩
    · simp [List.span_eq_takeWhile_dropWhile]
    · rw [List.span_eq_takeWhile_dropWhile]
      rfl
  · exact ⟨none, rfl, rfl, by simp⟩

variable {cs : List Char}

/-- What is read as a decimal number is written as one. -/
theorem exists_of_readDecimal? {x : Binary64} (h : readDecimal? cs = some x) :
    ∃ d : NumberText, d.written = cs ∧ d.value = x := by
  obtain ⟨sign, hsign, hminus⟩ := takeSign_split cs
  rw [readDecimal?_eq] at h
  simp only [List.span_eq_takeWhile_dropWhile] at h
  set whole := (takeSign cs).2.takeWhile Char.isDigit with hwhole
  obtain ⟨fraction, hbehind, hplaces, hdigits⟩ :=
    takePlaces_split ((takeSign cs).2.dropWhile Char.isDigit)
  rw [hplaces, hminus] at h
  split_ifs at h with hne
  obtain ⟨n, hexponent, hvalue⟩ := Option.map_eq_some_iff.1 h
  obtain ⟨exponent, hwritten, hn⟩ := exists_of_readExponent? hexponent
  refine ⟨⟨sign, whole, fraction, exponent, ?_, by simpa using hne⟩, ?_, ?_⟩
  · exact List.forall_mem_append.2 ⟨fun c hc => List.mem_takeWhile_imp hc, hdigits⟩
  · rw [NumberText.written, NumberText.behindWhole]
    simp only [hwritten]
    rw [← hbehind, hwhole, List.takeWhile_append_dropWhile, ← hsign]
  · simp only [NumberText.value, hn]
    exact hvalue

/-- The texts that are read as decimal numbers are those that are written as such. -/
theorem readDecimal?_eq_some_iff {x : Binary64} :
    readDecimal? cs = some x ↔ ∃ d : NumberText, d.written = cs ∧ d.value = x := by
  constructor
  · exact exists_of_readDecimal?
  · rintro ⟨d, rfl, rfl⟩
    exact d.readDecimal?_written

theorem digitsValue_ten (h : ∀ c ∈ cs, c.isDigit = true) :
    digitsValue 10 cs = Nat.ofDigitChars 10 cs 0 := by
  rw [Nat.ofDigitChars_eq_foldl, digitsValue]
  refine List.foldl_ext _ _ _ fun n c hc => ?_
  rw [digitValue, if_pos (h c hc)]

/-- The texts that are read as whole numbers are a sign or none and digits, not too many. -/
theorem readInt?_eq_some_iff {n : Int} :
    readInt? cs = some n ↔ ∃ (sign : Sign) (digits : Digits), cs = sign.written ++ digits.chars ∧
      digits.chars.length ≤ maxDigits ∧
      n = signed (sign matches .minus) (Nat.ofDigitChars 10 digits.chars 0) := by
  constructor
  · intro h
    obtain ⟨sign, hsign, hminus⟩ := takeSign_split cs
    unfold readInt? at h
    simp only at h
    split_ifs at h with hdigits
    let digits : Digits := ⟨(takeSign cs).2, hdigits.1, List.all_eq_true.1 hdigits.2.1⟩
    refine ⟨sign, digits, hsign, hdigits.2.2, ?_⟩
    rw [← Option.some.inj h, hminus, ← digitsValue_ten digits.isDigit]
  · rintro ⟨sign, digits, rfl, hlength, rfl⟩
    have hdigits : digits.chars ≠ [] ∧ digits.chars.all Char.isDigit = true ∧
        digits.chars.length ≤ maxDigits :=
      ⟨digits.ne_nil, List.all_eq_true.2 digits.isDigit, hlength⟩
    simp only [readInt?, takeSign_sign, if_pos hdigits, digitsValue_ten digits.isDigit]

namespace NumberText

variable (d : NumberText)

/-- A number is read as a whole number unless it has a point, an exponent or too many digits. -/
theorem readInt?_written : readInt? d.written = none ↔ d.IsBeyondWhole := by
  have hne := d.ne_nil
  have hdigit := d.isDigit
  constructor
  · intro h
    by_contra hwhole
    simp only [IsBeyondWhole, not_or, Bool.not_eq_true, Option.isSome_eq_false_iff,
      Option.isNone_iff_eq_none, not_lt] at hwhole
    obtain ⟨hfraction, hexponent, hlength⟩ := hwhole
    simp only [hfraction, Option.getD_none, List.append_nil] at hne hdigit
    have hread := readInt?_eq_some_iff.2 ⟨d.sign, ⟨d.whole, hne, hdigit⟩, rfl, hlength, rfl⟩
    rw [written, behindWhole, hfraction, hexponent] at h
    simp only [Option.elim_none, List.append_nil] at h
    cases h.symm.trans hread
  · intro hbeyond
    rw [Option.eq_none_iff_forall_ne_some]
    intro n hn
    obtain ⟨sign, digits, hwritten, hlength, -⟩ := readInt?_eq_some_iff.1 hn
    -- both spellings have the same sign, so what is behind it is the same
    have hsize : d.whole ++ d.behindWhole = digits.chars := by
      have hsign := congrArg (fun cs => (takeSign cs).2) hwritten
      simpa only [d.takeSign_written, takeSign_sign] using hsign
    have hbehind : d.behindWhole = [] := by
      rcases hhead : d.behindWhole with _ | ⟨c, cs⟩
      · rfl
      · have hc := d.behindWhole_head c (by rw [hhead]; rfl)
        have hc' := digits.isDigit c (by rw [← hsize, hhead]; simp)
        rw [hc] at hc'
        cases hc'
    rw [hbehind, List.append_nil] at hsize
    rw [behindWhole, List.append_eq_nil_iff] at hbehind
    rcases hbeyond with hfraction | hexponent | hlong
    · obtain ⟨fraction, hfraction⟩ := Option.isSome_iff_exists.1 hfraction
      simp [hfraction] at hbehind
    · obtain ⟨exponent, hexponent⟩ := Option.isSome_iff_exists.1 hexponent
      simp [hexponent, Exponent.written] at hbehind
    · rw [hsize] at hlong
      omega

end NumberText

/-! ## Texts that become numbers -/

/-- The characters of numbers are ASCII, no underscores and not blank. -/
theorem ascii_of_isNumberChar {c : Char} (h : isNumberChar c = true) :
    c.toNat < 128 ∧ c ≠ '_' ∧ Text.isBlank c = false := by
  have hcode : 43 ≤ c.toNat ∧ c.toNat ≤ 101 ∧ c ≠ '_' := by
    simp only [isNumberChar, Bool.or_eq_true, List.contains_iff_mem, List.mem_cons,
      List.not_mem_nil, or_false] at h
    rcases h with h | rfl | rfl | rfl | rfl | rfl
    · have := Text.bounds_of_isDigit h
      exact ⟨by omega, by omega, ne_of_isDigit h rfl⟩
    all_goals decide
  exact ⟨by omega, hcode.2.2, Text.isBlank_eq_false (by omega) (by omega)⟩

/-- What is read as a number is not empty and consists of the characters of numbers. -/
theorem chars_of_read (h : (readInt? cs).isSome ∨ (readDecimal? cs).isSome) :
    cs ≠ [] ∧ ∀ c ∈ cs, isNumberChar c = true := by
  rcases h with h | h
  · obtain ⟨n, hn⟩ := Option.isSome_iff_exists.1 h
    obtain ⟨sign, digits, rfl, -, -⟩ := readInt?_eq_some_iff.1 hn
    refine ⟨by simp [digits.ne_nil], List.forall_mem_append.2 ⟨isNumberChar_sign sign, ?_⟩⟩
    exact fun c hc => isNumberChar_of_isDigit (digits.isDigit c hc)
  · obtain ⟨x, hx⟩ := Option.isSome_iff_exists.1 h
    obtain ⟨d, rfl, -⟩ := exists_of_readDecimal? hx
    exact ⟨d.written_ne_nil, d.isNumberChar_written⟩

namespace Value

variable {s : String}

/-- The test of the characters refuses nothing that could be read. -/
theorem readNumber?_eq (s : String) : readNumber? s =
    match readInt? (Text.trim s.toList) with
    | some n => some (.int n)
    | none =>
      match readDecimal? (Text.trim s.toList) with
      | some x => if x.isFinite then some (.float x) else none
      | none => none := by
  by_cases h : (readInt? (Text.trim s.toList)).isSome ∨ (readDecimal? (Text.trim s.toList)).isSome
  · obtain ⟨-, hchars⟩ := chars_of_read h
    have hmark : (Text.trim s.toList).contains '_' = false := by
      rw [Bool.eq_false_iff, ne_eq, List.contains_iff_mem]
      exact fun hmem => (ascii_of_isNumberChar (hchars _ hmem)).2.1 rfl
    have hascii : (Text.trim s.toList).all (·.toNat < 128) = true :=
      List.all_eq_true.2 fun c hc => decide_eq_true (ascii_of_isNumberChar (hchars c hc)).1
    unfold readNumber?
    simp only [hmark, hascii]
    rfl
  · simp only [not_or, Bool.not_eq_true, Option.isSome_eq_false_iff, Option.isNone_iff_eq_none] at h
    unfold readNumber?
    simp only [h.1, h.2, ite_self]

theorem readNumber?_eq_int_iff {n : Int} : readNumber? s = some (.int n) ↔
    ∃ (sign : Sign) (digits : Digits), Text.trim s.toList = sign.written ++ digits.chars ∧
      digits.chars.length ≤ maxDigits ∧
      n = signed (sign matches .minus) (Nat.ofDigitChars 10 digits.chars 0) := by
  rw [← readInt?_eq_some_iff, readNumber?_eq]
  rcases readInt? (Text.trim s.toList) with _ | m
  · rcases readDecimal? (Text.trim s.toList) with _ | x
    · simp
    · by_cases hx : x.isFinite = true <;> simp [hx]
  · simp

theorem readNumber?_eq_float_iff {x : Binary64} : readNumber? s = some (.float x) ↔
    ∃ d : NumberText, d.written = Text.trim s.toList ∧ d.IsBeyondWhole ∧
      d.value.isFinite = true ∧ x = d.value := by
  rw [readNumber?_eq]
  constructor
  · intro h
    rcases hint : readInt? (Text.trim s.toList) with _ | n
    · rcases hdecimal : readDecimal? (Text.trim s.toList) with _ | y
      · simp [hint, hdecimal] at h
      · obtain ⟨d, hd, rfl⟩ := exists_of_readDecimal? hdecimal
        simp only [hint, hdecimal] at h
        split_ifs at h with hfinite
        obtain rfl : d.value = x := by simpa using h
        exact ⟨d, hd, d.readInt?_written.1 (by rw [hd, hint]), hfinite, rfl⟩
    · simp [hint] at h
  · rintro ⟨d, hd, hbeyond, hfinite, rfl⟩
    rw [← hd, d.readInt?_written.2 hbeyond, d.readDecimal?_written]
    simp [hfinite]

theorem toNumber_eq_number_iff {n : Number} :
    (text s).toNumber = .number n ↔ readNumber? s = some n := by
  rw [toNumber]
  rcases readNumber? s with _ | m <;> simp

/-- A text is left as it is if it does not become a number. -/
theorem toNumber_eq_self (h : ∀ n, (text s).toNumber ≠ .number n) :
    (text s).toNumber = .text s := by
  rw [toNumber]
  rcases hread : readNumber? s with _ | n
  · rfl
  · exact absurd (toNumber_eq_number_iff.2 hread) (h n)

theorem chars_of_toNumber {n : Number} (h : (text s).toNumber = .number n) :
    Text.trim s.toList ≠ [] ∧ ∀ c ∈ Text.trim s.toList, isNumberChar c = true := by
  rw [toNumber_eq_number_iff, readNumber?_eq] at h
  refine chars_of_read ?_
  rcases hint : readInt? (Text.trim s.toList) with _ | m
  · rcases hdecimal : readDecimal? (Text.trim s.toList) with _ | x
    · simp [hint, hdecimal] at h
    · exact .inr rfl
  · exact .inl rfl

/-! ## Whole numbers that become texts -/

theorem toString_int (n : Int) : (toString n).toList =
    (if n < 0 then Sign.minus else .absent).written ++ Nat.toDigits 10 n.natAbs := by
  cases n with
  | ofNat n =>
    rw [if_neg (by simp)]
    show (toString n).toList = _
    rw [Nat.toString_eq_ofList_toDigits, String.toList_ofList]
    rfl
  | negSucc n =>
    rw [if_pos (Int.negSucc_lt_zero n)]
    show ("-" ++ toString (n + 1)).toList = _
    simp only [String.toList_append, Nat.toString_eq_ofList_toDigits, String.toList_ofList]
    rfl

/-- A whole number of at most `maxDigits` digits is what its text becomes. -/
theorem toNumber_toText {n : Int} (h : n.natAbs < 10 ^ maxDigits) :
    (Value.int n).toText.toNumber = .int n := by
  let digits : Digits := ⟨Nat.toDigits 10 n.natAbs, Nat.toDigits_ne_nil,
    fun c hc => Nat.isDigit_of_mem_toDigits (by decide) (by decide) hc⟩
  have hlength : digits.chars.length ≤ maxDigits :=
    (Nat.length_toDigits_le_iff (by decide) (by decide)).2 h
  have htrim : Text.trim (toString n).toList = (toString n).toList := by
    refine Text.trim_eq_self fun c hc => (ascii_of_isNumberChar ?_).2.2
    rw [toString_int] at hc
    rcases List.mem_append.1 hc with hc | hc
    · exact isNumberChar_sign _ c hc
    · exact isNumberChar_of_isDigit (digits.isDigit c hc)
  refine toNumber_eq_number_iff.2 (readNumber?_eq_int_iff.2 ⟨_, digits,
    htrim.trans (toString_int n), hlength, ?_⟩)
  rw [Nat.ofDigitChars_ten_toDigits]
  by_cases hn : n < 0
  · rw [if_pos hn]
    show n = -(n.natAbs : Int)
    omega
  · rw [if_neg hn]
    show n = (n.natAbs : Int)
    omega

/-- A text becomes a whole number exactly if between its blanks there are a sign or none and up to
`maxDigits` digits, and becomes the number that they denote. It becomes any other number exactly if
there is a decimal number that has a point, an exponent or more digits, and is finite. Any other
text stays as it is, an empty one and one with other characters among them. A whole number that
became a text becomes itself again. -/
theorem toNumber_spec :
    (∀ s : String, Text.IsTrimmed s.toList (Text.trim s.toList) ∧
      (∀ n : Int, (text s).toNumber = .int n ↔ ∃ (sign : Sign) (digits : Digits),
        Text.trim s.toList = sign.written ++ digits.chars ∧ digits.chars.length ≤ maxDigits ∧
        n = signed (sign matches .minus) (Nat.ofDigitChars 10 digits.chars 0)) ∧
      (∀ x : Binary64, (text s).toNumber = .float x ↔ ∃ d : NumberText,
        d.written = Text.trim s.toList ∧ d.IsBeyondWhole ∧ d.value.isFinite = true ∧
        x = d.value) ∧
      ((∀ n, (text s).toNumber ≠ .number n) → (text s).toNumber = .text s) ∧
      (Text.trim s.toList = [] ∨ (∃ c ∈ Text.trim s.toList, isNumberChar c = false) →
        (text s).toNumber = .text s)) ∧
    ∀ n : Int, n.natAbs < 10 ^ maxDigits → (Value.int n).toText.toNumber = .int n := by
  refine ⟨fun s => ⟨Text.isTrimmed_trim s.toList, ?_, ?_, toNumber_eq_self, ?_⟩,
    fun n => toNumber_toText⟩
  · exact fun n => toNumber_eq_number_iff.trans readNumber?_eq_int_iff
  · exact fun x => toNumber_eq_number_iff.trans readNumber?_eq_float_iff
  · refine fun hother => toNumber_eq_self fun n hn => ?_
    obtain ⟨hne, hchars⟩ := chars_of_toNumber hn
    rcases hother with hnil | ⟨c, hc, hother⟩
    · exact hne hnil
    · cases (hchars c hc).symm.trans hother

/-- A sign is read, an underscore is not. -/
theorem toNumber_spec_dozen : (text " +12 ").toNumber = .int 12 ∧
    (text "1_2").toNumber = .text "1_2" ∧ (Value.int (-12)).toText.toNumber = .int (-12) := by
  obtain ⟨htext, hint⟩ := toNumber_spec
  obtain ⟨-, hdozen, -⟩ := htext " +12 "
  obtain ⟨-, -, -, -, hmarked⟩ := htext "1_2"
  have hshort (k : Nat) (hk : 2 ≤ k) : (-12 : Int).natAbs < 10 ^ k :=
    Nat.lt_of_lt_of_le (by decide : 12 < 10 ^ 2) (Nat.pow_le_pow_right (by decide) hk)
  exact ⟨(hdozen 12).2 ⟨.plus, ⟨['1', '2'], by simp, by simp⟩, by decide +kernel,
    by decide, by decide⟩, hmarked (.inr ⟨'_', by decide +kernel, rfl⟩),
    hint (-12) (hshort maxDigits (by decide))⟩

end Value

end FieldSchema
