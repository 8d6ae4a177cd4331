import FieldSchema.Markup.Form
import FieldSchema.Proofs.PlainTexts
import Mathlib.Data.List.TakeWhile

/-!
# Numbers of JSON as plain scalars

A whole number of JSON has the form of a whole number, and any other number of JSON that of a
decimal number if it has a point and its exponent, if any, has a sign. All others have no form and
are text (`ofPlain_numeral`). Those with a form are read as the numbers that they are in JSON
(`readInt_written`, `readFloat_written`).
-/

namespace FieldSchema.Markup

open Json (Numeral Digits Exponent Sign takeSign_written)
open Text (takeWhile_run dropWhile_run ne_of_isDigit)

/-! ## Forms -/

def isSigned (e : Exponent) : Bool :=
  match e.sign with
  | .absent => false
  | _ => true

/-- Whether a number has one of the forms of plain numbers: whether it has no exponent, or a point
and an exponent with a sign. -/
def isPlainNumber (n : Numeral) : Bool :=
  n.exponent.elim true fun e => n.fraction.isSome && isSigned e

/-- What follows the whole part of a number. -/
def behindWhole (n : Numeral) : List Char :=
  (n.fraction.elim [] fun f => '.' :: f.chars) ++ n.exponent.elim [] (·.written)

variable (n : Numeral)

theorem colon_not_mem : ':' ∉ n.written := by
  intro hmem
  have := numeral_plainChar n _ hmem
  cases this

theorem isEmpty_written : n.written.isEmpty = false := by
  obtain ⟨d, cs, -, hcs | hcs⟩ := n.exists_digit <;> simp [hcs]

theorem takeSign_numeral : takeSign n.written = (n.negative, n.whole.chars ++ behindWhole n) :=
  takeSign_written n.negative n.whole (behindWhole n)

theorem behindWhole_head : ∀ c ∈ (behindWhole n).head?, c = '.' ∨ c = 'e' ∨ c = 'E' := by
  obtain ⟨negative, whole, leading, fraction, exponent⟩ := n
  rcases fraction with _ | f
  · rcases exponent with _ | ⟨upper, sign, digits⟩
    · simp [behindWhole]
    · cases upper <;> simp [behindWhole, Exponent.written]
  · simp [behindWhole]

theorem isSpacedDigit_of_isDigit {c : Char} (h : c.isDigit = true) : isSpacedDigit c = true := by
  simp [isSpacedDigit, h]

theorem isDigitRun_digits (d : Digits) : isDigitRun d.chars = true := by
  obtain ⟨c, cs, hcs, hc⟩ := d.exists_cons
  have hall := d.isDigit
  rw [hcs] at hall ⊢
  have hrest : ∀ e ∈ cs, isSpacedDigit e = true :=
    fun e he => isSpacedDigit_of_isDigit (hall e (by simp [he]))
  simpa [isDigitRun, hc] using hrest

theorem splitColons_eq {cs : List Char} (h : ':' ∉ cs) : splitColons cs = [cs] := by
  induction cs with
  | nil => rfl
  | cons c cs ih =>
    simp only [List.mem_cons, not_or] at h
    have hc : c ≠ ':' := Ne.symm h.1
    have hcs := ih h.2
    simp only [splitColons] at hcs ⊢
    simp [hcs, hc]

theorem isSexagesimal_eq_false {cs : List Char} (h : ':' ∉ cs) : isSexagesimal cs = false := by
  simp [isSexagesimal, splitColons_eq h]

theorem not_mem_digits (d : Digits) {c : Char} (hc : c.isDigit = false) : c ∉ d.chars := by
  intro hmem
  simp [d.isDigit c hmem] at hc

/-- Behind the point stand digits, and an exponent with a sign or none. -/
theorem isFractionForm_written (f : Digits) (exponent : Option Exponent) :
    isFractionForm (f.chars ++ exponent.elim [] (·.written)) = exponent.elim true isSigned := by
  have hstop : ∀ c ∈ (exponent.elim [] (·.written)).head?, isSpacedDigit c = false := by
    rcases exponent with _ | ⟨upper, sign, digits⟩
    · simp
    · cases upper <;> simp [Exponent.written, isSpacedDigit]
  rw [isFractionForm, dropWhile_run (fun c hc => isSpacedDigit_of_isDigit (f.isDigit c hc)) hstop]
  rcases exponent with _ | ⟨upper, sign, digits⟩
  · rfl
  · obtain ⟨c, cs, hcs, hc⟩ := digits.exists_cons
    have hplus : c ≠ '+' := ne_of_isDigit hc rfl
    have hminus : c ≠ '-' := ne_of_isDigit hc rfl
    have hall : (c :: cs).all Char.isDigit = true := List.all_eq_true.2 (hcs ▸ digits.isDigit)
    cases sign with
    | absent => simp [Exponent.written, Sign.written, hcs, isSigned, hplus, hminus]
    | plus | minus => simp [Exponent.written, Sign.written, hcs, isSigned, hall]

theorem point_not_mem_exponent (exponent : Option Exponent) :
    '.' ∉ exponent.elim [] (·.written) := by
  rcases exponent with _ | ⟨upper, sign, digits⟩
  · simp
  · have hdigits := not_mem_digits digits (c := '.') rfl
    cases upper <;> cases sign <;> simp [Exponent.written, Sign.written, hdigits]

theorem isFloatForm_written :
    isFloatForm n.written = (n.fraction.isSome && isPlainNumber n) := by
  have hpoint := not_mem_digits n.whole (c := '.') rfl
  have hcolon := not_mem_digits n.whole (c := ':') rfl
  rw [isFloatForm, takeSign_numeral, behindWhole]
  rcases hfraction : n.fraction with _ | f
  · have hnone : (n.whole.chars ++ ([] ++ n.exponent.elim [] (·.written))).dropWhile (· ≠ '.') =
        [] := by
      have hall : ∀ c ∈ n.whole.chars ++ ([] ++ n.exponent.elim [] (·.written)),
          decide (c ≠ '.') = true := by
        intro c hc
        simp only [List.nil_append, List.mem_append] at hc
        simp only [ne_eq, decide_eq_true_eq]
        rintro rfl
        exact hc.elim hpoint (point_not_mem_exponent n.exponent)
      exact List.dropWhile_eq_nil_iff.2 hall
    simp only [Option.elim_none, hnone, Option.isSome_none, Bool.false_and]
  · have hwhole : ∀ c ∈ n.whole.chars, decide (c ≠ '.') = true := by
      intro c hc
      simp only [ne_eq, decide_eq_true_eq]
      rintro rfl
      exact hpoint hc
    have hfirst := n.whole.ne_nil
    have hbehind : ∀ c ∈ ('.' :: (f.chars ++ n.exponent.elim [] (·.written))).head?,
        decide (c ≠ '.') = false := by simp
    simp only [Option.elim_some, List.cons_append, takeWhile_run hwhole hbehind,
      dropWhile_run hwhole hbehind, List.isEmpty_iff, hfirst, if_false, isDigitRun_digits,
      isFractionForm_written, isSexagesimal_eq_false hcolon, Bool.true_and, Bool.false_and,
      Bool.or_false, Option.isSome_some, isPlainNumber, hfraction]

theorem isIntForm_written :
    isIntForm n.written = (n.fraction.isNone && n.exponent.isNone) := by
  have hnil : (n.fraction.isNone && n.exponent.isNone) = (behindWhole n).isEmpty := by
    rcases hfraction : n.fraction with _ | f <;> rcases hexponent : n.exponent with _ | e <;>
      simp [behindWhole, hfraction, hexponent, Exponent.written]
  have hcolon : ':' ∉ n.whole.chars ++ behindWhole n :=
    fun hmem => colon_not_mem n (List.mem_append_right _ hmem)
  obtain ⟨d, ds, hds, hd⟩ := n.whole.exists_cons
  have hleading := n.leading
  have hrun := isDigitRun_digits n.whole
  have hhead := behindWhole_head n
  rw [hnil, isIntForm, takeSign_numeral]
  generalize behindWhole n = more at hcolon hhead ⊢
  rw [hds] at hleading hcolon hrun ⊢
  -- a zero in front is the whole part, so the mark of a base cannot follow it
  by_cases hzero : d = '0'
  · subst hzero
    obtain rfl : ds = [] := by simpa using hleading rfl
    rcases more with _ | ⟨e, more⟩
    · rfl
    · obtain rfl | rfl | rfl := hhead e rfl <;> simp
  · have hother : (isDigitRun (d :: (ds ++ more)) || isSexagesimal (d :: (ds ++ more))) =
        more.isEmpty := by
      rw [isSexagesimal_eq_false (by simpa using hcolon), Bool.or_false]
      simp only [isDigitRun, hd, Bool.true_and, List.all_append] at hrun ⊢
      rcases more with _ | ⟨e, more⟩
      · simp [hrun]
      · obtain rfl | rfl | rfl := hhead e rfl <;> simp [isSpacedDigit]
    simp only [List.cons_append]
    split <;> simp_all

theorem takeDigits?_some {least most : Nat} {cs ds rest : List Char}
    (h : takeDigits? least most cs = some (ds, rest)) :
    cs = ds ++ rest ∧ least ≤ ds.length ∧ ∀ d ∈ ds, d.isDigit = true := by
  simp only [takeDigits?] at h
  split at h
  · rename_i hleast
    obtain ⟨rfl, rfl⟩ := Prod.mk.inj (Option.some.inj h)
    refine ⟨?_, hleast, fun d hd => List.mem_takeWhile_imp hd⟩
    have hprefix : (cs.take most).takeWhile Char.isDigit <+: cs :=
      (List.takeWhile_prefix _).trans (List.take_prefix most cs)
    exact (List.prefix_iff_eq_append.1 hprefix).symm
  · cases h

/-- A number does not start with a year: behind its first digits stands no hyphen. -/
theorem stamp?_numeral : stamp? n.written = none := by
  rcases hyear : takeDigits? 4 4 n.written with _ | ⟨year, rest⟩
  · rw [stamp?, hyear]
    rfl
  obtain ⟨hwritten, hlength, hyears⟩ := takeDigits?_some hyear
  rcases rest with _ | ⟨c, rest⟩
  · rw [stamp?, hyear]
    rfl
  by_cases hc : c = '-'
  · subst hc
    obtain ⟨y, years, rfl⟩ := List.exists_cons_of_length_pos (by omega : 0 < year.length)
    -- the year would be the whole part, or the minus one of its digits
    rcases hnegative : n.negative with _ | _
    · have hrest : behindWhole n = '-' :: rest := by
        have hstop : ∀ c ∈ (behindWhole n).head?, c.isDigit = false := by
          intro c hc
          obtain rfl | rfl | rfl := behindWhole_head n c hc <;> rfl
        have hhyphen : ∀ c ∈ ('-' :: rest).head?, c.isDigit = false := by simp [Char.isDigit]
        rw [← dropWhile_run n.whole.isDigit hstop, ← dropWhile_run hyears hhyphen, ← hwritten]
        simp [Numeral.written, Numeral.size, hnegative, behindWhole]
      have hhead := behindWhole_head n '-' (by rw [hrest]; rfl)
      simp at hhead
    · have hy : y = '-' := by
        have hhead := congrArg List.head? hwritten
        simpa [Numeral.written, hnegative] using hhead.symm
      have hdigit := hyears y (by simp)
      rw [hy] at hdigit
      cases hdigit
  · have hmonth : takeChar? '-' (c :: rest) = none := if_neg hc
    rw [stamp?, hyear]
    simp only [Option.bind_eq_bind, Option.bind_some, hmonth, Option.bind_none]

/-- Whether a word starts unlike a number. -/
def startsOtherwise (w : String) : Bool := w.toList.head?.any fun c => !c.isDigit && c ≠ '-'

theorem ofList_numeral_ne {w : String} (hw : startsOtherwise w = true) :
    String.ofList n.written ≠ w := by
  rintro rfl
  obtain ⟨d, cs, hd, hcs | hcs⟩ := n.exists_digit <;>
    simp [startsOtherwise, hcs, hd] at hw

theorem startsOtherwise_of_mem {w : String} (h : w ∈ truthWords.map (·.1) ++ nullWords) :
    startsOtherwise w = true := by
  revert w
  decide

/-- A number is a whole number, a decimal number or a text by its form. -/
theorem ofPlain_numeral : Tag.ofPlain n.written =
    if isPlainNumber n then (if n.fraction.isSome then .float else .int) else .str := by
  have hlast : n.written.getLast? ≠ some '\n' := by
    intro hlast
    have := numeral_plainChar n _ (List.mem_of_getLast? hlast)
    cases this
  have hword {w : String} (hw : w ∈ truthWords.map (·.1) ++ nullWords) :
      String.ofList n.written ≠ w :=
    ofList_numeral_ne n (startsOtherwise_of_mem hw)
  have htruth : truthWords.lookup (String.ofList n.written) = none := by
    rw [List.lookup_eq_none_iff]
    intro p hp
    simpa using hword (List.mem_append_left _ (List.mem_map_of_mem hp))
  have hnull : nullWords.contains (String.ofList n.written) = false := by
    rw [Bool.eq_false_iff]
    intro hmem
    exact hword (List.mem_append_right _ (by simpa using hmem)) rfl
  have hmerge : String.ofList n.written ≠ "<<" := ofList_numeral_ne n rfl
  have hvalue : String.ofList n.written ≠ "=" := ofList_numeral_ne n rfl
  have hstamp : isStampForm n.written = false := by rw [isStampForm, stamp?_numeral]
  simp only [Tag.ofPlain, if_neg hlast, isEmpty_written, htruth, hnull, isFloatForm_written,
    isIntForm_written, hstamp, if_neg hmerge, if_neg hvalue]
  rcases hfraction : n.fraction with _ | f <;> rcases hexponent : n.exponent with _ | e <;>
    simp [isPlainNumber, hfraction, hexponent]

/-! ## Readings -/

theorem bounds_of_isPlainChar {c : Char} (h : isPlainChar c = true) :
    43 ≤ c.toNat ∧ c.toNat ≤ 122 := by
  change (((((decide (c.val ≥ 'A'.val ∧ c.val ≤ 'Z'.val) || (c.val ≥ 'a'.val && c.val ≤ 'z'.val)) ||
    (c.val ≥ '0'.val && c.val ≤ '9'.val)) || c = '+') || c = '-') || c = '.') = true at h
  simp only [Bool.or_eq_true, Bool.and_eq_true, decide_eq_true_eq, UInt32.le_iff_toNat_le,
    ge_iff_le] at h
  rcases h with ((((h | h) | h) | rfl) | rfl) | rfl
  · exact ⟨Nat.le_trans (by decide) h.1, Nat.le_trans h.2 (by decide)⟩
  · exact ⟨Nat.le_trans (by decide) h.1, Nat.le_trans h.2 (by decide)⟩
  · exact ⟨Nat.le_trans (by decide) h.1, Nat.le_trans h.2 (by decide)⟩
  all_goals exact ⟨by decide, by decide⟩

section Plain

variable {cs : List Char}

theorem trim_plain (h : ∀ c ∈ cs, isPlainChar c = true) : Text.trim cs = cs := by
  refine Text.trim_eq_self fun c hc => ?_
  have := bounds_of_isPlainChar (h c hc)
  exact Text.isBlank_eq_false (by omega) (by omega)

theorem digitRanges_ascii {r : Nat × Nat} (h : r ∈ Text.digitRanges) :
    r = (48, 57) ∨ 128 ≤ r.1 := by
  revert r
  decide

/-- The digits of ASCII are the plain ones. -/
theorem plainDigits_plain (h : ∀ c ∈ cs, isPlainChar c = true) : plainDigits cs = cs := by
  rw [plainDigits, List.map_congr_left (g := id), List.map_id]
  intro c hc
  have hbounds := bounds_of_isPlainChar (h c hc)
  split
  · rename_i low high hfind
    have hin := Array.find?_some hfind
    have hlow := (digitRanges_ascii (Array.mem_of_find?_eq_some hfind)).resolve_right
      (by simp at hin; omega)
    obtain ⟨rfl, rfl⟩ := Prod.mk.inj hlow
    simp only [Bool.and_eq_true, decide_eq_true_eq] at hin
    have hsame : '0'.toNat + (c.toNat - 48) % 10 = c.toNat := by
      rw [show '0'.toNat = 48 from rfl]
      omega
    rw [hsame, Char.ofNat_toNat, id]
  · rfl

theorem lower_plain (h : ∀ c ∈ cs, isPlainChar c = true) : Text.lower cs = cs.map Char.toLower :=
  Text.lower_ascii fun c hc => by
    have := bounds_of_isPlainChar (h c hc)
    omega

theorem filter_plain (h : ∀ c ∈ cs, isPlainChar c = true) : cs.filter (· ≠ '_') = cs := by
  rw [List.filter_eq_self]
  intro c hc
  simpa using ne_of_isPlainChar (h c hc) (e := '_') rfl

end Plain

theorem toLower_of_isDigit {c : Char} (h : c.isDigit = true) : c.toLower = c := by
  have hupper : ¬ (65 ≤ c.val.toNat ∧ c.val.toNat ≤ 90) := by
    have : c.val.toNat ≤ 57 := (Text.bounds_of_isDigit h).2
    omega
  exact dif_neg (by simpa [UInt32.le_iff_toNat_le] using hupper)

/-- A number with a small letter before its exponent. -/
def lowered (n : Numeral) : Numeral :=
  { n with exponent := n.exponent.map fun e => { e with upper := false } }

theorem map_toLower_written : n.written.map Char.toLower = (lowered n).written := by
  have hdigits (d : Digits) : d.chars.map Char.toLower = d.chars := by
    rw [List.map_congr_left (g := id), List.map_id]
    exact fun c hc => toLower_of_isDigit (d.isDigit c hc)
  have hexponent (e : Exponent) :
      e.written.map Char.toLower = { e with upper := false }.written := by
    obtain ⟨upper, sign, digits⟩ := e
    cases upper <;> cases sign <;> simp [Exponent.written, Sign.written, hdigits]
  obtain ⟨negative, whole, leading, fraction, exponent⟩ := n
  have hpoint : '.'.toLower = '.' := rfl
  have hminus : '-'.toLower = '-' := rfl
  cases negative <;> rcases fraction with _ | f <;> rcases exponent with _ | e <;>
    simp [lowered, Numeral.written, Numeral.size, hdigits, hexponent, hpoint, hminus]

theorem lowered_lowered : lowered (lowered n) = lowered n := by
  simp [lowered, Function.comp_def]

theorem lower_written : Text.lower n.written = (lowered n).written := by
  rw [lower_plain (numeral_plainChar n), map_toLower_written]

/-- A number without its sign. -/
def unsigned (n : Numeral) : Numeral := { n with negative := false }

theorem takeSign_unsigned : takeSign n.written = (n.negative, (unsigned n).written) := by
  rw [takeSign_numeral]
  simp [unsigned, Numeral.written, Numeral.size, behindWhole]

theorem numberSign_written : numberSign n.written = .ok (n.negative, (unsigned n).written) := by
  rw [numberSign, isEmpty_written, takeSign_unsigned]
  rfl

theorem negate_ofDecimal (negative : Bool) (digits : Nat) (exponent : Int) :
    negate (.ofDecimal negative digits exponent) = .ofDecimal (!negative) digits exponent := by
  have hratio (num den : Nat) :
      negate (.ofRatio negative num den) = .ofRatio (!negative) num den := by
    simp only [Binary64.ofRatio]
    split
    · rfl
    · split <;> (split <;> rfl)
  simp only [Binary64.ofDecimal]
  split
  · rfl
  · split
    · rfl
    · split <;> exact hratio _ _

theorem readReal_written (h : n.negative = false) (hlowered : lowered n = n) :
    readReal n.written = .ok (.ofDecimal false
      (digitsValue 10 (n.whole.chars ++ n.fraction.elim [] (·.chars)))
      (n.exponent.elim 0 (·.value) - (n.fraction.elim [] (·.chars)).length)) := by
  have hplain := numeral_plainChar n
  have hdecimal := Json.readDecimal?_written n
  rw [h] at hdecimal
  have hsame : (unsigned n) = n := by
    cases n
    simp_all [unsigned]
  simp only [readReal, trim_plain hplain, plainDigits_plain hplain, takeSign_unsigned, hsame,
    map_toLower_written, hlowered, hdecimal]
  simp [ofList_numeral_ne n (w := "inf") rfl, ofList_numeral_ne n (w := "infinity") rfl,
    ofList_numeral_ne n (w := "nan") rfl]

/-- A number with a point reads as a decimal number. -/
theorem readFloat_written : readFloat n.written = .ok (.ofDecimal n.negative
    (digitsValue 10 (n.whole.chars ++ n.fraction.elim [] (·.chars)))
    (n.exponent.elim 0 (·.value) - (n.fraction.elim [] (·.chars)).length)) := by
  have hreal := readReal_written (unsigned (lowered n)) rfl (congrArg unsigned (lowered_lowered n))
  have hinf : (unsigned (lowered n)).written ≠ ".inf".toList := by
    intro h
    have := ofList_numeral_ne (unsigned (lowered n)) (w := ".inf") rfl
    simp [h] at this
  have hnan : (unsigned (lowered n)).written ≠ ".nan".toList := by
    intro h
    have := ofList_numeral_ne (unsigned (lowered n)) (w := ".nan") rfl
    simp [h] at this
  have hcolon : (unsigned (lowered n)).written.contains ':' = false := by
    simpa using colon_not_mem (unsigned (lowered n))
  rw [readFloat, filter_plain (numeral_plainChar n), lower_written, numberSign_written]
  have hexponent : (lowered n).exponent.elim 0 (·.value) = n.exponent.elim 0 (·.value) := by
    rcases hexponent : n.exponent with _ | ⟨upper, sign, digits⟩ <;>
      simp [lowered, hexponent, Exponent.value]
  simp only [bind, Except.bind, if_neg hinf, if_neg hnan, hcolon, hreal]
  rw [← hexponent]
  have hnegative : (lowered n).negative = n.negative := rfl
  cases h : n.negative with
  | true => 
    simp [hnegative, h, negate_ofDecimal]
    rfl
  | false => 
    simp [hnegative, h]
    rfl

theorem readInt_written (h : n.isShort = true) (hfraction : n.fraction = none)
    (hexponent : n.exponent = none) : readInt n.written =
      .ok (signed n.negative (digitsValue 10 n.whole.chars)) := by
  have hsize : (unsigned n).written = n.whole.chars := by
    simp [unsigned, Numeral.written, Numeral.size, hfraction, hexponent]
  have hplain : ∀ c ∈ n.whole.chars, isPlainChar c = true := 
    fun c hc => isPlainChar_of_isDigit (n.whole.isDigit c hc)
  have hlength : ¬ maxDigits < n.whole.chars.length := by
    simpa [Numeral.isShort, hfraction, hexponent] using h
  have hwhole : readWhole 10 n.whole.chars = .ok (digitsValue 10 n.whole.chars : Int) := by
    have hsign : takeSign n.whole.chars = (false, n.whole.chars) := by
      simpa using takeSign_written false n.whole []
    have hmark : dropBaseMark 10 n.whole.chars = n.whole.chars := by
      unfold dropBaseMark
      split <;> simp
    have hall : (n.whole.chars.all fun c =>
        (c.isDigit || ('a' ≤ c.toLower && c.toLower ≤ 'f')) && digitValue c < 10) = true := by
      refine List.all_eq_true.2 fun c hc => ?_
      have hdigit := n.whole.isDigit c hc
      simp [hdigit, Text.digitValue_lt_ten hdigit]
    simp only [readWhole, trim_plain hplain, plainDigits_plain hplain, hsign, hmark, hall, hlength]
    simp [n.whole.ne_nil, signed]
  have hcolon : n.whole.chars.contains ':' = false := by
    simpa using not_mem_digits n.whole (c := ':') rfl
  have hleading := n.leading
  rw [readInt, filter_plain (numeral_plainChar n), numberSign_written, hsize]
  simp only [bind, Except.bind]
  split
  case h_1 heq =>
    rw [heq]
    cases n.negative <;> rfl
  case h_5 heq => exact absurd heq n.whole.ne_nil
  case h_6 =>
    rw [hcolon, hwhole]
    rfl
  -- no other number starts with a zero
  all_goals
    rename_i heq
    simp_all

end FieldSchema.Markup
