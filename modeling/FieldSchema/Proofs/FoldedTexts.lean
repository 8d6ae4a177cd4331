import FieldSchema.Markup.Scalar
import FieldSchema.Proofs.Cursors
import FieldSchema.Proofs.JsonReading

/-!
# Texts of JSON between quotes

Between quotes a declaration text folds its lines: breaks and the spaces beside them are not kept as
they are. JSON leaves only separators that are no white space of its own as raw breaks, so of its
texts only those with such a break can read differently (`quotedScalar_written`, `folded_eq_iff`).
-/

namespace FieldSchema.Markup

open Json (Piece chars writtenQuote)

/-- A run at a cursor is passed up to what ends it. -/
theorem Cursor.takeWhile_run {c : Cursor} {test : Char → Bool} {w rest : List Char}
    (h : c.rest = w ++ rest) (hw : ∀ d ∈ w, test d = true)
    (hrest : ∀ d ∈ rest.head?, test d = false) :
    c.takeWhile test = (w, c.skip w.length) := by
  have hrun : c.rest.takeWhile test = w := by rw [h, Text.takeWhile_run hw hrest]
  simp only [Cursor.takeWhile, Cursor.skipWhile, Cursor.run, hrun]

/-! ## Text between quotes -/

section Runs

variable {c end' : Cursor} {d : Char} {fuel : Nat} {text rest : List Char}

/-- Whether a character stands for itself between double quotes and separates nothing. -/
def isOrdinary (d : Char) : Bool := !isGap d && d ≠ '\'' && d ≠ '"' && d ≠ '\\'

theorem quotedRun_ordinary (hd : isOrdinary d = true) (h : c.rest = d :: rest)
    (hrun : quotedRun true (fuel + 1) c.next = .ok (text, end')) :
    quotedRun true (fuel + 1) c = .ok (d :: text, end') := by
  have htake : (c.takeWhile fun ch => !isGap ch && ch ≠ '\'' && ch ≠ '"' && ch ≠ '\\') =
      (d :: c.next.run isOrdinary, c.next.skipWhile isOrdinary) := by
    change c.takeWhile isOrdinary = _
    simp [Cursor.takeWhile, Cursor.skipWhile, Cursor.run, h, Cursor.next_cons h, hd, Cursor.skip]
  have hnext : (c.next.takeWhile fun ch => !isGap ch && ch ≠ '\'' && ch ≠ '"' && ch ≠ '\\') =
      (c.next.run isOrdinary, c.next.skipWhile isOrdinary) := rfl
  unfold quotedRun at hrun ⊢
  simp only [htake, hnext, bind, Except.bind, pure, Except.pure] at hrun ⊢
  generalize c.next.skipWhile isOrdinary = after at hrun ⊢
  -- the step behind the run is the same one
  split_ifs at hrun ⊢
  all_goals (repeat' split at hrun) <;> simp_all [flaw]

/-- Where no ordinary character stands, the run in front is empty. -/
theorem takeWhile_ordinary (hd : isOrdinary d = false) (h : c.rest = d :: rest) :
    (c.takeWhile fun ch => !isGap ch && ch ≠ '\'' && ch ≠ '"' && ch ≠ '\\') = ([], c) := by
  change c.takeWhile isOrdinary = _
  simp [Cursor.takeWhile, Cursor.skipWhile, Cursor.run, h, hd, Cursor.skip]

theorem quotedRun_stop (hd : isGap d = true ∨ d = '"') (h : c.rest = d :: rest) :
    quotedRun true (fuel + 1) c = .ok ([], c) := by
  have hordinary : isOrdinary d = false := by
    rcases hd with hd | rfl
    · simp [isOrdinary, hd]
    · rfl
  have hother : d ≠ '\'' ∧ d ≠ '\\' := by
    constructor <;> (rintro rfl; rcases hd with hd | hd <;> cases hd)
  rw [quotedRun, takeWhile_ordinary hordinary h]
  simp [Cursor.char_cons h, hother]
  rfl

theorem quotedRun_apostrophe (h : c.rest = '\'' :: rest)
    (hrun : quotedRun true fuel c.next = .ok (text, end')) :
    quotedRun true (fuel + 1) c = .ok ('\'' :: text, end') := by
  rw [quotedRun, takeWhile_ordinary rfl h]
  simp [Cursor.char_cons h, hrun]

theorem quotedRun_escape {letter : Char} (hletter : escapedChar? letter = some d)
    (h : c.rest = '\\' :: letter :: rest)
    (hrun : quotedRun true fuel (c.skip 2) = .ok (text, end')) :
    quotedRun true (fuel + 1) c = .ok (d :: text, end') := by
  have hnext := Cursor.next_cons h
  rw [Cursor.skip, Cursor.skip, Cursor.skip] at hrun
  rw [quotedRun, takeWhile_ordinary rfl h]
  simp [Cursor.char_cons h, hnext, Cursor.char_cons hnext, hletter, hrun]

theorem digitValue_lt (d : Char) : digitValue d < 16 := by
  unfold digitValue
  split_ifs with hdigit hlower hupper
  · simp only [Char.isDigit, Bool.and_eq_true, decide_eq_true_eq] at hdigit
    have : d.toNat ≤ 57 := hdigit.2
    simp only [show '0'.toNat = 48 from rfl]
    omega
  · have : d.toNat ≤ 102 := hlower.2
    simp only [show 'a'.toNat = 97 from rfl]
    omega
  · have : d.toNat ≤ 70 := hupper.2
    simp only [show 'A'.toNat = 65 from rfl]
    omega
  · omega

theorem escapedCode_four {a b e f : Char} (hdigits : [a, b, e, f].all Json.isHexDigit = true)
    (h : c.rest = a :: b :: e :: f :: rest) :
    escapedCode 4 c = .ok (digitsValue 16 [a, b, e, f], c.skip 4) := by
  have hhex : [a, b, e, f].all isHex = true := hdigits
  have hbound : digitsValue 16 [a, b, e, f] < 0x10000 := by
    have := digitValue_lt a
    have := digitValue_lt b
    have := digitValue_lt e
    have := digitValue_lt f
    simp only [digitsValue, List.foldl_cons, List.foldl_nil]
    omega
  have hlarge : ¬ 0x7fffffff < digitsValue 16 [a, b, e, f] := by omega
  have hchar : ¬ 0x10ffff < digitsValue 16 [a, b, e, f] := by omega
  have htake : c.rest.take 4 = [a, b, e, f] := by simp [h]
  simp only [escapedCode, htake, hhex, if_neg hlarge, if_neg hchar]
  rfl

theorem quotedRun_code {a b e f : Char} (hdigits : [a, b, e, f].all Json.isHexDigit = true)
    (hhalf : Json.isHalf (digitsValue 16 [a, b, e, f]) = false)
    (h : c.rest = '\\' :: 'u' :: a :: b :: e :: f :: rest)
    (hrun : quotedRun true fuel (c.skip 6) = .ok (text, end')) :
    quotedRun true (fuel + 1) c = .ok (Char.ofNat (digitsValue 16 [a, b, e, f]) :: text, end') := by
  have hnext := Cursor.next_cons h
  have hcode := escapedCode_four hdigits (Cursor.next_cons hnext)
  have hwhole : joinHalves (digitsValue 16 [a, b, e, f]) (c.next.next.skip 4) =
      (Char.ofNat (digitsValue 16 [a, b, e, f]), c.next.next.skip 4) := by
    simp only [Json.isHalf, Bool.and_eq_false_iff, decide_eq_false_iff_not] at hhalf
    rw [joinHalves, if_neg (by omega)]
  rw [Cursor.skip, Cursor.skip] at hrun
  rw [quotedRun, takeWhile_ordinary rfl h]
  simp [Cursor.char_cons h, hnext, Cursor.char_cons hnext, hcode, hwhole, hrun, escapedChar?,
    escapeLength?, bind, Except.bind, pure, Except.pure]

end Runs

/-- The blanks that texts of JSON may have between quotes. -/
def IsBlank (d : Char) : Prop := d = ' ' ∨ d = '\x85' ∨ d = '\u2028' ∨ d = '\u2029'

theorem IsBlank.isBreak {b : Char} (hb : IsBlank b) (hspace : b ≠ ' ') : isBreak b = true := by
  obtain rfl | rfl | rfl | rfl := hb
  · exact absurd rfl hspace
  all_goals rfl

theorem IsBlank.ne_tab {b : Char} (hb : IsBlank b) : b ≠ '\t' := by
  rintro rfl
  obtain h | h | h | h := hb <;> cases h

/-- The blank that a piece is. -/
def blank? : Piece → Option Char
  | .raw d _ => if d = ' ' || isBreak d then some d else none
  | _ => none

theorem blank?_some {p : Piece} {d : Char} (h : blank? p = some d) :
    p.written = [d] ∧ p.char = d ∧ IsBlank d := by
  unfold blank? at h
  split at h
  · rename_i raw hraw
    split at h
    · rename_i hblank
      cases h
      refine ⟨rfl, rfl, ?_⟩
      simp only [isBreak, Bool.or_eq_true, decide_eq_true_eq, or_assoc] at hblank
      rcases hblank with rfl | rfl | rfl | hblank
      · exact Or.inl rfl
      · cases hraw
      · cases hraw
      · exact Or.inr hblank
    · cases h
  · cases h

theorem isOrdinary_of_raw {d : Char} {hraw : Json.isRaw d = true}
    (h : blank? (.raw d hraw) = none) (hd : d ≠ '\'') : isOrdinary d = true := by
  have hblank : ¬ ((d = ' ' || isBreak d) = true) := by simpa [blank?] using h
  simp only [Json.isRaw, Bool.and_eq_true, decide_eq_true_eq] at hraw
  have htab : d ≠ '\t' := by
    rintro rfl
    exact absurd hraw.1.1 (by decide)
  have hend : d ≠ endMark := by
    rintro rfl
    exact absurd hraw.1.1 (by decide)
  simp_all [isOrdinary, isGap, isSpaceOrEnd, isBreakOrEnd]

/-- Every escape of JSON is one of declaration texts, for the same character. -/
theorem escapedChar?_of_escaped? {letter d : Char} (h : Json.escaped? letter = some d) :
    escapedChar? letter = some d := by
  unfold Json.escaped? at h
  split at h <;> first | exact h | cases h

/-- Where text without blanks ends, the run in front has read it. -/
theorem quotedRun_solid {ps : List Piece} (hsolid : ∀ p ∈ ps, blank? p = none) {d : Char}
    (hd : isGap d = true ∨ d = '"') {rest : List Char} {fuel : Nat} (hfuel : ps.length < fuel)
    {c : Cursor} (h : c.rest = ps.flatMap Piece.written ++ d :: rest) :
    quotedRun true fuel c = .ok (chars ps, c.skip (ps.flatMap Piece.written).length) := by
  induction ps generalizing fuel c with
  | nil =>
    obtain ⟨fuel, rfl⟩ := Nat.exists_eq_succ_of_ne_zero (by omega : fuel ≠ 0)
    exact quotedRun_stop hd h
  | cons p ps ih =>
    obtain ⟨fuel, rfl⟩ := Nat.exists_eq_succ_of_ne_zero (by omega : fuel ≠ 0)
    simp only [List.length_cons] at hfuel
    rw [List.flatMap_cons, List.append_assoc] at h
    rw [List.flatMap_cons, Cursor.skip_append]
    have hps : ∀ p ∈ ps, blank? p = none := fun p hp => hsolid p (List.mem_cons_of_mem _ hp)
    have hrest := Cursor.skip_append_rest h
    cases p with
    | raw e hraw =>
      by_cases he : e = '\''
      · subst he
        exact quotedRun_apostrophe h (ih hps (by omega) hrest)
      · have hsolid := hsolid (.raw e hraw) (by simp)
        exact quotedRun_ordinary (isOrdinary_of_raw hsolid he) h (ih hps (by omega) hrest)
    | escape letter e hletter =>
      exact quotedRun_escape (escapedChar?_of_escaped? hletter) h (ih hps (by omega) hrest)
    | code a b e f hdigits hhalf =>
      exact quotedRun_code hdigits hhalf h (ih hps (by omega) hrest)

/-! ## Blanks between quotes -/

/-- What a line break between quotes is read as. -/
def readBreak (d : Char) : Char := if d = '\x85' then '\n' else d

/-- The breaks among some blanks. -/
def breaksOf (bs : List Char) : List Char := (bs.filter isBreak).map readBreak

/-- What blanks between quotes contribute. Without a break they stay; a break that reads as a line
feed counts only with another one behind it, and as a space otherwise. -/
def foldBlanks (bs : List Char) : List Char :=
  match bs.dropWhile (· = ' ') with
  | [] => bs
  | d :: more =>
    if d ≠ '\x85' then d :: breaksOf more
    else if breaksOf more = [] then [' '] else breaksOf more

/-- Whether a mark that starts or ends a document stands in front. -/
def startsMark (cs : List Char) : Bool := (Cursor.start cs).seesSeparator

theorem seesSeparator_eq (c : Cursor) : c.seesSeparator = startsMark c.rest := rfl

/-- Whether such a mark follows one of the breaks in a part of a text. -/
def hasMark : (part rest : List Char) → Bool
  | [], _ => false
  | d :: part, rest => (isBreak d && startsMark (part ++ rest)) || hasMark part rest

theorem hasMark_append (w w' rest : List Char) :
    hasMark (w ++ w') rest = (hasMark w (w' ++ rest) || hasMark w' rest) := by
  induction w with
  | nil => rfl
  | cons d w ih => simp [hasMark, ih, Bool.or_assoc]

theorem hasMark_eq_false {w : List Char} (h : ∀ d ∈ w, isBreak d = false) (rest : List Char) :
    hasMark w rest = false := by
  induction w with
  | nil => rfl
  | cons d w ih => simp_all [hasMark]

section Blanks

variable {d : Char} {rest : List Char}

theorem takeBreak_blank {c : Cursor} {b : Char} (hb : IsBlank b) (hspace : b ≠ ' ')
    (h : c.rest = b :: rest) : c.takeBreak = ([readBreak b], c.next) := by
  obtain rfl | rfl | rfl | rfl := hb
  · exact absurd rfl hspace
  all_goals simp [Cursor.takeBreak, Cursor.char_cons h, readBreak]

/-- What stands behind a break and no mark: more spaces and breaks. -/
def moreBreaks (fuel : Nat) (c : Cursor) : Except Fault (List Char × Cursor) :=
  let c := c.skipWhile fun ch => ch = ' ' || ch = '\t'
  if isBreak c.char then do
    let (lineBreak, c) := c.takeBreak
    let (breaks, c) ← quotedBreaks fuel c
    pure (lineBreak ++ breaks, c)
  else pure ([], c)

theorem quotedBreaks_succ (fuel : Nat) (c : Cursor) : quotedBreaks (fuel + 1) c =
    if startsMark c.rest then flaw .separatorInText else moreBreaks fuel c := by
  rfl

theorem moreBreaks_blanks {bs : List Char} (hbs : ∀ b ∈ bs, IsBlank b) (hd : isGap d = false)
    {fuel : Nat} (hfuel : bs.length ≤ fuel) {c : Cursor} (h : c.rest = bs ++ d :: rest) :
    moreBreaks fuel c =
      if hasMark bs (d :: rest) then flaw .separatorInText
      else .ok (breaksOf bs, c.skip bs.length) := by
  induction bs generalizing fuel c with
  | nil =>
    simp only [isGap, isSpaceOrEnd, isBreakOrEnd, Bool.or_eq_false_iff] at hd
    have hskip : (c.skipWhile fun ch => ch = ' ' || ch = '\t') = c :=
      Cursor.skipWhile_of_not h (by simp only [hd.1.2, hd.2, Bool.or_self])
    simp [moreBreaks, hskip, Cursor.char_cons h, hd.1.1.1, hasMark, breaksOf, Cursor.skip]
    rfl
  | cons b bs ih =>
    have hnext : c.next.rest = bs ++ d :: rest := Cursor.next_cons h
    have hblank := hbs b (by simp)
    have hmore : ∀ b ∈ bs, IsBlank b := fun b hb => hbs b (by simp [hb])
    by_cases hspace : b = ' '
    · subst hspace
      have hskip : moreBreaks fuel c = moreBreaks fuel c.next := by
        have hpass : (c.skipWhile fun ch => ch = ' ' || ch = '\t') =
            c.next.skipWhile fun ch => ch = ' ' || ch = '\t' := Cursor.skipWhile_of h rfl
        simp only [moreBreaks, hpass]
      rw [hskip, ih hmore (by simp at hfuel; omega) hnext]
      rfl
    · have hbreak := hblank.isBreak hspace
      have htab : (b = ' ' || b = '\t') = false := by simpa using ⟨hspace, hblank.ne_tab⟩
      obtain ⟨fuel, rfl⟩ := Nat.exists_eq_succ_of_ne_zero (by simp at hfuel; omega : fuel ≠ 0)
      have hskip : (c.skipWhile fun ch => ch = ' ' || ch = '\t') = c :=
        Cursor.skipWhile_of_not h htab
      simp only [moreBreaks, hskip, Cursor.char_cons h, hbreak, if_true,
        takeBreak_blank hblank hspace h]
      have hrest := ih hmore (by simpa using hfuel : bs.length ≤ fuel) hnext
      simp only [quotedBreaks_succ, hnext, hrest, hasMark, hbreak, Bool.true_and]
      cases startsMark (bs ++ d :: rest) with
      | true => rfl
      | false =>
        cases hasMark bs (d :: rest) with
        | true => rfl
        | false => simp [breaksOf, hbreak, Cursor.skip, bind, Except.bind, pure, Except.pure]

/-- A list starts with a run of items that meet a test, up to one that does not. -/
theorem exists_run {α : Type} (test : α → Bool) (items : List α) : ∃ run more, items = run ++ more ∧
    (∀ a ∈ run, test a = true) ∧ ∀ a ∈ more.head?, test a = false := by
  induction items with
  | nil => exact ⟨[], [], rfl, by simp, by simp⟩
  | cons a items ih =>
    cases ha : test a with
    | true =>
      obtain ⟨run, more, rfl, hrun, hmore⟩ := ih
      exact ⟨a :: run, more, rfl, by simpa [ha] using hrun, hmore⟩
    | false => exact ⟨[], a :: items, rfl, by simp, by simpa using ha⟩

/-- Blanks between quotes up to the next other character. -/
theorem quotedBlanks_blanks {bs : List Char} (hbs : ∀ b ∈ bs, IsBlank b) (hd : isGap d = false)
    {c : Cursor} (h : c.rest = bs ++ d :: rest) :
    quotedBlanks c =
      if hasMark bs (d :: rest) then flaw .separatorInText
      else .ok (foldBlanks bs, c.skip bs.length) := by
  have hother : isBreak d = false ∧ d ≠ endMark ∧ d ≠ ' ' ∧ d ≠ '\t' := by
    simpa [isGap, isSpaceOrEnd, isBreakOrEnd, and_assoc] using hd
  obtain ⟨spaces, more, rfl, hspaces, hmore⟩ := exists_run (· = ' ') bs
  simp only [decide_eq_true_eq, decide_eq_false_iff_not] at hspaces hmore
  have hhead : ∀ b ∈ (more ++ d :: rest).head?, (b = ' ' || b = '\t') = false := by
    rcases more with _ | ⟨b, more⟩
    · simpa using hother.2.2
    · simpa using ⟨hmore b rfl, (hbs b (by simp)).ne_tab⟩
  rw [List.append_assoc] at h
  have htake : (c.takeWhile fun ch => ch = ' ' || ch = '\t') = (spaces, c.skip spaces.length) :=
    Cursor.takeWhile_run h (fun b hb => by simp [hspaces b hb]) hhead
  have hfold : (spaces ++ more).dropWhile (· = ' ') = more :=
    Text.dropWhile_run (by simpa using hspaces) (by simpa using hmore)
  have hrest : (c.skip spaces.length).rest = more ++ d :: rest :=
    Cursor.skip_append_rest h
  have hnone : hasMark spaces (more ++ d :: rest) = false :=
    hasMark_eq_false (fun b hb => by rw [hspaces b hb]; rfl) _
  rw [hasMark_append, hnone, Bool.false_or, quotedBlanks, htake, foldBlanks, hfold]
  rcases more with _ | ⟨b, more⟩
  · simp only [List.nil_append] at hrest
    simp [hrest, Cursor.char_cons hrest, hother, hasMark]
    rfl
  · have hblank := hbs b (by simp)
    have hspace := hmore b rfl
    have hbehind : (c.skip spaces.length).next.rest = more ++ d :: rest := Cursor.next_cons hrest
    have hbreaks := moreBreaks_blanks (fun b hb => hbs b (by simp [hb])) hd
      (by simp : more.length ≤ (more ++ d :: rest).length) hbehind
    rw [List.cons_append] at hrest
    simp only [hrest, Cursor.char_cons hrest, hblank.isBreak hspace, hasMark, Cursor.fuel,
      takeBreak_blank hblank hspace hrest, quotedBreaks_succ, hbehind, hbreaks]
    have hlast : (c.skip spaces.length).next.skip more.length =
        c.skip (spaces ++ b :: more).length := by
      rw [Cursor.skip_append]
      rfl
    rw [hlast]
    cases startsMark (more ++ d :: rest) with
    | true => rfl
    | false =>
      cases hasMark more (d :: rest) with
      | true => rfl
      | false =>
        have hread : readBreak b = '\n' ↔ b = '\x85' := by
          obtain rfl | rfl | rfl | rfl := hblank <;> simp [readBreak]
        by_cases hb : b = '\x85'
        · simp [hb, readBreak, bind, Except.bind, pure, Except.pure]
          split <;> rfl
        · simp [hb, readBreak, bind, Except.bind, pure, Except.pure] at hread ⊢
          simp [hread]

end Blanks

/-! ## Whole texts -/

section Whole

variable {ps : List Piece} {rest : List Char}

/-- What a text of JSON is read as between quotes, some blanks being passed in front. -/
def folded (blanks : List Char) : List Piece → List Char
  | [] => foldBlanks blanks
  | p :: ps =>
    match blank? p with
    | some b => folded (blanks ++ [b]) ps
    | none => foldBlanks blanks ++ p.char :: folded [] ps

theorem foldBlanks_nil : foldBlanks [] = [] := rfl

theorem folded_solid (h : ∀ p ∈ ps, (blank? p).isNone = true) (qs : List Piece) :
    folded [] (ps ++ qs) = chars ps ++ folded [] qs := by
  induction ps with
  | nil => rfl
  | cons p ps ih =>
    have hp : blank? p = none := by simpa using h p (by simp)
    have := ih fun p hp => h p (by simp [hp])
    simpa [folded, hp, chars, foldBlanks_nil] using this

theorem folded_blanks (h : ∀ p ∈ ps, (blank? p).isSome = true) {qs : List Piece}
    (hqs : ∀ p ∈ qs.head?, (blank? p).isSome = false) (blanks : List Char) :
    folded blanks (ps ++ qs) = foldBlanks (blanks ++ chars ps) ++ folded [] qs := by
  induction ps generalizing blanks with
  | nil =>
    rcases qs with _ | ⟨q, qs⟩
    · simp [folded, foldBlanks_nil, chars]
    · have hq : blank? q = none := by simpa using hqs q rfl
      simp [folded, hq, chars, foldBlanks_nil]
  | cons p ps ih =>
    obtain ⟨b, hb⟩ := Option.isSome_iff_exists.1 (h p (by simp))
    have := ih (fun p hp => h p (by simp [hp])) (blanks ++ [b])
    simp only [List.cons_append, folded, hb, this, chars, List.map_cons, (blank?_some hb).2.1,
      List.append_assoc, List.nil_append]

theorem writtenQuote_append (ps qs : List Piece) :
    writtenQuote (ps ++ qs) = ps.flatMap Piece.written ++ writtenQuote qs := by
  simp [writtenQuote]

theorem written_blanks (h : ∀ p ∈ ps, (blank? p).isSome = true) :
    ps.flatMap Piece.written = chars ps ∧ ∀ b ∈ chars ps, IsBlank b := by
  induction ps with
  | nil => simp [chars]
  | cons p ps ih =>
    obtain ⟨hwritten, hblank⟩ := ih fun p hp => h p (by simp [hp])
    obtain ⟨b, hb⟩ := Option.isSome_iff_exists.1 (h p (by simp))
    obtain ⟨hp, hchar, hb⟩ := blank?_some hb
    constructor
    · simpa [hp, hchar, chars] using hwritten
    · simpa [hchar, chars, hb] using hblank

theorem isGap_raw {d : Char} {hraw : Json.isRaw d = true} (h : blank? (.raw d hraw) = none) :
    isGap d = false := by
  by_cases hd : d = '\''
  · subst hd
    rfl
  · have := isOrdinary_of_raw h hd
    simp only [isOrdinary, Bool.and_eq_true, Bool.not_eq_true'] at this
    exact this.1.1.1

/-- What does not go with the blanks in front starts with something else. -/
theorem writtenQuote_head (h : ∀ p ∈ ps.head?, (blank? p).isSome = false) :
    ∃ d w, writtenQuote ps = d :: w ∧ isGap d = false := by
  rcases ps with _ | ⟨p, ps⟩
  · exact ⟨'"', [], rfl, rfl⟩
  · have hp := h p rfl
    cases p with
    | raw d hraw =>
      exact ⟨d, writtenQuote ps, rfl, isGap_raw (by simpa using hp)⟩
    | escape letter d hletter => exact ⟨'\\', letter :: writtenQuote ps, rfl, rfl⟩
    | code a b e f hdigits hhalf =>
      exact ⟨'\\', 'u' :: a :: b :: e :: f :: writtenQuote ps, rfl, rfl⟩

theorem isBreak_iff {d : Char} : isBreak d = true ↔
    d = '\n' ∨ d = '\r' ∨ d = '\x85' ∨ d = '\u2028' ∨ d = '\u2029' := by
  simp [isBreak, or_assoc]

theorem isBreak_of_isHexDigit {d : Char} (h : Json.isHexDigit d = true) : isBreak d = false := by
  by_contra hd
  simp only [Bool.not_eq_false, isBreak_iff] at hd
  obtain rfl | rfl | rfl | rfl | rfl := hd <;> cases h

theorem isBreak_of_escaped? {letter d : Char} (h : Json.escaped? letter = some d) :
    isBreak letter = false := by
  by_contra hletter
  simp only [Bool.not_eq_false, isBreak_iff] at hletter
  obtain rfl | rfl | rfl | rfl | rfl := hletter <;> cases h

/-- Only blanks are written with breaks. -/
theorem isBreak_solid (h : ∀ p ∈ ps, (blank? p).isNone = true) :
    ∀ d ∈ ps.flatMap Piece.written, isBreak d = false := by
  intro d hd
  obtain ⟨p, hp, hd⟩ := List.mem_flatMap.1 hd
  have hnone := h p hp
  cases p with
  | raw e hraw =>
    obtain rfl : d = e := by simpa [Piece.written] using hd
    have := isGap_raw (by simpa using hnone : blank? (.raw d hraw) = none)
    simp only [isGap, isSpaceOrEnd, isBreakOrEnd, Bool.or_eq_false_iff] at this
    exact this.1.1.1
  | escape letter e hletter =>
    simp only [Piece.written, List.mem_cons, List.not_mem_nil, or_false] at hd
    obtain rfl | rfl := hd
    · rfl
    · exact isBreak_of_escaped? hletter
  | code a b e f hdigits hhalf =>
    simp only [List.all_cons, List.all_nil, Bool.and_eq_true] at hdigits
    simp only [Piece.written, List.mem_cons, List.not_mem_nil, or_false] at hd
    obtain rfl | rfl | rfl | rfl | rfl | rfl := hd
    · rfl
    · rfl
    all_goals exact isBreak_of_isHexDigit (by simp [hdigits])

theorem length_le_written (ps : List Piece) : ps.length ≤ (ps.flatMap Piece.written).length := by
  have := Json.length_writtenQuote ps
  simp only [writtenQuote, List.length_append, List.length_singleton] at this
  omega

/-- Text between quotes is read folded, unless a mark of a document stands behind a break. -/
theorem quotedText_written (ps : List Piece) {fuel : Nat} (hfuel : ps.length < fuel) {c : Cursor}
    (h : c.rest = writtenQuote ps ++ rest) :
    quotedText '"' fuel c =
      if hasMark (writtenQuote ps) rest then flaw .separatorInText
      else .ok (folded [] ps, c.skip (writtenQuote ps).length) := by
  induction hn : ps.length using Nat.strongRecOn generalizing ps fuel c with
  | _ n ih =>
  obtain ⟨fuel, rfl⟩ := Nat.exists_eq_succ_of_ne_zero (by omega : fuel ≠ 0)
  -- what is read in one round: text without blanks, and the blanks behind it
  obtain ⟨solid, after, rfl, hsolid, hafter⟩ := exists_run (fun p => (blank? p).isNone) ps
  obtain ⟨blanks, more, rfl, hblanks, hmore⟩ := exists_run (fun p => (blank? p).isSome) after
  have hclear : hasMark (solid.flatMap Piece.written) (writtenQuote (blanks ++ more) ++ rest) =
      false :=
    hasMark_eq_false (isBreak_solid hsolid) _
  rw [writtenQuote_append, List.append_assoc] at h
  rw [writtenQuote_append, hasMark_append, hclear, Bool.false_or, folded_solid hsolid,
    Cursor.skip_append, quotedText]
  have hbehind := Cursor.skip_append_rest h
  have hlength : solid.length < c.fuel := by
    have := length_le_written solid
    simp only [Cursor.fuel, h, List.length_append]
    omega
  rcases blanks with _ | ⟨q, blanks⟩
  · obtain rfl : more = [] := by
      rcases more with _ | ⟨p, more⟩
      · rfl
      · simpa [hmore p rfl] using hafter p rfl
    have hrun := quotedRun_solid (by simpa using hsolid) (Or.inr rfl) hlength h
    have hchar : (c.skip (solid.flatMap Piece.written).length).char = '"' :=
      Cursor.char_cons hbehind
    simp only [decide_true, hrun, hchar, bind, Except.bind, if_true]
    simp [writtenQuote, hasMark, folded, foldBlanks_nil, Cursor.skip]
    rfl
  · obtain ⟨hwritten, hblank⟩ := written_blanks hblanks
    obtain ⟨d, w, hhead, hd⟩ := writtenQuote_head hmore
    generalize hbs : chars (q :: blanks) = bs at hwritten hblank
    obtain ⟨b, bs, rfl⟩ : ∃ b bs', bs = b :: bs' := ⟨_, _, hbs.symm⟩
    rw [writtenQuote_append, hwritten, List.append_assoc] at hbehind h
    have hgap : isGap b = true := by
      obtain rfl | rfl | rfl | rfl := hblank b (by simp) <;> rfl
    have hquote : b ≠ '"' := by
      rintro rfl
      cases hgap
    have hchar : (c.skip (solid.flatMap Piece.written).length).char = b :=
      Cursor.char_cons hbehind
    have hrun := quotedRun_solid (by simpa using hsolid) (Or.inl hgap) hlength h
    have hfold := quotedBlanks_blanks hblank hd (by rw [hbehind, hhead]; rfl)
    simp only [List.length_append, List.length_cons] at hfuel hn
    have hlast := ih more.length (by omega) more (by omega : more.length < fuel)
      (Cursor.skip_append_rest hbehind) rfl
    rw [writtenQuote_append, hwritten, hasMark_append, folded_blanks hblanks hmore, hbs,
      Cursor.skip_append, hhead, List.cons_append]
    rw [hhead] at hlast
    simp only [decide_true, hrun, hchar, if_neg hquote, hfold, bind, Except.bind]
    cases hasMark (b :: bs) (d :: (w ++ rest)) with
    | true => rfl
    | false =>
      simp only [hlast, Bool.false_eq_true, if_false, Bool.false_or]
      cases hasMark (d :: w) rest with
      | true => rfl
      | false => simp [pure, Except.pure]

/-- The quote that ends a text keeps marks from reaching over it. -/
theorem startsMark_quote (w rest : List Char) :
    startsMark (w ++ '"' :: rest) = startsMark (w ++ ['"']) := by
  rcases w with _ | ⟨a, _ | ⟨b, _ | ⟨d, _ | ⟨e, w⟩⟩⟩⟩
  case cons.cons.cons.cons => rfl
  all_goals
    simp [startsMark, Cursor.start, Cursor.seesSeparator, Cursor.seesMarker, Cursor.char,
      Cursor.ahead, isGap, isSpaceOrEnd, isBreakOrEnd, isBreak, endMark]

/-- Whether a mark of a document stands behind a break in a text. -/
def endsDocument (ps : List Piece) : Bool := hasMark (writtenQuote ps) []

theorem hasMark_quote (ps : List Piece) (rest : List Char) :
    hasMark (writtenQuote ps) rest = endsDocument ps := by
  have hquote (w : List Char) : hasMark (w ++ ['"']) rest = hasMark (w ++ ['"']) [] := by
    induction w with
    | nil => rfl
    | cons d w ih =>
      have := startsMark_quote w rest
      simp only [List.cons_append, hasMark, ih, List.append_assoc, List.nil_append,
        List.append_nil, this]
  exact hquote (ps.flatMap Piece.written)

theorem quotedScalar_written (ps : List Piece) {c : Cursor}
    (h : c.rest = '"' :: (writtenQuote ps ++ rest)) :
    quotedScalar c =
      if endsDocument ps then flaw .separatorInText
      else .ok (folded [] ps, c.skip ('"' :: writtenQuote ps).length) := by
  have hlength : ps.length < c.fuel := by
    have := Json.length_writtenQuote ps
    simp only [Cursor.fuel, h, List.length_cons, List.length_append]
    omega
  rw [quotedScalar, Cursor.char_cons h, quotedText_written ps hlength (Cursor.next_cons h),
    hasMark_quote]
  rfl

/-! ## Texts that are read as they are -/

/-- Whether folding keeps some blanks: spaces alone, or separators of lines and paragraphs alone. -/
def isKept (bs : List Char) : Bool :=
  bs.all (· = ' ') || bs.all fun b => b = '\u2028' || b = '\u2029'

/-- Whether folding keeps all the blanks of a text, some blanks being passed in front. -/
def isSteady (blanks : List Char) : List Piece → Bool
  | [] => isKept blanks
  | p :: ps =>
    match blank? p with
    | some b => isSteady (blanks ++ [b]) ps
    | none => isKept blanks && isSteady [] ps

/-- The weight of characters, which folding lowers where it changes them: a next-line character
weighs two, as it is read as a line feed at best. -/
def weight (cs : List Char) : Nat := cs.length + cs.count '\x85'

theorem weight_append (cs ds : List Char) : weight (cs ++ ds) = weight cs + weight ds := by
  simp only [weight, List.length_append, List.count_append]
  omega

theorem weight_cons (d : Char) (cs : List Char) :
    weight (d :: cs) = (if d = '\x85' then 2 else 1) + weight cs := by
  simp only [weight, List.length_cons, List.count_cons, beq_iff_eq]
  split <;> omega

theorem weight_breaksOf {bs : List Char} (h : ∀ b ∈ bs, IsBlank b) :
    weight (breaksOf bs) ≤ weight bs ∧
      (weight (breaksOf bs) = weight bs → ∀ b ∈ bs, b = '\u2028' ∨ b = '\u2029') := by
  induction bs with
  | nil => simp [breaksOf]
  | cons b bs ih =>
    obtain ⟨hle, heq⟩ := ih fun b hb => h b (by simp [hb])
    obtain rfl | rfl | rfl | rfl := h b (by simp)
    · rw [show breaksOf (' ' :: bs) = breaksOf bs from rfl, weight_cons, if_neg (by decide)]
      exact ⟨by omega, fun hweight => by omega⟩
    · rw [show breaksOf ('\x85' :: bs) = '\n' :: breaksOf bs from rfl, weight_cons, weight_cons,
        if_neg (by decide), if_pos rfl]
      exact ⟨by omega, fun hweight => by omega⟩
    · rw [show breaksOf ('\u2028' :: bs) = '\u2028' :: breaksOf bs from rfl, weight_cons,
        weight_cons, if_neg (by decide)]
      exact ⟨by omega, fun hweight => by simpa using heq (by omega)⟩
    · rw [show breaksOf ('\u2029' :: bs) = '\u2029' :: breaksOf bs from rfl, weight_cons,
        weight_cons, if_neg (by decide)]
      exact ⟨by omega, fun hweight => by simpa using heq (by omega)⟩

theorem weight_foldBlanks {bs : List Char} (h : ∀ b ∈ bs, IsBlank b) :
    weight (foldBlanks bs) ≤ weight bs ∧
      (weight (foldBlanks bs) = weight bs → isKept bs = true) := by
  obtain ⟨spaces, more, rfl, hspaces, hmore⟩ := exists_run (· = ' ') bs
  have hfold : (spaces ++ more).dropWhile (· = ' ') = more := Text.dropWhile_run hspaces hmore
  rw [foldBlanks, hfold, weight_append]
  rcases more with _ | ⟨d, more⟩
  · simpa [isKept, weight] using Or.inl hspaces
  · obtain ⟨hle, heq⟩ := weight_breaksOf fun b (hb : b ∈ more) => h b (by simp [hb])
    have hsingle : weight [' '] = 1 := rfl
    by_cases hd : d = '\x85'
    · simp only [hd, weight_cons, ne_eq, not_true, if_false, if_true]
      split
      · exact ⟨by omega, fun hweight => by omega⟩
      · exact ⟨by omega, fun hweight => by omega⟩
    · simp only [hd, weight_cons, ne_eq, not_false_eq_true, if_true, if_false]
      refine ⟨by omega, fun hweight => ?_⟩
      have hnone : spaces = [] := by
        have : spaces.length ≤ weight spaces := by simp [weight]
        exact List.length_eq_zero_iff.1 (by omega)
      have hseparator : d = '\u2028' ∨ d = '\u2029' := by
        have hspace : d ≠ ' ' := by simpa using hmore d rfl
        obtain hd' | hd' | hd' := h d (by simp)
        · exact absurd hd' hspace
        · exact absurd hd' hd
        · exact hd'
      have := heq (by omega)
      simpa [isKept, hnone] using Or.inr ⟨hseparator, this⟩

theorem foldBlanks_of_isKept {bs : List Char} (h : isKept bs = true) : foldBlanks bs = bs := by
  simp only [isKept, Bool.or_eq_true, List.all_eq_true, decide_eq_true_eq] at h
  obtain h | h := h
  · have hfold : bs.dropWhile (· = ' ') = [] := by
      rw [← List.append_nil bs, Text.dropWhile_run (by simpa using h) (by simp)]
    rw [foldBlanks, hfold]
  · have hall : ∀ cs : List Char, (∀ b ∈ cs, b = '\u2028' ∨ b = '\u2029') → breaksOf cs = cs := by
      intro cs hcs
      induction cs with
      | nil => rfl
      | cons b cs ih =>
        have hrest := ih fun b hb => hcs b (by simp [hb])
        obtain rfl | rfl := hcs b (by simp) <;> exact congrArg _ hrest
    rcases bs with _ | ⟨b, bs⟩
    · rfl
    · have hmore := hall bs fun b hb => h b (by simp [hb])
      obtain rfl | rfl := h b (by simp) <;> simp [foldBlanks, hmore]

theorem weight_folded {blanks : List Char} (h : ∀ b ∈ blanks, IsBlank b) (ps : List Piece) :
    weight (folded blanks ps) ≤ weight (blanks ++ chars ps) ∧
      (weight (folded blanks ps) = weight (blanks ++ chars ps) → isSteady blanks ps = true) := by
  induction ps generalizing blanks with
  | nil => simpa [folded, isSteady, chars] using weight_foldBlanks h
  | cons p ps ih =>
    obtain ⟨hle, heq⟩ := weight_foldBlanks h
    cases hp : blank? p with
    | none =>
      obtain ⟨hrest, hsteady⟩ := @ih [] (by simp)
      simp only [folded, hp, isSteady, chars, List.map_cons, weight_append, weight_cons,
        List.nil_append, Bool.and_eq_true] at hrest hsteady ⊢
      exact ⟨by omega, fun hweight => ⟨heq (by omega), hsteady (by omega)⟩⟩
    | some b =>
      obtain ⟨-, hchar, hb⟩ := blank?_some hp
      have := @ih (blanks ++ [b]) (by simpa [or_imp, forall_and] using ⟨h, hb⟩)
      simpa [folded, hp, isSteady, chars, hchar] using this

/-- A text is read as it is exactly if folding keeps its blanks. -/
theorem folded_eq_iff (ps : List Piece) : folded [] ps = chars ps ↔ isSteady [] ps = true := by
  constructor
  · intro h
    refine (weight_folded (by simp) ps).2 ?_
    rw [h, List.nil_append]
  · suffices ∀ blanks, isSteady blanks ps = true → folded blanks ps = blanks ++ chars ps by
      simpa using this []
    induction ps with
    | nil =>
      intro blanks h
      simpa [folded, chars] using foldBlanks_of_isKept h
    | cons p ps ih =>
      intro blanks h
      rw [isSteady] at h
      cases hp : blank? p with
      | none =>
        simp only [hp, Bool.and_eq_true] at h
        simp [folded, hp, foldBlanks_of_isKept h.1, ih [] h.2, chars]
      | some b =>
        rw [hp] at h
        simp [folded, hp, ih _ h, chars, (blank?_some hp).2.1]

end Whole

end FieldSchema.Markup
