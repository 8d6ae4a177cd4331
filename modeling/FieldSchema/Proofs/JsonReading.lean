import FieldSchema.Proofs.Numerals

/-!
# Texts of JSON are read as their values

A tree between white space reads as its value, if its whole numbers are short enough to be read
(`Tree.read_written`).
-/

namespace FieldSchema.Json

/-! ## Reading numbers -/

open Text (takeWhile_run dropWhile_run ne_of_isDigit)

variable {rest : List Char}

/-- Whether a character could carry on a number. -/
def goesOn (c : Char) : Bool := c.isDigit || c = '.' || c = 'e' || c = 'E'

def Stops (rest : List Char) : Prop := ∀ c ∈ rest.head?, goesOn c = false

theorem Stops.isDigit (h : Stops rest) : ∀ c ∈ rest.head?, c.isDigit = false := by
  intro c hc
  have := h c hc
  simp only [goesOn, Bool.or_eq_false_iff] at this
  exact this.1.1.1

theorem takeDigits_run (d : Digits) (h : ∀ c ∈ rest.head?, c.isDigit = false) :
    takeDigits (d.chars ++ rest) = (d.chars, rest) := by
  rw [takeDigits, takeWhile_run d.isDigit h, dropWhile_run d.isDigit h]

theorem takeWhole?_run (d : Digits) (hleading : d.chars.head? = some '0' → d.chars = ['0'])
    (h : ∀ c ∈ rest.head?, c.isDigit = false) :
    takeWhole? (d.chars ++ rest) = some (d.chars, rest) := by
  obtain ⟨c, cs, hcs, hc⟩ := d.exists_cons
  have hrun := takeDigits_run d h
  rw [hcs] at hleading hrun ⊢
  by_cases hzero : c = '0'
  · subst hzero
    obtain rfl : cs = [] := by simpa using hleading rfl
    rfl
  · simp only [List.cons_append] at hrun ⊢
    unfold takeWhole?
    split
    · rename_i heq
      exact absurd (List.cons.inj heq).1 hzero
    · simp [hrun]

theorem takeFraction_run (fraction : Option Digits) (h : ∀ c ∈ rest.head?, c.isDigit = false)
    (hpoint : ∀ c ∈ rest.head?, c ≠ '.') :
    takeFraction ((fraction.elim [] fun f => '.' :: f.chars) ++ rest) =
      (fraction.elim [] fun f => '.' :: f.chars, rest) := by
  rcases fraction with _ | f
  · rcases rest with _ | ⟨c, rest⟩
    · rfl
    · have hc := hpoint c rfl
      simp only [Option.elim_none, List.nil_append]
      unfold takeFraction
      split
      · rename_i heq
        exact absurd (List.cons.inj heq).1 hc
      · rfl
  · have hne : f.chars.isEmpty = false := by simp [f.ne_nil]
    simp [takeFraction, takeDigits_run f h, hne]

theorem takeExponent_run (exponent : Option Exponent) (h : Stops rest) :
    takeExponent ((exponent.elim [] (·.written)) ++ rest) =
      (exponent.elim [] (·.written), rest) := by
  rcases exponent with _ | ⟨upper, sign, digits⟩
  · rcases rest with _ | ⟨c, rest⟩
    · rfl
    · have hc := h c rfl
      simp only [goesOn, Bool.or_eq_false_iff, decide_eq_false_iff_not] at hc
      simp [takeExponent, hc.1.2, hc.2]
  · have hdigits := takeDigits_run digits h.isDigit
    have hne : digits.chars.isEmpty = false := by simp [digits.ne_nil]
    cases sign with
    | plus | minus => simp [takeExponent, Exponent.written, Sign.written, hdigits, hne]
    | absent =>
      obtain ⟨c, cs, hcs, hc⟩ := digits.exists_cons
      rw [hcs] at hdigits hne
      have hplus : c ≠ '+' := ne_of_isDigit hc rfl
      have hminus : c ≠ '-' := ne_of_isDigit hc rfl
      simp [takeExponent, Exponent.written, Sign.written, hcs] at hdigits ⊢
      split <;> simp_all

/-- A number of JSON has digits before the point, and behind it if there is one. -/
def Numeral.toNumberText (n : Numeral) : NumberText where
  sign := if n.negative then .minus else .absent
  whole := n.whole.chars
  fraction := n.fraction.map (·.chars)
  exponent := n.exponent
  isDigit := by
    refine List.forall_mem_append.2 ⟨n.whole.isDigit, ?_⟩
    rcases n.fraction with _ | f
    · exact List.forall_mem_nil _
    · exact f.isDigit
  ne_nil := by simp [n.whole.ne_nil]

theorem Numeral.written_toNumberText (n : Numeral) : n.toNumberText.written = n.written := by
  obtain ⟨negative, whole, leading, fraction, exponent⟩ := n
  cases negative <;> rcases fraction with _ | f <;> rfl

/-- A number that has a fraction or an exponent, or neither, reads as a decimal number. -/
theorem readDecimal?_written (n : Numeral) : readDecimal? n.written =
    some (.ofDecimal n.negative (digitsValue 10 (n.whole.chars ++ n.fraction.elim [] (·.chars)))
      (n.exponent.elim 0 (·.value) - (n.fraction.elim [] (·.chars)).length)) := by
  rw [← n.written_toNumberText, n.toNumberText.readDecimal?_written]
  obtain ⟨negative, whole, leading, fraction, exponent⟩ := n
  cases negative <;> rcases fraction with _ | f <;> rfl

/-- Whether every whole number is short enough to be read. -/
def Numeral.isShort (n : Numeral) : Bool :=
  n.fraction.isSome || n.exponent.isSome || n.whole.chars.length ≤ maxDigits

theorem readNumber_written (n : Numeral) (hshort : n.isShort = true) (h : Stops rest) :
    readNumber (n.written ++ rest) = .ok (n.value, rest) := by
  have hdecimal := readDecimal?_written n
  obtain ⟨negative, whole, leading, fraction, exponent⟩ := n
  have hexponent := takeExponent_run exponent h
  have hafter : ∀ c ∈ ((exponent.elim [] (·.written)) ++ rest).head?,
      c.isDigit = false ∧ c ≠ '.' := by
    rcases exponent with _ | e
    · intro c hc
      have := h c hc
      simp only [goesOn, Bool.or_eq_false_iff, decide_eq_false_iff_not] at this
      exact ⟨this.1.1.1, this.1.1.2⟩
    · intro c hc
      refine stops_exponent (some e) c ?_
      simpa [Exponent.written] using hc
  have hfraction :=
    takeFraction_run fraction (fun c hc => (hafter c hc).1) fun c hc => (hafter c hc).2
  have hbehind : ∀ c ∈ ((fraction.elim [] fun f => '.' :: f.chars) ++
      ((exponent.elim [] (·.written)) ++ rest)).head?, c.isDigit = false := by
    rcases fraction with _ | f
    · exact fun c hc => (hafter c hc).1
    · simp [Char.isDigit]
  have hwhole := takeWhole?_run whole leading hbehind
  obtain ⟨c, ds, hds, hc⟩ := whole.exists_cons
  have hminus : c ≠ '-' := ne_of_isDigit hc rfl
  have hlength : fraction = none → exponent = none → ¬ maxDigits < whole.chars.length := by
    rintro rfl rfl
    simpa [Numeral.isShort] using hshort
  simp only [Numeral.written, Numeral.size, List.append_assoc] at hdecimal ⊢
  unfold readNumber
  split
  rename_i sign unsigned heq
  obtain ⟨rfl, rfl⟩ : (if negative then ['-'] else []) = sign ∧ whole.chars ++
      ((fraction.elim [] fun f => '.' :: f.chars) ++ ((exponent.elim [] (·.written)) ++ rest)) =
        unsigned := by
    cases negative with
    | true => simpa using heq
    | false =>
      simp only [Bool.false_eq_true, if_false, hds, List.nil_append, List.cons_append] at heq ⊢
      split at heq <;> simp_all
  have hsign : (!(if negative then ['-'] else []).isEmpty) = negative := by
    cases negative <;> rfl
  simp only [hwhole, hfraction, hexponent, hsign, List.append_assoc, hdecimal]
  rcases fraction with _ | f <;> rcases exponent with _ | e
  · simp [Numeral.value, hlength rfl rfl]
  · simp [Numeral.value, Exponent.written]
  · simp [Numeral.value]
  · simp [Numeral.value]

/-! ## Reading texts -/

theorem unicode?_code {a b c d : Char} (h : [a, b, c, d].all isHexDigit = true)
    (hhalf : isHalf (digitsValue 16 [a, b, c, d]) = false) (rest : List Char) :
    unicode? (a :: b :: c :: d :: rest) =
      some (Char.ofNat (digitsValue 16 [a, b, c, d]), rest) := by
  simp only [isHalf, Bool.and_eq_false_iff, decide_eq_false_iff_not] at hhalf
  have hhigh : ¬ (0xD800 ≤ digitsValue 16 [a, b, c, d] ∧ digitsValue 16 [a, b, c, d] < 0xDC00) := by
    omega
  have hlow : ¬ (0xDC00 ≤ digitsValue 16 [a, b, c, d] ∧ digitsValue 16 [a, b, c, d] < 0xE000) := by
    omega
  simp only [unicode?, codeUnit?, if_pos h, if_neg hhigh, if_neg hlow]

theorem writtenQuote_cons (p : Piece) (ps : List Piece) :
    writtenQuote (p :: ps) = p.written ++ writtenQuote ps := by
  simp [writtenQuote]

theorem readText_written {ps : List Piece} {fuel : Nat} (h : ps.length < fuel) (rest : List Char) :
    readText fuel (writtenQuote ps ++ rest) = some (chars ps, rest) := by
  induction ps generalizing fuel with
  | nil =>
    obtain ⟨fuel, rfl⟩ := Nat.exists_eq_succ_of_ne_zero (by omega : fuel ≠ 0)
    rfl
  | cons p ps ih =>
    obtain ⟨fuel, rfl⟩ := Nat.exists_eq_succ_of_ne_zero (by omega : fuel ≠ 0)
    have hps := ih (by simpa using h : ps.length < fuel)
    rw [writtenQuote_cons, List.append_assoc]
    cases p with
    | raw c hc =>
      simp only [isRaw, Bool.and_eq_true, decide_eq_true_eq] at hc
      have hcontrol : ¬ c.toNat < 0x20 := by omega
      simp only [Piece.written, List.cons_append, List.nil_append]
      unfold readText
      split <;> simp_all [chars, Piece.char]
    | escape letter c hletter =>
      -- the letter decides which rule of the reader applies
      simp only [Piece.written, List.cons_append, List.nil_append]
      unfold escaped? at hletter
      split at hletter
      case h_9 => cases hletter
      all_goals simp_all [readText, escaped?, chars, Piece.char]
    | code a b c d hdigits hhalf =>
      simp [Piece.written, readText, unicode?_code hdigits hhalf, hps, chars, Piece.char]

/-! ## Reading values -/

/-- Whether a character can start a value. -/
def opens (c : Char) : Bool :=
  c.isDigit || ['-', '"', '[', '\x7b', 'n', 't', 'f'].contains c

theorem isSpace_of_opens {c : Char} (h : opens c = Bool.true) : isSpace c = Bool.false := by
  have hspace : c ≠ ' ' ∧ c ≠ '\t' ∧ c ≠ '\n' ∧ c ≠ '\r' := by
    refine ⟨?_, ?_, ?_, ?_⟩ <;> (rintro rfl; cases h)
  simp [isSpace, hspace]

theorem Word.exists_cons (w : Word) : ∃ c cs, w.written = c :: cs ∧ opens c = Bool.true := by
  cases w <;> exact ⟨_, _, rfl, rfl⟩

/-- A numeral starts with a digit, or with a minus and a digit. -/
theorem Numeral.exists_digit (n : Numeral) : ∃ d cs, d.isDigit = true ∧
    (n.written = d :: cs ∨ n.written = '-' :: d :: cs) := by
  obtain ⟨d, ds, hds, hd⟩ := n.whole.exists_cons
  refine ⟨d, ds ++ ((n.fraction.elim [] fun f => '.' :: f.chars) ++ n.exponent.elim [] (·.written)),
    hd, ?_⟩
  cases hnegative : n.negative <;> simp [written, size, hnegative, hds]

theorem Numeral.exists_cons (n : Numeral) :
    ∃ c cs, n.written = c :: cs ∧ (c = '-' ∨ c.isDigit = true) := by
  obtain ⟨d, cs, hd, hcs | hcs⟩ := n.exists_digit
  · exact ⟨d, cs, hcs, Or.inr hd⟩
  · exact ⟨'-', d :: cs, hcs, Or.inl rfl⟩

theorem Tree.exists_cons (t : Tree) : ∃ c cs, t.written = c :: cs ∧ opens c = true := by
  cases t with
  | word w => exact w.exists_cons
  | number n =>
    obtain ⟨c, cs, hcs, rfl | hc⟩ := n.exists_cons
    · exact ⟨'-', cs, hcs, rfl⟩
    · exact ⟨c, cs, hcs, by simp [opens, hc]⟩
  | text ps => exact ⟨_, _, rfl, rfl⟩
  | list blank items => exact ⟨_, _, rfl, rfl⟩
  | record blank members => exact ⟨_, _, rfl, rfl⟩

theorem skipSpace_gap (g : Gap) (cs : List Char) : skipSpace (g.chars ++ cs) = skipSpace cs :=
  List.dropWhile_append_of_pos g.isSpace

theorem skipSpace_of_not {c : Char} (h : isSpace c = false) (cs : List Char) :
    skipSpace (c :: cs) = c :: cs := by
  simp [skipSpace, h]

theorem skipSpace_skipSpace (cs : List Char) : skipSpace (skipSpace cs) = skipSpace cs := by
  induction cs with
  | nil => rfl
  | cons c cs ih =>
    cases h : isSpace c with
    | false => rw [skipSpace_of_not h, skipSpace_of_not h]
    | true => simpa [skipSpace, h] using ih

theorem skipSpace_tree (g : Gap) (t : Tree) (rest : List Char) :
    skipSpace (g.chars ++ (t.written ++ rest)) = t.written ++ rest := by
  obtain ⟨c, cs, hcs, hc⟩ := t.exists_cons
  rw [skipSpace_gap, hcs, List.cons_append, skipSpace_of_not (isSpace_of_opens hc)]

theorem Stops.gap (g : Gap) (h : Stops rest) : Stops (g.chars ++ rest) := by
  obtain ⟨cs, hspace⟩ := g
  rcases cs with _ | ⟨c, cs⟩
  · exact h
  · rintro d ⟨⟩
    have hc : c = ' ' ∨ c = '\t' ∨ c = '\n' ∨ c = '\r' := by
      simpa [isSpace, or_assoc] using hspace c (by simp)
    rcases hc with rfl | rfl | rfl | rfl <;> rfl

theorem stops_items (items : List (Item Tree)) (rest : List Char) :
    Stops (writtenItems false items ++ rest) := by
  rcases items with _ | ⟨item, items⟩ <;> (rintro c ⟨⟩; rfl)

theorem stops_members (members : List (Member Tree)) (rest : List Char) :
    Stops (writtenMembers false members ++ rest) := by
  rcases members with _ | ⟨member, members⟩ <;> (rintro c ⟨⟩; rfl)

theorem words_letters {w : String × Value} (hw : w ∈ words) :
    ∃ a b cs, w.1.toList = a :: b :: cs ∧ a.isDigit = false ∧ b.isDigit = false := by
  simp only [words, List.mem_cons, List.not_mem_nil, or_false] at hw
  rcases hw with rfl | rfl | rfl | rfl | rfl | rfl <;> exact ⟨_, _, _, rfl, rfl, rfl⟩

theorem readWord?_numeral (n : Numeral) (rest : List Char) :
    readWord? (n.written ++ rest) = none := by
  obtain ⟨d, cs, hd, hcs⟩ := n.exists_digit
  have hnone : (words.find? fun w => w.1.toList.isPrefixOf (n.written ++ rest)) = none := by
    rw [List.find?_eq_none]
    intro w hw hprefix
    obtain ⟨a, b, letters, hword, ha, hb⟩ := words_letters hw
    rw [List.isPrefixOf_iff_prefix, hword] at hprefix
    rcases hcs with hcs | hcs <;> rw [hcs] at hprefix
    · obtain ⟨rfl, -⟩ := List.cons_prefix_cons.1 hprefix
      simp [hd] at ha
    · obtain ⟨rfl, -⟩ := List.cons_prefix_cons.1 (List.cons_prefix_cons.1 hprefix).2
      simp [hd] at hb
  simp only [readWord?, hnone]

theorem readValue_skipSpace (fuel : Nat) (cs : List Char) :
    readValue fuel (skipSpace cs) = readValue fuel cs := by
  cases fuel with
  | zero => rfl
  | succ fuel => simp only [readValue, skipSpace_skipSpace]

theorem readValue_gap (g : Gap) (fuel : Nat) (cs : List Char) :
    readValue fuel (g.chars ++ cs) = readValue fuel cs := by
  rw [← readValue_skipSpace, skipSpace_gap, readValue_skipSpace]

theorem readItems_skipSpace (fuel : Nat) (cs : List Char) :
    readItems fuel (skipSpace cs) = readItems fuel cs := by
  cases fuel with
  | zero => rfl
  | succ fuel => simp only [readItems, readValue_skipSpace]

theorem readEntries_skipSpace (fuel : Nat) (cs : List Char) :
    readEntries fuel (skipSpace cs) = readEntries fuel cs := by
  cases fuel with
  | zero => rfl
  | succ fuel => simp only [readEntries, skipSpace_skipSpace]

/-- Whether every whole number in a tree is short enough to be read. -/
def Tree.isShort (t : Tree) : Bool := t.all (fun _ => Bool.true) Numeral.isShort fun _ => Bool.true

theorem readValue_number (n : Numeral) (hshort : n.isShort = true) (h : Stops rest) (fuel : Nat) :
    readValue (fuel + 1) (n.written ++ rest) = .ok (n.value, rest) := by
  have hskip := skipSpace_tree ⟨[], by simp⟩ (.number n) rest
  simp only [Tree.written, List.nil_append] at hskip
  obtain ⟨c, cs, hcs, hc⟩ := n.exists_cons
  unfold readValue
  rw [hskip]
  split
  case h_4 => simp only [readWord?_numeral, readNumber_written n hshort h]
  all_goals
    rename_i heq
    rw [hcs] at heq
    obtain ⟨rfl, -⟩ := List.cons.inj heq
    simp at hc

theorem writtenItems_cons (item : Item Tree) (items : List (Item Tree)) :
    writtenItems false (item :: items) = ',' :: writtenItems true (item :: items) := by
  obtain ⟨before, t, after⟩ := item
  simp [writtenItems]

theorem writtenMembers_cons (member : Member Tree) (members : List (Member Tree)) :
    writtenMembers false (member :: members) = ',' :: writtenMembers true (member :: members) := by
  obtain ⟨key, before, t, after⟩ := member
  simp [writtenMembers]

theorem skipSpace_items (item : Item Tree) (items : List (Item Tree)) (rest : List Char) :
    ∃ c cs, skipSpace (writtenItems true (item :: items) ++ rest) = c :: cs ∧ opens c = true := by
  obtain ⟨before, t, after⟩ := item
  obtain ⟨c, cs, hcs, hc⟩ := t.exists_cons
  simp only [writtenItems, if_true, List.nil_append, List.append_assoc, skipSpace_tree]
  exact ⟨c, _, by rw [hcs]; rfl, hc⟩

theorem skipSpace_key (key : Item (List Piece)) (rest : List Char) :
    skipSpace (writtenKey key ++ rest) =
      '"' :: (writtenQuote key.content ++ (key.after.chars ++ ':' :: rest)) := by
  simp [writtenKey, skipSpace_gap, skipSpace_of_not (c := '"') rfl]

theorem skipSpace_members (member : Member Tree) (members : List (Member Tree)) (rest : List Char) :
    ∃ cs, skipSpace (writtenMembers true (member :: members) ++ rest) = '"' :: cs := by
  obtain ⟨key, before, t, after⟩ := member
  simp [writtenMembers, skipSpace_key]

theorem Tree.length_pos (t : Tree) : 0 < t.written.length := by
  obtain ⟨c, cs, hcs, -⟩ := t.exists_cons
  simp [hcs]

theorem Piece.length_pos (p : Piece) : 0 < p.written.length := by
  cases p <;> simp [written]

theorem length_writtenQuote (ps : List Piece) : ps.length < (writtenQuote ps).length := by
  induction ps with
  | nil => simp [writtenQuote]
  | cons p ps ih =>
    have := p.length_pos
    simp only [writtenQuote_cons, List.length_cons, List.length_append]
    omega

theorem length_writtenItems (first : Bool) (items : List (Item Tree)) :
    0 < (writtenItems first items).length := by
  rcases items with _ | ⟨item, items⟩
  · simp [writtenItems]
  · have := item.content.length_pos
    simp only [writtenItems, List.length_append]
    omega

theorem length_writtenMembers (first : Bool) (members : List (Member Tree)) :
    0 < (writtenMembers first members).length := by
  rcases members with _ | ⟨member, members⟩
  · simp [writtenMembers]
  · obtain ⟨key, before, t, after⟩ := member
    have := t.length_pos
    simp only [writtenMembers, List.length_append]
    omega

theorem readText_quote (ps : List Piece) (rest : List Char) :
    readText ((writtenQuote ps ++ rest).length + 1) (writtenQuote ps ++ rest) =
      some (chars ps, rest) := by
  refine readText_written ?_ rest
  have := length_writtenQuote ps
  simp only [List.length_append]
  omega

mutual

theorem readValue_written : (t : Tree) → t.isShort = true → (rest : List Char) → Stops rest →
    (fuel : Nat) → 2 * t.written.length ≤ fuel →
    readValue fuel (t.written ++ rest) = .ok (t.value, rest)
  | t, _, _, _, 0, hfuel => by
    have := t.length_pos
    omega
  | .word w, _, rest, _, fuel + 1, _ => by
    cases w <;> rfl
  | .number n, hshort, rest, h, fuel + 1, _ => readValue_number n hshort h fuel
  | .text ps, _, rest, _, fuel + 1, _ => by
    simp only [Tree.written, List.cons_append, readValue, skipSpace_of_not (c := '"') rfl,
      readText_quote]
    rfl
  | .list blank items, hshort, rest, h, fuel + 1, hfuel => by
    simp only [Tree.written, List.cons_append, readValue, skipSpace_of_not (c := '[') rfl]
    rcases items with _ | ⟨item, items⟩
    · simp [skipSpace_gap, writtenItems, skipSpace_of_not (c := ']') rfl, Tree.value, itemValues]
    · obtain ⟨c, cs, hskip, hc⟩ := skipSpace_items item items rest
      simp only [List.isEmpty_cons, Bool.false_eq_true, if_false, List.nil_append]
      split
      · rename_i heq
        rw [hskip] at heq
        obtain ⟨rfl, -⟩ := List.cons.inj heq
        cases hc
      · rw [readItems_skipSpace, readItems_written (item :: items) (by simp) hshort rest fuel]
        · rfl
        · simp [Tree.written] at hfuel
          omega
  | .record blank members, hshort, rest, h, fuel + 1, hfuel => by
    simp only [Tree.written, List.cons_append, readValue, skipSpace_of_not (c := '\x7b') rfl]
    rcases members with _ | ⟨member, members⟩
    · simp [skipSpace_gap, writtenMembers, skipSpace_of_not (c := '\x7d') rfl, Tree.value,
        memberValues, Entries.putAll]
    · obtain ⟨cs, hskip⟩ := skipSpace_members member members rest
      simp only [List.isEmpty_cons, Bool.false_eq_true, if_false, List.nil_append]
      split
      · rename_i heq
        rw [hskip] at heq
        cases heq
      · rw [readEntries_skipSpace,
          readEntries_written (member :: members) (by simp) hshort rest fuel]
        · rfl
        · simp [Tree.written] at hfuel
          omega
  termination_by structural t => t

theorem readItems_written : (items : List (Item Tree)) → items ≠ [] →
    allItems (fun _ => true) Numeral.isShort (fun _ => true) items = true →
    (rest : List Char) → (fuel : Nat) → 2 * (writtenItems true items).length ≤ fuel →
    readItems fuel (writtenItems true items ++ rest) = .ok (itemValues items, rest)
  | [], hne, _, _, _, _ => absurd rfl hne
  | items, _, _, _, 0, hfuel => by
    have := length_writtenItems true items
    omega
  | ⟨before, t, after⟩ :: items, _, hshort, rest, fuel + 1, hfuel => by
    have hlength := t.length_pos
    have hitems := length_writtenItems false items
    simp only [writtenItems, if_true, List.nil_append, List.length_append] at hfuel
    simp only [allItems, Bool.and_eq_true] at hshort
    have hvalue := readValue_written t hshort.1 _ (.gap after (stops_items items rest)) fuel
      (by omega)
    simp only [writtenItems, if_true, List.nil_append, List.append_assoc, readItems, readValue_gap,
      hvalue, itemValues]
    rcases items with _ | ⟨item, items⟩
    · simp only [bind, Except.bind, skipSpace_gap, writtenItems]
      rfl
    · simp only [writtenItems_cons, List.length_cons] at hfuel
      have hrest := readItems_written (item :: items) (by simp) hshort.2 rest fuel (by omega)
      simp only [bind, Except.bind, skipSpace_gap, writtenItems_cons, List.cons_append,
        skipSpace_of_not (c := ',') rfl, hrest]
      rfl
  termination_by structural items => items

theorem readEntries_written : (members : List (Member Tree)) → members ≠ [] →
    allMembers (fun _ => true) Numeral.isShort (fun _ => true) members = true →
    (rest : List Char) → (fuel : Nat) →
    2 * (writtenMembers true members).length ≤ fuel →
    readEntries fuel (writtenMembers true members ++ rest) = .ok (memberValues members, rest)
  | [], hne, _, _, _, _ => absurd rfl hne
  | members, _, _, _, 0, hfuel => by
    have := length_writtenMembers true members
    omega
  | ⟨key, ⟨before, t, after⟩⟩ :: members, _, hshort, rest, fuel + 1, hfuel => by
    have hlength := t.length_pos
    have hmembers := length_writtenMembers false members
    simp only [writtenMembers, if_true, List.nil_append, List.length_append] at hfuel
    simp only [allMembers, Bool.true_and, Bool.and_eq_true] at hshort
    have hvalue := readValue_written t hshort.1 _ (.gap after (stops_members members rest)) fuel
      (by omega)
    simp only [writtenMembers, if_true, List.nil_append, List.append_assoc, readEntries,
      skipSpace_key, readText_quote, memberValues]
    simp only [bind, Except.bind, pure, Except.pure, skipSpace_gap, skipSpace_of_not (c := ':') rfl,
      readValue_gap, hvalue]
    rcases members with _ | ⟨member, members⟩
    · rfl
    · simp only [writtenMembers_cons, List.length_cons] at hfuel
      have hrest := readEntries_written (member :: members) (by simp) hshort.2 rest fuel (by omega)
      simp only [writtenMembers_cons, List.cons_append, skipSpace_of_not (c := ',') rfl, hrest]
      rfl
  termination_by structural members => members

end

/-- A tree between white space reads as its value. -/
theorem Tree.read_written (t : Tree) (hshort : t.isShort = true) (before after : Gap) :
    read (before.chars ++ (t.written ++ after.chars)) = .ok t.value := by
  have hstops : Stops after.chars := by
    simpa using Stops.gap after (by simp [Stops] : Stops [])
  have hvalue := readValue_written t hshort after.chars hstops
    (2 * (before.chars ++ (t.written ++ after.chars)).length + 2)
    (by simp only [List.length_append]; omega)
  have hafter : skipSpace after.chars = [] := by
    simpa [skipSpace] using skipSpace_gap after []
  simp only [read, readValue_gap, hvalue, bind, Except.bind, hafter]
  rfl

end FieldSchema.Json
