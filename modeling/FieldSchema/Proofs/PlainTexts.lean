import FieldSchema.Proofs.FoldedTexts

/-!
# Numbers and words of JSON as plain scalars

Inside brackets a number or a word is read as it stands, up to the white space behind it
(`plainScalar_written`).
-/

namespace FieldSchema.Markup

open Json (Numeral Word)

/-- White space that is not a tab: what may stand between tokens. -/
def IsFree (g : List Char) : Prop := ∀ d ∈ g, d = ' ' ∨ d = '\n' ∨ d = '\r'

/-- Whether white space ends before a character. -/
def isFirm (d : Char) : Bool := d ≠ ' ' && !isBreak d

variable {c : Cursor} {g rest : List Char} {d : Char}

/-- Of white space that starts with a break, the break is taken: a carriage return with a line feed
behind it. -/
theorem takeBreak_free {b : Char} (hb : b ≠ ' ') (hg : IsFree (b :: g))
    (hrest : ∀ d ∈ rest.head?, isFirm d = true) (h : c.rest = b :: (g ++ rest)) :
    isBreak b = true ∧ ∃ n more, 0 < n ∧ n + more.length = g.length + 1 ∧ IsFree more ∧
      c.takeBreak = (['\n'], c.skip n) ∧ (c.skip n).rest = more ++ rest := by
  have hchar := Cursor.char_cons h
  have hfree : IsFree g := fun e he => hg e (by simp [he])
  have hbreak := (hg b (by simp)).resolve_left hb
  refine ⟨isBreak_iff.2 (by tauto), ?_⟩
  obtain rfl | rfl := hbreak
  · exact ⟨1, g, by omega, by omega, hfree, by simp [Cursor.takeBreak, hchar, Cursor.skip],
      by simp [Cursor.skip_rest, h]⟩
  · by_cases hahead : c.ahead 1 = '\n'
    · have hhead : (g ++ rest).head? = some '\n' := by
        rw [Cursor.ahead_cons h, ← List.head?_eq_getElem?] at hahead
        cases hgr : (g ++ rest).head? with
        | none => simp [hgr, endMark] at hahead
        | some d => simpa [hgr] using hahead
      rcases g with _ | ⟨e, g⟩
      · cases hrest '\n' hhead
      · exact ⟨2, g, by omega, by simp; omega, fun e he => hfree e (by simp [he]),
          by simp [Cursor.takeBreak, hchar, hahead], by simp [Cursor.skip_rest, h]⟩
    · exact ⟨1, g, by omega, by omega, hfree, by
        simp [Cursor.takeBreak, hchar, hahead, Cursor.skip], by simp [Cursor.skip_rest, h]⟩

theorem startsMark_of_ne (hd : d ≠ '-' ∧ d ≠ '.') : startsMark (d :: rest) = false := by
  simp [startsMark, Cursor.start, Cursor.seesSeparator, Cursor.seesMarker, Cursor.char, hd]

/-- What ends a plain scalar in a text of JSON, the white space behind it passed as far as it is
free. -/
def IsStop (d : Char) : Prop := d = '\t' ∨ d = ',' ∨ d = ']' ∨ d = '\x7d'

theorem IsStop.isFirm (hd : IsStop d) : ∀ e ∈ (d :: rest).head?, isFirm e = true := by
  rintro e ⟨⟩
  obtain rfl | rfl | rfl | rfl := hd <;> rfl

theorem startsMark_free (hg : IsFree g) (hd : IsStop d) : startsMark (g ++ d :: rest) = false := by
  rcases g with _ | ⟨e, g⟩
  · obtain rfl | rfl | rfl | rfl := hd <;> exact startsMark_of_ne (by decide)
  · obtain rfl | rfl | rfl := hg e (by simp) <;> exact startsMark_of_ne (by decide)

theorem plainBreaks?_free {fuel : Nat} (hg : IsFree g) (hd : IsStop d) (hfuel : g.length < fuel)
    (h : c.rest = g ++ d :: rest) :
    ∃ breaks, plainBreaks? fuel c = (some breaks, c.skip g.length) := by
  induction fuel generalizing g c with
  | zero => omega
  | succ fuel ih =>
    rcases g with _ | ⟨b, g⟩
    · have hchar := Cursor.char_cons h
      obtain rfl | rfl | rfl | rfl := hd <;>
        exact ⟨[], by simp [plainBreaks?, hchar, isBreak, Cursor.skip]⟩
    · have hfree : IsFree g := fun e he => hg e (by simp [he])
      simp only [List.length_cons] at hfuel
      by_cases hb : b = ' '
      · subst hb
        obtain ⟨breaks, hbreaks⟩ := ih hfree (by omega) (Cursor.next_cons h)
        exact ⟨breaks, by rw [plainBreaks?, if_pos (Cursor.char_cons h), hbreaks]; rfl⟩
      · obtain ⟨hbreak, n, more, hn, hlength, hmore, htake, hrest⟩ :=
          takeBreak_free hb hg hd.isFirm h
        obtain ⟨breaks, hbreaks⟩ := ih hmore (by omega) hrest
        have hsees : (c.skip n).seesSeparator = false := by
          rw [seesSeparator_eq, hrest, startsMark_free hmore hd]
        refine ⟨'\n' :: breaks, ?_⟩
        rw [plainBreaks?, Cursor.char_cons h, if_neg hb, if_pos hbreak, htake]
        simp only [hsees, hbreaks, Bool.false_eq_true, if_false, Option.map_some, Cursor.skip_skip,
          hlength]
        rfl

/-- The white space behind a part of a plain scalar is passed up to the first tab. -/
theorem plainGap_free (hg : IsFree g) (hd : IsStop d) (h : c.rest = g ++ d :: rest) :
    ∃ after ended, plainGap c = (after, ended, c.skip g.length) := by
  obtain ⟨spaces, more, rfl, hspaces, hmore⟩ := exists_run (· = ' ') g
  have hspace : d ≠ ' ' := by
    rintro rfl
    obtain h | h | h | h := hd <;> cases h
  rw [List.append_assoc] at h
  have htake : c.takeWhile (· = ' ') = (spaces, c.skip spaces.length) := by
    refine Cursor.takeWhile_run h hspaces ?_
    rcases more with _ | ⟨b, more⟩
    · simpa using hspace
    · simpa using hmore
  have hrest := Cursor.skip_append_rest h
  rw [plainGap, htake, Cursor.skip_append]
  rcases more with _ | ⟨b, more⟩
  · have hbreak : isBreak d = false := by
      obtain rfl | rfl | rfl | rfl := hd <;> rfl
    exact ⟨spaces, false, by simp [Cursor.char_cons hrest, hbreak, Cursor.skip]⟩
  · have hfree : IsFree (b :: more) := fun e he => hg e (by simp [he])
    have hb : b ≠ ' ' := by simpa using hmore b rfl
    obtain ⟨hbreak, n, more', hn, hlength, hmore', hbreak', hrest'⟩ :=
      takeBreak_free hb hfree hd.isFirm hrest
    have hsees : ((c.skip spaces.length).skip n).seesSeparator = false := by
      rw [seesSeparator_eq, hrest', startsMark_free hmore' hd]
    have hfuel : more'.length < ((c.skip spaces.length).skip n).fuel := by
      simp only [Cursor.fuel, hrest', List.length_append, List.length_cons]
      omega
    obtain ⟨breaks, hbreaks⟩ := plainBreaks?_free hmore' hd hfuel hrest'
    simp only [Cursor.char_cons hrest, hbreak, hbreak', hsees, hbreaks, if_true,
      Bool.false_eq_true, if_false]
    rw [Cursor.skip_skip _ n, hlength, List.length_cons]
    split
    · simp at *
    · split
      exact ⟨_, _, rfl⟩
      exact ⟨_, _, rfl⟩

/-- The characters of numbers and of words. -/
def isPlainChar (d : Char) : Bool := d.isAlphanum || d = '+' || d = '-' || d = '.'

theorem ne_of_isPlainChar {e : Char} (hd : isPlainChar d = true) (he : isPlainChar e = false) :
    d ≠ e := by
  rintro rfl
  simp [hd] at he

theorem isGap_of_isPlainChar (hd : isPlainChar d = true) : isGap d = false := by
  have hne {e : Char} (he : isPlainChar e = false) := ne_of_isPlainChar hd he
  simp [isGap, isSpaceOrEnd, isBreakOrEnd, isBreak, endMark, hne (e := ' ') rfl,
    hne (e := '\t') rfl, hne (e := '\n') rfl, hne (e := '\r') rfl, hne (e := '\x85') rfl,
    hne (e := '\u2028') rfl, hne (e := '\u2029') rfl, hne (e := '\x00') rfl]

theorem plainEnds_plainChar (hd : isPlainChar d = true) (after : Char) :
    plainEnds true d after = false := by
  have hne {e : Char} (he : isPlainChar e = false) := ne_of_isPlainChar hd he
  simp [plainEnds, isGap_of_isPlainChar hd, hne (e := ':') rfl, hne (e := ',') rfl,
    hne (e := '[') rfl, hne (e := ']') rfl, hne (e := '\x7b') rfl, hne (e := '\x7d') rfl,
    hne (e := '?') rfl]

theorem plainRun_written {w : List Char} (hw : ∀ d ∈ w, isPlainChar d = true)
    (hrest : ∀ d ∈ rest.head?, ∀ after, plainEnds true d after = true) :
    plainRun true (w ++ rest) = w := by
  induction w with
  | nil =>
    rcases rest with _ | ⟨d, rest⟩
    · rfl
    · simp [plainRun, hrest d rfl]
  | cons d w ih =>
    have := ih fun e he => hw e (by simp [he])
    simp [plainRun, plainEnds_plainChar (hw d (by simp)), this]

theorem IsStop.plainEnds (hd : IsStop d) (after : Char) : plainEnds true d after = true := by
  obtain rfl | rfl | rfl | rfl := hd <;> rfl

theorem plainEnds_free (hg : IsFree g) (hd : IsStop d) :
    ∀ e ∈ (g ++ d :: rest).head?, ∀ after, plainEnds true e after = true := by
  rcases g with _ | ⟨b, g⟩
  · rintro e ⟨⟩
    exact hd.plainEnds
  · rintro e ⟨⟩ after
    obtain rfl | rfl | rfl := hg b (by simp) <;> rfl

theorem plainParts_stop (hd : IsStop d) (h : c.rest = d :: rest) (indent : Int) (fuel : Nat)
    (gap : List Char) (ended : Bool) :
    plainParts true indent fuel gap ended c = ([], ended, c) := by
  cases fuel with
  | zero => rfl
  | succ fuel =>
    have hnone : (if c.char = '#' then [] else plainRun true c.rest) = [] := by
      simp [h, plainRun, hd.plainEnds]
    simp only [plainParts, hnone, List.isEmpty_nil, if_true]

/-- A number or a word inside brackets is read as it is, with the white space behind it up to the
first tab. -/
theorem plainScalar_written {w : List Char} (hne : w ≠ []) (hw : ∀ d ∈ w, isPlainChar d = true)
    (hg : IsFree g) (hd : IsStop d) (h : c.rest = w ++ (g ++ d :: rest)) (indent : Int) :
    ∃ ended, plainScalar true indent c = (w, ended, c.skip (w ++ g).length) := by
  have hhash : c.char ≠ '#' := by
    obtain ⟨e, w, rfl⟩ := List.exists_cons_of_ne_nil hne
    rw [Cursor.char_cons h]
    rintro rfl
    cases hw '#' (by simp)
  have hrun : plainRun true c.rest = w := by
    rw [h, plainRun_written hw (plainEnds_free hg hd)]
  obtain ⟨after, ended, hgap⟩ := plainGap_free hg hd (Cursor.skip_append_rest h)
  rw [← Cursor.skip_append] at hgap
  -- behind the white space stands nothing that goes on with the scalar
  have hstop := plainParts_stop hd (Cursor.skip_append_rest
    (show c.rest = (w ++ g) ++ d :: rest by simpa using h)) indent (w ++ (g ++ d :: rest)).length
    after ended
  refine ⟨ended, ?_⟩
  rw [plainScalar, Cursor.fuel, h, plainParts, if_neg hhash, hrun, hgap]
  simp only [hstop, List.isEmpty_eq_false_iff.2 hne]
  simp

theorem word_plainChar (w : Word) : ∃ d more, w.written = d :: more ∧ d.isAlphanum = true ∧
    ∀ e ∈ w.written, isPlainChar e = true := by
  cases w <;> exact ⟨_, _, rfl, rfl, by simp [Word.written, isPlainChar]⟩

theorem isPlainChar_of_isDigit {d : Char} (hd : d.isDigit = true) : isPlainChar d = true := by
  simp [isPlainChar, Char.isAlphanum, hd]

theorem numeral_plainChar (n : Numeral) : ∀ e ∈ n.written, isPlainChar e = true := by
  have hdigits (ds : Json.Digits) : ∀ e ∈ ds.chars, isPlainChar e = true :=
    fun e he => isPlainChar_of_isDigit (ds.isDigit e he)
  obtain ⟨negative, whole, leading, fraction, exponent⟩ := n
  simp only [Numeral.written, Numeral.size, List.mem_append]
  rintro e (he | he | he | he)
  · cases negative with
    | true =>
      obtain rfl : e = '-' := by simpa using he
      rfl
    | false => simp at he
  · exact hdigits whole e he
  · rcases fraction with _ | f
    · simp at he
    · obtain rfl | he := List.mem_cons.1 he
      · rfl
      · exact hdigits f e he
  · rcases exponent with _ | ⟨upper, sign, digits⟩
    · simp at he
    · obtain rfl | he := List.mem_cons.1 he
      · cases upper <;> rfl
      · obtain he | he := List.mem_append.1 he
        · cases sign with
          | absent => simp [Json.Sign.written] at he
          | plus | minus =>
            obtain rfl := List.mem_singleton.1 he
            rfl
        · exact hdigits digits e he

end FieldSchema.Markup
