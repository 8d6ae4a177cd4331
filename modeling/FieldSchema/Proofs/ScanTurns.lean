import FieldSchema.Markup.Token
import FieldSchema.Proofs.PlainTexts

/-!
# Turns of the scanner

Outside block collections a turn of the scanner passes white space, forgets the places of keys that
are too old, and takes one token. What a part of a text is cut into is stated as a step from one
stand to another (`Cuts`), so that the parts of a longer text can be put together.
-/

namespace FieldSchema.Markup

open Json (Piece Gap writtenQuote)

/-! ## Scans that go on and scans that fail -/

namespace Scan

/-- A scan outside block collections, in which nothing must be a key. -/
structure Calm (s : Scan) : Prop where
  indent : s.indent = -1
  outer : s.outer = []
  required : ∀ p ∈ s.places, p.2.required = false

/-- The scan goes on as another one, after a step for each character at most. -/
def Leads (s s' : Scan) : Prop :=
  ∃ n, n + s'.cursor.rest.length ≤ s.cursor.rest.length ∧
    ∀ fuel, toEnd (fuel + n + 1) s = toEnd (fuel + 1) s'

/-- The scan ends with a fault. -/
def Fails (s : Scan) : Prop :=
  ∀ fuel, s.cursor.rest.length + 2 ≤ fuel → ∃ f, toEnd fuel s = .error f

theorem Leads.trans {s s' s'' : Scan} (h : Leads s s') (h' : Leads s' s'') : Leads s s'' := by
  obtain ⟨n, hn, hlead⟩ := h
  obtain ⟨m, hm, hlead'⟩ := h'
  refine ⟨m + n, by omega, fun fuel => ?_⟩
  rw [← Nat.add_assoc, hlead, hlead']

theorem Fails.of_leads {s s' : Scan} (h : Leads s s') (h' : Fails s') : Fails s := by
  obtain ⟨n, hn, hlead⟩ := h
  intro fuel hfuel
  obtain ⟨fuel, rfl⟩ : ∃ k, fuel = k + n + 1 := ⟨fuel - n - 1, by omega⟩
  rw [hlead]
  exact h' _ (by omega)

/-- If what is read next is good the scan goes on as one with a property, and otherwise it fails. -/
def Scans (s : Scan) (good : Prop) (next : Scan → Prop) : Prop :=
  (good ∧ ∃ s', Leads s s' ∧ next s') ∨ (¬ good ∧ Fails s)

variable {s : Scan} {good good' : Prop} {next next' : Scan → Prop}

theorem Scans.trans (h : Scans s good next) (h' : ∀ s', next s' → Scans s' good' next') :
    Scans s (good ∧ good') next' := by
  rcases h with ⟨hgood, s', hlead, hnext⟩ | ⟨hbad, hfail⟩
  · rcases h' s' hnext with ⟨hgood', s'', hlead', hnext'⟩ | ⟨hbad', hfail'⟩
    · exact Or.inl ⟨⟨hgood, hgood'⟩, s'', hlead.trans hlead', hnext'⟩
    · exact Or.inr ⟨fun hand => hbad' hand.2, .of_leads hlead hfail'⟩
  · exact Or.inr ⟨fun hand => hbad hand.1, hfail⟩

theorem Scans.congr (h : Scans s good next) (hgood : good ↔ good')
    (hnext : ∀ s', next s' → next' s') : Scans s good' next' := by
  rcases h with ⟨h, s', hlead, hs'⟩ | ⟨h, hfail⟩
  · exact Or.inl ⟨hgood.1 h, s', hlead, hnext s' hs'⟩
  · exact Or.inr ⟨fun h' => h (hgood.2 h'), hfail⟩

theorem Scans.of_leads {s' : Scan} (h : Leads s s') (hs' : next s') : Scans s True next :=
  Or.inl ⟨trivial, s', h, hs'⟩

/-! ## White space -/

/-- A token, or the end of the text, stands in front. -/
def AtToken (rest : List Char) : Prop := ∀ d ∈ rest.head?, isFirm d = true ∧ d ≠ '#'

theorem AtToken.char {c : Cursor} (h : AtToken c.rest) : isBreak c.char = false ∧ c.char ≠ '#' := by
  cases hhead : c.rest.head? with
  | none =>
    rw [Cursor.char, hhead]
    exact ⟨rfl, by decide⟩
  | some d =>
    have hd := h d hhead
    simp only [isFirm, Bool.and_eq_true, Bool.not_eq_true'] at hd
    rw [Cursor.char, hhead]
    exact ⟨hd.1.2, hd.2⟩

theorem toNextToken_at (h : AtToken s.cursor.rest) (fuel : Nat) : s.toNextToken fuel = s := by
  cases fuel with
  | zero => rfl
  | succ fuel =>
    have hskip : s.cursor.skipSpaces = s.cursor := by
      rcases hrest : s.cursor.rest with _ | ⟨d, rest⟩
      · simp [Cursor.skipSpaces, Cursor.skipWhile, Cursor.run, hrest, Cursor.skip]
      · have hd := (h d (by rw [hrest]; rfl)).1
        simp only [isFirm, Bool.and_eq_true, decide_eq_true_eq] at hd
        exact Cursor.skipWhile_of_not hrest (by simpa using hd.1)
    obtain ⟨hbreak, hhash⟩ := h.char
    simp [toNextToken, hskip, Cursor.skipComment, hhash, hbreak]

theorem toNextToken_free {g rest : List Char} (hg : IsFree g) (hrest : AtToken rest) {fuel : Nat}
    (hfuel : g.length < fuel) (h : s.cursor.rest = g ++ rest) :
    ∃ allowed, s.toNextToken fuel = { s with
        cursor := s.cursor.skip g.length, keyAllowed := allowed } ∧
      (s.depth ≠ 0 → allowed = s.keyAllowed) ∧ (s.keyAllowed = true → allowed = true) := by
  induction fuel generalizing g s with
  | zero => omega
  | succ fuel ih =>
    obtain ⟨spaces, more, rfl, hspaces, hmore⟩ := exists_run (· = ' ') g
    rw [List.append_assoc] at h
    have hskip : s.cursor.skipSpaces = s.cursor.skip spaces.length := by
      refine congrArg Prod.snd (Cursor.takeWhile_run h hspaces ?_)
      rcases more with _ | ⟨b, more⟩
      · intro d hd
        have := (hrest d hd).1
        simp_all [isFirm]
      · simpa using hmore
    have hbehind := Cursor.skip_append_rest h
    rcases more with _ | ⟨b, more⟩
    · rw [List.nil_append] at hbehind
      obtain ⟨hbreak, hhash⟩ := AtToken.char (hbehind ▸ hrest)
      refine ⟨s.keyAllowed, ?_, fun _ => rfl, id⟩
      simp [toNextToken, hskip, Cursor.skipComment, hhash, hbreak]
    · have hfree : IsFree (b :: more) := fun e he => hg e (by simp [he])
      have hb : b ≠ ' ' := by simpa using hmore b rfl
      have hhash : b ≠ '#' := by
        rintro rfl
        simpa using hfree '#' (by simp)
      obtain ⟨hbreak, n, more', hn, hlength, hfree', htake, hrest'⟩ :=
        takeBreak_free hb hfree (fun d hd => (hrest d hd).1) hbehind
      simp only [List.length_append, List.length_cons] at hfuel
      obtain ⟨allowed, hnext, hinside, hallowed⟩ := ih
        (s := { s with
          cursor := (s.cursor.skip spaces.length).skip n
          keyAllowed := s.keyAllowed || s.depth = 0 }) hfree' (by omega) hrest'
      refine ⟨allowed, ?_, fun h => ?_, fun h => hallowed (by simp [h])⟩
      · simp only [toNextToken, hskip, Cursor.skipComment, Cursor.char_cons hbehind, if_neg hhash,
          hbreak, if_true, htake, hnext]
        simp only [Cursor.skip_skip, hlength, List.length_append, List.length_cons, Nat.add_assoc]
      · simpa [h] using hinside h

/-- White space up to the next token is passed, which takes no turn. -/
theorem leads_free {g rest : List Char} (hg : IsFree g) (hrest : AtToken rest)
    (h : s.cursor.rest = g ++ rest) :
    ∃ allowed, Leads s { s with cursor := s.cursor.skip g.length, keyAllowed := allowed } ∧
      (s.depth ≠ 0 → allowed = s.keyAllowed) ∧ (s.keyAllowed = true → allowed = true) := by
  have hfuel : g.length < s.cursor.fuel := by
    simp only [Cursor.fuel, h, List.length_append]
    omega
  obtain ⟨allowed, hnext, hinside, hallowed⟩ := toNextToken_free hg hrest hfuel h
  refine ⟨allowed, ⟨0, ?_, fun fuel => ?_⟩, hinside, hallowed⟩
  · simp only [Cursor.skip_append_rest h, h, List.length_append]
    omega
  · have hat : AtToken (s.cursor.skip g.length).rest := by rwa [Cursor.skip_append_rest h]
    rw [toEnd, toEnd, hnext, toNextToken_at hat]

/-! ## Turns -/

/-- What is left of the places when those that can be no key any more are dropped. -/
def isStale (s : Scan) (k : KeyPlace) : Bool :=
  k.line ≠ s.cursor.line || maxKeyLength < s.cursor.index - k.index

def fresh (s : Scan) : Scan := { s with places := s.places.filter fun p => !s.isStale p.2 }

theorem Calm.of_places {s' : Scan} (h : Calm s) (hindent : s'.indent = s.indent)
    (houter : s'.outer = s.outer) (hplaces : ∀ p ∈ s'.places, p ∈ s.places) : Calm s' :=
  ⟨hindent.trans h.indent, houter.trans h.outer, fun p hp => h.required p (hplaces p hp)⟩

theorem Calm.fresh (h : Calm s) : Calm s.fresh :=
  h.of_places rfl rfl fun _ hp => (List.mem_filter.1 hp).1

theorem Calm.dropStale (h : Calm s) : s.dropStale = .ok s.fresh := by
  simp only [Scan.dropStale]
  rw [if_neg]
  · rfl
  · rw [Bool.not_eq_true, List.any_eq_false]
    rintro ⟨n, k⟩ hp
    have hk : k.required = false := h.required _ hp
    simp [hk]

theorem Calm.unwind (h : Calm s) (column : Int) : s.unwind column = s := by
  simp only [Scan.unwind, h.outer, closeTo, ite_self]

theorem Calm.dropPlace (h : Calm s) :
    s.dropPlace = .ok { s with places := s.places.filter (·.1 ≠ s.depth) } := by
  cases hlookup : s.places.lookup s.depth with
  | none =>
    have hall : s.places.filter (·.1 ≠ s.depth) = s.places := by
      rw [List.filter_eq_self]
      intro p hp
      have hp' : s.depth ≠ p.1 := by simpa using List.lookup_eq_none_iff.1 hlookup p hp
      simpa using hp'.symm
    rw [Scan.dropPlace, hlookup, hall]
  | some k =>
    obtain ⟨before, after, hplaces, -⟩ := List.lookup_eq_some_iff.1 hlookup
    have hk : k.required = false := h.required (s.depth, k) (by simp [hplaces])
    rw [Scan.dropPlace, hlookup]
    simp only [hk, Bool.false_eq_true, if_false]

/-- At a token the scan takes a step. -/
theorem toEnd_step (h : Calm s) {d : Char} {rest : List Char} (hrest : s.cursor.rest = d :: rest)
    (hat : AtToken s.cursor.rest) (fuel : Nat) :
    toEnd (fuel + 1) s = s.fresh.step >>= toEnd fuel := by
  have hne : s.fresh.cursor.rest.isEmpty = false := by
    simp [fresh, hrest]
  rw [toEnd, toNextToken_at hat]
  simp only [h.dropStale, bind, Except.bind, h.fresh.unwind, hne]
  rfl

theorem leads_step {s' : Scan} (h : Calm s) {d : Char} {rest : List Char}
    (hrest : s.cursor.rest = d :: rest) (hat : AtToken s.cursor.rest)
    (hstep : s.fresh.step = .ok s')
    (hlength : s'.cursor.rest.length ≤ rest.length) : Leads s s' :=
  ⟨1, by simp [hrest]; omega, fun fuel => by rw [toEnd_step h hrest hat, hstep]; rfl⟩

theorem fails_step {f : Fault} (h : Calm s) {d : Char} {rest : List Char}
    (hrest : s.cursor.rest = d :: rest) (hat : AtToken s.cursor.rest)
    (hstep : s.fresh.step = .error f) : Fails s := by
  intro fuel hfuel
  obtain ⟨fuel, rfl⟩ := Nat.exists_eq_succ_of_ne_zero (by omega : fuel ≠ 0)
  exact ⟨f, by rw [toEnd_step h hrest hat, hstep]; rfl⟩

/-- At the end of the text the scan gives its tokens. -/
theorem toEnd_end (h : Calm s) (hrest : s.cursor.rest = []) (fuel : Nat) :
    toEnd (fuel + 1) s = .ok s.tokens := by
  have hat : AtToken s.cursor.rest := by simp [AtToken, hrest]
  have hempty : s.fresh.cursor.rest.isEmpty = true := by simp [Scan.fresh, hrest]
  rw [toEnd, toNextToken_at hat]
  simp only [h.dropStale, bind, Except.bind, h.fresh.unwind, hempty, h.fresh.dropPlace]
  rfl

/-! ## Steps -/

section Steps

variable {rest : List Char}

theorem step_listStart (h : s.cursor.rest = '[' :: rest) : s.step = s.openBracket .listStart := by
  simp [step, Cursor.char_cons h, Cursor.seesMarker]

theorem step_recordStart (h : s.cursor.rest = '\x7b' :: rest) :
    s.step = s.openBracket .recordStart := by
  simp [step, Cursor.char_cons h, Cursor.seesMarker]

theorem step_listEnd (h : s.cursor.rest = ']' :: rest) : s.step = s.closeBracket .listEnd := by
  simp [step, Cursor.char_cons h, Cursor.seesMarker]

theorem step_recordEnd (h : s.cursor.rest = '\x7d' :: rest) :
    s.step = s.closeBracket .recordEnd := by
  simp [step, Cursor.char_cons h, Cursor.seesMarker]

theorem step_separator (h : s.cursor.rest = ',' :: rest) : s.step = s.flowSeparator := by
  simp [step, Cursor.char_cons h, Cursor.seesMarker]

theorem step_value (h : s.cursor.rest = ':' :: rest) (hdepth : s.depth ≠ 0) :
    s.step = s.valueMark := by
  simp [step, Cursor.char_cons h, Cursor.seesMarker, hdepth]

theorem step_quoted (h : s.cursor.rest = '"' :: rest) : s.step = s.quoted := by
  simp [step, Cursor.char_cons h, Cursor.seesMarker]

theorem step_tab (h : s.cursor.rest = '\t' :: rest) : s.step = flaw .unexpectedCharacter := by
  simp [step, Cursor.char_cons h, Cursor.seesMarker, seesPlain, isGap]

theorem step_plain {d : Char} (hd : isPlainChar d = true) (hpoint : d ≠ '.')
    (hminus : d = '-' → ∃ e more, rest = e :: more ∧ e.isDigit = true)
    (h : s.cursor.rest = d :: rest) : s.step = s.plain := by
  have hne {e : Char} (he : isPlainChar e = false) := ne_of_isPlainChar hd he
  have hgap := isGap_of_isPlainChar hd
  by_cases hd : d = '-'
  · subst hd
    obtain ⟨e, more, rfl, he⟩ := hminus rfl
    have hahead : s.cursor.ahead 1 = e := by simp [Cursor.ahead, h]
    have hdash : e ≠ '-' := by
      rintro rfl
      cases he
    have hafter : isGap e = false :=
      isGap_of_isPlainChar (by simp [isPlainChar, Char.isAlphanum, he])
    simp [step, Cursor.char_cons h, Cursor.seesMarker, seesPlain, hahead, hdash, hafter, hgap]
  · simp [step, Cursor.char_cons h, Cursor.seesMarker, seesPlain, hgap, hd, hpoint,
      hne (e := '%') rfl, hne (e := '[') rfl, hne (e := ']') rfl, hne (e := '\x7b') rfl,
      hne (e := '\x7d') rfl, hne (e := ',') rfl, hne (e := '?') rfl, hne (e := ':') rfl,
      hne (e := '*') rfl, hne (e := '&') rfl, hne (e := '!') rfl, hne (e := '|') rfl,
      hne (e := '>') rfl, hne (e := '\'') rfl, hne (e := '"') rfl, hne (e := '#') rfl,
      hne (e := '@') rfl, hne (e := '\x60') rfl]

end Steps

/-! ## Parts of a text -/

/-- The scan has passed a part of the text and cut it into tokens. -/
structure Passed (s : Scan) (w : List Char) (ts : List Token) (s' : Scan) : Prop where
  cursor : s'.cursor = s.cursor.skip w.length
  tokens : s'.tokens.toList = s.tokens.toList ++ ts

/-- Where a scan stands: how many brackets are open, and whether a key may surely begin. -/
structure Stand where
  depth : Nat
  key : Bool

structure Stand.Holds (p : Stand) (s : Scan) : Prop where
  calm : Calm s
  depth : s.depth = p.depth
  key : p.key = true → s.keyAllowed = true

/-- From one stand a part of a text is passed to another stand and cut into tokens if it is good,
and the scan fails otherwise. -/
def Cuts (p : Stand) (w rest : List Char) (ts : List Token) (good : Prop) (q : Stand) : Prop :=
  ∀ s, p.Holds s → s.cursor.rest = w ++ rest →
    Scans s good fun s' => Passed s w ts s' ∧ q.Holds s'

section Parts

variable {s' s'' : Scan} {w w' rest : List Char} {ts ts' : List Token} {p q r : Stand} {a : Bool}
  {d : Char} {t : Token} {k : Nat}

theorem Passed.append (h : Passed s w ts s') (h' : Passed s' w' ts' s'') :
    Passed s (w ++ w') (ts ++ ts') s'' :=
  ⟨by rw [h'.cursor, h.cursor, Cursor.skip_append],
    by rw [h'.tokens, h.tokens, List.append_assoc]⟩

theorem Passed.behind (h : Passed s w ts s') (hrest : s.cursor.rest = w ++ rest) :
    s'.cursor.rest = rest := by
  rw [h.cursor, Cursor.skip_append_rest hrest]

/-- Two parts are passed one after the other. -/
theorem Cuts.append (h : Cuts p w (w' ++ rest) ts good q) (h' : Cuts q w' rest ts' good' r) :
    Cuts p (w ++ w') rest (ts ++ ts') (good ∧ good') r := by
  intro s hs hrest
  rw [List.append_assoc] at hrest
  refine (h s hs hrest).trans ?_
  rintro s₁ ⟨hpassed, hq⟩
  refine (h' s₁ hq (hpassed.behind hrest)).congr Iff.rfl ?_
  rintro s₂ ⟨hpassed', hr⟩
  exact ⟨hpassed.append hpassed', hr⟩

theorem Cuts.nil : Cuts p [] rest [] True p :=
  fun s hs _ => .of_leads ⟨0, by omega, fun _ => rfl⟩ ⟨⟨rfl, by simp⟩, hs⟩

theorem Cuts.congr (h : Cuts p w rest ts good q) (hgood : good ↔ good') (hw : w = w')
    (hts : ts = ts') : Cuts p w' rest ts' good' q := by
  subst hw hts
  exact fun s hs hrest => (h s hs hrest).congr hgood fun _ hs' => hs'

/-- White space is free up to its first tab. -/
theorem Gap.free_or (g : Gap) : ('\t' ∉ g.chars ∧ IsFree g.chars) ∨
    ∃ free more, g.chars = free ++ '\t' :: more ∧ IsFree free := by
  obtain ⟨free, more, hsplit, hfree, hmore⟩ := exists_run (· ≠ '\t') g.chars
  simp only [decide_eq_true_eq, decide_eq_false_iff_not, Decidable.not_not] at hfree hmore
  have hwhite : IsFree free := by
    intro d hd
    have hspace : Json.isSpace d = true := g.isSpace d (by rw [hsplit]; simp [hd])
    simpa [Json.isSpace, hfree d hd, or_assoc] using hspace
  rcases more with _ | ⟨d, more⟩
  · rw [List.append_nil] at hsplit
    rw [hsplit]
    exact Or.inl ⟨fun htab => hfree _ htab rfl, hwhite⟩
  · obtain rfl : d = '\t' := hmore d rfl
    exact Or.inr ⟨free, more, hsplit, hwhite⟩

theorem atToken_cons {d : Char} (hfirm : isFirm d = true) (hhash : d ≠ '#') (rest : List Char) :
    AtToken (d :: rest) := by
  rintro e ⟨⟩
  exact ⟨hfirm, hhash⟩

theorem fails_tab (hs : Calm s) (h : s.cursor.rest = '\t' :: rest) : Fails s :=
  fails_step hs h (h ▸ atToken_cons rfl (by decide) rest) (step_tab h)

/-- White space is passed if there is no tab in it. -/
theorem scans_gap (g : Gap) (hat : AtToken rest) (hs : Calm s)
    (h : s.cursor.rest = g.chars ++ rest) :
    Scans s ('\t' ∉ g.chars) fun s' => ∃ allowed, s' = { s with
        cursor := s.cursor.skip g.chars.length, keyAllowed := allowed } ∧
      (s.depth ≠ 0 → allowed = s.keyAllowed) ∧ (s.keyAllowed = true → allowed = true) := by
  rcases Gap.free_or g with ⟨hnone, hfree⟩ | ⟨free, more, hsplit, hfree⟩
  · obtain ⟨allowed, hlead, hallowed⟩ := leads_free hfree hat h
    exact Or.inl ⟨hnone, _, hlead, allowed, rfl, hallowed⟩
  · rw [hsplit, List.append_assoc] at h
    obtain ⟨allowed, hlead, -⟩ := leads_free hfree (atToken_cons rfl (by decide) _) h
    refine Or.inr ⟨fun hnone => hnone (by rw [hsplit]; simp), .of_leads hlead ?_⟩
    exact fails_tab (hs.of_places rfl rfl fun _ hp => hp) (Cursor.skip_append_rest h)

theorem Calm.savePlace_key (hs : Calm s) (hkey : s.keyAllowed = true) :
    s.savePlace = .ok { s with places := s.places.filter (·.1 ≠ s.depth) ++
      [(s.depth, ⟨s.tokens.size, false, s.cursor.index, s.cursor.line, s.cursor.column⟩)] } := by
  have hrequired : (decide (s.depth = 0) && decide (s.indent = s.cursor.column)) = false := by
    have : s.indent ≠ s.cursor.column := by
      rw [hs.indent]
      omega
    simp [this]
  simp only [Scan.savePlace, hkey, if_true, hs.dropPlace, bind, Except.bind, hrequired]
  rfl

theorem Calm.savePlace (hs : Calm s) : ∃ places,
    s.savePlace = .ok { s with places := places } ∧ Calm { s with places := places } := by
  by_cases hkey : s.keyAllowed = true
  · refine ⟨_, hs.savePlace_key hkey, hs.indent, hs.outer, fun p hp => ?_⟩
    simp only [List.mem_append, List.mem_filter, List.mem_singleton] at hp
    rcases hp with hp | rfl
    · exact hs.required p hp.1
    · rfl
  · exact ⟨s.places, by rw [Scan.savePlace, if_neg hkey], hs⟩

theorem Calm.places (hs : Calm s) (test : Nat × KeyPlace → Bool) {s' : Scan}
    (hindent : s'.indent = s.indent) (houter : s'.outer = s.outer)
    (hplaces : s'.places = s.places.filter test) : Calm s' :=
  hs.of_places hindent houter fun _ hp => (List.mem_filter.1 (hplaces ▸ hp)).1

theorem cuts_open (hd : isFirm d = true ∧ d ≠ '#')
    (hstep : ∀ s : Scan, s.cursor.rest = d :: rest → s.step = s.openBracket t) :
    Cuts ⟨k, a⟩ [d] rest [t] True ⟨k + 1, true⟩ := by
  rintro s ⟨hs, hk, -⟩ h
  have hat : AtToken s.cursor.rest := h ▸ atToken_cons hd.1 hd.2 rest
  obtain ⟨places, hplace, hcalm⟩ := hs.fresh.savePlace
  have hopen : s.fresh.step = .ok { s with
      cursor := s.cursor.skip 1, tokens := s.tokens.push t, depth := s.depth + 1
      keyAllowed := true, places := places } := by
    rw [hstep s.fresh h, openBracket, hplace]
    rfl
  exact .of_leads (leads_step hs h hat hopen (by simp [Cursor.skip_rest, h])) ⟨⟨rfl, by simp⟩,
    ⟨hcalm.indent, hcalm.outer, hcalm.required⟩, congrArg (· + 1) hk, fun _ => rfl⟩

theorem cuts_close (hd : isFirm d = true ∧ d ≠ '#')
    (hstep : ∀ s : Scan, s.cursor.rest = d :: rest → s.step = s.closeBracket t) :
    Cuts ⟨k + 1, a⟩ [d] rest [t] True ⟨k, false⟩ := by
  rintro s ⟨hs, hk, -⟩ h
  have hat : AtToken s.cursor.rest := h ▸ atToken_cons hd.1 hd.2 rest
  have hclose : s.fresh.step = .ok { s with
      cursor := s.cursor.skip 1, tokens := s.tokens.push t, depth := s.depth - 1
      keyAllowed := false, places := s.fresh.places.filter (·.1 ≠ s.depth) } := by
    rw [hstep s.fresh h, closeBracket, hs.fresh.dropPlace]
    rfl
  exact .of_leads (leads_step hs h hat hclose (by simp [Cursor.skip_rest, h]))
    ⟨⟨rfl, by simp⟩, hs.fresh.places _ rfl rfl rfl, congrArg (· - 1) hk, nofun⟩

theorem cuts_separator : Cuts ⟨k, a⟩ [','] rest [.separator] True ⟨k, true⟩ := by
  rintro s ⟨hs, hk, -⟩ h
  have hat : AtToken s.cursor.rest := h ▸ atToken_cons rfl (by decide) _
  have hseparate : s.fresh.step = .ok { s with
      cursor := s.cursor.skip 1, tokens := s.tokens.push .separator
      keyAllowed := true, places := s.fresh.places.filter (·.1 ≠ s.depth) } := by
    rw [show s.fresh.step = s.fresh.flowSeparator from step_separator h, flowSeparator,
      hs.fresh.dropPlace]
    rfl
  exact .of_leads (leads_step hs h hat hseparate (by simp [Cursor.skip_rest, h]))
    ⟨⟨rfl, by simp⟩, hs.fresh.places _ rfl rfl rfl, hk, fun _ => rfl⟩

theorem scans_quoted (hs : Calm s) {ps : List Piece}
    (h : s.cursor.rest = '"' :: (writtenQuote ps ++ rest)) {places : List (Nat × KeyPlace)}
    (hplace : s.fresh.savePlace = .ok { s.fresh with places := places }) :
    Scans s (endsDocument ps = false) fun s' => s' = { s with
      cursor := s.cursor.skip ('"' :: writtenQuote ps).length
      tokens := s.tokens.push (.scalar (folded [] ps) false)
      keyAllowed := false
      places := places } := by
  have hat : AtToken s.cursor.rest := h ▸ atToken_cons rfl (by decide) _
  have hstep : s.fresh.step = s.fresh.quoted := step_quoted h
  have hscalar := quotedScalar_written ps h
  cases hmark : endsDocument ps with
  | true =>
    refine Or.inr ⟨by simp, fails_step (f := .flaw .separatorInText) hs h hat ?_⟩
    rw [hstep, quoted, hplace]
    rw [if_pos hmark] at hscalar
    simp only [bind, Except.bind]
    rw [show ({ s.fresh with places := places } : Scan).cursor = s.cursor from rfl, hscalar]
    rfl
  | false =>
    refine Or.inl ⟨rfl, _, leads_step hs h hat ?_ ?_, rfl⟩
    · rw [hstep, quoted, hplace]
      rw [hmark] at hscalar
      simp only [bind, Except.bind]
      rw [show ({ s.fresh with places := places } : Scan).cursor = s.cursor from rfl, hscalar]
      rfl
    · simp [Cursor.skip_rest, h]

theorem cuts_text (ps : List Piece) : Cuts ⟨k, a⟩ ('"' :: writtenQuote ps) rest
    [.scalar (folded [] ps) false] (endsDocument ps = false) ⟨k, false⟩ := by
  rintro s ⟨hs, hk, -⟩ h
  obtain ⟨places, hplace, hcalm⟩ := hs.fresh.savePlace
  refine (scans_quoted hs h hplace).congr Iff.rfl ?_
  rintro s' rfl
  exact ⟨⟨rfl, by simp⟩, ⟨hcalm.indent, hcalm.outer, hcalm.required⟩, hk, nofun⟩

/-- What may stand behind a value and white space inside brackets. -/
def IsClose (d : Char) : Prop := d = ',' ∨ d = ']' ∨ d = '\x7d'

theorem IsClose.isStop {d : Char} (hd : IsClose d) : IsStop d := Or.inr hd

theorem IsClose.atToken {d : Char} (hd : IsClose d) (rest : List Char) : AtToken (d :: rest) := by
  obtain rfl | rfl | rfl := hd <;> exact atToken_cons rfl (by decide) rest

/-- A plain scalar is taken with the free white space behind it. -/
theorem leads_plain (hs : Calm s) (hk : s.depth = k + 1) {e : Char} {free : List Char}
    (hd : d = '-' ∨ d.isAlphanum = true)
    (hminus : d = '-' → ∃ e more, w = e :: more ∧ e.isDigit = true)
    (hw : ∀ e ∈ d :: w, isPlainChar e = true) (hfree : IsFree free) (he : IsStop e)
    (h : s.cursor.rest = d :: w ++ (free ++ e :: rest)) :
    ∃ s', Leads s s' ∧ Passed s (d :: w ++ free) [.scalar (d :: w) true] s' ∧
      Stand.Holds ⟨k + 1, false⟩ s' := by
  have hplain : isPlainChar d = true := hw d (by simp)
  have hpoint : d ≠ '.' := by
    rintro rfl
    rcases hd with hd | hd <;> cases hd
  have hat : AtToken s.cursor.rest := by
    have hfirm : isFirm d = true := by
      have := isGap_of_isPlainChar hplain
      simp only [isGap, isSpaceOrEnd, isBreakOrEnd, Bool.or_eq_false_iff] at this
      simpa [isFirm, this.1.1.1] using this.1.2
    exact h ▸ atToken_cons hfirm (ne_of_isPlainChar hplain rfl) _
  obtain ⟨places, hplace, hcalm⟩ := hs.fresh.savePlace
  obtain ⟨ended, hscalar⟩ := plainScalar_written (List.cons_ne_nil d w) hw hfree he h s.indent
  have hflow : plainScalar (decide (s.fresh.depth ≠ 0)) s.fresh.indent s.fresh.cursor =
      (d :: w, ended, s.cursor.skip (d :: w ++ free).length) := by
    have hinside : decide (s.fresh.depth ≠ 0) = true := decide_eq_true (by rw [fresh, hk]; omega)
    rw [hinside]
    exact hscalar
  have hstep : s.fresh.step = .ok { s with
      cursor := s.cursor.skip (d :: w ++ free).length
      tokens := s.tokens.push (.scalar (d :: w) true)
      keyAllowed := ended
      places := places } := by
    rw [show s.fresh.step = s.fresh.plain from step_plain hplain hpoint ?_ h, plain, hplace]
    · simp only [bind, Except.bind, hflow]
      rfl
    · intro hd
      obtain ⟨e, more, rfl, he⟩ := hminus hd
      exact ⟨e, _, rfl, he⟩
  exact ⟨_, leads_step hs h hat hstep (by simp [Cursor.skip_rest, h]; omega),
    ⟨rfl, by simp⟩, ⟨hcalm.indent, hcalm.outer, hcalm.required⟩, hk, by simp⟩

/-- A plain scalar is taken with the white space behind it. -/
theorem cuts_plain {e : Char} (g : Gap) (hd : d = '-' ∨ d.isAlphanum = true)
    (hminus : d = '-' → ∃ e more, w = e :: more ∧ e.isDigit = true)
    (hw : ∀ e ∈ d :: w, isPlainChar e = true) (he : IsClose e) :
    Cuts ⟨k + 1, a⟩ (d :: w ++ g.chars) (e :: rest) [.scalar (d :: w) true] ('\t' ∉ g.chars)
      ⟨k + 1, false⟩ := by
  rintro s ⟨hs, hk, -⟩ h
  rw [List.append_assoc] at h
  rcases Gap.free_or g with ⟨hnone, hfree⟩ | ⟨free, more, hsplit, hfree⟩
  · obtain ⟨s', hlead, hpassed⟩ := leads_plain hs hk hd hminus hw hfree he.isStop h
    exact Or.inl ⟨hnone, s', hlead, hpassed⟩
  · rw [hsplit, List.append_assoc] at h
    obtain ⟨s', hlead, hpassed, hstand⟩ := leads_plain hs hk hd hminus hw hfree (Or.inl rfl) h
    refine Or.inr ⟨fun hnone => hnone (by rw [hsplit]; simp), .of_leads hlead ?_⟩
    exact fails_tab hstand.calm (hpassed.behind (by simpa using h))

theorem cuts_white (g : Gap) (hat : AtToken rest) : Cuts p g.chars rest [] ('\t' ∉ g.chars) p := by
  rintro s ⟨hs, hk, hkey⟩ h
  refine (scans_gap g hat hs h).congr Iff.rfl ?_
  rintro s' ⟨allowed, rfl, -, hallowed⟩
  exact ⟨⟨rfl, by simp⟩, hs.of_places rfl rfl fun _ hp => hp, hk, fun hp => hallowed (hkey hp)⟩

end Parts

end Scan

end FieldSchema.Markup
