import FieldSchema.Proofs.Answers
import FieldSchema.Proofs.Characters
import FieldSchema.Proofs.PatternMeaning

/-!
# Forms of text

A text can be declared to be an email address, a URL or a UUID. `TextForm.Describes` is the grammar
of each form, and the pattern of a form matches what the grammar describes, but for the end of the
text: where a pattern asks for the end, a line feed may still follow (`TextForm.search_iff`). So a
declared form admits the texts of its grammar, and those with one line feed behind them
(`Schema.validate_textForm`).
-/

namespace FieldSchema

open Pattern

/-- A form that texts are declared to have. -/
inductive TextForm where
  | email
  | url
  | uuid

namespace TextForm

def method : TextForm → Method
  | .email => .email
  | .url => .url
  | .uuid => .uuid

def rule : TextForm → Rule
  | .email => .email
  | .url => .url
  | .uuid => .uuid

def source : TextForm → String
  | .email => Rule.emailPattern
  | .url => Rule.urlPattern
  | .uuid => Rule.uuidPattern

/-! ## Grammars -/

/-- No blanks and one at-sign, with something before it and behind it a dot between two parts. -/
def IsEmail (cs : List Char) : Prop :=
  (∀ c ∈ cs, Text.isBlank c = false) ∧ ∃ user host, cs = user ++ '@' :: host ∧ user ≠ [] ∧
    '@' ∉ user ∧ '@' ∉ host ∧ ∃ left right, host = left ++ '.' :: right ∧ left ≠ [] ∧ right ≠ []

/-- A scheme, a character that can start a host, and then no blanks. -/
def IsUrl (cs : List Char) : Prop :=
  ∃ scheme ∈ ["http", "https", "ftp"], ∃ c rest, cs = scheme.toList ++ "://".toList ++ c :: rest ∧
    Text.isBlank c = false ∧ c ∉ ['/', '$', '.', '?', '#'] ∧ ∀ d ∈ rest, Text.isBlank d = false

/-- Groups of hexadecimal digits between hyphens. -/
def IsUuid (cs : List Char) : Prop :=
  ∃ groups : List (List Char), groups.map List.length = [8, 4, 4, 4, 12] ∧
    (∀ group ∈ groups, ∀ c ∈ group, isHexDigit c = true) ∧ cs = ['-'].intercalate groups

/-- That a text has a form. -/
def Describes : TextForm → List Char → Prop
  | .email => IsEmail
  | .url => IsUrl
  | .uuid => IsUuid

/-! ## Patterns -/

/-- Neither a blank nor an at-sign. -/
def addressChar : Term := .set true [.category .space false, .code 64]

def hostStart : Term :=
  .set true [.category .space false, .code 47, .code 36, .code 46, .code 63, .code 35]

def notBlank : Term := .set true [.category .space false]

def hexDigit : Term := .set false [.range 48 57, .range 97 102, .range 65 70]

/-- The pattern of a form between its anchors. -/
def terms : TextForm → List Term
  | .email => [.repeat .greedy 1 none [addressChar], .code 64, .repeat .greedy 1 none [addressChar],
      .code 46, .repeat .greedy 1 none [addressChar]]
  | .url => [.group (some 1) [] [] [.branch [[.code 104, .code 116, .code 116, .code 112,
        .repeat .greedy 0 (some 1) [.code 115]], [.code 102, .code 116, .code 112]]],
      .code 58, .code 47, .code 47, hostStart, .repeat .greedy 0 none [notBlank]]
  | .uuid => [.repeat .greedy 8 (some 8) [hexDigit], .code 45,
      .repeat .greedy 4 (some 4) [hexDigit], .code 45, .repeat .greedy 4 (some 4) [hexDigit],
      .code 45, .repeat .greedy 4 (some 4) [hexDigit], .code 45,
      .repeat .greedy 12 (some 12) [hexDigit]]

def compiled (f : TextForm) : Compiled where
  flags := []
  groups := match f with
    | .url => [(3, 5)]
    | .email | .uuid => []
  body := .anchor .lineStart :: (f.terms ++ [.anchor .lineEnd])

theorem read_source (f : TextForm) : Pattern.read f.source.toList = .ok f.compiled := by
  apply eq_of_readsAs
  cases f <;> decide +kernel

/-! ## What the patterns take -/

variable {whole : Array Char} {cs ds : List Char}

/-- Part of an address. -/
def IsAddressPart (cs : List Char) : Prop :=
  cs ≠ [] ∧ ∀ c ∈ cs, Text.isBlank c = false ∧ c ≠ '@'

theorem isEmail_iff : IsEmail cs ↔ ∃ user left right, IsAddressPart user ∧ IsAddressPart left ∧
    IsAddressPart right ∧ cs = user ++ '@' :: (left ++ '.' :: right) := by
  constructor
  · rintro ⟨hblank, user, _, rfl, huser, hleft, hright, left, right, rfl, hl, hr⟩
    simp only [List.mem_append, List.mem_cons, not_or] at hblank hright
    refine ⟨user, left, right, ⟨huser, fun c hc => ⟨hblank c (by simp [hc]), ?_⟩⟩,
      ⟨hl, fun c hc => ⟨hblank c (by simp [hc]), ?_⟩⟩,
      ⟨hr, fun c hc => ⟨hblank c (by simp [hc]), ?_⟩⟩, rfl⟩
    · exact fun heq => hleft (heq ▸ hc)
    · exact fun heq => hright.1 (heq ▸ hc)
    · exact fun heq => hright.2.2 (heq ▸ hc)
  · rintro ⟨user, left, right, ⟨huser, hu⟩, ⟨hleft, hl⟩, ⟨hright, hr⟩, rfl⟩
    refine ⟨?_, user, _, rfl, huser, fun h => (hu _ h).2 rfl, ?_, left, right, rfl, hleft, hright⟩
    · intro c hc
      simp only [List.mem_append, List.mem_cons] at hc
      rcases hc with hc | rfl | hc | rfl | hc
      · exact (hu c hc).1
      · decide +kernel
      · exact (hl c hc).1
      · decide +kernel
      · exact (hr c hc).1
    · simp only [List.mem_append, List.mem_cons, not_or]
      exact ⟨fun h => (hl _ h).2 rfl, by decide, fun h => (hr _ h).2 rfl⟩

theorem code_holds {n : Nat} {d : Char} (h : d.toNat = n) (c : Char) :
    (SetItem.code n).holds [] (mates [] c) c = decide (c = d) := by
  rw [Bool.eq_iff_iff, decide_eq_true_iff]
  simp only [SetItem.holds, mates, List.contains_nil, Bool.not_false, if_true, List.contains_cons,
    Bool.or_false, beq_iff_eq, ← h, Char.toNat_inj]
  exact eq_comm

theorem space_holds (c : Char) :
    (SetItem.category .space false).holds [] (mates [] c) c = Text.isBlank c := by
  simp [SetItem.holds, Category.holds]

theorem takes_addressChar_iff (cs ds : List Char) : addressChar.Takes whole [] cs ds ↔
    ∃ c, cs = c :: ds ∧ (!Text.isBlank c && decide (c ≠ '@')) = true := by
  simp [addressChar, Term.Takes, space_holds, code_holds (n := 64) (d := '@') rfl]

theorem takes_notBlank_iff (cs ds : List Char) : notBlank.Takes whole [] cs ds ↔
    ∃ c, cs = c :: ds ∧ (!Text.isBlank c) = true := by
  simp [notBlank, Term.Takes, space_holds]

theorem takes_hostStart_iff (cs ds : List Char) : hostStart.Takes whole [] cs ds ↔
    ∃ c, cs = c :: ds ∧ Text.isBlank c = false ∧ c ∉ ['/', '$', '.', '?', '#'] := by
  simp [hostStart, Term.Takes, space_holds, code_holds (n := 47) (d := '/') rfl,
    code_holds (n := 36) (d := '$') rfl, code_holds (n := 46) (d := '.') rfl,
    code_holds (n := 63) (d := '?') rfl, code_holds (n := 35) (d := '#') rfl]

theorem takes_hexDigit_iff (cs ds : List Char) : hexDigit.Takes whole [] cs ds ↔
    ∃ c, cs = c :: ds ∧ isHexDigit c = true := by
  simp [hexDigit, Term.Takes, SetItem.holds, mates, isHexDigit, Char.isDigit, Char.le_def,
    UInt32.le_iff_toNat_le, or_assoc]

theorem takes_addressPart_iff :
    (Term.repeat .greedy 1 none [addressChar]).Takes whole [] cs ds ↔
      ∃ w, IsAddressPart w ∧ cs = w ++ ds := by
  rw [takes_repeat_iff takes_addressChar_iff (by simp)]
  simp [IsAddressPart, Nat.one_le_iff_ne_zero, and_assoc]

theorem takes_hexGroup_iff {n : Nat} :
    (Term.repeat .greedy n (some n) [hexDigit]).Takes whole [] cs ds ↔
      ∃ w, (w.length = n ∧ ∀ c ∈ w, isHexDigit c = true) ∧ cs = w ++ ds := by
  rw [takes_repeat_iff takes_hexDigit_iff (by simp)]
  constructor
  · rintro ⟨w, hleast, hmost, hw, hcs⟩
    exact ⟨w, ⟨Nat.le_antisymm (hmost n rfl) hleast, hw⟩, hcs⟩
  · rintro ⟨w, ⟨rfl, hw⟩, hcs⟩
    exact ⟨w, le_rfl, by simp, hw, hcs⟩

theorem bodyTakes_email_iff :
    BodyTakes whole [] (terms .email) cs ds ↔ ∃ w, IsEmail w ∧ cs = w ++ ds := by
  simp only [terms, BodyTakes, takes_addressPart_iff, takes_code_iff (c := '@') (n := 64) rfl,
    takes_code_iff (c := '.') (n := 46) rfl, isEmail_iff]
  constructor
  · rintro ⟨_, ⟨user, hu, rfl⟩, _, rfl, _, ⟨left, hl, rfl⟩, _, rfl, _, ⟨right, hr, rfl⟩, rfl⟩
    exact ⟨_, ⟨user, left, right, hu, hl, hr, rfl⟩, by simp⟩
  · rintro ⟨_, ⟨user, left, right, hu, hl, hr, rfl⟩, rfl⟩
    simp only [List.append_assoc, List.cons_append]
    exact ⟨_, ⟨user, hu, rfl⟩, _, rfl, _, ⟨left, hl, rfl⟩, _, rfl, _, ⟨right, hr, rfl⟩, rfl⟩

theorem isUuid_iff : IsUuid cs ↔ ∃ a b c d e : List Char,
    (a.length = 8 ∧ ∀ x ∈ a, isHexDigit x = true) ∧ (b.length = 4 ∧ ∀ x ∈ b, isHexDigit x = true) ∧
    (c.length = 4 ∧ ∀ x ∈ c, isHexDigit x = true) ∧ (d.length = 4 ∧ ∀ x ∈ d, isHexDigit x = true) ∧
    (e.length = 12 ∧ ∀ x ∈ e, isHexDigit x = true) ∧
    cs = a ++ '-' :: (b ++ '-' :: (c ++ '-' :: (d ++ '-' :: e))) := by
  constructor
  · rintro ⟨groups, hlengths, hdigits, rfl⟩
    rcases groups with _ | ⟨a, _ | ⟨b, _ | ⟨c, _ | ⟨d, _ | ⟨e, _ | ⟨f, rest⟩⟩⟩⟩⟩⟩ <;>
      simp only [List.map_cons, List.map_nil, List.cons.injEq, reduceCtorEq, and_false] at hlengths
    obtain ⟨ha, hb, hc, hd, he, -⟩ := hlengths
    simp only [List.forall_mem_cons] at hdigits
    obtain ⟨da, db, dc, dd, de, -⟩ := hdigits
    exact ⟨a, b, c, d, e, ⟨ha, da⟩, ⟨hb, db⟩, ⟨hc, dc⟩, ⟨hd, dd⟩, ⟨he, de⟩,
      by simp [List.intercalate]⟩
  · rintro ⟨a, b, c, d, e, ⟨ha, da⟩, ⟨hb, db⟩, ⟨hc, dc⟩, ⟨hd, dd⟩, ⟨he, de⟩, rfl⟩
    refine ⟨[a, b, c, d, e], by simp [ha, hb, hc, hd, he], ?_, by simp [List.intercalate]⟩
    simp only [List.forall_mem_cons]
    exact ⟨da, db, dc, dd, de, List.forall_mem_nil _⟩

theorem bodyTakes_uuid_iff :
    BodyTakes whole [] (terms .uuid) cs ds ↔ ∃ w, IsUuid w ∧ cs = w ++ ds := by
  simp only [terms, BodyTakes, takes_hexGroup_iff, takes_code_iff (c := '-') (n := 45) rfl,
    isUuid_iff]
  constructor
  · rintro ⟨_, ⟨a, ha, rfl⟩, _, rfl, _, ⟨b, hb, rfl⟩, _, rfl, _, ⟨c, hc, rfl⟩, _, rfl, _,
      ⟨d, hd, rfl⟩, _, rfl, _, ⟨e, he, rfl⟩, rfl⟩
    exact ⟨_, ⟨a, b, c, d, e, ha, hb, hc, hd, he, rfl⟩, by simp⟩
  · rintro ⟨_, ⟨a, b, c, d, e, ha, hb, hc, hd, he, rfl⟩, rfl⟩
    simp only [List.append_assoc, List.cons_append]
    exact ⟨_, ⟨a, ha, rfl⟩, _, rfl, _, ⟨b, hb, rfl⟩, _, rfl, _, ⟨c, hc, rfl⟩, _, rfl, _,
      ⟨d, hd, rfl⟩, _, rfl, _, ⟨e, he, rfl⟩, rfl⟩

/-- The letter that makes a scheme secure may stand once. -/
theorem takes_secure_iff : (Term.repeat .greedy 0 (some 1) [.code 115]).Takes whole [] cs ds ↔
    cs = ds ∨ cs = 's' :: ds := by
  have hletter : ∀ cs ds, (Term.code 115).Takes whole [] cs ds ↔
      ∃ c, cs = c :: ds ∧ decide (c = 's') = true := by
    intro cs ds
    rw [takes_code_iff (c := 's') (n := 115) rfl]
    simp
  rw [takes_repeat_iff hletter (by simp)]
  constructor
  · rintro ⟨_ | ⟨c, _ | ⟨d, w⟩⟩, -, hmost, hw, rfl⟩
    · exact Or.inl rfl
    · exact Or.inr (by simpa using hw)
    · simpa using hmost 1 rfl
  · rintro (rfl | rfl)
    · exact ⟨[], by simp⟩
    · exact ⟨['s'], by simp⟩

theorem takes_scheme_iff : (Term.group (some 1) [] [] [.branch [[.code 104, .code 116, .code 116,
      .code 112, .repeat .greedy 0 (some 1) [.code 115]], [.code 102, .code 116, .code 112]]]).Takes
        whole [] cs ds ↔
    ∃ scheme ∈ ["http", "https", "ftp"], cs = scheme.toList ++ ds := by
  have hflags : Flag.combine [] [] [] = [] := rfl
  simp only [takes_group, hflags, bodyTakes_singleton, takes_branch, BranchTakes]
  simp only [BodyTakes, takes_secure_iff, takes_code_iff (c := 'h') (n := 104) rfl,
    takes_code_iff (c := 't') (n := 116) rfl, takes_code_iff (c := 'p') (n := 112) rfl,
    takes_code_iff (c := 'f') (n := 102) rfl, or_false, List.exists_mem_cons_iff]
  constructor
  · rintro (⟨_, rfl, _, rfl, _, rfl, _, rfl, _, rfl | rfl, rfl⟩ | ⟨_, rfl, _, rfl, _, rfl, rfl⟩)
    · exact Or.inl rfl
    · exact Or.inr (Or.inl rfl)
    · exact Or.inr (Or.inr (Or.inl rfl))
  · rintro (rfl | rfl | rfl | ⟨_, hnil, -⟩)
    · exact Or.inl ⟨_, rfl, _, rfl, _, rfl, _, rfl, _, Or.inl rfl, rfl⟩
    · exact Or.inl ⟨_, rfl, _, rfl, _, rfl, _, rfl, _, Or.inr rfl, rfl⟩
    · exact Or.inr ⟨_, rfl, _, rfl, _, rfl, rfl⟩
    · cases hnil

theorem bodyTakes_url_iff :
    BodyTakes whole [] (terms .url) cs ds ↔ ∃ w, IsUrl w ∧ cs = w ++ ds := by
  have hmark : "://".toList = [':', '/', '/'] := rfl
  simp only [terms, BodyTakes, takes_scheme_iff, takes_code_iff (c := ':') (n := 58) rfl,
    takes_code_iff (c := '/') (n := 47) rfl, takes_hostStart_iff,
    takes_repeat_iff takes_notBlank_iff (show ∀ m ∈ none, 0 ≤ m by simp), IsUrl, hmark]
  constructor
  · rintro ⟨_, ⟨scheme, hscheme, rfl⟩, _, rfl, _, rfl, _, rfl, _, ⟨c, rfl, hblank, hc⟩, _,
      ⟨rest, -, -, hrest, rfl⟩, rfl⟩
    exact ⟨_, ⟨scheme, hscheme, c, rest, rfl, hblank, hc, by simpa using hrest⟩, by simp⟩
  · rintro ⟨_, ⟨scheme, hscheme, c, rest, rfl, hblank, hc, hrest⟩, rfl⟩
    simp only [List.append_assoc, List.cons_append, List.nil_append]
    exact ⟨_, ⟨scheme, hscheme, rfl⟩, _, rfl, _, rfl, _, rfl, _, ⟨c, rfl, hblank, hc⟩, _,
      ⟨rest, Nat.zero_le _, by simp, by simpa using hrest, rfl⟩, rfl⟩

/-- The pattern of a form takes the texts of that form. -/
theorem bodyTakes_terms_iff (f : TextForm) :
    BodyTakes whole [] f.terms cs ds ↔ ∃ w, f.Describes w ∧ cs = w ++ ds := by
  cases f with
  | email => exact bodyTakes_email_iff
  | url => exact bodyTakes_url_iff
  | uuid => exact bodyTakes_uuid_iff

/-- The pattern of a form is found in the texts of that form, and in those with a line feed behind
them. -/
theorem search_compiled_iff (f : TextForm) (cs : List Char) :
    f.compiled.search cs.toArray = true ↔
      f.Describes cs ∨ ∃ w, f.Describes w ∧ cs = w ++ ['\n'] := by
  have hregular : isRegularBody f.terms = true := by
    cases f <;> rfl
  rw [f.compiled.search_anchored_iff hregular rfl rfl]
  simp only [bodyTakes_terms_iff, List.append_nil, exists_eq_right']

theorem isBlank_eq_false_of_isHexDigit {c : Char} (h : isHexDigit c = true) :
    Text.isBlank c = false := by
  have hcode : 48 ≤ c.toNat ∧ c.toNat ≤ 102 := by
    simp only [isHexDigit, Char.isDigit, Char.le_def, UInt32.le_iff_toNat_le, Bool.or_eq_true,
      Bool.and_eq_true, decide_eq_true_iff, Char.toNat_val, ge_iff_le] at h
    simp at h
    omega
  exact Text.isBlank_eq_false (by omega) (by omega)

/-- No text of a form has a blank in it. -/
theorem Describes.isBlank_eq_false {f : TextForm} (h : f.Describes cs) :
    ∀ c ∈ cs, Text.isBlank c = false := by
  cases f with
  | email => exact h.1
  | url =>
    obtain ⟨scheme, hscheme, c, rest, rfl, hc, -, hrest⟩ := h
    have hfront : ((scheme.toList ++ "://".toList).all fun c => !Text.isBlank c) = true := by
      simp only [List.mem_cons, List.not_mem_nil, or_false] at hscheme
      rcases hscheme with rfl | rfl | rfl <;> decide +kernel
    simp only [List.all_eq_true, Bool.not_eq_true'] at hfront
    rw [List.forall_mem_append, List.forall_mem_cons]
    exact ⟨hfront, hc, hrest⟩
  | uuid =>
    obtain ⟨a, b, c, d, e, ⟨-, ha⟩, ⟨-, hb⟩, ⟨-, hc⟩, ⟨-, hd⟩, ⟨-, he⟩, rfl⟩ := isUuid_iff.1 h
    have hhyphen : Text.isBlank '-' = false := by decide +kernel
    have hgroup : ∀ {cs : List Char}, (∀ x ∈ cs, isHexDigit x = true) →
        ∀ x ∈ cs, Text.isBlank x = false :=
      fun h x hx => isBlank_eq_false_of_isHexDigit (h x hx)
    simp only [List.forall_mem_append, List.forall_mem_cons]
    exact ⟨hgroup ha, hhyphen, hgroup hb, hhyphen, hgroup hc, hhyphen, hgroup hd, hhyphen,
      hgroup he⟩

/-- A text with a line feed behind it has no form. -/
theorem not_describes_append_lineFeed (f : TextForm) (cs : List Char) :
    ¬ f.Describes (cs ++ ['\n']) := by
  intro h
  have hfeed : Text.isBlank '\n' = true := by decide +kernel
  simpa [hfeed] using h.isBlank_eq_false '\n'

end TextForm

namespace Context

theorem invoke_textForm (f : TextForm) :
    empty.invoke (.ofKind .string) f.method.name .none = .ok (.ruled .string f.rule) := by
  cases f <;> rfl

end Context

namespace Schema

theorem reachable_textForm (f : TextForm) : (ruled .string f.rule).Reachable := by
  have hown : f.method ∈ Method.own .string := by
    cases f <;> decide
  have hrule : Context.fixedRule? f.method = some f.rule := by
    cases f <;> rfl
  exact .fixedRule (.ofKind .string) (List.mem_append_right _ hown) hrule .null

/-- Texts of a declared form: every text is answered, and it is returned exactly if it has the form,
unless it is a text of the form with one line feed behind it; these are all the texts with blanks
that are returned. -/
theorem validate_textForm (f : TextForm) (s : String) (all : Bool) :
    ∃ schema, Context.empty.invoke (.ofKind .string) f.method.name .none = .ok schema ∧
      schema.Answers (.text s) all ∧
      (((∃ w, schema.validate (.text s) all = .ok w) ↔ f.Describes s.toList) ↔
        ¬ ∃ t, f.Describes t ∧ s.toList = t ++ ['\n']) ∧
      ((∃ w, schema.validate (.text s) all = .ok w) ∧ (∃ c ∈ s.toList, Text.isBlank c = true) ↔
        ∃ t, f.Describes t ∧ s.toList = t ++ ['\n']) := by
  have hreachable := reachable_textForm f
  have hadmits : f.rule.admits (.text s) = f.compiled.search s.toList.toArray := by
    have hdemands : f.rule.demands = [.matching f.source] := by
      cases f <;> rfl
    simp [Rule.admits, hdemands, Demand.isMetBy, f.read_source]
  have haccepted : (∃ w, (ruled .string f.rule).validate (.text s) all = .ok w) ↔
      f.Describes s.toList ∨ ∃ t, f.Describes t ∧ s.toList = t ++ ['\n'] := by
    rw [exists_validate_ruled_iff hreachable (by decide) rfl rfl rfl, ← f.search_compiled_iff,
      ← hadmits]
    rfl
  refine ⟨_, Context.invoke_textForm f, answers_of_isTextual hreachable (isTextual_ruled _ _),
    ?_, ?_⟩
  · rw [haccepted]
    constructor
    · rintro hlaw ⟨t, ht, hs⟩
      have hform := hlaw.1 (Or.inr ⟨t, ht, hs⟩)
      rw [hs] at hform
      exact f.not_describes_append_lineFeed t hform
    · exact fun hfeed => or_iff_left hfeed
  · rw [haccepted]
    constructor
    · rintro ⟨hform | hfeed, c, hc, hblank⟩
      · rw [hform.isBlank_eq_false c hc] at hblank
        cases hblank
      · exact hfeed
    · rintro ⟨t, ht, hs⟩
      exact ⟨Or.inr ⟨t, ht, hs⟩, '\n', by simp [hs], by decide +kernel⟩

/-- An address with a line feed behind it is let through. -/
theorem validate_email_lineFeed :
    ∃ schema, Context.empty.invoke (.ofKind .string) "email" .none = .ok schema ∧
      (∃ w, schema.validate (.text "a@b.c\n") false = .ok w) ∧
      ¬ TextForm.email.Describes "a@b.c\n".toList :=
  ⟨_, Context.invoke_textForm .email,
    (exists_validate_ruled_iff (reachable_textForm .email) (by decide) rfl rfl rfl).2
      (by decide +kernel),
    TextForm.not_describes_append_lineFeed .email "a@b.c".toList⟩

end Schema

end FieldSchema
