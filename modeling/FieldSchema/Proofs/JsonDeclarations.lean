import FieldSchema.Loading
import FieldSchema.Proofs.FieldByField
import FieldSchema.Proofs.NodeValues

/-!
# Declarations written in JSON

A record of JSON is a declaration text. It declares what it says in JSON exactly if it has a form in
which the two notations agree (`readDeclarations_iff`).
-/

namespace FieldSchema

open Json (Gap Item Member Tree Piece)
open Markup (membersRead treeRead isSimpleKey isPlainNumber isSteady endsDocument isAllowed)

/-- The entries that a record declares: those under a lone key for fields, or its own. -/
def unwrapped (entries : Entries Value) : Entries Value :=
  match entries with
  | [(key, .map inner)] =>
    if fieldsKey.same key && !Entries.has inner typeKey then inner else [(key, .map inner)]
  | entries => entries

theorem unwrapped_cons_cons (e e' : Value × Value) (entries : Entries Value) :
    unwrapped (e :: e' :: entries) = e :: e' :: entries := by
  obtain ⟨key, v⟩ := e
  cases v <;> rfl

theorem declarationsOf_map (entries : Entries Value) :
    declarationsOf (.map entries) = .ok (unwrapped entries) := by
  rcases entries with _ | ⟨⟨key, v⟩, _ | ⟨e, entries⟩⟩
  · rfl
  · cases v
    case map inner =>
      by_cases hlone : (fieldsKey.same key && !Entries.has inner typeKey) = true
      · simp only [declarationsOf, unwrapFields, unwrapped, if_pos hlone]
      · simp only [declarationsOf, unwrapFields, unwrapped, if_neg hlone]
    all_goals rfl
  · cases v <;> rfl

theorem unwrapped_of_isMap_eq_false {k v : Value} (h : v.isMap = false) :
    unwrapped [(k, v)] = [(k, v)] := by
  cases v <;> first | rfl | cases h

/-- Records with the same keys, at the top and in a lone record below it, are unwrapped alike. -/
theorem unwrapped_inj {k : Value} {inner inner' : Entries Value}
    (hkeys : inner.map (·.1) = inner'.map (·.1))
    (h : unwrapped [(k, .map inner)] = unwrapped [(k, .map inner')]) : inner = inner' := by
  have hhas : Entries.has inner typeKey = Entries.has inner' typeKey := by
    rw [Entries.has_eq_any, Entries.has_eq_any, hkeys]
  simp only [unwrapped, hhas] at h
  split at h
  · exact h
  · simpa using h

section Records

variable {members : List (Member Tree)}

theorem isMap_number (n : Json.Numeral) :
    (Markup.numberRead n).isMap = false ∧ n.value.isMap = false := by
  have hvalue : n.value.isMap = false := by
    unfold Json.Numeral.value
    split <;> rfl
  refine ⟨?_, hvalue⟩
  rw [Markup.numberRead]
  split
  · exact hvalue
  · rfl

/-- What a record declares tells what it is read as. -/
theorem membersRead_of_unwrapped {blank : Gap}
    (h : (Tree.record blank members).isDistinct = true)
    (hsimple : Json.allMembers isSimpleKey (fun _ => true) (fun _ => true) members = true)
    (heq : unwrapped (membersRead members) = unwrapped (Json.memberValues members)) :
    membersRead members = Json.memberValues members := by
  match members, h, hsimple, heq with
  | [], _, _, _ => rfl
  | ⟨key, ⟨_, t, _⟩⟩ :: m :: more, _, _, heq =>
    obtain ⟨key', _, t', _⟩ := m
    simpa only [membersRead, Json.memberValues, unwrapped_cons_cons] using heq
  | [⟨key, ⟨_, t, _⟩⟩], h, hsimple, heq =>
    simp only [Json.allMembers, Bool.and_eq_true] at hsimple
    simp only [membersRead, Json.memberValues, Markup.textRead_of_isSimpleKey hsimple.1.1] at heq ⊢
    cases t with
    | word w => rfl
    | number n =>
      obtain ⟨hread, hvalue⟩ := isMap_number n
      rwa [treeRead, Tree.value, unwrapped_of_isMap_eq_false hread,
        unwrapped_of_isMap_eq_false hvalue] at heq
    | text ps => exact heq
    | list blank items => exact heq
    | record blank inner =>
      simp only [Tree.isDistinct, Json.membersDistinct, Bool.and_true, Bool.and_eq_true,
        decide_eq_true_eq] at h
      rw [Markup.treeRead_record h.2.1 hsimple.1.2, Markup.value_record h.2.1] at heq ⊢
      rw [unwrapped_inj _ heq]
      rw [Markup.keys_membersRead inner hsimple.1.2, Markup.keys_memberValues]

variable (before after blank : Gap) {text : List Char}

/-- A record of JSON declares what its parts are read as, or is refused. -/
theorem readDeclarations_written
    (htext : text = before.chars ++ ((Tree.record blank members).written ++ after.chars))
    (hshort : (Tree.record blank members).isShort = true)
    (hdistinct : (Tree.record blank members).isDistinct = true) :
    if text.all isAllowed = true ∧ '\t' ∉ text ∧ (Tree.record blank members).all isSimpleKey
        (fun _ => true) (fun ps => !endsDocument ps) = true then
      readDeclarations text = .ok (unwrapped (membersRead members))
    else ∃ f, readDeclarations text = .error f := by
  simp only [Tree.isDistinct, Bool.and_eq_true, decide_eq_true_eq] at hdistinct
  have hread := Markup.read_written before after blank members htext hshort
  split at hread
  · rename_i hgood
    have hforms := hgood.2.2
    rw [Tree.all_keys, Bool.and_eq_true] at hforms
    rw [if_pos hgood, readDeclarations, hread,
      Markup.treeRead_record hdistinct.1 hforms.1 blank]
    exact declarationsOf_map _
  · rename_i hbad
    obtain ⟨f, hf⟩ := hread
    rw [if_neg hbad]
    exact ⟨.markup f, by rw [readDeclarations, hf]; rfl⟩

/-- A record of JSON with distinct keys declares what it says in JSON exactly if all its characters
are allowed in declaration texts, no tab stands between its parts, all its keys are short and on one
line, all its numbers have plain forms, and in its texts folding keeps the blanks and no mark of a
document stands behind a break. -/
theorem readDeclarations_iff
    (htext : text = before.chars ++ ((Tree.record blank members).written ++ after.chars))
    (hshort : (Tree.record blank members).isShort = true)
    (hdistinct : (Tree.record blank members).isDistinct = true) :
    ∃ v entries, Json.read text = .ok v ∧ declarationsOf v = .ok entries ∧
      (readDeclarations text = .ok entries ↔ text.all isAllowed = true ∧ '\t' ∉ text ∧
        (Tree.record blank members).all isSimpleKey isPlainNumber
          (fun ps => isSteady [] ps && !endsDocument ps) = true) := by
  have hkeys := hdistinct
  simp only [Tree.isDistinct, Bool.and_eq_true, decide_eq_true_eq] at hkeys
  have hvalue := Markup.value_record hkeys.1 blank
  refine ⟨_, _, htext ▸ Tree.read_written _ hshort before after,
    hvalue ▸ declarationsOf_map (Json.memberValues members), ?_⟩
  have hall : (Tree.record blank members).all isSimpleKey isPlainNumber
      (fun ps => isSteady [] ps && !endsDocument ps) =
        ((Tree.record blank members).all (fun _ => true) isPlainNumber (isSteady []) &&
          (Tree.record blank members).all isSimpleKey (fun _ => true)
            fun ps => !endsDocument ps) := by
    rw [← Tree.all_and]
    simp
  rw [hall, Bool.and_eq_true]
  -- where the forms fail the text is refused, or read and found to be another record
  have hdeclared := readDeclarations_written before after blank htext hshort hdistinct
  split at hdeclared
  · rename_i hgood
    have hforms := hgood.2.2
    rw [Tree.all_keys, Bool.and_eq_true] at hforms
    have hsame := Markup.treeRead_eq_iff _ hdistinct hforms.1
    rw [Markup.treeRead_record hkeys.1 hforms.1, hvalue, Value.map.injEq] at hsame
    rw [hdeclared, Except.ok.injEq, ← hsame]
    constructor
    · intro heq
      exact ⟨hgood.1, hgood.2.1, membersRead_of_unwrapped hdistinct hforms.1 heq, hgood.2.2⟩
    · rintro ⟨-, -, heq, -⟩
      rw [heq]
  · rename_i hbad
    obtain ⟨f, hf⟩ := hdeclared
    rw [hf]
    constructor
    · nofun
    · rintro ⟨hallowed, htab, -, hforms⟩
      exact absurd ⟨hallowed, htab, hforms⟩ hbad

end Records

section Cases

def noGap : Gap := ⟨[], by simp⟩

def spaceGap : Gap := ⟨[' '], by simp [Json.isSpace]⟩

/-- The member `"a": 1.5`. -/
def halfMember : Member Tree :=
  ⟨⟨noGap, [.raw 'a' rfl], noGap⟩, ⟨spaceGap, .number
    ⟨false, ⟨['1'], by simp, by simp⟩, by simp, some ⟨['5'], by simp, by simp⟩, none⟩, noGap⟩⟩

theorem readDeclarations_half : ∃ v entries, Json.read "\x7b\"a\": 1.5\x7d".toList = .ok v ∧
    declarationsOf v = .ok entries ∧
    readDeclarations "\x7b\"a\": 1.5\x7d".toList = .ok entries := by
  have htext : "\x7b\"a\": 1.5\x7d".toList =
      noGap.chars ++ ((Tree.record noGap [halfMember]).written ++ noGap.chars) := rfl
  obtain ⟨v, entries, hv, hentries, hiff⟩ := readDeclarations_iff noGap noGap noGap htext rfl rfl
  exact ⟨v, entries, hv, hentries, hiff.2 ⟨rfl, by decide, rfl⟩⟩

/-- The member `"a": 1e5`. -/
def exponentMember : Member Tree :=
  ⟨⟨noGap, [.raw 'a' rfl], noGap⟩, ⟨spaceGap, .number ⟨false, ⟨['1'], by simp, by simp⟩, by simp,
    none, some ⟨false, .absent, ⟨['5'], by simp, by simp⟩⟩⟩, noGap⟩⟩

/-- A number with an exponent and no point is a number in JSON, and a text in a declaration text. -/
theorem readDeclarations_exponent : ∃ v, Json.read "\x7b\"a\": 1e5\x7d".toList = .ok v ∧
    declarationsOf v = .ok [(.text "a", .float (.ofDecimal false 1 5))] ∧
    readDeclarations "\x7b\"a\": 1e5\x7d".toList = .ok [(.text "a", .text "1e5")] := by
  refine ⟨_, (Tree.record noGap [exponentMember]).read_written rfl noGap noGap, rfl, ?_⟩
  have hread := Markup.read_written noGap noGap noGap [exponentMember]
    (rfl : "\x7b\"a\": 1e5\x7d".toList = _) rfl
  rw [if_pos ⟨rfl, by decide, rfl⟩] at hread
  rw [readDeclarations, hread]
  rfl

end Cases

end FieldSchema
