import FieldSchema.Proofs.FieldOrder
import FieldSchema.Proofs.JsonDeclarations

/-!
# Declarations under a key for fields

A text may hold the declarations under a lone key for fields. What is unwrapped has no type under
that key, so as a field it would be refused (`Context.recordOf_of_unwrapped_ne`). Declarations that
build are declared by the text that holds them and, if none of them is named like the key of a type,
by the text that holds them under the key for fields (`Context.readDeclarations_of_recordOf`).
-/

namespace FieldSchema

/-- Only a lone record under the key for fields is unwrapped, and only if it has no type. -/
theorem exists_of_unwrapped_ne {entries : Entries Value} (h : unwrapped entries ≠ entries) :
    ∃ key inner, entries = [(key, .map inner)] ∧ Entries.has inner typeKey = false := by
  unfold unwrapped at h
  split at h
  · rename_i key inner
    split_ifs at h with hlone
    · rw [Bool.and_eq_true, Bool.not_eq_true'] at hlone
      exact ⟨key, inner, rfl, hlone.2⟩
    · exact absurd rfl h
  · exact absurd rfl h

namespace Context

variable {context : Context} {entries : Entries Value} {s : Schema}

theorem schemaOf_of_untyped (h : Entries.has entries typeKey = false) :
    context.schemaOf (.map entries) = .refuse (.unknownType (.text "undefined")) := by
  have hnone : Entries.get? entries typeKey = none := by
    simpa [Entries.has] using h
  rw [schemaOf, hnone]
  rfl

/-- What is unwrapped is no field: it is refused for want of a type. -/
theorem recordOf_of_unwrapped_ne (h : unwrapped entries ≠ entries) :
    (context.recordOf (.map entries)).result =
      .error (.declaration (.unknownType (.text "undefined"))) := by
  obtain ⟨key, inner, rfl, htype⟩ := exists_of_unwrapped_ne h
  rw [recordOf, notedFields, schemaOf_of_untyped htype]
  rfl

theorem unwrapped_of_recordOf (h : (context.recordOf (.map entries)).result = .ok s) :
    unwrapped entries = entries := by
  by_contra hne
  cases h.symm.trans (recordOf_of_unwrapped_ne hne)

theorem load_of_readDeclarations {text : List Char}
    (h : readDeclarations text = .ok entries) :
    context.load text = context.recordOf (.map entries) := by
  rw [load, h]

/-- Declarations that build are what a text declares that holds them, even if they are of a lone
field with the name of the key for fields. A text that holds them under that key declares them as
well, if none of them is named like the key of a type, and unwraps nothing further. Either text
builds the schema that they build. -/
theorem readDeclarations_of_recordOf (h : (context.recordOf (.map entries)).result = .ok s)
    (text : List Char) :
    (Markup.read text = .ok (.map entries) →
      readDeclarations text = .ok entries ∧ (context.load text).result = .ok s) ∧
    (Entries.has entries typeKey = false →
      Markup.read text = .ok (.map [(fieldsKey, .map entries)]) →
      readDeclarations text = .ok entries ∧ (context.load text).result = .ok s) := by
  have hload : readDeclarations text = .ok entries →
      readDeclarations text = .ok entries ∧ (context.load text).result = .ok s :=
    fun hread => ⟨hread, by rw [load_of_readDeclarations hread, h]⟩
  have hdeclared {v : Value} (hread : Markup.read text = .ok v) :
      readDeclarations text = declarationsOf v := by
    rw [readDeclarations, hread]
    rfl
  constructor
  · intro hread
    refine hload ?_
    rw [hdeclared hread, declarationsOf_map, unwrapped_of_recordOf h]
  · intro htype hread
    have hlone : (fieldsKey.same fieldsKey && !Entries.has entries typeKey) = true := by
      rw [htype]
      decide
    refine hload ?_
    rw [hdeclared hread, declarationsOf_map, unwrapped, if_pos hlone]

/-! ## A field with the name of the key -/

open Json (Member Tree)

/-- The member `"type": "string"`. -/
def typeMember : Member Tree :=
  ⟨⟨noGap, [.raw 't' rfl, .raw 'y' rfl, .raw 'p' rfl, .raw 'e' rfl], noGap⟩,
    ⟨spaceGap, .text [.raw 's' rfl, .raw 't' rfl, .raw 'r' rfl, .raw 'i' rfl, .raw 'n' rfl,
      .raw 'g' rfl], noGap⟩⟩

/-- A member with the key `"fields"` that holds another member. -/
def fieldsMember (member : Member Tree) : Member Tree :=
  ⟨⟨noGap, [.raw 'f' rfl, .raw 'i' rfl, .raw 'e' rfl, .raw 'l' rfl, .raw 'd' rfl, .raw 's' rfl],
    noGap⟩, ⟨spaceGap, .record noGap [member], noGap⟩⟩

/-- A lone field with the name of the key for fields. -/
def textFields : Entries Value := [(fieldsKey, .map [(typeKey, .text "string")])]

theorem readDeclarations_textFields :
    readDeclarations "\x7b\"fields\": \x7b\"type\": \"string\"\x7d\x7d".toList = .ok textFields ∧
      readDeclarations
        "\x7b\"fields\": \x7b\"fields\": \x7b\"type\": \"string\"\x7d\x7d\x7d".toList =
          .ok textFields := by
  have hlone := Markup.read_written noGap noGap noGap [fieldsMember typeMember]
    (rfl : "\x7b\"fields\": \x7b\"type\": \"string\"\x7d\x7d".toList = _) rfl
  have hwrapped := Markup.read_written noGap noGap noGap [fieldsMember (fieldsMember typeMember)]
    (rfl : "\x7b\"fields\": \x7b\"fields\": \x7b\"type\": \"string\"\x7d\x7d\x7d".toList = _)
    rfl
  rw [if_pos ⟨rfl, by decide, rfl⟩] at hlone hwrapped
  have hbuilt : ∃ s, (empty.recordOf (.map textFields)).result = .ok s := ⟨_, rfl⟩
  obtain ⟨s, hbuilt⟩ := hbuilt
  exact ⟨((readDeclarations_of_recordOf hbuilt _).1 hlone).1,
    ((readDeclarations_of_recordOf hbuilt _).2 rfl hwrapped).1⟩

end Context

end FieldSchema
