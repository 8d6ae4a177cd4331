import FieldSchema.Proofs.Operations
import FieldSchema.Proofs.Results
import FieldSchema.Proofs.Stability

/-!
# Casting as it is carried out

Where no custom method stands in the place of an operation, casting a record is a run of its fields'
turns (`Replacements.castIn_nothing`, `Replacements.castFields_nothing`). A run can be stopped: by a
whole number of more digits than a text is made of, or by a condition that asks for what cannot be a
key, on a field's turn or within the value of a field (`Schema.StopsAt`). A run that is not stopped
comes to what the schema casts the value to, and any other ends in a misuse
(`Context.IsPlain.runsTo_cast`). Where it is not stopped, validation is that of the schema alone
(`Context.IsPlain.validate_eq`).
-/

namespace FieldSchema

theorem Value.hasTooManyDigits_int_iff {n : Int} :
    (Value.int n).hasTooManyDigits = true ↔ 10 ^ maxDigits ≤ n.natAbs := by
  have hlength := Nat.length_toDigits_le_iff (b := 10) (n := n.natAbs) (k := maxDigits)
    (by decide) (by decide)
  rw [← Nat.not_lt, ← hlength, Nat.not_le, Value.int, hasTooManyDigits, decide_eq_true_iff]

namespace Schema

variable {s : Schema} {record : Entries Value} {v : Value}

/-! ## Siblings that are asked for -/

theorem holdsFor_record_cases (c : Condition) (record : Entries Value) :
    c.holdsFor (.map record) = .ok (c.holds record) ∨
      c.holdsFor (.map record) = .error (.notHashable c.sibling) := by
  rw [Condition.holdsFor]
  cases c.sibling.isKey with
  | true => exact .inl rfl
  | false => exact .inr rfl

theorem exists_selectLast? (record : Entries Value) {conditions : List Condition}
    (h : conditions ≠ []) : ∃ s, selectLast? record conditions = some s := by
  rcases List.eq_nil_or_concat conditions with hnil | ⟨before, c, rfl⟩
  · exact absurd hnil h
  · exact ⟨_, by rw [List.concat_eq_append, selectLast?_append]⟩

mutual

/-- A record selects a schema, or is asked for a sibling that cannot be a key. -/
theorem selectFor_record_cases (record : Entries Value) : ∀ s : Schema,
    s.selectFor (.map record) = .ok (s.select record) ∨
      ∃ sibling, s.selectFor (.map record) = .error (.notHashable sibling)
  | ⟨kind, tests, conditions, isRequired, isNullable, default?, label, fields⟩ => by
    rcases selectLastFor_record_cases record conditions with h | ⟨sibling, h⟩
    · left
      rw [selectFor, select, h]
      cases selectLast? record conditions <;> rfl
    · refine .inr ⟨sibling, ?_⟩
      rw [selectFor, h]
      rfl
  termination_by structural s => s

theorem selectLastFor_record_cases (record : Entries Value) : ∀ conditions : List Condition,
    selectLastFor (.map record) conditions = .ok (selectLast? record conditions) ∨
      ∃ sibling, selectLastFor (.map record) conditions = .error (.notHashable sibling)
  | [] => .inl rfl
  | [⟨sibling, expected, chosen, other⟩] => by
    rw [selectLastFor, selectLast?, selectLast?]
    rcases holdsFor_record_cases ⟨sibling, expected, chosen, other⟩ record with h | h <;> rw [h]
    · simp only [List.isEmpty_nil, if_true]
      split
      · rcases selectFor_record_cases record chosen with h | ⟨sibling, h⟩ <;> rw [h]
        · exact .inl rfl
        · exact .inr ⟨sibling, rfl⟩
      · rcases selectFor_record_cases record other with h | ⟨sibling, h⟩ <;> rw [h]
        · exact .inl rfl
        · exact .inr ⟨sibling, rfl⟩
    · exact .inr ⟨_, rfl⟩
  | ⟨sibling, expected, chosen, other⟩ :: c :: rest => by
    rw [selectLastFor]
    rcases holdsFor_record_cases ⟨sibling, expected, chosen, other⟩ record with h | h <;> rw [h]
    · have hlast : selectLast? record (⟨sibling, expected, chosen, other⟩ :: c :: rest) =
          selectLast? record (c :: rest) := by
        obtain ⟨s, hs⟩ := exists_selectLast? record (List.cons_ne_nil c rest)
        rw [selectLast?, hs]
      simp only [List.isEmpty_cons, Bool.false_eq_true, if_false]
      rw [hlast]
      exact selectLastFor_record_cases record (c :: rest)
    · exact .inr ⟨_, rfl⟩
  termination_by structural conditions => conditions

end

/-! ## What stops a run -/

/-- That casting a value stops at a whole number that is not turned into a text, or at a condition
that asks for what cannot be a key. Each field is cast in its turn, and within the record as the
turns before it have left it. -/
inductive StopsAt : Schema → Value → Prop
  | digits {s : Schema} {v : Value} (hkind : s.kind = .string)
      (hdigits : v.hasTooManyDigits = true) : StopsAt s v
  | sibling {s : Schema} {record : Entries Value} {before after : List (Value × Schema)}
      {e : Value × Schema} {m : Misuse} (hkind : s.kind = .object)
      (hturns : inTurn s.fields = before ++ e :: after)
      (hselect : e.2.selectFor (.map (before.foldl turn record)) = .error m) :
      StopsAt s (.map record)
  | field {s : Schema} {record : Entries Value} {before after : List (Value × Schema)}
      {e : Value × Schema} {v : Value} (hkind : s.kind = .object)
      (hturns : inTurn s.fields = before ++ e :: after)
      (hv : Entries.get? (before.foldl turn record) e.1 = some v)
      (hstops : StopsAt (e.2.select (before.foldl turn record)) v) : StopsAt s (.map record)

/-- That a field's turn stops. -/
def StopsInTurn (record : Entries Value) (e : Value × Schema) : Prop :=
  (∃ m, e.2.selectFor (.map record) = .error m) ∨
    ∃ v, record.get? e.1 = some v ∧ (e.2.select record).StopsAt v

/-- A record's fields stop a run exactly if one of them does in its turn. -/
theorem stopsAt_record_iff (hkind : s.kind = .object) : s.StopsAt (.map record) ↔
    ∃ before e after, inTurn s.fields = before ++ e :: after ∧
      StopsInTurn (before.foldl turn record) e := by
  constructor
  · intro h
    cases h with
    | digits hstring _ => exact absurd (hkind.symm.trans hstring) (by decide)
    | sibling _ hturns hselect => exact ⟨_, _, _, hturns, .inl ⟨_, hselect⟩⟩
    | field _ hturns hv hstops => exact ⟨_, _, _, hturns, .inr ⟨_, hv, hstops⟩⟩
  · rintro ⟨before, e, after, hturns, ⟨m, hselect⟩ | ⟨v, hv, hstops⟩⟩
    · exact .sibling hkind hturns hselect
    · exact .field hkind hturns hv hstops

/-- Besides the fields of a record only digits stop a run. -/
theorem stopsAt_plain_iff (h : s.kind = .object → v.isMap = false) : s.StopsAt v ↔
    s.kind = .string ∧ v.hasTooManyDigits = true := by
  constructor
  · intro hstops
    cases hstops with
    | digits hkind hdigits => exact ⟨hkind, hdigits⟩
    | sibling hkind _ _ => exact absurd (h hkind) (by simp [Value.isMap])
    | field hkind _ _ _ => exact absurd (h hkind) (by simp [Value.isMap])
  · rintro ⟨hkind, hdigits⟩
    exact .digits hkind hdigits

end Schema

/-! ## Runs of turns -/

/-- That an attempt ended in a misuse because of digits or because of a key. -/
def IsStopped {α : Type} (x : Except Fault α) : Prop :=
  x = .error (.misuse .tooManyDigits) ∨ ∃ sibling, x = .error (.misuse (.notHashable sibling))

/-- What a stopped attempt would go on with is not begun. -/
theorem IsStopped.bind {α β : Type} {x : Except Fault α} (h : IsStopped x)
    (f : α → Except Fault β) : IsStopped (x >>= f) := by
  rcases h with rfl | ⟨sibling, rfl⟩
  · exact .inl rfl
  · exact .inr ⟨sibling, rfl⟩

/-- What an attempt comes to where nothing stops it, and that it ends in a misuse where it is
stopped. -/
structure RunsTo {α : Type} (stops : Prop) (x : Except Fault α) (a : α) : Prop where
  returns : ¬ stops → x = .ok a
  stopped : stops → IsStopped x

theorem RunsTo.map {α β : Type} {stops : Prop} {x : Except Fault α} {a : α} (h : RunsTo stops x a)
    (f : α → β) : RunsTo stops (f <$> x) (f a) where
  returns hno := by rw [h.returns hno]; rfl
  stopped hstops := map_eq_pure_bind f x ▸ (h.stopped hstops).bind (pure ∘ f)

namespace Replacements

variable {again : Schema → Value → Except Fault Value} {record : Entries Value} {s : Schema}
  {v : Value} {e : Value × Schema}

open Schema

/-- The turn of one field, as it is carried out. -/
def takeTurn (again : Schema → Value → Except Fault Value) (record : Entries Value)
    (e : Value × Schema) : Except Fault (Entries Value) := do
  let selected ← (e.2.selectFor (.map record)).mapError .misuse
  nothing.fill e.1 selected (nothing.castIn again record e.2) record

/-- Casts a value by a schema, a record by the turns of its fields. -/
def castBy (again : Schema → Value → Except Fault Value) (s : Schema) (v : Value) :
    Except Fault Value :=
  nothing.castOwn s v fun record => (inTurn s.fields).foldlM (takeTurn again) record

theorem castFields_nothing (conditional : Bool) : ∀ (fields : List (Value × Schema))
    (record : Entries Value), nothing.castFields again conditional fields record =
      (fields.filter (·.2.isConditional = conditional)).foldlM (takeTurn again) record
  | [], _ => rfl
  | (name, field) :: fields, record => by
    rw [castFields, List.filter_cons]
    simp only [isConditional_nothing, ofKind_nothing]
    by_cases hc : field.isConditional = conditional
    · simp only [hc, if_true, decide_true, List.foldlM_cons, takeTurn, castFields_nothing,
        bind_assoc]
    · simp only [hc, if_false, decide_false, Bool.false_eq_true]
      exact castFields_nothing conditional fields record

theorem castFields_castFields_nothing (fields : List (Value × Schema)) (record : Entries Value) :
    (do
      let cast ← nothing.castFields again false fields record
      nothing.castFields again true fields cast) =
    (inTurn fields).foldlM (takeTurn again) record := by
  simp only [castFields_nothing, inTurn, List.foldlM_append]
  simp

mutual

theorem castIn_nothing : ∀ s : Schema,
    nothing.castIn again record s v = castBy again (s.select record) v
  | ⟨kind, tests, conditions, isRequired, isNullable, default?, label, fields⟩ => by
    rw [castIn, castLast?_nothing conditions, Schema.select]
    cases selectLast? record conditions with
    | some s => rfl
    | none => simp only [Option.map_none, castFields_castFields_nothing, Option.getD_none, castBy]
  termination_by structural s => s

theorem castLast?_nothing : ∀ conditions : List Condition,
    nothing.castLast? again record conditions v =
      (selectLast? record conditions).map (castBy again · v)
  | [] => rfl
  | ⟨sibling, expected, chosen, other⟩ :: rest => by
    rw [castLast?, selectLast?, castLast?_nothing rest, castIn_nothing chosen, castIn_nothing other]
    cases selectLast? record rest with
    | some s => rfl
    | none =>
      simp only [Option.map_none, Option.map_some]
      split <;> rfl
  termination_by structural conditions => conditions

end

theorem cast_eq_castBy (s : Schema) (v : Value) :
    nothing.cast s v = castBy (nothing.castAtDepth 499) s v := by
  have hdepth : Context.maxDepth = 499 + 1 := rfl
  rw [Replacements.cast, hdepth, castAtDepth, castBy]
  simp only [castFields_castFields_nothing]

/-! ## What runs come to -/

theorem runsTo_fill {castTo : Value → Except Fault Value} {stops : Value → Prop}
    (hcast : ∀ v, RunsTo (stops v) (castTo v) (s.cast v)) (name : Value)
    (record : Entries Value) :
    RunsTo (∃ v, record.get? name = some v ∧ stops v) (nothing.fill name s castTo record)
      (match s.fill (record.get? name) with
        | some v => record.put name v
        | none => record) := by
  unfold Replacements.fill
  cases record.get? name with
  | some v =>
    have hmap := (hcast v).map (record.put name)
    exact ⟨fun hno => hmap.returns fun hstops => hno ⟨v, rfl, hstops⟩,
      fun ⟨_, hw, hstops⟩ => hmap.stopped (Option.some.inj hw ▸ hstops)⟩
  | none =>
    refine ⟨fun _ => ?_, fun ⟨_, h, _⟩ => by cases h⟩
    simp only [hasDefault_nothing, Schema.hasDefault, getDefault_nothing, absent, Schema.fill]
    cases s.default? <;> rfl

/-- A turn is stopped if the field cannot be settled or its value cannot be cast. -/
theorem runsTo_takeTurn (hcast : ∀ v, RunsTo ((e.2.select record).StopsAt v)
      (castBy again (e.2.select record) v) ((e.2.select record).cast v)) :
    RunsTo (StopsInTurn record e) (takeTurn again record e) (turn record e) := by
  rw [takeTurn]
  rcases selectFor_record_cases record e.2 with h | ⟨sibling, h⟩
  · have hcastIn : ∀ v, RunsTo ((e.2.select record).StopsAt v)
        (nothing.castIn again record e.2 v) ((e.2.select record).cast v) := fun v => by
      rw [castIn_nothing]
      exact hcast v
    have hfill := runsTo_fill hcastIn e.1 record
    rw [StopsInTurn, h]
    refine ⟨fun hno => hfill.returns fun hstops => hno (.inr hstops), fun hstops => ?_⟩
    exact hfill.stopped (hstops.resolve_left nofun)
  · exact ⟨fun hno => absurd (.inl ⟨_, h⟩) hno, fun _ => .inr ⟨sibling, by rw [h]; rfl⟩⟩

/-- A run is stopped if one of its turns is. -/
theorem runsTo_turns : ∀ (turns : List (Value × Schema)) (record : Entries Value),
    (∀ e ∈ turns, ∀ record, RunsTo (StopsInTurn record e) (takeTurn again record e)
      (turn record e)) →
    RunsTo (∃ before e after, turns = before ++ e :: after ∧
        StopsInTurn (before.foldl turn record) e)
      (turns.foldlM (takeTurn again) record) (turns.foldl turn record)
  | [], _, _ => ⟨fun _ => rfl, fun ⟨_, _, _, h, _⟩ => by simp at h⟩
  | e :: turns, record, hturns => by
    have hhead := hturns e (.head _) record
    have hrest := runsTo_turns turns (turn record e) fun e' he' => hturns e' (.tail _ he')
    rw [List.foldlM_cons]
    by_cases hstops : StopsInTurn record e
    · exact ⟨fun hno => absurd ⟨[], e, turns, rfl, hstops⟩ hno, fun _ =>
        (hhead.stopped hstops).bind _⟩
    · rw [hhead.returns hstops]
      refine ⟨fun hno => hrest.returns ?_, ?_⟩
      · rintro ⟨before, e', after, rfl, hlater⟩
        exact hno ⟨e :: before, e', after, rfl, hlater⟩
      · rintro ⟨before, e', after, hsplit, hlater⟩
        refine hrest.stopped ?_
        cases before with
        | nil =>
          obtain ⟨rfl, -⟩ := List.cons.inj hsplit
          exact absurd hlater hstops
        | cons e'' before =>
          obtain ⟨rfl, rfl⟩ := List.cons.inj hsplit
          exact ⟨before, e', after, rfl, hlater⟩

theorem castBy_plain (hnull : v.isNull = false) (hplain : s.kind = .object → v.isMap = false) :
    castBy again s v = (s.kind.convert v).mapError .misuse := by
  unfold castBy castOwn
  rw [ofKind_nothing]
  cases v with
  | null => cases hnull
  | map record => exact if_neg fun hkind => absurd (hplain hkind) (by simp [Value.isMap])
  | _ => rfl

/-- Casting is stopped, or comes to what the schema casts the value to. -/
theorem runsTo_castBy (again : Schema → Value → Except Fault Value) (s : Schema) :
    ∀ v, RunsTo (s.StopsAt v) (castBy again s v) (s.cast v) := by
  induction s using induct_select with
  | step s ih =>
    intro v
    rcases cast_cases s v with rfl | ⟨record, rfl, hkind⟩ | ⟨hnull, hplain⟩
    · have hdigits : ¬ s.StopsAt .null := by
        rw [stopsAt_plain_iff fun _ => rfl]
        exact fun h => by simp [Value.hasTooManyDigits] at h
      exact ⟨fun _ => getDefault_nothing s, fun h => absurd h hdigits⟩
    · have hrun := runsTo_turns (inTurn s.fields) record fun e he record =>
        runsTo_takeTurn (ih e (mem_inTurn.1 he) record)
      have hcast : castBy again s (.map record) =
          .map <$> (inTurn s.fields).foldlM (takeTurn again) record := if_pos hkind
      rw [stopsAt_record_iff hkind, hcast, cast_record hkind]
      exact hrun.map Value.map
    · rw [stopsAt_plain_iff hplain, castBy_plain hnull hplain, cast_plain hnull hplain,
        Kind.convert]
      by_cases h : s.kind = .string ∧ v.hasTooManyDigits = true
      · exact ⟨fun hno => absurd h hno, fun _ => .inl (by simp [h]; rfl)⟩
      · exact ⟨fun _ => by rw [if_neg (by simpa using h)]; rfl, fun hstops => absurd hstops h⟩

theorem runsTo_cast (s : Schema) (v : Value) :
    RunsTo (s.StopsAt v) (nothing.cast s v) (s.cast v) := by
  rw [cast_eq_castBy]
  exact runsTo_castBy _ s v

/-! ## Validation -/

theorem validate_nothing (h : ¬ s.StopsAt v) (all? : Option Bool) :
    nothing.validate s v all? = s.validate v (all?.getD false) := by
  simp only [Replacements.validate, ofKind_nothing, (runsTo_cast s v).returns h, document_nothing]
  rfl

/-- A validation is stopped where casting is. -/
theorem isStopped_validate_nothing (h : s.StopsAt v) (all? : Option Bool) :
    IsStopped (nothing.validate s v all?) := by
  simp only [Replacements.validate, ofKind_nothing]
  exact ((runsTo_cast s v).stopped h).bind _

theorem isValid_nothing (h : ¬ s.StopsAt v) (all? : Option Bool) :
    nothing.isValid s v all? = .bool <$> s.isValid v (all?.getD false) := by
  simp only [Replacements.isValid, Schema.isValid, ofKind_nothing, validate_nothing h]
  cases s.validate v (all?.getD false) with
  | ok w => rfl
  | error fault => cases fault <;> rfl

end Replacements

namespace Context.IsPlain

variable {context : Context} {s : Schema} {v : Value} (hplain : context.IsPlain)

include hplain

theorem runsTo_cast (s : Schema) (v : Value) :
    RunsTo (s.StopsAt v) (context.cast s v) (s.cast v) := by
  rw [Context.cast, replacements_eq_nothing hplain.registry]
  exact Replacements.runsTo_cast s v

theorem validate_eq (h : ¬ s.StopsAt v) (all? : Option Bool) :
    context.validate s v all? = s.validate v (all?.getD false) := by
  rw [Context.validate, replacements_eq_nothing hplain.registry, Replacements.validate_nothing h]

theorem isStopped_validate (h : s.StopsAt v) (all? : Option Bool) :
    IsStopped (context.validate s v all?) := by
  rw [Context.validate, replacements_eq_nothing hplain.registry]
  exact Replacements.isStopped_validate_nothing h all?

theorem isValid_eq (h : ¬ s.StopsAt v) (all? : Option Bool) :
    context.isValid s v all? = .bool <$> s.isValid v (all?.getD false) := by
  rw [Context.isValid, replacements_eq_nothing hplain.registry, Replacements.isValid_nothing h]

end Context.IsPlain

end FieldSchema
