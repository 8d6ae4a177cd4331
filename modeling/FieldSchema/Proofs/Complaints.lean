import FieldSchema.Document.Findings
import FieldSchema.Proofs.Meaning
import FieldSchema.Schema.Document

/-!
# What a schema complains of

`Schema.complaints` lists what is wrong with a value in the order in which it is reported: that it
is not of the kind, what its tests demand in vain, and for a record what its conditions, its fields
and the absence of fields come to. Nothing is complained of exactly where the schema admits the
value (`Schema.complaints_eq_nil_iff`). Each complaint is reported as a failure, unless the test's
message or the field's name is no text (`Complaint.failure`).
-/

namespace FieldSchema

/-- One thing that is wrong with a value, at the end of a path. -/
inductive Complaint where
  | wrongKind (path : List Value) (kind : Kind) (isNullable : Bool) (v : Value)
  | unmet (path : List Value) (test : Test) (demand : Demand) (v : Value)
  | missing (path : List Value) (name : Value)

namespace Complaint

/-- The name of the place at the end of a path. -/
def fieldName (path : List Value) : String :=
  if Violation.pathText path = "" then Failure.root else Violation.pathText path

/-- The types that a schema of a kind admits, in a report. -/
def typesText (kind : Kind) (isNullable : Bool) : String :=
  if isNullable then kind.name ++ " | null" else kind.name

/-- A message with the field put in its place, if it is a text. -/
def filledMessage (field : String) : Value → Except Misuse String
  | .text s => .ok (String.ofList (Violation.fillPath field.toList s.toList))
  | .date _ | .dateTime _ => .error (.notInteger (.text ""))
  | message => .error (.noAttribute message "replace")

/-- The failure that a complaint is reported as. -/
def failure : Complaint → Except Misuse Failure
  | .wrongKind path kind isNullable v =>
    .ok ⟨fieldName path, .text "type",
      fieldName path ++ " must be a \x60" ++ typesText kind isNullable ++ "\x60 type", v,
      .text (typesText kind isNullable)⟩
  | .unmet path test demand v =>
    (filledMessage (fieldName path) test.message).map fun message =>
      ⟨fieldName path, .text test.name, message, v, demand.argument⟩
  | .missing path name => (Violation.propertyPath path name).map Failure.missing

/-- The complaints that are reported: all of them or just the first. -/
def wanted (all : Bool) (complaints : List Complaint) : List Complaint :=
  if all then complaints else complaints.take 1

theorem wanted_eq_nil_iff {all : Bool} {complaints : List Complaint} :
    wanted all complaints = [] ↔ complaints = [] := by
  cases all <;> simp [wanted]

theorem mem_of_mem_wanted {all : Bool} {complaints : List Complaint} {c : Complaint}
    (h : c ∈ wanted all complaints) : c ∈ complaints := by
  unfold wanted at h
  split at h
  · exact h
  · exact List.mem_of_mem_take h

end Complaint

/-! ## Complaints of a schema -/

/-- The complaint that a value is not of a kind. -/
def kindComplaints (path : List Value) (v : Value) (kind : Kind) (isNullable : Bool) :
    List Complaint :=
  if kind.describes v || isNullable && v.isNull then [] else [.wrongKind path kind isNullable v]

/-- The complaints of a test, one for each demand that is not met. -/
def Test.complaints (path : List Value) (v : Value) (t : Test) : List Complaint :=
  (t.rule.demands.filter fun d => !d.isMetBy v).map fun d => .unmet path t d v

/-- The complaints of absent fields. Of several that are shown alike the first is meant. -/
def missingComplaints (path : List Value) (record : Entries Value) (names : List Value) :
    List Complaint :=
  let absent := names.filter fun name => !record.has name
  absent.map fun name => .missing path ((absent.find? (name.shown = ·.shown)).getD name)

/-- The complaints of one field's document: of its value if it is present, and of its absence. -/
def branchComplaints (path : List Value) (record : Entries Value) (name : Value)
    (isRequired : Bool) (inner : Value → List Complaint) (nested : List Complaint) :
    List Complaint :=
  ((record.get? name).map inner).getD [] ++
    (if isRequired then missingComplaints path record [name] else []) ++ nested

namespace Schema

mutual

/-- What a schema complains of in a value. -/
def complaints (path : List Value) (v : Value) : Schema → List Complaint
  | ⟨kind, tests, _, _, isNullable, _, _, fields⟩ =>
    kindComplaints path v kind isNullable ++ tests.flatMap (·.complaints path v) ++
      match v with
      | .map record =>
        let choices := choiceComplaints path record fields
        (if !tests.isEmpty then choices else []) ++ fieldComplaints path record fields ++
          missingComplaints path record (requiredNames fields) ++
          if !tests.isEmpty then [] else choices
      | _ => []
  termination_by structural s => s

/-- The complaints of the fields that are present. -/
def fieldComplaints (path : List Value) (record : Entries Value) :
    List (Value × Schema) → List Complaint
  | [] => []
  | (name, field) :: fields =>
    ((record.get? name).map fun v => complaints (path ++ [name]) v field).getD [] ++
      fieldComplaints path record fields
  termination_by structural fields => fields

/-- The complaints of the conditions of fields. -/
def choiceComplaints (path : List Value) (record : Entries Value) :
    List (Value × Schema) → List Complaint
  | [] => []
  | (name, field) :: fields =>
    ownChoiceComplaints path record name field ++ choiceComplaints path record fields
  termination_by structural fields => fields

/-- The complaints of the conditions of one field. -/
def ownChoiceComplaints (path : List Value) (record : Entries Value) (name : Value) :
    Schema → List Complaint
  | ⟨_, _, conditions, _, _, _, _, _⟩ => conditionComplaints path record name conditions
  termination_by structural s => s

/-- The complaints of conditions on a field. -/
def conditionComplaints (path : List Value) (record : Entries Value) (name : Value) :
    List Condition → List Complaint
  | [] => []
  | ⟨sibling, expected, chosen, other⟩ :: rest =>
    (if Condition.isMetIn ⟨sibling, expected, chosen, other⟩ record then
      branchComplaints path record name chosen.isRequired
        (fun v => complaints (path ++ [name]) v chosen)
        (ownChoiceComplaints path record name chosen)
    else
      branchComplaints path record name other.isRequired
        (fun v => complaints (path ++ [name]) v other)
        (ownChoiceComplaints path record name other)) ++
      conditionComplaints path record name rest
  termination_by structural conditions => conditions

end

section Equations

variable {path : List Value} {record : Entries Value} {name v : Value} {s : Schema}

theorem fieldComplaints_eq (fields : List (Value × Schema)) :
    fieldComplaints path record fields = fields.flatMap fun e =>
      ((record.get? e.1).map fun v => e.2.complaints (path ++ [e.1]) v).getD [] := by
  induction fields with
  | nil => rfl
  | cons e fields ih => simp [fieldComplaints, ih]

/-- What a branch complains of as the schema of a field. -/
def complaintsIn (path : List Value) (record : Entries Value) (name : Value) (s : Schema) :
    List Complaint :=
  branchComplaints path record name s.isRequired (fun v => s.complaints (path ++ [name]) v)
    (s.ownChoiceComplaints path record name)

theorem conditionComplaints_eq (conditions : List Condition) :
    conditionComplaints path record name conditions = conditions.flatMap fun c =>
      (c.branch record).complaintsIn path record name := by
  induction conditions with
  | nil => rfl
  | cons c conditions ih =>
    obtain ⟨sibling, expected, chosen, other⟩ := c
    simp only [conditionComplaints, ih, List.flatMap_cons, Condition.branch]
    split <;> rfl

theorem ownChoiceComplaints_eq : s.ownChoiceComplaints path record name =
    s.conditions.flatMap fun c => (c.branch record).complaintsIn path record name := by
  cases s
  rw [ownChoiceComplaints, conditionComplaints_eq]

theorem choiceComplaints_eq (fields : List (Value × Schema)) :
    choiceComplaints path record fields = fields.flatMap fun e =>
      e.2.ownChoiceComplaints path record e.1 := by
  induction fields with
  | nil => rfl
  | cons e fields ih => simp [choiceComplaints, ih]

/-- What is complained of in a record for its fields, their conditions first or last. -/
def recordComplaints (path : List Value) (record : Entries Value) (choicesFirst : Bool)
    (fields : List (Value × Schema)) : List Complaint :=
  (if choicesFirst then choiceComplaints path record fields else []) ++
    fieldComplaints path record fields ++ missingComplaints path record (requiredNames fields) ++
    if choicesFirst then [] else choiceComplaints path record fields

theorem mem_recordComplaints {choicesFirst : Bool} {fields : List (Value × Schema)}
    {c : Complaint} : c ∈ recordComplaints path record choicesFirst fields ↔
      c ∈ choiceComplaints path record fields ∨ c ∈ fieldComplaints path record fields ∨
        c ∈ missingComplaints path record (requiredNames fields) := by
  cases choicesFirst <;> simp [recordComplaints]
  tauto

theorem complaints_map : s.complaints path (.map record) =
    kindComplaints path (.map record) s.kind s.isNullable ++
      s.tests.flatMap (·.complaints path (.map record)) ++
      recordComplaints path record (!s.tests.isEmpty) s.fields := by
  cases s
  rfl

theorem complaints_of_not_isMap (h : v.isMap = false) : s.complaints path v =
    kindComplaints path v s.kind s.isNullable ++ s.tests.flatMap (·.complaints path v) := by
  obtain ⟨kind, tests, conditions, isRequired, isNullable, default?, label, fields⟩ := s
  cases v with
  | map entries => cases h
  | _ => simp [complaints]

end Equations

/-! ## What is among complaints -/

section Sources

variable {path : List Value} {record : Entries Value} {name v : Value} {s : Schema}
  {fields : List (Value × Schema)} {c : Complaint}

theorem mem_kindComplaints {kind : Kind} {isNullable : Bool} :
    c ∈ kindComplaints path v kind isNullable ↔
      (kind.describes v || isNullable && v.isNull) = false ∧
        c = .wrongKind path kind isNullable v := by
  cases h : kind.describes v || isNullable && v.isNull <;> simp [kindComplaints, h]

theorem mem_testComplaints {tests : List Test} : c ∈ tests.flatMap (·.complaints path v) ↔
    ∃ test ∈ tests, ∃ d ∈ test.rule.demands, d.isMetBy v = false ∧ c = .unmet path test d v := by
  simp only [List.mem_flatMap, Test.complaints, List.mem_map, List.mem_filter, Bool.not_eq_true']
  constructor
  · rintro ⟨test, htest, d, ⟨hd, hmet⟩, rfl⟩
    exact ⟨test, htest, d, hd, hmet, rfl⟩
  · rintro ⟨test, htest, d, hd, hmet, rfl⟩
    exact ⟨test, htest, d, ⟨hd, hmet⟩, rfl⟩

theorem exists_of_mem_missingComplaints {names : List Value}
    (h : c ∈ missingComplaints path record names) :
    ∃ name ∈ names, record.has name = false ∧ c = .missing path name := by
  simp only [missingComplaints, List.mem_map] at h
  obtain ⟨n, hn, rfl⟩ := h
  have habsent : ∀ m ∈ names.filter fun name => !record.has name,
      m ∈ names ∧ record.has m = false := fun m hm => by simpa using hm
  cases hfind : (names.filter fun n => !record.has n).find? (n.shown = ·.shown) with
  | none => exact ⟨n, (habsent n hn).1, (habsent n hn).2, rfl⟩
  | some m =>
    have hm := habsent m (List.mem_of_find?_eq_some hfind)
    exact ⟨m, hm.1, hm.2, rfl⟩

/-- An absent name is complained of, or an earlier one that is shown alike. -/
theorem exists_mem_missingComplaints {names : List Value} (hn : name ∈ names)
    (habsent : record.has name = false) (path : List Value) : ∃ m ∈ names, name.shown = m.shown ∧
      Complaint.missing path m ∈ missingComplaints path record names := by
  have hmem : name ∈ names.filter fun name => !record.has name :=
    List.mem_filter.2 ⟨hn, by simp [habsent]⟩
  cases hfind : (names.filter fun n => !record.has n).find? (name.shown = ·.shown) with
  | none => exact absurd (List.find?_eq_none.1 hfind name hmem) (by simp)
  | some m =>
    have hm := List.mem_of_find?_eq_some hfind
    have hshown : name.shown = m.shown := by simpa using List.find?_some hfind
    refine ⟨m, (List.mem_filter.1 hm).1, hshown, ?_⟩
    simp only [missingComplaints]
    exact List.mem_map.2 ⟨name, hmem, by rw [hfind, Option.getD_some]⟩

theorem mem_fieldComplaints : c ∈ fieldComplaints path record fields ↔
    ∃ e ∈ fields, ∃ v, record.get? e.1 = some v ∧ c ∈ e.2.complaints (path ++ [e.1]) v := by
  rw [fieldComplaints_eq, List.mem_flatMap]
  refine exists_congr fun e => and_congr_right fun _ => ?_
  cases record.get? e.1 <;> simp

theorem mem_choiceComplaints : c ∈ choiceComplaints path record fields ↔
    ∃ e ∈ fields, c ∈ e.2.ownChoiceComplaints path record e.1 := by
  rw [choiceComplaints_eq, List.mem_flatMap]

theorem mem_ownChoiceComplaints : c ∈ s.ownChoiceComplaints path record name ↔
    ∃ condition ∈ s.conditions, c ∈ (condition.branch record).complaintsIn path record name := by
  rw [ownChoiceComplaints_eq, List.mem_flatMap]

/-- What is complained of in a field is about its value, its absence, or one of its conditions. -/
theorem mem_complaintsIn : c ∈ s.complaintsIn path record name ↔
    (∃ v, record.get? name = some v ∧ c ∈ s.complaints (path ++ [name]) v) ∨
      (s.isRequired = true ∧ record.has name = false ∧ c = .missing path name) ∨
        c ∈ s.ownChoiceComplaints path record name := by
  have hpresent : c ∈ ((record.get? name).map fun v => s.complaints (path ++ [name]) v).getD [] ↔
      ∃ v, record.get? name = some v ∧ c ∈ s.complaints (path ++ [name]) v := by
    cases record.get? name <;> simp
  have habsent : c ∈ (if s.isRequired then missingComplaints path record [name] else []) ↔
      s.isRequired = true ∧ record.has name = false ∧ c = .missing path name := by
    cases hhas : record.has name <;> cases s.isRequired <;> simp [missingComplaints, hhas]
  rw [complaintsIn, branchComplaints, List.mem_append, List.mem_append, hpresent, habsent, or_assoc]

end Sources

/-! ## Nothing to complain of -/

section

variable {path : List Value} {record : Entries Value} {name v : Value} {s : Schema}

theorem kindComplaints_eq_nil_iff {kind : Kind} {isNullable : Bool} :
    kindComplaints path v kind isNullable = [] ↔
      (kind.describes v || isNullable && v.isNull) = true := by
  unfold kindComplaints
  split <;> simp_all

theorem testComplaints_eq_nil_iff {t : Test} :
    t.complaints path v = [] ↔ t.rule.admits v = true := by
  simp [Test.complaints, Rule.admits, List.filter_eq_nil_iff]

theorem missingComplaints_eq_nil_iff {names : List Value} :
    missingComplaints path record names = [] ↔ ∀ name ∈ names, record.has name = true := by
  simp [missingComplaints, List.filter_eq_nil_iff]

theorem branchComplaints_eq_nil_iff {isRequired settled : Bool} {inner : Value → List Complaint}
    {valid : Value → Bool} {nested : List Complaint}
    (hinner : ∀ v, inner v = [] ↔ valid v = true) (hnested : nested = [] ↔ settled = true) :
    branchComplaints path record name isRequired inner nested = [] ↔
      record.hasField name isRequired valid settled = true := by
  have hpresent : ((record.get? name).map inner).getD [] = [] ↔
      (record.get? name).all valid = true := by
    cases record.get? name with
    | none => simp
    | some v => simpa using hinner v
  have habsent : (if isRequired then missingComplaints path record [name] else []) = [] ↔
      (!isRequired || record.has name) = true := by
    cases isRequired <;> simp [missingComplaints_eq_nil_iff]
  simp only [branchComplaints, Entries.hasField, List.append_eq_nil_iff, Bool.and_eq_true,
    hpresent, habsent, hnested]
  tauto

/-- That nothing is complained of exactly where it should not be, for a schema and, as the schema of
a field, for the branches of its conditions. -/
def ComplainsRightly (s : Schema) : Prop :=
  (∀ path v, s.complaints path v = [] ↔ s.admits v = true) ∧
    ∀ path record name, s.ownChoiceComplaints path record name = [] ↔
      s.settles record name = true

theorem recordComplaints_eq_nil_iff {fields : List (Value × Schema)} {choicesFirst : Bool}
    (hfields : ∀ e ∈ fields, e.2.ComplainsRightly) :
    recordComplaints path record choicesFirst fields = [] ↔
      (fields.all fun e => e.2.admitsIn record e.1) = true := by
  have hchoices : choiceComplaints path record fields = [] ↔
      ∀ e ∈ fields, e.2.settles record e.1 = true := by
    rw [choiceComplaints_eq, List.flatMap_eq_nil_iff]
    exact forall₂_congr fun e he => (hfields e he).2 path record e.1
  have hpresent : fieldComplaints path record fields = [] ↔
      ∀ e ∈ fields, (record.get? e.1).all e.2.admits = true := by
    rw [fieldComplaints_eq, List.flatMap_eq_nil_iff]
    refine forall₂_congr fun e he => ?_
    cases record.get? e.1 with
    | none => simp
    | some v => simpa using (hfields e he).1 (path ++ [e.1]) v
  have habsent : missingComplaints path record (requiredNames fields) = [] ↔
      ∀ e ∈ fields, (!e.2.isRequired || record.has e.1) = true := by
    simp [missingComplaints_eq_nil_iff, requiredNames, or_iff_not_imp_left]
  have hparts : recordComplaints path record choicesFirst fields = [] ↔
      choiceComplaints path record fields = [] ∧ fieldComplaints path record fields = [] ∧
        missingComplaints path record (requiredNames fields) = [] := by
    simp only [List.eq_nil_iff_forall_not_mem, mem_recordComplaints, not_or, forall_and]
  rw [hparts, hchoices, hpresent, habsent, List.all_eq_true]
  simp only [admitsIn, Entries.hasField, Bool.and_eq_true]
  exact ⟨fun h e he => ⟨⟨h.2.2 e he, h.2.1 e he⟩, h.1 e he⟩,
    fun h => ⟨fun e he => (h e he).2, fun e he => (h e he).1.2, fun e he => (h e he).1.1⟩⟩

theorem complaints_eq_nil_iff_of_fields (hs : s.kind ≠ .object → s.fields = [])
    (hfields : ∀ e ∈ s.fields, e.2.ComplainsRightly) :
    s.complaints path v = [] ↔ s.admits v = true := by
  have hkind : kindComplaints path v s.kind s.isNullable = [] ↔
      (s.kind.describes v || s.isNullable && v.isNull) = true := kindComplaints_eq_nil_iff
  have htests : s.tests.flatMap (·.complaints path v) = [] ↔
      s.tests.all (·.rule.admits v) = true := by
    simp [List.flatMap_eq_nil_iff, testComplaints_eq_nil_iff]
  cases hmap : v.isMap with
  | false =>
    rw [complaints_of_not_isMap hmap, List.append_eq_nil_iff, hkind, htests, admits_eq]
    cases v <;> simp_all [Value.isMap]
  | true =>
    obtain ⟨record, rfl⟩ := Value.eq_map_of_isMap hmap
    rw [complaints_map, List.append_eq_nil_iff, List.append_eq_nil_iff, hkind, htests,
      recordComplaints_eq_nil_iff hfields, admits_eq]
    by_cases hobject : s.kind = .object
    · simp [hobject]
    · rw [hs hobject]
      cases hk : s.kind <;> simp_all

theorem ownChoiceComplaints_eq_nil_iff
    (hconditions : ∀ c ∈ s.conditions, c.chosen.ComplainsRightly ∧ c.other.ComplainsRightly) :
    s.ownChoiceComplaints path record name = [] ↔ s.settles record name = true := by
  rw [ownChoiceComplaints_eq, settles_eq, settlesAll_eq, List.flatMap_eq_nil_iff,
    List.all_eq_true]
  refine forall₂_congr fun c hc => ?_
  have hbranch : (c.branch record).ComplainsRightly :=
    Condition.branch_of_both (hconditions c hc) record
  exact branchComplaints_eq_nil_iff (hbranch.1 (path ++ [name])) (hbranch.2 path record name)

theorem complainsRightly (s : Schema) :
    s.Everywhere (fun s => s.kind ≠ .object → s.fields = []) → s.ComplainsRightly := by
  induction s using Schema.induct with
  | step s hfields hconditions =>
    intro h
    exact ⟨fun _ _ => complaints_eq_nil_iff_of_fields h.self fun e he => hfields e he (h.field he),
      fun _ _ _ => ownChoiceComplaints_eq_nil_iff fun c hc =>
        ⟨(hconditions c hc).1 (h.chosen hc), (hconditions c hc).2 (h.other hc)⟩⟩

/-- Nothing is complained of exactly where the schema admits the value. -/
theorem complaints_eq_nil_iff (h : s.Everywhere IsSound) :
    s.complaints path v = [] ↔ s.admits v = true :=
  (complainsRightly s (h.mono fun _ hs => hs.fields_eq_nil)).1 path v

end

end Schema

end FieldSchema
