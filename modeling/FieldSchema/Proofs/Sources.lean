import FieldSchema.Proofs.Outcomes
import FieldSchema.Proofs.Places
import FieldSchema.Proofs.Rearranged

/-!
# Where complaints come from

From a schema one comes to others by its fields, and by the branches which a record imposes on a
field (`Schema.Imposes`); on the way down a value they stand at its parts (`Schema.StandsAt`). A
schema complains of a value just of what a schema that stands somewhere in it has against the part
that is there (`Schema.mem_complaints_iff`). So every failure that is collected can be put down to a
type, a test or a required field at the place that it names
(`Schema.Reachable.collect_attributable`).
-/

namespace FieldSchema

/-- What is in a value at the end of a path of keys. -/
def Value.part? : Value → List Value → Option Value
  | v, [] => some v
  | .map record, name :: path => (Entries.get? record name).bind fun v => v.part? path
  | _, _ :: _ => none

namespace Schema

/-- That a record with a field of one schema must have the field as another one says: as the schema
itself, or as a branch that the record selects. -/
inductive Imposes (record : Entries Value) : Schema → Schema → Prop
  | self (s : Schema) : Imposes record s s
  | branch {s t : Schema} {c : Condition} (hc : c ∈ s.conditions)
      (h : Imposes record (c.branch record) t) : Imposes record s t

/-- That a schema stands at a path for the part of a value that is there, if another one stands at
a path above for the whole. -/
inductive StandsAt (t : Schema) (place : List Value) (part : Value) :
    Schema → List Value → Value → Prop
  | self : StandsAt t place part t place part
  | field {s field branch : Schema} {path : List Value} {record : Entries Value} {name v : Value}
      (he : (name, field) ∈ s.fields) (hbranch : Imposes record field branch)
      (hv : record.get? name = some v) (h : StandsAt t place part branch (path ++ [name]) v) :
      StandsAt t place part s path (.map record)

end Schema

/-- What a complaint is due to, where a schema stands at a path for a value: the type or a test of a
schema that stands there or below, or a field which one of them requires. -/
inductive Complaint.IsDueTo (s : Schema) (path : List Value) (v : Value) : Complaint → Prop
  | kind {t : Schema} {place : List Value} {part : Value} (h : t.StandsAt place part s path v)
      (hkind : (t.kind.describes part || t.isNullable && part.isNull) = false) :
      IsDueTo s path v (.wrongKind place t.kind t.isNullable part)
  | test {t : Schema} {place : List Value} {part : Value} {test : Test} {d : Demand}
      (h : t.StandsAt place part s path v) (htest : test ∈ t.tests) (hd : d ∈ test.rule.demands)
      (hmet : d.isMetBy part = false) : IsDueTo s path v (.unmet place test d part)
  | absence {o field t : Schema} {place : List Value} {record : Entries Value} {name : Value}
      (h : o.StandsAt place (.map record) s path v) (he : (name, field) ∈ o.fields)
      (ht : Schema.Imposes record field t) (hrequired : t.isRequired = true)
      (habsent : record.has name = false) : IsDueTo s path v (.missing place name)

namespace Schema

variable {s t field branch : Schema} {path place : List Value} {record : Entries Value}
  {name v part : Value} {c : Complaint}

/-! ## Schemas that stand somewhere -/

theorem Imposes.everywhere {P : Schema → Prop} (h : Imposes record s t) (hs : s.Everywhere P) :
    t.Everywhere P := by
  induction h with
  | self => exact hs
  | branch hc _ ih => exact ih (Condition.branch_of_both ⟨hs.chosen hc, hs.other hc⟩ _)

theorem StandsAt.everywhere {P : Schema → Prop} (h : t.StandsAt place part s path v)
    (hs : s.Everywhere P) : t.Everywhere P := by
  induction h with
  | self => exact hs
  | field he hbranch _ _ ih => exact ih (hbranch.everywhere (hs.field he))

/-- The part for which a schema stands somewhere is what the value has there. -/
theorem StandsAt.part? (h : t.StandsAt place part s path v) :
    ∃ names, place = path ++ names ∧ v.part? names = some part := by
  induction h with
  | self => exact ⟨[], by simp, by rw [Value.part?]⟩
  | @field _ _ _ path record name v _ _ hv _ ih =>
    obtain ⟨names, hplace, hpart⟩ := ih
    exact ⟨name :: names, by simpa using hplace, by simpa [Value.part?, hv] using hpart⟩

/-- What is due to the schema that a field must have is due to the schema of the record. -/
theorem isDueTo_field (he : (name, field) ∈ s.fields) (hbranch : Imposes record field branch)
    (hv : record.get? name = some v) (h : c.IsDueTo branch (path ++ [name]) v) :
    c.IsDueTo s path (.map record) := by
  cases h with
  | kind h hkind => exact .kind (.field he hbranch hv h) hkind
  | test h htest hd hmet => exact .test (.field he hbranch hv h) htest hd hmet
  | absence h he' ht hrequired habsent =>
    exact .absence (.field he hbranch hv h) he' ht hrequired habsent

/-! ## Complaints are due to something -/

/-- That what a schema complains of is due to something, and what is complained of in a field that
has the schema is due to a branch. -/
structure HasReasons (s : Schema) : Prop where
  complaints : ∀ path v, ∀ c ∈ s.complaints path v, c.IsDueTo s path v
  inField : ∀ path record name, ∀ c ∈ s.complaintsIn path record name,
    ∃ t, Imposes record s t ∧
      ((∃ v, record.get? name = some v ∧ c.IsDueTo t (path ++ [name]) v) ∨
        t.isRequired = true ∧ record.has name = false ∧ c = .missing path name)

theorem isDueTo_of_mem_recordComplaints {choicesFirst : Bool}
    (hfields : ∀ e ∈ s.fields, e.2.HasReasons)
    (h : c ∈ recordComplaints path record choicesFirst s.fields) :
    c.IsDueTo s path (.map record) := by
  have hfield : ∀ e ∈ s.fields, c ∈ e.2.complaintsIn path record e.1 →
      c.IsDueTo s path (.map record) := by
    intro e he hc
    obtain ⟨t, ht, ⟨v, hv, hdue⟩ | ⟨hrequired, habsent, rfl⟩⟩ :=
      (hfields e he).inField path record e.1 c hc
    · exact isDueTo_field he ht hv hdue
    · exact .absence .self he ht hrequired habsent
  rcases mem_recordComplaints.1 h with h | h | h
  · obtain ⟨e, he, h⟩ := mem_choiceComplaints.1 h
    exact hfield e he (mem_complaintsIn.2 (.inr (.inr h)))
  · obtain ⟨e, he, v, hv, h⟩ := mem_fieldComplaints.1 h
    exact hfield e he (mem_complaintsIn.2 (.inl ⟨v, hv, h⟩))
  · obtain ⟨name, hname, habsent, rfl⟩ := exists_of_mem_missingComplaints h
    obtain ⟨e, he, rfl⟩ := List.mem_map.1 hname
    obtain ⟨he, hrequired⟩ := List.mem_filter.1 he
    exact hfield e he (mem_complaintsIn.2 (.inr (.inl ⟨hrequired, habsent, rfl⟩)))

theorem hasReasons (s : Schema) : s.HasReasons := by
  induction s using Schema.induct with
  | step s hfields hconditions =>
    have hself : ∀ path v, ∀ c ∈ s.complaints path v, c.IsDueTo s path v := by
      intro path v c h
      have hown : c ∈ kindComplaints path v s.kind s.isNullable ++
          s.tests.flatMap (·.complaints path v) → c.IsDueTo s path v := by
        intro h
        rcases List.mem_append.1 h with h | h
        · obtain ⟨hkind, rfl⟩ := mem_kindComplaints.1 h
          exact .kind .self hkind
        · obtain ⟨test, htest, d, hd, hmet, rfl⟩ := mem_testComplaints.1 h
          exact .test .self htest hd hmet
      cases hmap : v.isMap with
      | false => exact hown (complaints_of_not_isMap hmap ▸ h)
      | true =>
        obtain ⟨record, rfl⟩ := Value.eq_map_of_isMap hmap
        rw [complaints_map] at h
        rcases List.mem_append.1 h with h | h
        · exact hown h
        · exact isDueTo_of_mem_recordComplaints hfields h
    refine ⟨hself, fun path record name c h => ?_⟩
    rcases mem_complaintsIn.1 h with ⟨v, hv, h⟩ | habsent | hchoice
    · exact ⟨s, .self s, .inl ⟨v, hv, hself _ v c h⟩⟩
    · exact ⟨s, .self s, .inr habsent⟩
    · obtain ⟨condition, hcondition, h⟩ := mem_ownChoiceComplaints.1 hchoice
      have hbranch : (condition.branch record).HasReasons :=
        Condition.branch_of_both (hconditions condition hcondition) record
      obtain ⟨t, ht, hreason⟩ := hbranch.inField path record name c h
      exact ⟨t, .branch hcondition ht, hreason⟩

/-! ## What complaints can be due to is complained of -/

theorem mem_complaintsIn_of_imposes (h : Imposes record s t)
    (hc : c ∈ t.complaintsIn path record name) : c ∈ s.complaintsIn path record name := by
  induction h with
  | self => exact hc
  | branch hcondition _ ih =>
    have hchoice := mem_ownChoiceComplaints.2 ⟨_, hcondition, ih hc⟩
    exact mem_complaintsIn.2 (.inr (.inr hchoice))

/-- What is complained of in a field is complained of in the record. -/
theorem mem_complaints_of_mem_complaintsIn (hnames : ∀ e ∈ s.fields, e.1.isText = true)
    (he : (name, field) ∈ s.fields) (hc : c ∈ field.complaintsIn path record name) :
    c ∈ s.complaints path (.map record) := by
  rw [complaints_map]
  refine List.mem_append_right _ (mem_recordComplaints.2 ?_)
  rcases mem_complaintsIn.1 hc with ⟨v, hv, hc⟩ | ⟨hrequired, habsent, rfl⟩ | hchoice
  · exact .inr (.inl (mem_fieldComplaints.2 ⟨_, he, v, hv, hc⟩))
  · refine .inr (.inr ?_)
    have hrequired' : name ∈ requiredNames s.fields :=
      List.mem_map.2 ⟨_, List.mem_filter.2 ⟨he, hrequired⟩, rfl⟩
    have htext : ∀ n ∈ requiredNames s.fields, n.isText = true := by
      intro n hn
      obtain ⟨e, he, rfl⟩ := List.mem_map.1 hn
      exact hnames e (List.mem_filter.1 he).1
    rw [missingComplaints_of_isText htext]
    exact List.mem_map_of_mem (List.mem_filter.2 ⟨hrequired', by simp [habsent]⟩)
  · exact .inl (mem_choiceComplaints.2 ⟨_, he, hchoice⟩)

theorem mem_complaints_of_standsAt (h : t.StandsAt place part s path v)
    (hs : s.Everywhere IsTextual) (hc : c ∈ t.complaints place part) : c ∈ s.complaints path v := by
  induction h with
  | self => exact hc
  | field he hbranch hv _ ih =>
    have hinner := ih (hbranch.everywhere (hs.field he))
    exact mem_complaints_of_mem_complaintsIn hs.self.names he
      (mem_complaintsIn_of_imposes hbranch (mem_complaintsIn.2 (.inl ⟨_, hv, hinner⟩)))

/-- A schema complains of just what is due to a type, a test or a required field somewhere. -/
theorem mem_complaints_iff (hs : s.Everywhere IsTextual) :
    c ∈ s.complaints path v ↔ c.IsDueTo s path v := by
  refine ⟨s.hasReasons.complaints path v c, fun h => ?_⟩
  have hown : ∀ {t : Schema} {place : List Value} {part : Value} {c : Complaint},
      c ∈ kindComplaints place part t.kind t.isNullable ++
        t.tests.flatMap (·.complaints place part) → c ∈ t.complaints place part := by
    intro t place part c h
    cases hmap : part.isMap with
    | false => exact complaints_of_not_isMap hmap ▸ h
    | true =>
      obtain ⟨record, rfl⟩ := Value.eq_map_of_isMap hmap
      rw [complaints_map]
      exact List.mem_append_left _ h
  cases h with
  | kind h hkind =>
    exact mem_complaints_of_standsAt h hs
      (hown (List.mem_append_left _ (mem_kindComplaints.2 ⟨hkind, rfl⟩)))
  | test h htest hd hmet =>
    exact mem_complaints_of_standsAt h hs
      (hown (List.mem_append_right _ (mem_testComplaints.2 ⟨_, htest, _, hd, hmet, rfl⟩)))
  | absence h he ht hrequired habsent =>
    refine mem_complaints_of_standsAt h hs
      (mem_complaints_of_mem_complaintsIn (h.everywhere hs).self.names he ?_)
    exact mem_complaintsIn_of_imposes ht
      (mem_complaintsIn.2 (.inr (.inl ⟨hrequired, habsent, rfl⟩)))

end Schema

/-! ## What failures can be put down to -/

namespace Rule

/-- The names of all rules. -/
def names : List String :=
  ["required", "one_of", "not_one_of", "min", "max", "length", "matches", "email", "url", "uuid",
    "more_than", "less_than", "positive", "negative", "integer", "is_true", "is_false"]

theorem name_mem_names (r : Rule) : r.name ∈ names := by
  cases r <;> simp [names, name]

/-- No rule has the name of a keyword, but for the one that demands a value. -/
theorem name_ne_keyword (r : Rule) {k : Keyword} (hk : k ≠ .required) : r.name ≠ k.name := by
  have hnames : ∀ name ∈ names, ∀ k ∈ Keyword.all, k ≠ .required → name ≠ k.name := by decide
  exact hnames r.name r.name_mem_names k (by cases k <;> decide) hk

end Rule

/-- What a failure of a schema's document can be put down to: the type or a test of a schema that
stands at the place which it names, for the part that it shows, or a field that is missing there. -/
inductive Failure.IsPutDownTo (s : Schema) (v : Value) (f : Failure) : Prop
  | type {t : Schema} {path : List Value} {part : Value} (h : t.StandsAt path part s [] v)
      (hpart : v.part? path = some part)
      (hkind : (t.kind.describes part || t.isNullable && part.isNull) = false)
      (hfield : f.field = Complaint.fieldName path) (herror : f.error = .text "type")
      (hvalue : f.value = part)
  | test {t : Schema} {path : List Value} {part : Value} {test : Test}
      (h : t.StandsAt path part s [] v) (hpart : v.part? path = some part) (htest : test ∈ t.tests)
      (hadmits : test.rule.admits part = false) (hfield : f.field = Complaint.fieldName path)
      (herror : f.error = .text test.name) (hvalue : f.value = part)
  | absence {o field t : Schema} {path : List Value} {record : Entries Value} {name : Value}
      (h : o.StandsAt path (.map record) s [] v) (hpart : v.part? path = some (.map record))
      (he : (name, field) ∈ o.fields) (ht : Schema.Imposes record field t)
      (hrequired : t.isRequired = true) (habsent : record.has name = false)
      (hfield : f.field = Complaint.fieldName (path ++ [name]))
      (herror : f.error = .text "required")
      (hvalue : f.value = .null)

theorem Failure.IsPutDownTo.error_ne {s : Schema} {v : Value} {f : Failure}
    (h : f.IsPutDownTo s v) {k : Keyword} (htype : k ≠ .type) (hrequired : k ≠ .required) :
    f.error ≠ .text k.name := by
  have hnames : ∀ k ∈ Keyword.all, k ≠ .type → k ≠ .required →
      "type" ≠ k.name ∧ "required" ≠ k.name := by decide
  obtain ⟨hnotType, hnotRequired⟩ := hnames k (by cases k <;> decide) htype hrequired
  cases h with
  | type _ _ _ _ herror => simpa [herror] using hnotType
  | @test _ _ _ test _ _ _ _ _ herror =>
    have hname : test.name ≠ k.name := test.rule.name_ne_keyword hrequired
    simpa [herror] using hname
  | absence _ _ _ _ _ _ _ herror => simpa [herror] using hnotRequired

namespace Schema

variable {s : Schema} {v : Value} {c : Complaint} {f : Failure}

/-- That the messages of a schema are texts, and the names of its fields texts that are not empty.
-/
structure IsSpelled (s : Schema) : Prop where
  messages : ∀ t ∈ s.tests, t.message.isText = true
  names : ∀ e ∈ s.fields, ∃ n, e.1 = .text n ∧ n ≠ ""

theorem IsSpelled.isTextual (h : s.IsSpelled) : s.IsTextual where
  messages := h.messages
  names := fun e he => by
    obtain ⟨n, hn, -⟩ := h.names e he
    rw [hn]
    rfl

theorem StandsAt.part?_root {t : Schema} {path : List Value} {part : Value}
    (h : t.StandsAt path part s [] v) : v.part? path = some part := by
  obtain ⟨names, hplace, hpart⟩ := h.part?
  rw [hplace, List.nil_append, hpart]

theorem isPutDownTo_of_isDueTo (hdue : c.IsDueTo s [] v) (hf : c.failure = .ok f)
    (hfield : f.field = Complaint.fieldName c.place) : f.IsPutDownTo s v := by
  cases hdue with
  | kind h hkind =>
    cases hf
    exact .type h h.part?_root hkind rfl rfl rfl
  | @test _ _ part test d h htest hd hmet =>
    have hadmits : test.rule.admits part = false := List.all_eq_false.2 ⟨d, hd, by simp [hmet]⟩
    obtain ⟨message, -, rfl⟩ := Complaint.failure_unmet hf
    exact .test h h.part?_root htest hadmits rfl rfl rfl
  | absence h he ht hrequired habsent =>
    have hmissing := Complaint.failure_missing hf
    exact .absence h h.part?_root he ht hrequired habsent hfield (by rw [hmissing]; rfl)
      (by rw [hmissing]; rfl)

/-- Whatever is collected from a value can be put down to a type, a test or a required field at the
place that it names, for the part of the value there; no other keyword shows. So it is for every
schema that methods lead to, with texts as messages and as names of fields. -/
theorem Reachable.collect_attributable (h : s.Reachable) (hs : s.Everywhere IsSpelled) (v : Value)
    (all : Bool) : ∃ failures, Document.collect s.document v all = .ok failures ∧
      ∀ f ∈ failures, f.IsPutDownTo s v ∧
        ∀ k : Keyword, k ≠ .type → k ≠ .required → f.error ≠ .text k.name := by
  have hreportable : ∀ c ∈ Complaint.wanted all (s.complaints [] v), c.isReportable = true :=
    fun c hc => isReportable_of_isTextual (hs.mono fun _ => IsSpelled.isTextual) c
      (Complaint.mem_of_mem_wanted hc)
  refine ⟨_, by rw [collect_document h.everywhere_isSound, Complaint.mapM_failure_eq hreportable],
    fun f hf => ?_⟩
  obtain ⟨c, hc, rfl⟩ := List.mem_map.1 hf
  have hfailure := Complaint.failure_eq_report (hreportable c hc)
  obtain ⟨names, hplace, hnames⟩ := (complainsAlong (N := fun k => ∃ n, k = .text n ∧ n ≠ "") s
    (hs.mono fun _ hs => hs.names)).complaints [] v c (Complaint.mem_of_mem_wanted hc)
  have hfield := Complaint.field_eq_fieldName hfailure (by simpa [hplace] using hnames)
  have hdue : c.report.IsPutDownTo s v :=
    isPutDownTo_of_isDueTo (s.hasReasons.complaints [] v c (Complaint.mem_of_mem_wanted hc))
      hfailure hfield
  exact ⟨hdue, fun k => hdue.error_ne⟩

theorem isSpelled_parcel : parcel.Everywhere IsSpelled := by
  have hleaf : ∀ {s : Schema}, (∀ t ∈ s.tests, t.message.isText = true) → s.fields = [] →
      s.conditions = [] → s.Everywhere IsSpelled := fun hmessages hfields hconditions =>
    .leaf ⟨hmessages, by simp [hfields]⟩ hfields hconditions
  refine .intro ⟨List.forall_mem_nil _, List.forall_mem_cons.2 ⟨⟨"size", rfl, by decide⟩,
    List.forall_mem_singleton.2 ⟨"weight", rfl, by decide⟩⟩⟩ ?_ (List.forall_mem_nil _)
    (List.forall_mem_nil _)
  refine List.forall_mem_cons.2 ⟨hleaf (by decide) rfl rfl, List.forall_mem_singleton.2 ?_⟩
  exact .intro ⟨List.forall_mem_nil _, List.forall_mem_nil _⟩ (List.forall_mem_nil _)
    (List.forall_mem_singleton.2 (hleaf (by decide) rfl rfl))
    (List.forall_mem_singleton.2 (hleaf (List.forall_mem_nil _) rfl rfl))

/-- A parcel that is big and weighs three. -/
def lightParcel : Value := .map [(.text "size", .text "big"), (.text "weight", .int 3)]

theorem collect_attributable_parcel : ∃ f : Failure,
    Document.collect parcel.document lightParcel true = .ok [f] ∧ f.field = "weight" ∧
      f.error = .text "min" ∧ f.IsPutDownTo parcel lightParcel := by
  obtain ⟨f, hf, hfield, herror⟩ : ∃ f,
      Document.collect parcel.document lightParcel true = .ok [f] ∧
      f.field = "weight" ∧ f.error = .text "min" := ⟨_, rfl, rfl, rfl⟩
  obtain ⟨failures, hfailures, hall⟩ :=
    reachable_parcel.collect_attributable isSpelled_parcel lightParcel true
  obtain rfl := Except.ok.inj (hf.symm.trans hfailures)
  exact ⟨f, hf, hfield, herror, (hall f List.mem_cons_self).1⟩

end Schema

end FieldSchema
