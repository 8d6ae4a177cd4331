import FieldSchema.Proofs.Answers
import FieldSchema.Proofs.Judged
import FieldSchema.Proofs.MissingNames
import FieldSchema.Proofs.Places
import FieldSchema.Proofs.Turns

/-!
# Null and absent values

A schema that demands a value has a test that refuses null (`Schema.Reachable.isRequired_iff`), and
the record that it is a field of refuses the absence of the field. But null is taken for absent when
it is cast: where a record has fields, an empty record stands in for it, and that is what is judged
(`Schema.absent_of_fields_ne_nil`). So a required record refuses null only if it has no fields, or
does not describe the empty record (`Schema.Reachable.required_spec`), and null is kept only where
nothing stands in for it (`Schema.Reachable.nullable_spec`).
-/

namespace FieldSchema

/-! ## Tests of null -/

namespace Rule

theorem exists_required_of_name {r : Rule} (h : r.name = "required") :
    ∃ nonEmpty, r = .required nonEmpty := by
  cases r with
  | required nonEmpty => exact ⟨nonEmpty, rfl⟩
  | _ => simp [name] at h

/-- Null passes every test that does not demand a value or compare with some, but for that of whole
numbers. -/
theorem admits_null_iff {r : Rule}
    (h : r.name ∉ ["required", "one_of", "not_one_of", "is_true", "is_false"]) :
    r.admits .null = true ↔ r.name ≠ "integer" := by
  cases r with
  | required _ | oneOf _ | notOneOf _ | isTrue | isFalse => simp [name] at h
  | _ => simp [admits, demands, Demand.isMetBy, name]

end Rule

namespace Context

/-- A rule has the name of the method that declares it. -/
theorem name_eq_of_rule? {m : Method} {kind : Kind} {v : Value} {rule : Rule}
    (h : rule? m kind v = some (.ok rule)) : rule.name = m.name := by
  cases m <;> simp only [rule?, Option.some.injEq, reduceCtorEq] at h
  case min =>
    cases kind <;> simp only [minRule] at h <;>
      obtain ⟨_, -, rfl⟩ := Except.exists_of_map_eq_ok h <;> rfl
  case max =>
    cases kind <;> simp only [maxRule] at h <;>
      obtain ⟨_, -, rfl⟩ := Except.exists_of_map_eq_ok h <;> rfl
  case length =>
    cases kind <;> simp only [lengthRule] at h <;>
      obtain ⟨_, -, rfl⟩ := Except.exists_of_map_eq_ok h <;> rfl
  all_goals
    obtain ⟨_, -, rfl⟩ := Except.exists_of_map_eq_ok h
    rfl

theorem name_eq_of_fixedRule? {m : Method} {rule : Rule} (h : fixedRule? m = some rule) :
    rule.name = m.name := by
  cases m <;> simp only [fixedRule?, Option.some.injEq, reduceCtorEq] at h <;> subst h <;> rfl

end Context

namespace Schema

variable {o s : Schema} {name v : Value} {record : Entries Value} {all : Bool}

theorem mem_testNames_withRule {rule : Rule} {message : Value} {test : String} :
    test ∈ (s.withRule rule message).testNames ↔ test = rule.name ∨ test ∈ s.testNames := by
  have hnames : (s.withRule rule message).testNames =
      (s.testNames.filter (· ≠ rule.name)) ++ [rule.name] := by
    simp only [testNames, withRule, withTest, List.map_append, List.filter_map]
    rfl
  rw [hnames, List.mem_append, List.mem_singleton, List.mem_filter]
  by_cases h : test = rule.name <;> simp [h]

/-- A value is demanded exactly if there is a test for it. -/
theorem Reachable.isRequired_iff (h : s.Reachable) :
    s.isRequired = true ↔ "required" ∈ s.testNames := by
  -- no other method declares a test of that name
  have hname : ∀ {m : Method}, "required" = m.name → m = .required := by
    intro m hm
    cases m <;> simp [Method.name] at hm
    rfl
  induction h with
  | ofKind kind => simp [Schema.ofKind, testNames]
  | rule _ _ hr message ih =>
    rw [mem_testNames_withRule, Context.name_eq_of_rule? hr, or_iff_right]
    · exact ih
    · intro hm
      rw [hname hm] at hr
      cases hr
  | fixedRule _ _ hr message ih =>
    rw [mem_testNames_withRule, Context.name_eq_of_fixedRule? hr, or_iff_right]
    · exact ih
    · intro hm
      rw [hname hm] at hr
      cases hr
  | required _ message ih =>
    exact iff_of_true rfl (mem_testNames_withRule.2 (.inl rfl))
  | notRequired _ ih =>
    refine iff_of_false Bool.false_ne_true fun hmem => ?_
    obtain ⟨t, ht, hname⟩ := List.mem_map.1 hmem
    simpa [hname] using (List.mem_filter.1 ht).2
  | nullable _ ih | withDefault _ _ ih | withLabel _ _ ih | whenSibling _ _ _ _ ih _ _
  | withFields _ _ _ _ ih _ => exact ih

/-! ## What null is cast to -/

section Casting

theorem absent_of_fields_eq_nil (hdefault : s.default? = none) (hfields : s.fields = []) :
    s.absent = .null := by
  simp [absent, hdefault, hfields]

theorem absent_of_fields_ne_nil (h : s.IsSound) (hdefault : s.default? = none)
    (hfields : s.fields ≠ []) : s.absent = .map [] := by
  have hobject : s.kind = .object := by
    by_contra hne
    exact hfields (h.fields_eq_nil hne)
  simp [absent, hdefault, hobject, hfields]

/-- A field without conditions is cast for itself. -/
theorem IsSound.exists_cast_map (h : o.IsSound) (he : (name, s) ∈ o.fields)
    (hconditions : s.conditions = []) (hself : name.same name = true) (record : Entries Value) :
    ∃ r : Entries Value, o.cast (.map record) = .map r ∧
      r.get? name = s.fill (record.get? name) :=
  ⟨_, cast_map h he, get?_castFields_of_not_conditional record h.areKeys he
    (by simp [isConditional, hconditions]) hself⟩

/-- Where a record has fields, an empty record is put in the place of its null, and that is what is
complained of. -/
theorem Reachable.exists_cast_null (h : o.Reachable) (he : (name, s) ∈ o.fields)
    (hdefault : s.default? = none) (hconditions : s.conditions = [])
    (hv : record.get? name = some .null) (hfields : s.fields ≠ []) :
    ∃ r : Entries Value, o.cast (.map record) = .map r ∧ r.get? name = some (.map []) ∧
      ((∀ c ∈ o.complaints [] (.map r), ¬ c.IsAt name) ↔ s.admits (.map []) = true) := by
  have hsound := h.everywhere_isSound
  have hs : s.IsSound := (hsound.field he).self
  obtain ⟨r, hcast, hget⟩ :=
    hsound.self.exists_cast_map he hconditions (hsound.self.same_self_of_get? he hv) record
  rw [hv, fill, cast, absent_of_fields_ne_nil hs hdefault hfields] at hget
  exact ⟨r, hcast, hget, not_isAt_iff_admits hsound he hconditions hget⟩

end Casting

/-! ## Demanded values -/

/-- A record complains of a null or absent field whose schema demands a value. -/
theorem Reachable.exists_required_complaint (h : s.Reachable) (hrequired : s.isRequired = true)
    (he : (name, s) ∈ o.fields) (hv : record.get? name = none ∨ record.get? name = some .null)
    (path : List Value) : ∃ c ∈ o.complaints path (.map record),
      (∃ t d, t.name = "required" ∧ c = .unmet (path ++ [name]) t d .null) ∨
      ∃ e ∈ o.fields, name.shown = e.1.shown ∧ c = .missing path e.1 := by
  rcases hv with hv | hv
  · have hmem : name ∈ requiredNames o.fields :=
      List.mem_map.2 ⟨_, List.mem_filter.2 ⟨he, hrequired⟩, rfl⟩
    have habsent : record.has name = false := by rw [Entries.has, hv]; rfl
    obtain ⟨m, hm, hshown, hmissing⟩ := exists_mem_missingComplaints hmem habsent path
    obtain ⟨e, hfield, rfl⟩ := List.mem_map.1 hm
    refine ⟨_, ?_, .inr ⟨e, (List.mem_filter.1 hfield).1, hshown, rfl⟩⟩
    rw [complaints_map]
    exact List.mem_append_right _ (mem_recordComplaints.2 (.inr (.inr hmissing)))
  · obtain ⟨t, ht, hname⟩ := List.mem_map.1 (h.isRequired_iff.1 hrequired)
    obtain ⟨nonEmpty, hrule⟩ := Rule.exists_required_of_name hname
    have hunmet : Complaint.unmet (path ++ [name]) t .notNull .null ∈
        t.complaints (path ++ [name]) .null := by
      simp [Test.complaints, hrule, Rule.demands, Demand.isMetBy, Value.isNull]
    refine ⟨_, mem_complaints_of_mem_field he hv ?_, .inl ⟨t, .notNull, hname, rfl⟩⟩
    rw [complaints_of_not_isMap rfl]
    exact List.mem_append_right _ (List.mem_flatMap.2 ⟨t, ht, hunmet⟩)

theorem fieldName_text (n : String) :
    Complaint.fieldName [.text n] = if n = "" then Failure.root else n := by
  simp [Complaint.fieldName, Violation.pathText, Value.plain]

theorem failure_missing_text {n : String} {f : Failure}
    (h : (Complaint.missing [] (.text n)).failure = .ok f) :
    f = .missing (if n = "" then Failure.root else n) := by
  rw [Complaint.failure, Violation.propertyPath_text] at h
  exact (Except.ok.inj h).symm

/-- A record with such a field is never returned. -/
theorem Reachable.judge_ne_ok_of_required (h : s.Reachable) (hrequired : s.isRequired = true)
    (ho : o.Reachable) (he : (name, s) ∈ o.fields)
    (hv : record.get? name = none ∨ record.get? name = some .null) (w : Value) :
    o.judge (.map record) all ≠ .ok w := by
  intro hok
  obtain ⟨c, hc, -⟩ := h.exists_required_complaint hrequired he hv []
  rw [judge_eq_ok_iff ho.everywhere_isSound] at hok
  have hnil : o.complaints [] (.map record) = [] :=
    (complaints_eq_nil_iff ho.everywhere_isSound).2 (by simpa [Value.isNull] using hok.2)
  rw [hnil] at hc
  cases hc

/-- Among all its failures is one that names the field. -/
theorem Reachable.exists_required_failure {n : String} {failures : List Failure}
    (h : s.Reachable) (hrequired : s.isRequired = true) (ho : o.Reachable)
    (ht : o.Everywhere IsTextual) (he : (.text n, s) ∈ o.fields)
    (hv : record.get? (.text n) = none ∨ record.get? (.text n) = some .null)
    (hfailures : o.failures (.map record) true = .ok failures) :
    ∃ f ∈ failures, f.error = .text "required" ∧ f.field = if n = "" then Failure.root else n := by
  obtain ⟨c, hc, hcause⟩ := h.exists_required_complaint hrequired he hv []
  rw [failures_eq ho.everywhere_isSound, Complaint.wanted, if_pos rfl] at hfailures
  obtain ⟨f, hf, hfailure⟩ := Except.exists_of_mapM_eq_ok hfailures c hc
  refine ⟨f, hf, ?_⟩
  rcases hcause with ⟨t, d, hname, rfl⟩ | ⟨e, hfield, hshown, rfl⟩
  · obtain ⟨message, -, rfl⟩ := Complaint.failure_unmet hfailure
    exact ⟨congrArg Value.text hname, by rw [List.nil_append, fieldName_text]⟩
  -- of two names that are texts only the same one is shown alike
  · obtain ⟨m, hm⟩ : ∃ m, e.1 = .text m := by
      have htext := ht.self.names e hfield
      cases hname : e.1 <;> simp_all [Value.isText]
    rw [hm] at hshown hfailure
    rw [failure_missing_text hfailure, Value.eq_of_shown_text hshown]
    exact ⟨rfl, rfl⟩

/-- A record refuses the absence of such a field, and its null where nothing stands in for that. -/
theorem Reachable.validate_required_field {n : String} (h : s.Reachable)
    (hrequired : s.isRequired = true) (hdefault : s.default? = none)
    (hconditions : s.conditions = []) (ho : o.Reachable) (he : (.text n, s) ∈ o.fields)
    (hv : record.get? (.text n) = none ∨ record.get? (.text n) = some .null ∧ s.fields = []) :
    (∀ all w, o.validate (.map record) all ≠ .ok w) ∧
      (o.Everywhere IsTextual → ∀ all, ∃ failures,
        o.validate (.map record) all = .error (.invalid failures) ∧
        (all = true → ∃ f ∈ failures, f.error = .text "required" ∧
          f.field = if n = "" then Failure.root else n)) := by
  obtain ⟨r, hcast, hget⟩ :=
    ho.isSound.exists_cast_map he hconditions (by simp [Value.same]) record
  have hv' : r.get? (.text n) = none ∨ r.get? (.text n) = some .null := by
    rcases hv with hv | ⟨hv, hfields⟩
    · exact .inl (by rw [hget, hv, fill, hdefault])
    · exact .inr (by rw [hget, hv, fill, cast, absent_of_fields_eq_nil hdefault hfields])
  have hne : ∀ all w, o.validate (.map record) all ≠ .ok w := by
    intro all w
    rw [validate_eq_judge, hcast]
    exact h.judge_ne_ok_of_required hrequired ho he hv' w
  refine ⟨hne, fun ht all => ?_⟩
  rcases answers_of_isTextual ho ht with ⟨w, hw⟩ | ⟨failures, hfailures⟩
  · exact absurd hw (hne all w)
  · refine ⟨failures, hfailures, ?_⟩
    rintro rfl
    rw [validate_eq_judge, hcast] at hfailures
    exact h.exists_required_failure hrequired ho ht he hv' (failures_of_judge rfl hfailures)

/-- Null is refused where a value is demanded, unless an empty record that is described stands in
for it. A record refuses the absence of such a field, and its null if nothing stands in for that. In
all that is reported the field is named. Where an empty record stands in for the null, nothing is
complained of at the field or below exactly if that is described. -/
theorem Reachable.required_spec (h : s.Reachable) (hrequired : s.isRequired = true)
    (hdefault : s.default? = none) (hconditions : s.conditions = []) :
    (∀ all, s.fields = [] →
      s.validate .null all = .error (.invalid [.missing Failure.root])) ∧
    (∀ all, (∃ w, s.validate .null all = .ok w) ↔ s.fields ≠ [] ∧ s.admits (.map []) = true) ∧
    ∀ (o : Schema) (n : String) (record : Entries Value), o.Reachable →
      (.text n, s) ∈ o.fields →
      (record.get? (.text n) = none ∨ record.get? (.text n) = some .null ∧ s.fields = [] →
        (∀ all w, o.validate (.map record) all ≠ .ok w) ∧
        (o.Everywhere IsTextual → ∀ all, ∃ failures,
          o.validate (.map record) all = .error (.invalid failures) ∧
          (all = true → ∃ f ∈ failures, f.error = .text "required" ∧
            f.field = if n = "" then Failure.root else n))) ∧
      (record.get? (.text n) = some .null → s.fields ≠ [] → ∃ r : Entries Value,
        o.cast (.map record) = .map r ∧ r.get? (.text n) = some (.map []) ∧
        ((∀ c ∈ o.complaints [] (.map r), ¬ c.IsAt (.text n)) ↔ s.admits (.map []) = true)) := by
  have hrefused : ∀ all, s.fields = [] →
      s.validate .null all = .error (.invalid [.missing Failure.root]) := by
    intro all hfields
    rw [validate_eq_judge, cast, absent_of_fields_eq_nil hdefault hfields, judge, hrequired]
    rfl
  refine ⟨hrefused, fun all => ?_, fun o n record ho he => ⟨?_, ?_⟩⟩
  · by_cases hfields : s.fields = []
    · simp [hrefused all hfields, hfields]
    · rw [validate_eq_judge, cast, absent_of_fields_ne_nil h.isSound hdefault hfields]
      simp only [judge_eq_ok_iff h.everywhere_isSound, Value.isNull, exists_eq_left]
      simp [hfields]
  · exact h.validate_required_field hrequired hdefault hconditions ho he
  · exact ho.exists_cast_null he hdefault hconditions

theorem required_spec_of_parcel :
    ((Schema.ofKind .string).required .null).validate .null true =
        .error (.invalid [.missing Failure.root]) ∧
      ∃ failures, parcel.validate (.map [(.text "weight", .int 3)]) true =
          .error (.invalid failures) ∧
        ∃ f ∈ failures, f.error = .text "required" ∧ f.field = "size" := by
  have hsize : ((Schema.ofKind .string).required .null).Reachable :=
    .required (.ofKind .string) .null
  obtain ⟨hnull, -, hfield⟩ := hsize.required_spec rfl rfl rfl
  obtain ⟨failures, hfailures, hnamed⟩ :=
    ((hfield parcel "size" [(.text "weight", .int 3)] reachable_parcel (.head _)).1
      (.inl rfl)).2 isTextual_parcel true
  exact ⟨hnull true rfl, failures, hfailures, hnamed rfl⟩

/-- A record with one field. -/
def letter : Schema := (Schema.ofKind .object).withFields [(.text "a", .ofKind .string)]

theorem reachable_letter : letter.Reachable :=
  .withFields (.ofKind .object) rfl (List.forall_mem_singleton.2 rfl)
    (List.forall_mem_singleton.2 (.ofKind .string))

/-- A record with one field, which is another schema's. -/
def envelope (s : Schema) : Schema := (Schema.ofKind .object).withFields [(.text "n", s)]

theorem reachable_envelope (h : s.Reachable) : (envelope s).Reachable :=
  .withFields (.ofKind .object) rfl (List.forall_mem_singleton.2 rfl)
    (List.forall_mem_singleton.2 h)

theorem validate_required_letter_null :
    (envelope (letter.required .null)).Reachable ∧
      (letter.required .null).validate .null false = .ok (.map []) ∧
      (envelope (letter.required .null)).validate (.map [(.text "n", .null)]) false =
        .ok (.map [(.text "n", .map [])]) :=
  ⟨reachable_envelope (.required reachable_letter .null), rfl, rfl⟩

/-! ## Accepted nulls -/

theorem admits_null_iff (hnullable : s.isNullable = true)
    (htests : ∀ test ∈ ["required", "one_of", "not_one_of", "is_true", "is_false"],
      test ∉ s.testNames) : s.admits .null = true ↔ "integer" ∉ s.testNames := by
  have hadmits : ∀ t ∈ s.tests, (t.rule.admits .null = true ↔ t.name ≠ "integer") := by
    intro t ht
    refine Rule.admits_null_iff fun hname => ?_
    exact htests t.name hname (List.mem_map_of_mem ht)
  have htestsAll : s.tests.all (·.rule.admits .null) = true ↔ "integer" ∉ s.testNames := by
    rw [List.all_eq_true, testNames, List.mem_map]
    constructor
    · rintro hall ⟨t, ht, hname⟩
      exact (hadmits t ht).1 (hall t ht) hname
    · intro hnone t ht
      exact (hadmits t ht).2 fun hname => hnone ⟨t, ht, hname⟩
  rw [admits_eq, Bool.and_eq_true, Bool.and_eq_true, htestsAll]
  cases s.kind <;> simp [hnullable, Value.isNull]

/-- Where a field is nullable and has no default, nothing is complained of at its null or below
exactly if no whole number is demanded. The null is kept when it is cast exactly if the field's
schema has no fields. Else an empty record stands in for it, and nothing is complained of there
exactly if that is described. -/
theorem Reachable.nullable_spec (h : o.Reachable) (he : (name, s) ∈ o.fields)
    (hnullable : s.isNullable = true) (hoptional : s.isRequired = false)
    (hdefault : s.default? = none) (hconditions : s.conditions = [])
    (htests : ∀ test ∈ ["one_of", "not_one_of", "is_true", "is_false"], test ∉ s.testNames)
    (hv : record.get? name = some .null) :
    (∀ v, o.failures v true = (o.complaints [] v).mapM Complaint.failure) ∧
    ((∀ c ∈ o.complaints [] (.map record), ¬ c.IsAt name) ↔ "integer" ∉ s.testNames) ∧
    ∃ r : Entries Value, o.cast (.map record) = .map r ∧
      (r.get? name = some .null ↔ s.fields = []) ∧
      (s.fields = [] →
        ((∀ c ∈ o.complaints [] (.map r), ¬ c.IsAt name) ↔ "integer" ∉ s.testNames)) ∧
      (s.fields ≠ [] → r.get? name = some (.map []) ∧
        ((∀ c ∈ o.complaints [] (.map r), ¬ c.IsAt name) ↔ s.admits (.map []) = true)) := by
  have hsound := h.everywhere_isSound
  have hs : s.Reachable := (h.everywhere.field he).self
  have hrequired : "required" ∉ s.testNames := fun hmem => by
    simp [hs.isRequired_iff.2 hmem] at hoptional
  have hnull : s.admits .null = true ↔ "integer" ∉ s.testNames :=
    admits_null_iff hnullable (List.forall_mem_cons.2 ⟨hrequired, htests⟩)
  refine ⟨fun v => failures_eq hsound v true,
    (not_isAt_iff_admits hsound he hconditions hv).trans hnull, ?_⟩
  by_cases hfields : s.fields = []
  · obtain ⟨r, hcast, hget⟩ :=
      hsound.self.exists_cast_map he hconditions (hsound.self.same_self_of_get? he hv) record
    rw [hv, fill, cast, absent_of_fields_eq_nil hdefault hfields] at hget
    exact ⟨r, hcast, iff_of_true hget hfields,
      fun _ => (not_isAt_iff_admits hsound he hconditions hget).trans hnull,
      fun hne => absurd hfields hne⟩
  · obtain ⟨r, hcast, hget, hat⟩ := h.exists_cast_null he hdefault hconditions hv hfields
    have hne : r.get? name ≠ some .null := by simp [hget]
    exact ⟨r, hcast, iff_of_false hne hfields, fun hnil => absurd hnil hfields,
      fun _ => ⟨hget, hat⟩⟩

/-- A text that may be null, and is short if it is not. -/
theorem nullable_spec_of_short_text :
    ∃ r : Entries Value, (envelope ((Schema.ofKind .string).nullable.withRule (.maxLength (.int 9))
        .null)).cast (.map [(.text "n", .null)]) = .map r ∧
      r.get? (.text "n") = some .null ∧
      ∀ c ∈ (envelope ((Schema.ofKind .string).nullable.withRule (.maxLength (.int 9))
        .null)).complaints [] (.map r), ¬ c.IsAt (.text "n") := by
  have hshort : ((Schema.ofKind .string).nullable.withRule (.maxLength (.int 9)) .null).Reachable :=
    .rule (.nullable (.ofKind .string)) (show Method.max ∈ _ by decide)
      (show Context.rule? .max .string (.int 9) = _ from rfl) .null
  obtain ⟨-, -, r, hcast, hkept, hnone, -⟩ :=
    (reachable_envelope hshort).nullable_spec (.head _) rfl rfl rfl rfl (by decide)
      (show Entries.get? [(.text "n", Value.null)] (.text "n") = some .null from rfl)
  exact ⟨r, hcast, hkept.2 rfl, (hnone rfl).2 (by decide)⟩

theorem validate_nullable_null_ne :
    (envelope letter.nullable).Reachable ∧
      (envelope letter.nullable).cast (.map [(.text "n", .null)]) =
        .map [(.text "n", .map [])] ∧
      (envelope ((Schema.ofKind .number).nullable.withRule .integer .null)).Reachable ∧
      ∃ f, (envelope ((Schema.ofKind .number).nullable.withRule .integer .null)).failures
          (.map [(.text "n", .null)]) true = .ok [f] ∧ f.field = "n" := by
  have hwhole : ((Schema.ofKind .number).nullable.withRule .integer .null).Reachable :=
    .fixedRule (.nullable (.ofKind .number)) (show Method.integer ∈ _ by decide) rfl .null
  exact ⟨reachable_envelope (.nullable reachable_letter), rfl, reachable_envelope hwhole, _, rfl,
    rfl⟩

end Schema

end FieldSchema
