import FieldSchema.Proofs.Reports

/-!
# Compiled documents mean what the schema says

The document of a schema finds in a value what the schema complains of, in the same order, and is
never stopped (`Schema.reports_document`). So what is collected are the failures of the complaints
(`Schema.collect_document`).
-/

namespace FieldSchema

open Document

variable {foreign : ForeignKeywords} {path : List Value} {v document : Value}
  {chosen other : Findings}

/-! ## Tests -/

/-- The entries of a test's document. -/
def Test.entries (t : Test) : List (Value × Value) :=
  t.rule.demands.map (fun d => (.text d.keyword.name, d.argument)) ++
    [(.text "$comment", .text t.name), (.text "errorMessage", t.message)]

theorem Test.fragment_eq (t : Test) : t.fragment = .map t.entries := by
  simp [fragment, entries, Rule.keywords_eq_demands]

theorem Keyword.name_injective : Function.Injective Keyword.name := fun k k' h =>
  Option.some.inj (by rw [← ofKey?_name k, h, ofKey?_name])

theorem Keyword.name_ne_annotation (k : Keyword) :
    k.name ≠ "$comment" ∧ k.name ≠ "errorMessage" ∧ k.name ≠ referenceName := by
  cases k <;> decide

theorem Test.get?_demands (t : Test) {name : String} (hname : ∀ k : Keyword, k.name ≠ name) :
    Entries.get? (t.rule.demands.map fun d => (Value.text d.keyword.name, d.argument))
      (.text name) = none := by
  simp only [Entries.get?_eq_none_iff, List.mem_map]
  rintro _ ⟨d, -, rfl⟩
  simpa [Value.same] using (hname d.keyword).symm

theorem Test.annotations (t : Test) (path : List Value) (v : Value) (k : Option String)
    (argument : Value) (objection : String) :
    Violation.annotation ⟨path, v, t.fragment, k, argument, objection⟩ "$comment" =
        some (.text t.name) ∧
      Violation.annotation ⟨path, v, t.fragment, k, argument, objection⟩ "errorMessage" =
        some t.message := by
  simp only [Test.fragment_eq, Violation.annotation, Test.entries, Entries.named?,
    Entries.get?_append, t.get?_demands fun k => k.name_ne_annotation.1,
    t.get?_demands fun k => k.name_ne_annotation.2.1, Option.none_or]
  exact ⟨rfl, rfl⟩

/-- The document of a test does not stand for another one. -/
theorem Test.reference?_entries (t : Test) : reference? t.entries = none := by
  refine reference?_eq_none ?_
  rw [Test.entries, Entries.get?_append, t.get?_demands fun k => k.name_ne_annotation.2.2]
  rfl

/-- A violation of a test's document is reported as the complaint of the demand. -/
theorem Test.failure_eq {t : Test} (ht : t.message.isTruthy = true) (d : Demand)
    (objection : String) :
    Violation.failure ⟨path, v, t.fragment, some d.keyword.name, d.argument, objection⟩ =
      (Complaint.unmet path t d v).failure := by
  obtain ⟨hcomment, hmessage⟩ := t.annotations path v (some d.keyword.name) d.argument objection
  have hrequired : d.keyword.name ≠ Keyword.required.name :=
    Keyword.name_injective.ne (by cases d <;> simp [Demand.keyword])
  have hfilled : ∀ field, Violation.message
      ⟨path, v, t.fragment, some d.keyword.name, d.argument, objection⟩ field =
        Complaint.filledMessage field t.message := by
    intro field
    simp only [Violation.message, hmessage, ht, if_true]
    cases t.message <;> rfl
  simp only [Violation.failure, hcomment, hfilled, Option.some.injEq, hrequired, if_false,
    Option.isNone_some, Bool.and_false, Bool.false_eq_true, Option.getD_some, Complaint.failure,
    Complaint.fieldName]
  cases Complaint.filledMessage _ t.message <;> rfl

theorem Demand.accepts_negated {d : Demand} (hd : d.keyword = .not) :
    ∃ b, (checkWith foreign path v d.argument).accepts = .ok b ∧ d.isMetBy v = !b := by
  cases d with
  | notNull =>
    have hv : v.isOfTypes [.text "null"] = .ok v.isNull := by cases v <;> rfl
    exact ⟨v.isNull, accepts_single (k := .type) (by decide) (Keyword.typeObjection_spec rfl hv),
      rfl⟩
  | notAmong values =>
    exact ⟨_, accepts_single (k := .enum) (by decide) (isObjectionTo_of_ite _ _), rfl⟩
  | _ => simp [keyword] at hd

/-- The keyword of a test's demand finds that the demand is not met. -/
theorem Test.reports_demand {t : Test} (ht : t.message.isTruthy = true) {d : Demand}
    (hd : d.IsReadable) :
    (checkEntry foreign path v t.fragment chosen other (.text d.keyword.name, d.argument)).Reports
      (if d.isMetBy v then [] else [.unmet path t d v]) := by
  -- the keyword for what must not be holds a document, every other one a plain argument
  by_cases hnot : d.keyword = .not
  · have hcheck : checkEntry foreign path v t.fragment chosen other
        (.text d.keyword.name, d.argument) =
        checkNot path v t.fragment d.argument (checkWith foreign path v d.argument) := by
      rw [hnot]
      unfold checkEntry checkEntries
      exact Findings.append_none
    have hinner : ∃ b, (checkWith foreign path v d.argument).accepts = .ok b ∧ d.isMetBy v = !b :=
      Demand.accepts_negated hnot
    obtain ⟨b, haccepts, hmet⟩ := hinner
    rw [hcheck, checkNot, haccepts, hmet]
    cases b with
    | true =>
      refine Findings.reports_one ?_
      rw [← hnot]
      exact Test.failure_eq ht d _
    | false => exact Findings.reports_none
  · have hplain : d.keyword ≠ .not ∧ d.keyword ≠ .choice ∧ d.keyword ≠ .allOf ∧
        d.keyword ≠ .properties ∧ d.keyword ≠ .required := by
      refine ⟨hnot, ?_⟩
      cases d <;> simp [Demand.keyword]
    rw [checkEntry_plain hplain]
    obtain ⟨objection, hcheck⟩ := checkKeyword_of_objection (Demand.objection?_spec hd hnot v)
    rw [hcheck]
    split
    · exact Findings.reports_none
    · exact Findings.reports_one (Test.failure_eq ht d objection)

theorem Test.reports_demands {t : Test} (ht : t.message.isTruthy = true) {demands : List Demand}
    (h : ∀ d ∈ demands, d.IsReadable) :
    (checkEntries foreign path v t.fragment chosen other
      (demands.map fun d => (.text d.keyword.name, d.argument))).Reports
      ((demands.filter fun d => !d.isMetBy v).map fun d => .unmet path t d v) := by
  induction demands with
  | nil => exact Findings.reports_none
  | cons d demands ih =>
    rw [List.map_cons, checkEntries_cons, List.filter_cons]
    have hd : (checkEntry foreign path v t.fragment chosen other
        (.text d.keyword.name, d.argument)).Reports
        (if d.isMetBy v then [] else [.unmet path t d v]) :=
      t.reports_demand ht (h d List.mem_cons_self)
    have hrest := hd.append (ih fun d hd => h d (List.mem_cons_of_mem _ hd))
    cases hmet : d.isMetBy v <;> simpa [hmet] using hrest

/-- The document of a test finds which of its demands are not met. -/
theorem Test.reports_fragment {t : Test} (ht : t.message.isTruthy = true)
    (hr : t.rule.IsReadable) :
    (checkWith foreign path v t.fragment).Reports (t.complaints path v) := by
  have hcheck : ∃ chosen other, checkWith foreign path v t.fragment =
      checkEntries foreign path v t.fragment chosen other t.entries := by
    rw [Test.fragment_eq, checkWith_map t.reference?_entries]
    exact ⟨_, _, rfl⟩
  obtain ⟨chosen, other, hcheck⟩ := hcheck
  have hnotes : checkEntries foreign path v t.fragment chosen other
      [(.text "$comment", .text t.name), (.text "errorMessage", t.message)] = .none := rfl
  rw [hcheck, Test.entries, checkEntries_append, hnotes, Findings.append_none]
  exact t.reports_demands ht (Rule.isReadable_demands hr)

/-! ## Types -/

namespace Schema

/-- The argument of the type keyword. -/
def typeArgument (kind : Kind) (isNullable : Bool) : Value :=
  if isNullable then .list [.text kind.name, .text "null"] else .text kind.name

theorem typeEntry_eq {kind : Kind} (h : kind ≠ .mixed) (isNullable : Bool) :
    typeEntry kind isNullable = [(.text Keyword.type.name, typeArgument kind isNullable)] := by
  cases kind <;> simp_all [typeEntry, typeArgument, Kind.typeName?, Keyword.name]

theorem typeObjection_typeArgument {kind : Kind} (h : kind ≠ .mixed) (isNullable : Bool)
    (v : Value) : IsObjectionTo (kind.describes v || isNullable && v.isNull)
      (Keyword.objection? .type (typeArgument kind isNullable) v) := by
  have hkind := Kind.hasType?_name h v
  have hnull : v.hasType? "null" = some v.isNull := rfl
  cases isNullable with
  | false =>
    refine Keyword.typeObjection_spec (show _ = Except.ok [.text kind.name] from rfl) ?_
    cases hd : kind.describes v <;> simp [Value.isOfTypes, Value.isOfType, hkind, hd]
  | true =>
    refine Keyword.typeObjection_spec
      (show _ = Except.ok [.text kind.name, .text "null"] from rfl) ?_
    cases hd : kind.describes v <;> cases hn : v.isNull <;>
      simp [Value.isOfTypes, Value.isOfType, hkind, hnull, hd, hn]

theorem failure_typeArgument {objection : String} (kind : Kind) (isNullable : Bool)
    (h : Violation.annotation ⟨path, v, document, some Keyword.type.name,
      typeArgument kind isNullable, objection⟩ "$comment" = none) :
    Violation.failure ⟨path, v, document, some Keyword.type.name, typeArgument kind isNullable,
        objection⟩ =
      (Complaint.wrongKind path kind isNullable v).failure := by
  have htypes : Violation.admittedTypes (typeArgument kind isNullable) =
      .text (Complaint.typesText kind isNullable) := by
    cases isNullable <;> cases kind <;> rfl
  simp [Violation.failure, h, htypes, Complaint.failure, Complaint.fieldName, Value.plain]
  rfl

/-- The type keyword of a document finds whether the value is of the kind. -/
theorem reports_typeEntry (kind : Kind) (isNullable : Bool)
    (h : ∀ argument objection, Violation.annotation
      ⟨path, v, document, some Keyword.type.name, argument, objection⟩ "$comment" = none) :
    (checkEntries foreign path v document chosen other (typeEntry kind isNullable)).Reports
      (kindComplaints path v kind isNullable) := by
  by_cases hmixed : kind = .mixed
  · rw [hmixed]
    exact Findings.reports_none
  · rw [typeEntry_eq hmixed]
    show (checkEntry foreign path v document chosen other _).Reports _
    rw [checkEntry_plain (by decide)]
    have hobjection := typeObjection_typeArgument hmixed isNullable v
    obtain ⟨objection, hcheck⟩ : ∃ objection, checkKeyword path v document .type _ = _ :=
      checkKeyword_of_objection hobjection
    rw [hcheck, kindComplaints]
    split
    · exact Findings.reports_none
    · exact Findings.reports_one (failure_typeArgument kind isNullable (h _ objection))

/-! ## Required fields -/

variable {record : Entries Value} {names : List Value}

/-- The property that a violation is about is the first absent one that is shown as it says. -/
theorem missingProperty_required {name property : Value} (hkeys : ∀ n ∈ names, n.isKey = true)
    (hfind : (names.filter fun n => !record.has n).find? (name.shown = ·.shown) = some property) :
    Violation.missingProperty ⟨path, .map record, document, some Keyword.required.name, .list names,
      name.shown ++ " is a required property"⟩ = .ok property := by
  have hnone : names.find? (!·.isKey) = none := by
    rw [List.find?_eq_none]
    intro n hn
    simp [hkeys n hn]
  simp only [Violation.missingProperty, Value.items, Value.items?, bind, Except.bind, hnone,
    String.append_left_inj, hfind]
  rfl

/-- The violation of an absent field is reported as the complaint of the first absent field that is
shown alike. -/
theorem failure_required {name : Value} (hkeys : ∀ n ∈ names, n.isKey = true)
    (hname : name ∈ names.filter fun n => !record.has n) :
    Violation.failure ⟨path, .map record, document, some Keyword.required.name, .list names,
      name.shown ++ " is a required property"⟩ =
      (Complaint.missing path (((names.filter fun n => !record.has n).find?
        (name.shown = ·.shown)).getD name)).failure := by
  have hsome : ∃ n, (names.filter fun n => !record.has n).find? (name.shown = ·.shown) = some n :=
    Option.isSome_iff_exists.1 (List.find?_isSome.2 ⟨name, hname, by simp⟩)
  obtain ⟨n, hn⟩ := hsome
  simp only [Violation.failure, if_true, missingProperty_required hkeys hn, hn, Option.getD_some,
    Complaint.failure, bind, Except.bind]
  cases Violation.propertyPath path n <;> rfl

theorem reports_checkRequired (hkeys : ∀ n ∈ names, n.isKey = true) :
    ∀ rest : List Value, (∀ n ∈ rest, n ∈ names) →
      (checkRequired path (.map record) document (.list names) record rest).Reports
        ((rest.filter fun n => !record.has n).map fun name =>
          .missing path (((names.filter fun n => !record.has n).find?
            (name.shown = ·.shown)).getD name))
  | [], _ => Findings.reports_none
  | name :: rest, hrest => by
    have hname := hrest name List.mem_cons_self
    have ih := reports_checkRequired hkeys rest fun n hn => hrest n (List.mem_cons_of_mem _ hn)
    simp only [checkRequired, hkeys name hname, Bool.not_true, Bool.false_eq_true, if_false,
      List.filter_cons]
    cases hhas : record.has name with
    | true => exact Findings.reports_none.append ih
    | false =>
      have habsent : name ∈ names.filter fun n => !record.has n :=
        List.mem_filter.2 ⟨hname, by simp [hhas]⟩
      exact (Findings.reports_one (failure_required hkeys habsent)).append ih

/-- The keyword of required fields finds which of them a record does not have. -/
theorem reports_requiredEntry (hkeys : ∀ n ∈ names, n.isKey = true) :
    (checkEntries foreign path (.map record) document chosen other
      (listEntry "required" names)).Reports (missingComplaints path record names) := by
  unfold listEntry
  split
  · rename_i hnames
    rw [List.isEmpty_iff.1 hnames]
    exact Findings.reports_none
  · have hcheck : checkEntries foreign path (.map record) document chosen other
        [(.text "required", .list names)] =
          checkRequired path (.map record) document (.list names) record names ++ .none := rfl
    rw [hcheck, Findings.append_none]
    exact reports_checkRequired hkeys names fun _ h => h

/-! ## Documents of schemas -/

/-- The entries of a schema's document. -/
def documentEntries (s : Schema) : List (Value × Value) :=
  typeEntry s.kind s.isNullable ++ titleEntry s.label ++ defaultEntry s.default? ++
    recordEntries (s.tests.map (·.fragment)) (fieldDocuments s.fields) (requiredNames s.fields)
      (fieldConditionals s.fields)

theorem document_eq (s : Schema) : s.document = .map s.documentEntries := by
  cases s
  rfl

theorem fieldDocuments_eq (fields : List (Value × Schema)) :
    fieldDocuments fields = fields.map fun e => (e.1, e.2.document) := by
  induction fields with
  | nil => rfl
  | cons e fields ih => rw [fieldDocuments, ih, List.map_cons]

theorem fieldConditionals_eq (fields : List (Value × Schema)) :
    fieldConditionals fields = fields.flatMap fun e => e.2.conditionals e.1 := by
  induction fields with
  | nil => rfl
  | cons e fields ih => rw [fieldConditionals, ih, List.flatMap_cons]

/-- The document of a record's field under a schema. -/
def branchOf (name : Value) (s : Schema) : Value :=
  branchDocument name s.isRequired s.document (s.conditionals name)

theorem conditionals_eq (name : Value) (s : Schema) :
    s.conditionals name = s.conditions.map fun c =>
      choiceDocument (matchDocument c.sibling c.expected) (c.chosen.branchOf name)
        (c.other.branchOf name) := by
  have hchoices : ∀ conditions : List Condition, choices name conditions =
      conditions.map fun c => choiceDocument (matchDocument c.sibling c.expected)
        (c.chosen.branchOf name) (c.other.branchOf name) := by
    intro conditions
    induction conditions with
    | nil => rfl
    | cons c conditions ih =>
      obtain ⟨sibling, expected, chosen, other⟩ := c
      rw [choices, ih]
      rfl
  cases s
  rw [conditionals, hchoices]

/-- That the document of a schema finds what the schema complains of, and so do those of the
conditions of a field that has the schema. -/
structure Compiles (foreign : ForeignKeywords) (s : Schema) : Prop where
  document : ∀ path v, (checkWith foreign path v s.document).Reports (s.complaints path v)
  conditionals : ∀ path record name, name.isKey = true →
    (checkAll foreign path (.map record) (s.conditionals name)).Reports
      (s.ownChoiceComplaints path record name)
  conditionals_of_not_isMap : ∀ path v name, v.isMap = false →
    (checkAll foreign path v (s.conditionals name)).Reports []

theorem reports_checkProperties {fields : List (Value × Schema)}
    (h : ∀ e ∈ fields, e.2.Compiles foreign) :
    (checkProperties foreign path record (fieldDocuments fields)).Reports
      (fieldComplaints path record fields) := by
  induction fields with
  | nil => exact Findings.reports_none
  | cons e fields ih =>
    obtain ⟨name, field⟩ := e
    have ih := ih fun e he => h e (List.mem_cons_of_mem _ he)
    rw [fieldDocuments, fieldComplaints, checkProperties]
    refine Findings.Reports.append ?_ ih
    cases record.get? name with
    | none => exact Findings.reports_none
    | some v =>
      have hfield := (h (name, field) List.mem_cons_self).document (path ++ [name]) v
      rw [document_eq] at hfield ⊢
      exact hfield

theorem checkEntries_allOf (documents : List Value) :
    checkEntries foreign path v document chosen other (listEntry "allOf" documents) =
      checkAll foreign path v documents := by
  unfold listEntry
  split
  · rename_i hdocuments
    rw [List.isEmpty_iff.1 hdocuments]
    rfl
  · exact Findings.append_none

/-- The document of a condition accepts the records that the condition is met in. -/
theorem accepts_matchDocument {c : Condition} (hk : c.sibling.isKey = true) :
    (checkWith foreign path (.map record) (matchDocument c.sibling c.expected)).accepts =
      .ok (c.isMetIn record) := by
  have hcheck : checkWith foreign path (.map record) (matchDocument c.sibling c.expected) =
      checkProperties foreign path record [(c.sibling, .map [(.text "const", c.expected)])] ++
        (checkRequired path (.map record) (matchDocument c.sibling c.expected)
          (.list [c.sibling]) record [c.sibling] ++ .none) := rfl
  rw [hcheck, Condition.isMetIn]
  simp only [checkProperties, checkRequired, hk, Entries.has, Bool.not_true, Bool.false_eq_true,
    if_false, Findings.append_none]
  rcases Option.eq_none_or_eq_some (record.get? c.sibling) with hget | ⟨v, hget⟩
  · simp only [hget]
    rfl
  · have hconst : (checkWith foreign (path ++ [c.sibling]) v
        (.map [(.text "const", c.expected)])).accepts = .ok (v.alike c.expected) :=
      accepts_single (k := .const) (by decide) (Keyword.constObjection_spec v c.expected)
    simp only [hget, Option.isSome_some, if_true, Findings.append_none]
    exact hconst

theorem get?_listEntry {keyword key : String} (h : keyword ≠ key) (items : List Value) :
    Entries.get? (listEntry keyword items) (.text key) = none := by
  unfold listEntry
  split
  · rfl
  · simp [Entries.get?_cons, Value.same, h.symm]
    rfl

/-- The document of a field within a record does not stand for another one. -/
theorem reference?_branchOf (s : Schema) (name : Value) :
    reference? ([(.text "properties", .map [(name, s.document)])] ++
      (if s.isRequired then listEntry "required" [name] else []) ++
        listEntry "allOf" (s.conditionals name)) = none := by
  have hrequired := get?_listEntry (show "required" ≠ Keyword.referenceName by decide) [name]
  have hallOf := get?_listEntry (show "allOf" ≠ Keyword.referenceName by decide)
    (s.conditionals name)
  refine reference?_eq_none ?_
  rw [Entries.get?_append, Entries.get?_append, hallOf]
  split
  · rw [hrequired]
    rfl
  · rfl

theorem check_branchOf (s : Schema) (name : Value) (path : List Value) (v : Value) :
    ∃ chosen other, checkWith foreign path v (s.branchOf name) =
      checkEntries foreign path v (s.branchOf name) chosen other
          [(.text "properties", .map [(name, s.document)])] ++
        checkEntries foreign path v (s.branchOf name) chosen other
          (if s.isRequired then listEntry "required" [name] else []) ++
        checkAll foreign path v (s.conditionals name) := by
  have hentries : ∀ chosen other, checkEntries foreign path v (s.branchOf name) chosen other
      ([(.text "properties", .map [(name, s.document)])] ++
        (if s.isRequired then listEntry "required" [name] else []) ++
        listEntry "allOf" (s.conditionals name)) =
      checkEntries foreign path v (s.branchOf name) chosen other
          [(.text "properties", .map [(name, s.document)])] ++
        checkEntries foreign path v (s.branchOf name) chosen other
          (if s.isRequired then listEntry "required" [name] else []) ++
        checkAll foreign path v (s.conditionals name) := fun chosen other => by
    rw [checkEntries_append, checkEntries_append, checkEntries_allOf]
  exact ⟨_, _, (checkWith_map (s.reference?_branchOf name)).trans (hentries _ _)⟩

/-- The document of a record's field finds what is complained of in the field. -/
theorem reports_branchOf {s : Schema} (h : s.Compiles foreign) {name : Value}
    (hname : name.isKey = true) : (checkWith foreign path (.map record) (s.branchOf name)).Reports
      (s.complaintsIn path record name) := by
  obtain ⟨chosen, other, hcheck⟩ := check_branchOf s name path (.map record)
  rw [hcheck, complaintsIn, branchComplaints]
  refine Findings.Reports.append (Findings.Reports.append ?_ ?_)
    (h.conditionals path record name hname)
  · have hfields : (checkProperties foreign path record (fieldDocuments [(name, s)])).Reports
        (fieldComplaints path record [(name, s)]) := reports_checkProperties (by simpa using h)
    rw [fieldDocuments, fieldDocuments, fieldComplaints, fieldComplaints,
      List.append_nil] at hfields
    have hproperties : checkEntries foreign path (.map record) (s.branchOf name) chosen other
        [(.text "properties", .map [(name, s.document)])] =
          checkProperties foreign path record [(name, s.document)] ++ .none := rfl
    rw [hproperties, Findings.append_none]
    exact hfields
  · split
    · exact reports_requiredEntry (by simpa using hname)
    · exact Findings.reports_none

theorem reports_branchOf_of_not_isMap {s : Schema} (h : s.Compiles foreign) {name : Value}
    (hv : v.isMap = false) : (checkWith foreign path v (s.branchOf name)).Reports [] := by
  obtain ⟨chosen, other, hcheck⟩ := check_branchOf s name path v
  rw [hcheck, show ([] : List Complaint) = [] ++ [] ++ [] from rfl]
  refine Findings.Reports.append (Findings.Reports.append ?_ ?_)
    (h.conditionals_of_not_isMap path v name hv)
  · cases v with
    | map _ => cases hv
    | _ => exact Findings.reports_none
  · split
    · cases v with
      | map _ => cases hv
      | _ => exact Findings.reports_none
    · exact Findings.reports_none

theorem reports_choices {name : Value} {complaints : Condition → List Complaint}
    {conditions : List Condition}
    (h : ∀ c ∈ conditions,
      (checkChoice (checkWith foreign path v (matchDocument c.sibling c.expected))
        (checkWith foreign path v (c.chosen.branchOf name))
        (checkWith foreign path v (c.other.branchOf name))).Reports (complaints c)) :
    (checkAll foreign path v (conditions.map fun c =>
      choiceDocument (matchDocument c.sibling c.expected) (c.chosen.branchOf name)
        (c.other.branchOf name))).Reports (conditions.flatMap complaints) := by
  induction conditions with
  | nil => exact Findings.reports_none
  | cons c conditions ih =>
    rw [List.map_cons, List.flatMap_cons]
    have hc := h c List.mem_cons_self
    have hcheck : checkWith foreign path v (choiceDocument (matchDocument c.sibling c.expected)
        (c.chosen.branchOf name) (c.other.branchOf name)) =
          checkChoice (checkWith foreign path v (matchDocument c.sibling c.expected))
            (checkWith foreign path v (c.chosen.branchOf name))
            (checkWith foreign path v (c.other.branchOf name)) :=
      Findings.append_none
    rw [← hcheck] at hc
    exact Findings.Reports.append hc (ih fun c hc => h c (List.mem_cons_of_mem _ hc))

variable {s : Schema}

theorem reports_conditionals {name : Value} (hname : name.isKey = true)
    (hkeys : ∀ c ∈ s.conditions, c.sibling.isKey = true)
    (h : ∀ c ∈ s.conditions, c.chosen.Compiles foreign ∧ c.other.Compiles foreign) :
    (checkAll foreign path (.map record) (s.conditionals name)).Reports
      (s.ownChoiceComplaints path record name) := by
  rw [conditionals_eq, ownChoiceComplaints_eq]
  refine reports_choices fun c hc => ?_
  rw [checkChoice, accepts_matchDocument (hkeys c hc), Condition.branch]
  cases c.isMetIn record with
  | true => exact reports_branchOf (h c hc).1 hname
  | false => exact reports_branchOf (h c hc).2 hname

theorem reports_conditionals_of_not_isMap {name : Value}
    (h : ∀ c ∈ s.conditions, c.chosen.Compiles foreign) (hv : v.isMap = false) :
    (checkAll foreign path v (s.conditionals name)).Reports [] := by
  have hnil : s.conditions.flatMap (fun _ => ([] : List Complaint)) = [] := by simp
  rw [conditionals_eq, ← hnil]
  refine reports_choices fun c hc => ?_
  have hmatch : checkWith foreign path v (matchDocument c.sibling c.expected) = .none := by
    cases v with
    | map _ => cases hv
    | _ => rfl
  rw [hmatch]
  exact reports_branchOf_of_not_isMap (h c hc) hv

theorem reports_tests {tests : List Test} (hr : ∀ t ∈ tests, t.rule.IsReadable)
    (ht : ∀ t ∈ tests, t.message.isTruthy = true) :
    (checkAll foreign path v (tests.map (·.fragment))).Reports
      (tests.flatMap (·.complaints path v)) := by
  induction tests with
  | nil => exact Findings.reports_none
  | cons t tests ih =>
    have hfragment : (checkWith foreign path v t.fragment).Reports (t.complaints path v) :=
      Test.reports_fragment (ht t List.mem_cons_self) (hr t List.mem_cons_self)
    exact hfragment.append (ih (fun t h => hr t (List.mem_cons_of_mem _ h))
      fun t h => ht t (List.mem_cons_of_mem _ h))

/-- The entries of a document before those of the tests and the fields. -/
def headEntries (s : Schema) : List (Value × Value) :=
  typeEntry s.kind s.isNullable ++ titleEntry s.label ++ defaultEntry s.default?

theorem get?_headEntries (s : Schema) {key : String} (h : key ∉ ["type", "title", "default"]) :
    Entries.get? s.headEntries (.text key) = none := by
  have hkeys : ∀ e ∈ s.headEntries, ∃ k ∈ ["type", "title", "default"], e.1 = .text k := by
    refine List.forall_mem_append.2 ⟨List.forall_mem_append.2 ⟨?_, ?_⟩, ?_⟩
    · unfold typeEntry
      split <;> simp
    · unfold titleEntry
      split <;> simp
    · unfold defaultEntry
      split <;> simp
  refine Entries.get?_eq_none_iff.2 fun e he => ?_
  obtain ⟨k, hk, heq⟩ := hkeys e he
  rw [heq]
  exact beq_eq_false_iff_ne.2 fun hsame => h (hsame ▸ hk)

/-- The keys of a schema's document. -/
def documentKeys : List String := ["type", "title", "default", "properties", "required", "allOf"]

theorem get?_documentEntries (s : Schema) {key : String} (h : key ∉ documentKeys) :
    Entries.get? s.documentEntries (.text key) = none := by
  obtain ⟨hhead, hproperties, hrequired, hallOf⟩ : key ∉ ["type", "title", "default"] ∧
      key ≠ "properties" ∧ "required" ≠ key ∧ "allOf" ≠ key := by
    simp_all [documentKeys, eq_comm]
  rw [documentEntries, ← headEntries, Entries.get?_append, s.get?_headEntries hhead]
  simp only [recordEntries, Entries.get?_append, get?_listEntry hrequired, Option.none_or,
    Option.or_none]
  split_ifs <;> simp [get?_listEntry hallOf, Entries.get?_cons, Value.same, hproperties] <;> rfl

theorem reports_propertiesEntry {fields : List (Value × Schema)}
    (hfields : ∀ e ∈ fields, e.2.Compiles foreign) :
    (checkEntries foreign path (.map record) document chosen other
      (if (fieldDocuments fields).isEmpty then []
      else [(.text "properties", .map (fieldDocuments fields))])).Reports
        (fieldComplaints path record fields) := by
  split
  · rename_i hempty
    have hnil : fields = [] := by simpa [fieldDocuments_eq] using hempty
    rw [hnil]
    exact Findings.reports_none
  · have hcheck : checkEntries foreign path (.map record) document chosen other
        [(.text "properties", .map (fieldDocuments fields))] =
          checkProperties foreign path record (fieldDocuments fields) ++ .none := rfl
    rw [hcheck, Findings.append_none]
    exact reports_checkProperties hfields

theorem reports_fieldConditionals {fields : List (Value × Schema)}
    (hnames : ∀ e ∈ fields, e.1.isKey = true) (hfields : ∀ e ∈ fields, e.2.Compiles foreign) :
    (checkAll foreign path (.map record) (fieldConditionals fields)).Reports
      (choiceComplaints path record fields) := by
  rw [fieldConditionals_eq, choiceComplaints_eq]
  exact reports_checkAll_flatMap fun e he =>
    (hfields e he).conditionals path record e.1 (hnames e he)

theorem reports_fieldConditionals_of_not_isMap {fields : List (Value × Schema)}
    (hfields : ∀ e ∈ fields, e.2.Compiles foreign) (hv : v.isMap = false) :
    (checkAll foreign path v (fieldConditionals fields)).Reports [] := by
  have hnil : fields.flatMap (fun _ => ([] : List Complaint)) = [] := by simp
  rw [fieldConditionals_eq, ← hnil]
  exact reports_checkAll_flatMap fun e he =>
    (hfields e he).conditionals_of_not_isMap path v e.1 hv

/-- The document of a record schema finds what is complained of in the fields and their
conditions. -/
theorem reports_recordEntries (hs : s.IsSound) (hfields : ∀ e ∈ s.fields, e.2.Compiles foreign) :
    (checkEntries foreign path (.map record) document chosen other
      (recordEntries (s.tests.map (·.fragment)) (fieldDocuments s.fields)
        (requiredNames s.fields) (fieldConditionals s.fields))).Reports
      (s.tests.flatMap (·.complaints path (.map record)) ++
        recordComplaints path record (!s.tests.isEmpty) s.fields) := by
  have hnames : ∀ e ∈ s.fields, e.1.isKey = true := fun e he =>
    hs.areKeys.isKey e.1 (List.mem_map_of_mem he)
  have hrequired : (checkEntries foreign path (.map record) document chosen other
      (listEntry "required" (requiredNames s.fields))).Reports
        (missingComplaints path record (requiredNames s.fields)) := by
    refine reports_requiredEntry fun n hn => ?_
    obtain ⟨e, he, rfl⟩ := List.mem_map.1 hn
    exact hnames e (List.mem_filter.1 he).1
  have htests : (checkAll foreign path (.map record) (s.tests.map (·.fragment))).Reports
      (s.tests.flatMap (·.complaints path (.map record))) :=
    reports_tests hs.readable hs.message_isTruthy
  have hallOf : ∀ documents, checkEntries foreign path (.map record) document chosen other
      (listEntry "allOf" documents) = checkAll foreign path (.map record) documents :=
    checkEntries_allOf
  simp only [recordEntries, recordComplaints, List.isEmpty_map]
  cases hempty : s.tests.isEmpty with
  | true =>
    have hnil : s.tests = [] := List.isEmpty_iff.1 hempty
    simp only [if_true, Bool.not_true, Bool.false_eq_true, if_false, List.nil_append, hnil,
      List.flatMap_nil, checkEntries_append, hallOf]
    -- without tests the conditions stand alone, behind the fields
    exact ((reports_propertiesEntry hfields).append hrequired).append
      (reports_fieldConditionals hnames hfields)
  | false =>
    simp only [Bool.false_eq_true, if_false, Bool.not_false, if_true, List.append_nil,
      checkEntries_append, hallOf, checkAll_append, Findings.append_assoc]
    rw [← Findings.append_assoc (checkAll foreign path (.map record) (fieldConditionals s.fields))]
    -- tests and conditions share one list, which stands before the fields
    exact htests.append (((reports_fieldConditionals hnames hfields).append
      (reports_propertiesEntry hfields)).append hrequired)

theorem reports_recordEntries_of_not_isMap (hs : s.IsSound)
    (hfields : ∀ e ∈ s.fields, e.2.Compiles foreign) (hv : v.isMap = false) :
    (checkEntries foreign path v document chosen other
      (recordEntries (s.tests.map (·.fragment)) (fieldDocuments s.fields)
        (requiredNames s.fields) (fieldConditionals s.fields))).Reports
      (s.tests.flatMap (·.complaints path v)) := by
  have hproperties : checkEntries foreign path v document chosen other
      (if (fieldDocuments s.fields).isEmpty then []
      else [(.text "properties", .map (fieldDocuments s.fields))]) = .none := by
    cases v with
    | map _ => cases hv
    | _ => split <;> rfl
  have hrequired : checkEntries foreign path v document chosen other
      (listEntry "required" (requiredNames s.fields)) = .none := by
    unfold listEntry
    cases v with
    | map _ => cases hv
    | _ => split <;> rfl
  have htests : (checkAll foreign path v (s.tests.map (·.fragment))).Reports
      (s.tests.flatMap (·.complaints path v)) := reports_tests hs.readable hs.message_isTruthy
  simp only [recordEntries, List.isEmpty_map, checkEntries_append, hproperties, hrequired,
    Findings.append_none]
  cases hempty : s.tests.isEmpty with
  | true =>
    rw [List.isEmpty_iff.1 hempty]
    simp only [if_true, checkEntries_allOf]
    exact Findings.reports_none.append (reports_fieldConditionals_of_not_isMap hfields hv)
  | false =>
    simp only [Bool.false_eq_true, if_false, checkEntries_allOf, checkAll_append]
    have hchoices : (checkAll foreign path v (fieldConditionals s.fields)).Reports [] :=
      reports_fieldConditionals_of_not_isMap hfields hv
    have hall := (htests.append hchoices).append Findings.reports_none
    rw [List.append_nil, List.append_nil] at hall
    exact hall

theorem reports_document_of_fields (hs : s.IsSound)
    (hfields : ∀ e ∈ s.fields, e.2.Compiles foreign) :
    (checkWith foreign path v s.document).Reports (s.complaints path v) := by
  obtain ⟨chosen, other, hcheck⟩ : ∃ chosen other, checkWith foreign path v s.document =
      checkEntries foreign path v s.document chosen other s.documentEntries := by
    rw [document_eq,
      checkWith_map (reference?_eq_none (s.get?_documentEntries (by decide)))]
    exact ⟨_, _, rfl⟩
  have htype : (checkEntries foreign path v s.document chosen other
      (typeEntry s.kind s.isNullable)).Reports (kindComplaints path v s.kind s.isNullable) := by
    refine reports_typeEntry s.kind s.isNullable fun _ _ => ?_
    rw [document_eq]
    exact s.get?_documentEntries (by decide)
  have htitle : checkEntries foreign path v s.document chosen other (titleEntry s.label) =
      .none := by
    unfold titleEntry
    split <;> rfl
  have hdefault : checkEntries foreign path v s.document chosen other (defaultEntry s.default?) =
      .none := by
    unfold defaultEntry
    split <;> rfl
  rw [hcheck, documentEntries, checkEntries_append, checkEntries_append, checkEntries_append,
    htitle, hdefault, Findings.append_none, Findings.append_none]
  cases hmap : v.isMap with
  | true =>
    obtain ⟨record, rfl⟩ := Value.eq_map_of_isMap hmap
    rw [complaints_map, List.append_assoc]
    exact htype.append (reports_recordEntries hs hfields)
  | false =>
    rw [complaints_of_not_isMap hmap]
    exact htype.append (reports_recordEntries_of_not_isMap hs hfields hmap)

theorem compiles (s : Schema) : s.Everywhere IsSound → s.Compiles foreign := by
  induction s using Schema.induct with
  | step s hfields hconditions =>
    intro h
    -- a branch is compiled for the record that holds the field, so its own conditions are too
    have hbranches : ∀ c ∈ s.conditions,
        c.chosen.Compiles foreign ∧ c.other.Compiles foreign := fun c hc =>
      ⟨(hconditions c hc).1 (h.chosen hc), (hconditions c hc).2 (h.other hc)⟩
    exact ⟨fun _ _ => reports_document_of_fields h.self fun e he => hfields e he (h.field he),
      fun _ _ _ hname => reports_conditionals hname h.self.sibling_isKey hbranches,
      fun _ _ _ hv => reports_conditionals_of_not_isMap (fun c hc => (hbranches c hc).1) hv⟩

/-- The document of a schema finds what the schema complains of, whatever keywords of other origin
find. -/
theorem reports_document (h : s.Everywhere IsSound) :
    (checkWith foreign path v s.document).Reports (s.complaints path v) :=
  (compiles s h).document path v

/-- What the document of a schema collects are the failures of what the schema complains of. -/
theorem collectWith_document (h : s.Everywhere IsSound) (foreign : ForeignKeywords) (all : Bool) :
    Document.collectWith foreign s.document v all =
      (Complaint.wanted all (s.complaints [] v)).mapM Complaint.failure :=
  (reports_document h).collect all

theorem collect_document (h : s.Everywhere IsSound) (all : Bool) :
    Document.collect s.document v all =
      (Complaint.wanted all (s.complaints [] v)).mapM Complaint.failure :=
  collectWith_document h passedOver all

end Schema

end FieldSchema
