import FieldSchema.Proofs.Compiled
import FieldSchema.Proofs.Results

/-!
# Complaints that can be reported

A complaint has no failure where the message of its test is no text, or the name of its field is
none and counts as given (`Complaint.exists_failure_iff`). Where messages and names are texts,
collecting never ends in a misuse, and finds no failure exactly in the values that the schema
describes (`Schema.Reachable.collect_eq_nil_iff`).
-/

namespace FieldSchema

/-- Whether a value is a text. -/
def Value.isText : Value → Bool
  | .text _ => true
  | _ => false

namespace Complaint

/-- Whether a complaint can be reported as a failure. -/
def isReportable : Complaint → Bool
  | .wrongKind .. => true
  | .unmet _ test _ _ => test.message.isText
  | .missing _ name => !name.isTruthy || name.isText

theorem exists_failure_iff (c : Complaint) :
    (∃ f, c.failure = .ok f) ↔ c.isReportable = true := by
  have hmap : ∀ {α : Type} (x : Except Misuse α) (g : α → Failure),
      (∃ f, x.map g = .ok f) ↔ ∃ a, x = .ok a := by
    intro α x g
    cases x <;> simp [Except.map]
  cases c with
  | wrongKind path kind isNullable v => simp [failure, isReportable]
  | unmet path test demand v =>
    rw [failure, hmap, isReportable]
    cases test.message <;> simp [filledMessage, Value.isText]
  | missing path name =>
    rw [failure, hmap, isReportable]
    unfold Violation.propertyPath
    cases name.isTruthy with
    | false => simp
    | true => cases name <;> simp [Value.isText]

/-- Complaints are reported all together exactly if each can be. -/
theorem exists_mapM_failure_iff (cs : List Complaint) :
    (∃ fs, cs.mapM failure = .ok fs) ↔ ∀ c ∈ cs, c.isReportable = true := by
  simp only [Except.exists_mapM_eq_ok_iff, exists_failure_iff]

end Complaint

/-! ## What complaints are about -/

/-- A property of complaints that follows from one of the tests and one of the names they are
about. -/
structure Complaint.Follows (R : Complaint → Prop) (T : Test → Prop) (N : Value → Prop) :
    Prop where
  wrongKind : ∀ path kind isNullable v, R (.wrongKind path kind isNullable v)
  unmet : ∀ path t d v, T t → R (.unmet path t d v)
  missing : ∀ path name, N name → R (.missing path name)

namespace Complaint.Follows

variable {R : Complaint → Prop} {T : Test → Prop} {N : Value → Prop} (hR : Follows R T N)
  {path : List Value} {record : Entries Value} {name v : Value}

include hR

theorem kindComplaints {kind : Kind} {isNullable : Bool} :
    ∀ c ∈ kindComplaints path v kind isNullable, R c := by
  intro c hc
  obtain ⟨-, rfl⟩ := Schema.mem_kindComplaints.1 hc
  exact hR.wrongKind path kind isNullable v

theorem tests {tests : List Test} (h : ∀ t ∈ tests, T t) :
    ∀ c ∈ tests.flatMap (·.complaints path v), R c := by
  intro c hc
  obtain ⟨t, ht, d, -, -, rfl⟩ := Schema.mem_testComplaints.1 hc
  exact hR.unmet path t d v (h t ht)

theorem missingComplaints {names : List Value} (h : ∀ n ∈ names, N n) :
    ∀ c ∈ missingComplaints path record names, R c := by
  intro c hc
  obtain ⟨n, hn, -, rfl⟩ := Schema.exists_of_mem_missingComplaints hc
  exact hR.missing path n (h n hn)

end Complaint.Follows

namespace Schema

variable {R : Complaint → Prop} {T : Test → Prop} {N : Value → Prop} {path : List Value}
  {record : Entries Value} {name v : Value} {s : Schema}

/-- That all complaints of a schema, and of the conditions of a field that has it, are of some
property. -/
structure ComplainsOnly (R : Complaint → Prop) (N : Value → Prop) (s : Schema) : Prop where
  complaints : ∀ path v, ∀ c ∈ s.complaints path v, R c
  choices : ∀ path record name, N name → ∀ c ∈ s.ownChoiceComplaints path record name, R c

theorem complainsOnly_recordComplaints (hR : Complaint.Follows R T N) {choicesFirst : Bool}
    {fields : List (Value × Schema)} (hN : ∀ e ∈ fields, N e.1)
    (h : ∀ e ∈ fields, e.2.ComplainsOnly R N) :
    ∀ c ∈ recordComplaints path record choicesFirst fields, R c := by
  intro c hc
  rcases mem_recordComplaints.1 hc with hc | hc | hc
  · obtain ⟨e, he, hc⟩ := mem_choiceComplaints.1 hc
    exact (h e he).choices path record e.1 (hN e he) c hc
  · obtain ⟨e, he, v, -, hc⟩ := mem_fieldComplaints.1 hc
    exact (h e he).complaints (path ++ [e.1]) v c hc
  · refine hR.missingComplaints (fun n hn => ?_) c hc
    obtain ⟨e, he, rfl⟩ := List.mem_map.1 hn
    exact hN e (List.mem_filter.1 he).1

theorem complainsOnly (hR : Complaint.Follows R T N) (s : Schema) :
    s.Everywhere (fun s => (∀ t ∈ s.tests, T t) ∧ ∀ e ∈ s.fields, N e.1) →
      s.ComplainsOnly R N := by
  induction s using Schema.induct with
  | step s hfields hconditions =>
    intro h
    constructor
    · intro path v
      cases hmap : v.isMap with
      | false =>
        rw [complaints_of_not_isMap hmap, List.forall_mem_append]
        exact ⟨hR.kindComplaints, hR.tests h.self.1⟩
      | true =>
        obtain ⟨record, rfl⟩ := Value.eq_map_of_isMap hmap
        rw [complaints_map, List.forall_mem_append, List.forall_mem_append]
        exact ⟨⟨hR.kindComplaints, hR.tests h.self.1⟩,
          complainsOnly_recordComplaints hR h.self.2 fun e he => hfields e he (h.field he)⟩
    · intro path record name hname complaint hcomplaint
      obtain ⟨c, hc, hcomplaint⟩ := mem_ownChoiceComplaints.1 hcomplaint
      -- whichever branch is taken, the complaints are those of the field with its schema
      have hbranch : (c.branch record).ComplainsOnly R N := Condition.branch_of_both
        ⟨(hconditions c hc).1 (h.chosen hc), (hconditions c hc).2 (h.other hc)⟩ record
      rcases mem_complaintsIn.1 hcomplaint with ⟨v, -, hc⟩ | ⟨-, -, rfl⟩ | hc
      · exact hbranch.complaints (path ++ [name]) v complaint hc
      · exact hR.missing path name hname
      · exact hbranch.choices path record name hname complaint hc

/-- That the tests of a schema have messages that are texts, and its fields names that are. -/
structure IsTextual (s : Schema) : Prop where
  messages : ∀ t ∈ s.tests, t.message.isText = true
  names : ∀ e ∈ s.fields, e.1.isText = true

/-- Where messages and names are texts at every depth, every complaint can be reported. -/
theorem isReportable_of_isTextual (h : s.Everywhere IsTextual) :
    ∀ c ∈ s.complaints path v, c.isReportable = true := by
  have hR : Complaint.Follows (fun c => c.isReportable = true) (fun t => t.message.isText = true)
      fun name => name.isText = true := by
    refine ⟨fun _ _ _ _ => rfl, fun _ _ _ _ ht => ht, fun _ name hname => ?_⟩
    simp [Complaint.isReportable, hname]
  exact (complainsOnly hR s (h.mono fun _ hs => ⟨hs.messages, hs.names⟩)).complaints path v

/-- What a schema's document collects from a value is always a list of failures, and is empty
exactly if the schema describes the value: for every schema that methods lead to, with texts as
messages and as names of fields, however deeply records and conditions are nested. -/
theorem Reachable.collect_eq_nil_iff (h : s.Reachable) (ht : s.Everywhere IsTextual) (v : Value)
    (all : Bool) : ∃ failures, Document.collect s.document v all = .ok failures ∧
      (failures = [] ↔ s.admits v = true) := by
  have hsound := h.everywhere_isSound
  have hreportable : ∀ c ∈ Complaint.wanted all (s.complaints [] v), c.isReportable = true :=
    fun c hc => isReportable_of_isTextual ht c (Complaint.mem_of_mem_wanted hc)
  obtain ⟨failures, hfailures⟩ := (Complaint.exists_mapM_failure_iff _).2 hreportable
  have hnil : s.complaints [] v = [] ↔ s.admits v = true := complaints_eq_nil_iff hsound
  refine ⟨failures, by rw [collect_document hsound, hfailures], ?_⟩
  rw [← hnil, ← Complaint.wanted_eq_nil_iff, ← List.length_eq_zero_iff,
    Except.length_of_mapM_eq_ok hfailures, List.length_eq_zero_iff]

/-- A parcel weighs at least ten if it is big. -/
def parcel : Schema :=
  (Schema.ofKind .object).withFields
    [(.text "size", (Schema.ofKind .string).required .null),
      (.text "weight", (Schema.ofKind .mixed).whenSibling ⟨.text "size", .text "big",
        (Schema.ofKind .number).withRule (.minimum (.int 10)) .null, .ofKind .number⟩)]

theorem reachable_parcel : parcel.Reachable := by
  have hheavy : ((Schema.ofKind .number).withRule (.minimum (.int 10)) .null).Reachable :=
    .rule (.ofKind .number) (show Method.min ∈ _ by decide)
      (show Context.rule? .min .number (.int 10) = _ from rfl) .null
  refine .withFields (.ofKind .object) rfl (by simp [Value.isKey]) ?_
  simp only [List.forall_mem_cons, List.not_mem_nil, false_implies, implies_true, and_true]
  exact ⟨.required (.ofKind .string) .null,
    .whenSibling (.ofKind .mixed) rfl hheavy (.ofKind .number)⟩

theorem isTextual_parcel : parcel.Everywhere IsTextual := by
  have hfields : parcel.fields =
      [(.text "size", (Schema.ofKind .string).required .null),
        (.text "weight", (Schema.ofKind .mixed).whenSibling ⟨.text "size", .text "big",
          (Schema.ofKind .number).withRule (.minimum (.int 10)) .null, .ofKind .number⟩)] := rfl
  refine .intro ⟨List.forall_mem_nil _, ?_⟩ ?_ (List.forall_mem_nil _) (List.forall_mem_nil _)
  · rw [hfields]
    decide
  · rw [hfields, List.forall_mem_cons, List.forall_mem_singleton]
    refine ⟨.leaf ⟨by decide, List.forall_mem_nil _⟩ rfl rfl,
      .intro ⟨List.forall_mem_nil _, List.forall_mem_nil _⟩ (List.forall_mem_nil _) ?_ ?_⟩
    · refine List.forall_mem_singleton.2 (.leaf ⟨by decide, List.forall_mem_nil _⟩ rfl rfl)
    · exact List.forall_mem_singleton.2
        (.leaf ⟨List.forall_mem_nil _, List.forall_mem_nil _⟩ rfl rfl)

theorem collect_light_parcel :
    parcel.admits (.map [(.text "size", .text "big"), (.text "weight", .int 3)]) = false ∧
      ∃ failures, Document.collect parcel.document
        (.map [(.text "size", .text "big"), (.text "weight", .int 3)]) true = .ok failures ∧
          (failures = [] ↔ parcel.admits
            (.map [(.text "size", .text "big"), (.text "weight", .int 3)]) = true) :=
  ⟨by decide +kernel, Reachable.collect_eq_nil_iff reachable_parcel isTextual_parcel _ true⟩

end Schema

end FieldSchema
