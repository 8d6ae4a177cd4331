import FieldSchema.Proofs.Building
import FieldSchema.Proofs.Reported
import FieldSchema.Proofs.Stability
import FieldSchema.Schema.Validation

/-!
# Validations that are answered

Validation answers with the value as cast or with its failures, unless something to be reported has
a message that is no text or a name that is none (`Schema.answers_iff`). So it is for every schema
that is built from declarations (`Context.answers_iff_of_recordOf`), since a constraint takes
whatever it is declared with for its message. Where messages and names are texts every value is
answered (`Schema.answers_of_isTextual`).
-/

namespace FieldSchema

namespace Schema

variable {s : Schema} {v : Value} {all : Bool}

/-- That the validation of a value ends with it as cast or with its failures. -/
def Answers (s : Schema) (v : Value) (all : Bool) : Prop :=
  (∃ w, s.validate v all = .ok w) ∨ ∃ failures, s.validate v all = .error (.invalid failures)

theorem exists_isValid_iff : (∃ b, s.isValid v all = .ok b) ↔ s.Answers v all := by
  unfold isValid Answers
  cases s.validate v all with
  | ok w => simp
  | error fault => cases fault <;> simp

/-- Validation is answered where nothing is left after casting, or all that is to be reported can
be. -/
theorem answers_iff (h : s.Everywhere IsSound) : s.Answers v all ↔
    (s.cast v).isNull = true ∨
      ∀ c ∈ Complaint.wanted all (s.complaints [] (s.cast v)), c.isReportable = true := by
  rw [← Complaint.exists_mapM_failure_iff, ← collect_document h, Answers, validate]
  cases hnull : (s.cast v).isNull with
  | true => cases s.isRequired <;> simp
  | false =>
    simp only [failures, Bool.false_eq_true, if_false, false_or]
    cases hcollect : Document.collect s.document (s.cast v) all with
    | error misuse => simp
    | ok failures => cases failures <;> simp

theorem answers_of_isTextual (h : s.Reachable) (ht : s.Everywhere IsTextual) : s.Answers v all :=
  (answers_iff h.everywhere_isSound).2 <| .inr fun c hc =>
    isReportable_of_isTextual ht c (Complaint.mem_of_mem_wanted hc)

/-! ## A single rule -/

/-- Values of a kind that are as one rule demands. -/
def ruled (kind : Kind) (rule : Rule) : Schema := (ofKind kind).withRule rule .null

theorem isTextual_ruled (kind : Kind) (rule : Rule) : (ruled kind rule).Everywhere IsTextual :=
  .leaf ⟨List.forall_mem_singleton.2 rfl, List.forall_mem_nil _⟩ rfl rfl

/-- A value that is cast to one of the kind is returned if that is as the rule demands. -/
theorem exists_validate_ruled_iff {kind : Kind} {rule : Rule} (h : (ruled kind rule).Reachable)
    (hkind : kind ≠ .object) (hnull : v.isNull = false)
    (hdescribes : kind.describes (kind.coerce v) = true)
    (hcoerced : (kind.coerce v).isNull = false) :
    (∃ w, (ruled kind rule).validate v all = .ok w) ↔ rule.admits (kind.coerce v) = true := by
  have hcast : (ruled kind rule).cast v = kind.coerce v :=
    cast_plain hnull fun hobject => absurd hobject hkind
  have hadmits : (ruled kind rule).admits (kind.coerce v) = rule.admits (kind.coerce v) := by
    rw [admits_eq]
    cases kind <;> simp_all [ruled, ofKind, withRule, withTest, Test.of]
  simp only [validate_eq_judge, judge_eq_ok_iff h.everywhere_isSound, hcast, hcoerced,
    Bool.false_eq_true, if_false, hadmits, exists_eq_left]

end Schema

namespace Context

variable {context : Context} {s : Schema} {declarations : Value}

/-- A schema that is built from declarations answers exactly those validations that leave nothing or
have nothing to report but what has a text as its message and, if it is missing, as its name. -/
theorem answers_iff_of_recordOf (hplain : context.IsPlain) (hkeyed : declarations.isKeyed = true)
    (h : (context.recordOf declarations).result = .ok s) (v : Value) (all : Bool) :
    (s.Answers v all ↔ (s.cast v).isNull = true ∨
        ∀ c ∈ Complaint.wanted all (s.complaints [] (s.cast v)), c.isReportable = true) ∧
      ((∃ b, s.isValid v all = .ok b) ↔ s.Answers v all) :=
  ⟨Schema.answers_iff (reachable_of_recordOf hplain hkeyed h).everywhere_isSound,
    Schema.exists_isValid_iff⟩

/-- A field that is required with a number for the message. -/
def numberedDeclarations : Value :=
  .map [(.text "a", .map [(.text "type", .text "string"), (.text "required", .int 1)])]

def numbered : Schema :=
  (Schema.ofKind .object).withFields [(.text "a", (Schema.ofKind .string).required (.int 1))]

theorem recordOf_numberedDeclarations :
    (empty.recordOf numberedDeclarations).result = .ok numbered :=
  rfl

theorem answers_iff_of_recordOf_numbered :
    (numbered.Answers (.map [(.text "a", .text "")]) false ↔
      (numbered.cast (.map [(.text "a", .text "")])).isNull = true ∨
        ∀ c ∈ Complaint.wanted false
            (numbered.complaints [] (numbered.cast (.map [(.text "a", .text "")]))),
          c.isReportable = true) ∧
      ((∃ b, numbered.isValid (.map [(.text "a", .text "")]) false = .ok b) ↔
        numbered.Answers (.map [(.text "a", .text "")]) false) :=
  answers_iff_of_recordOf isPlain_empty rfl recordOf_numberedDeclarations _ false

theorem validate_numbered :
    (empty.recordOf numberedDeclarations).result = .ok numbered ∧
      numbered.validate (.map [(.text "a", .text "")]) false =
        .error (.misuse (.noAttribute (.int 1) "replace")) :=
  ⟨recordOf_numberedDeclarations, rfl⟩

end Context

end FieldSchema
