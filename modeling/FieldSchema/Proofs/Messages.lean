import FieldSchema.Proofs.FieldOrder
import FieldSchema.Proofs.Nulls
import FieldSchema.Proofs.Sources

/-!
# The messages that are reported

A test is reported with its message, in which the field stands for each mark
(`Violation.fillPath_append_mark`). It is so wherever a demand of the test is not met by a value
that is there. Where the test demands a value and the key is missing, or nothing is left of the
whole value, the message of the test is not looked at (`Schema.Reachable.messages_spec`): what is
reported is worded as if there were none (`filled_defaultMessage_required`).
-/

namespace FieldSchema

namespace Violation

variable {field : List Char}

/-! ## Marks in messages -/

theorem fillPath_mark (rest : List Char) :
    fillPath field (pathMark.toList ++ rest) = field ++ fillPath field rest :=
  rfl

theorem fillPath_cons {c : Char} {rest : List Char} (h : ¬ pathMark.toList <+: c :: rest) :
    fillPath field (c :: rest) = c :: fillPath field rest := by
  rw [fillPath]
  rintro rest' rfl rfl
  exact h ⟨rest', rfl⟩

/-- A message without marks stays as it is. -/
theorem fillPath_of_not_infix {m : List Char} (h : ¬ pathMark.toList <:+: m) :
    fillPath field m = m := by
  induction m with
  | nil => rfl
  | cons c m ih =>
    rw [fillPath_cons fun hprefix => h hprefix.isInfix, ih fun hinfix => h (List.infix_cons hinfix)]

/-- No mark begins in what stands before another one and ends in that. -/
theorem not_prefix_append_mark {m : List Char} (hm : m ≠ []) (h : ¬ pathMark.toList <+: m)
    (rest : List Char) : ¬ pathMark.toList <+: m ++ (pathMark.toList ++ rest) := by
  have hmark : pathMark.toList = ['\x7b', 'p', 'a', 't', 'h', '\x7d'] := by decide
  rw [hmark] at h ⊢
  rcases m with _ | ⟨c, _ | ⟨c₁, _ | ⟨c₂, _ | ⟨c₃, _ | ⟨c₄, _ | ⟨c₅, m⟩⟩⟩⟩⟩⟩ <;>
    simp_all [List.cons_prefix_cons]
  exact h

/-- The field is put in the place of a mark, whatever stands before and after it. -/
theorem fillPath_append_mark (a b : List Char) : fillPath field (a ++ (pathMark.toList ++ b)) =
    fillPath field a ++ (field ++ fillPath field b) := by
  induction a using fillPath.induct with
  | case1 rest ih =>
    show fillPath field (pathMark.toList ++ (rest ++ (pathMark.toList ++ b))) =
      fillPath field (pathMark.toList ++ rest) ++ (field ++ fillPath field b)
    rw [fillPath_mark, fillPath_mark, ih, List.append_assoc]
  | case2 c rest h ih =>
    have hprefix : ¬ pathMark.toList <+: c :: rest := by
      rintro ⟨rest', heq⟩
      exact h rest' (List.cons.inj heq).1.symm (List.cons.inj heq).2.symm
    rw [fillPath_cons hprefix, List.cons_append, fillPath_cons, ih, List.cons_append]
    exact not_prefix_append_mark (List.cons_ne_nil c rest) hprefix b
  | case3 => exact fillPath_mark b

end Violation

/-- A message with a field in the place of its marks. -/
def filled (message field : String) : String :=
  String.ofList (Violation.fillPath field.toList message.toList)

/-- The message that a test for a value has by default is the one that a missing field is reported
with. -/
theorem filled_defaultMessage_required (nonEmpty : Bool) (field : String) :
    filled (Rule.required nonEmpty).defaultMessage field = (Failure.missing field).message := by
  have hwords : " ".toList ++ "is a required field".toList = " is a required field".toList := by
    decide
  have hdefault : (Rule.required nonEmpty).defaultMessage.toList =
      pathMark.toList ++ " is a required field".toList := by
    have hdemand : (Rule.required nonEmpty).defaultMessage =
        pathMark ++ " " ++ "is a required field" := rfl
    rw [hdemand, String.toList_append, String.toList_append, List.append_assoc]
    exact congrArg (pathMark.toList ++ ·) hwords
  have hrest : ¬ pathMark.toList <:+: " is a required field".toList := fun h =>
    absurd (h.subset (show '\x7b' ∈ pathMark.toList by decide)) (by decide)
  rw [filled, hdefault, Violation.fillPath_mark, Violation.fillPath_of_not_infix hrest]
  simp [Failure.missing]

theorem Test.message_of_text (rule : Rule) {m : String} (hm : m ≠ "") :
    (Test.of rule (.text m)).message = .text m := by
  simp [Test.of, Value.isTruthy, hm]

/-! ## Complaints about a test -/

namespace Complaint

/-- That a complaint is about a test that some schema has, where the whole value has a schema: a
demand of the test is not met by the part that is there, or the test demands a value and the key is
missing. -/
inductive Breaks (test : Test) (s : Schema) (v : Value) : Complaint → Prop
  | unmet {t : Schema} {place : List Value} {part : Value} {d : Demand}
      (h : t.StandsAt place part s [] v) (htest : test ∈ t.tests) (hd : d ∈ test.rule.demands)
      (hmet : d.isMetBy part = false) : Breaks test s v (.unmet place test d part)
  | absence {o field t : Schema} {place : List Value} {record : Entries Value} {name : Value}
      (h : o.StandsAt place (.map record) s [] v) (he : (name, field) ∈ o.fields)
      (ht : Schema.Imposes record field t) (htest : test ∈ t.tests) (hname : test.name = "required")
      (habsent : record.has name = false) : Breaks test s v (.missing place name)

/-- Whether a complaint is about a key that is missing. -/
def isMissing : Complaint → Bool
  | .missing .. => true
  | _ => false

/-- Whether a complaint is about the type of a value. -/
def isOfKind : Complaint → Bool
  | .wrongKind .. => true
  | _ => false

end Complaint

namespace Schema

variable {s : Schema} {v : Value} {c : Complaint} {test : Test}

/-- Every breach of a test is complained of. -/
theorem mem_complaints_of_breaks (h : s.Reachable) (hs : s.Everywhere IsTextual)
    (hbreaks : c.Breaks test s v) : c ∈ s.complaints [] v := by
  refine (mem_complaints_iff hs).2 ?_
  cases hbreaks with
  | unmet hstands htest hd hmet => exact .test hstands htest hd hmet
  | absence hstands he ht htest hname habsent =>
    have hreachable := ht.everywhere ((hstands.everywhere h.everywhere).field he)
    have hrequired := hreachable.self.isRequired_iff.2 (hname ▸ List.mem_map_of_mem htest)
    exact .absence hstands he ht hrequired habsent

/-- Whatever is complained of is a type or the breach of a test. -/
theorem exists_breaks_of_mem_complaints (h : s.Reachable) (hc : c ∈ s.complaints [] v) :
    c.isOfKind = true ∨ ∃ test, c.Breaks test s v := by
  cases s.hasReasons.complaints [] v c hc with
  | kind => exact .inl rfl
  | test hstands htest hd hmet => exact .inr ⟨_, .unmet hstands htest hd hmet⟩
  | absence hstands he ht hrequired habsent =>
    have hreachable := ht.everywhere ((hstands.everywhere h.everywhere).field he)
    obtain ⟨test, htest, hname⟩ := List.mem_map.1 (hreachable.self.isRequired_iff.1 hrequired)
    exact .inr ⟨test, .absence hstands he ht htest hname habsent⟩

/-- The failure of a breach has the message of the test, with the field in the place of its marks,
unless a key is missing: that is worded as if the test had no message of its own. -/
theorem message_eq_iff_of_breaks {rule : Rule} {m : String} {f : Failure} (hm : m ≠ "")
    (hbreaks : c.Breaks (.of rule (.text m)) s v) (hf : c.failure = .ok f) :
    f.message = filled m f.field ↔
      c.isMissing = false ∨ filled m f.field = (Failure.missing f.field).message := by
  cases hbreaks with
  | unmet =>
    obtain ⟨message, hmessage, rfl⟩ := Complaint.failure_unmet hf
    rw [Test.message_of_text rule hm] at hmessage
    exact ⟨fun _ => .inl rfl, fun _ => (Except.ok.inj hmessage).symm⟩
  | absence =>
    have hmissing : f.message = (Failure.missing f.field).message :=
      congrArg Failure.message (Complaint.failure_missing hf)
    rw [hmissing]
    exact ⟨fun heq => .inr heq.symm, fun heq => (heq.resolve_left nofun).symm⟩

/-- How the failures of a value are worded. -/
structure IsWorded (s : Schema) (v : Value) (all : Bool) : Prop where
  collected : ∀ failures, Document.collect s.document v all = .ok failures →
    List.Forall₂ (fun c f => c.failure = .ok f ∧ ∀ rule m, m ≠ "" →
      c.Breaks (.of rule (.text m)) s v → (f.message = filled m f.field ↔
        c.isMissing = false ∨ filled m f.field = (Failure.missing f.field).message))
      (Complaint.wanted all (s.complaints [] v)) failures
  complained : ∀ c ∈ s.complaints [] v, c.isOfKind = true ∨ ∃ test, c.Breaks test s v
  answered : s.Everywhere IsTextual →
    (∃ failures, Document.collect s.document v all = .ok failures) ∧
      ∀ (c : Complaint) (test : Test), c.Breaks test s v → c ∈ s.complaints [] v
  absent : (s.cast v).isNull = true → s.isRequired = true →
    s.validate v all = .error (.invalid [.missing Failure.root])
  present : (s.cast v).isNull = false → ∀ failures,
    s.validate v all = .error (.invalid failures) →
      Document.collect s.document (s.cast v) all = .ok failures

/-- The message that a constraint is declared with is the one that its breaches are reported with,
but for missing keys and for a whole value of which nothing is left. -/
theorem Reachable.messages_spec (h : s.Reachable) (v : Value) (all : Bool) : s.IsWorded v all where
  collected := fun failures hfailures => by
    rw [collect_document h.everywhere_isSound] at hfailures
    have hreportable := (Complaint.exists_mapM_failure_iff _).1 ⟨failures, hfailures⟩
    rw [Complaint.mapM_failure_eq hreportable] at hfailures
    rw [← Except.ok.inj hfailures, List.forall₂_map_right_iff, List.forall₂_same]
    intro c hc
    have hfailure := Complaint.failure_eq_report (hreportable c hc)
    exact ⟨hfailure, fun rule m hm hbreaks => message_eq_iff_of_breaks hm hbreaks hfailure⟩
  complained := fun _ => exists_breaks_of_mem_complaints h
  answered := fun htextual => by
    rw [collect_document h.everywhere_isSound, Complaint.exists_mapM_failure_iff]
    exact ⟨fun c hc => isReportable_of_isTextual htextual c (Complaint.mem_of_mem_wanted hc),
      fun _ _ => mem_complaints_of_breaks h htextual⟩
  absent := fun hnull hrequired => by rw [validate_eq_judge, judge, if_pos hnull, if_pos hrequired]
  present := fun hnull _ hfailures => failures_of_judge hnull hfailures

/-- A field that is required with a message. -/
def neededDeclarations : Value :=
  .map [(.text "a", .map [(.text "type", .text "string"),
    (.text "required", .text "need \x7bpath\x7d")])]

def needed : Schema :=
  (Schema.ofKind .object).withFields
    [(.text "a", (Schema.ofKind .string).required (.text "need \x7bpath\x7d"))]

theorem recordOf_neededDeclarations :
    (Context.empty.recordOf neededDeclarations).result = .ok needed :=
  Context.recordOf_field Context.isPlain_empty rfl rfl

theorem reachable_needed : needed.Reachable := by
  refine .withFields (.ofKind .object) rfl (List.forall_mem_singleton.2 rfl) ?_
  exact List.forall_mem_singleton.2 (.required (.ofKind .string) _)

/-- An empty text is reported with the message. -/
theorem messages_spec_needed : needed.IsWorded (.map [(.text "a", .text "")]) true ∧
    ∃ f, needed.validate (.map [(.text "a", .text "")]) true = .error (.invalid [f]) ∧
      f.message = "need a" :=
  ⟨reachable_needed.messages_spec _ true, _, rfl, by decide⟩

theorem complaints_needed_empty :
    needed.complaints [] (needed.cast (.map [])) = [.missing [] (.text "a")] := by
  have hmissing : needed.complaints [] (needed.cast (.map [])) =
      missingComplaints [] [] [.text "a"] := rfl
  rw [hmissing]
  simp [missingComplaints, Entries.has, Entries.get?]

/-- A missing key is not. -/
theorem validate_needed_empty :
    (Context.empty.recordOf neededDeclarations).result = .ok needed ∧
      needed.validate (.map []) true = .error (.invalid [.missing "a"]) ∧
      (Failure.missing "a").message ≠ filled "need \x7bpath\x7d" "a" := by
  refine ⟨recordOf_neededDeclarations, ?_, by decide⟩
  rw [validate_eq_judge, judge_of_not_null reachable_needed.everywhere_isSound rfl,
    complaints_needed_empty]
  rfl

end Schema

end FieldSchema
