import FieldSchema.Proofs.Answers
import FieldSchema.Proofs.Judged

/-!
# Outcomes of validation

Two validations come to the same if both return a value or both are refused with failures
(`SameOutcome`); which values and which failures count as the same is said each time. Complaints
that can be reported come to a failure each (`Complaint.mapM_failure_eq`), so a value is judged by
its complaints (`Schema.judge_eq`), and two judgements with the same complaints in some order come
to the same (`Schema.sameOutcome_judge`).
-/

namespace FieldSchema

/-- That two validations both return a value, or are both refused with failures. A misuse is the
same as nothing, not even as itself. -/
inductive SameOutcome (sameValue : Value → Value → Prop)
    (sameFailures : List Failure → List Failure → Prop) :
    Except Fault Value → Except Fault Value → Prop
  | returned {v w : Value} (h : sameValue v w) :
      SameOutcome sameValue sameFailures (.ok v) (.ok w)
  | refused {fs gs : List Failure} (h : sameFailures fs gs) :
      SameOutcome sameValue sameFailures (.error (.invalid fs)) (.error (.invalid gs))

/-- The same failures, but for their order where all of them are reported. Of two that are reported
first nothing is said. -/
def Reordered (all : Bool) (fs gs : List Failure) : Prop := all = true → fs.Perm gs

namespace Complaint

variable {c : Complaint} {cs cs' : List Complaint} {all : Bool}

/-- The failure that a complaint is reported as, if it can be reported. -/
def report (c : Complaint) : Failure := c.failure.toOption.getD default

theorem failure_eq_report (h : c.isReportable = true) : c.failure = .ok c.report := by
  obtain ⟨f, hf⟩ := (exists_failure_iff c).2 h
  rw [report, hf]
  rfl

theorem mapM_failure_eq (h : ∀ c ∈ cs, c.isReportable = true) :
    cs.mapM failure = .ok (cs.map report) :=
  Except.mapM_eq_ok fun c hc => failure_eq_report (h c hc)

theorem exists_failure_eq_error (h : c.isReportable = false) : ∃ m, c.failure = .error m := by
  cases hc : c.failure with
  | error m => exact ⟨m, rfl⟩
  | ok f => exact absurd ((exists_failure_iff c).1 ⟨f, hc⟩) (by simp [h])

/-- Reporting ends at the first complaint that cannot be reported. -/
theorem mapM_failure_eq_error {m : Misuse} (hm : c.failure = .error m) :
    ∀ {cs : List Complaint}, cs.find? (!·.isReportable) = some c →
      cs.mapM failure = .error m
  | d :: cs, h => by
    rw [List.find?_cons] at h
    cases hd : d.isReportable with
    | false =>
      obtain rfl : d = c := by simpa [hd] using h
      rw [List.mapM_cons, hm]
      rfl
    | true =>
      rw [List.mapM_cons, failure_eq_report hd,
        mapM_failure_eq_error hm (by simpa [hd] using h)]
      rfl

theorem reordered_wanted (h : cs.Perm cs') (all : Bool) :
    Reordered all ((wanted all cs).map report) ((wanted all cs').map report) := by
  rintro rfl
  exact h.map report

end Complaint

namespace Schema

variable {s s' : Schema} {v v' w : Value} {all : Bool} {sameValue : Value → Value → Prop}

theorem answers_of_sameOutcome {sameFailures : List Failure → List Failure → Prop} {u u' : Value}
    (h : SameOutcome sameValue sameFailures (s.validate u all) (s'.validate u' all)) :
    s.Answers u all ∧ s'.Answers u' all := by
  unfold Answers
  generalize s.validate u all = x at h ⊢
  generalize s'.validate u' all = y at h ⊢
  cases h with
  | returned _ => exact ⟨.inl ⟨_, rfl⟩, .inl ⟨_, rfl⟩⟩
  | refused _ => exact ⟨.inr ⟨_, rfl⟩, .inr ⟨_, rfl⟩⟩

/-- Where something is left after casting, a validation is answered if what is wanted can be
reported. -/
theorem answers_iff_of_not_null (h : s.Everywhere IsSound) (hv : (s.cast v).isNull = false) :
    s.Answers v all ↔
      ∀ c ∈ Complaint.wanted all (s.complaints [] (s.cast v)), c.isReportable = true := by
  rw [answers_iff h, hv]
  simp

/-- What is reported of a value that is not null. -/
theorem judge_of_not_null (h : s.Everywhere IsSound) (hv : v.isNull = false) (all : Bool) :
    s.judge v all = match (Complaint.wanted all (s.complaints [] v)).mapM Complaint.failure with
      | .ok [] => .ok v
      | .ok failures => .error (.invalid failures)
      | .error m => .error (.misuse m) := by
  rw [judge, failures_eq h, hv]
  rfl

/-- A value is returned if the schema describes it, and refused with what is complained of
otherwise. -/
theorem judge_eq (h : s.Everywhere IsSound) (hv : v.isNull = false)
    (hr : ∀ c ∈ Complaint.wanted all (s.complaints [] v), c.isReportable = true) :
    s.judge v all = if s.admits v then .ok v else
      .error (.invalid ((Complaint.wanted all (s.complaints [] v)).map Complaint.report)) := by
  rw [judge_of_not_null h hv, Complaint.mapM_failure_eq hr]
  have hnil : Complaint.wanted all (s.complaints [] v) = [] ↔ s.admits v = true :=
    Complaint.wanted_eq_nil_iff.trans (complaints_eq_nil_iff h)
  split_ifs with hadmits
  · rw [hnil.2 hadmits]
    rfl
  · cases hwanted : Complaint.wanted all (s.complaints [] v) with
    | nil => exact absurd (hnil.1 hwanted) hadmits
    | cons c cs => rfl

/-- Judgements with the same complaints in some order come to the same, if they can be reported. -/
theorem sameOutcome_judge (h : s.Everywhere IsSound) (h' : s'.Everywhere IsSound)
    (hv : v.isNull = false) (hv' : v'.isNull = false) (hvalue : sameValue v v')
    (hperm : (s.complaints [] v).Perm (s'.complaints [] v'))
    (hr : ∀ c ∈ Complaint.wanted all (s.complaints [] v), c.isReportable = true)
    (hr' : ∀ c ∈ Complaint.wanted all (s'.complaints [] v'), c.isReportable = true) :
    SameOutcome sameValue (Reordered all) (s.judge v all) (s'.judge v' all) := by
  have hnil : s.complaints [] v = [] ↔ s.admits v = true := complaints_eq_nil_iff h
  have hnil' : s'.complaints [] v' = [] ↔ s'.admits v' = true := complaints_eq_nil_iff h'
  have hadmits : s.admits v = s'.admits v' := by
    rw [Bool.eq_iff_iff, ← hnil, ← hnil', ← List.length_eq_zero_iff, hperm.length_eq,
      List.length_eq_zero_iff]
  rw [judge_eq h hv hr, judge_eq h' hv' hr', hadmits]
  split
  · exact .returned hvalue
  · exact .refused (Complaint.reordered_wanted hperm all)

end Schema

end FieldSchema
