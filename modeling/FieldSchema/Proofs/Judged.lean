import FieldSchema.Proofs.Reported
import FieldSchema.Schema.Validation

/-!
# Judgement of cast values

Validation casts a value and judges what it comes to (`Schema.validate_eq_judge`). The judgement
returns that value unchanged, and does so exactly if it is null and none is required, or if the
schema describes it (`Schema.judge_eq_ok_iff`). What it is refused with otherwise are the failures
that are collected from it (`Schema.failures_of_judge`).
-/

namespace FieldSchema.Schema

variable {s : Schema} {v w : Value} {all : Bool}

/-- What is said of a value that is cast. -/
def judge (s : Schema) (v : Value) (all : Bool) : Except Fault Value :=
  if v.isNull then
    if s.isRequired then .error (.invalid [.missing Failure.root]) else .ok .null
  else
    match s.failures v all with
    | .ok [] => .ok v
    | .ok failures => .error (.invalid failures)
    | .error m => .error (.misuse m)

theorem validate_eq_judge (s : Schema) (v : Value) (all : Bool) :
    s.validate v all = s.judge (s.cast v) all := rfl

theorem eq_null_of_isNull (h : v.isNull = true) : v = .null := by
  cases v <;> simp [Value.isNull] at h
  rfl

theorem isNull_eq_false (hv : v ≠ .null) : v.isNull = false := by
  cases v <;> first | rfl | exact absurd rfl hv

theorem eq_of_judge (h : s.judge v all = .ok w) : w = v := by
  unfold judge at h
  split_ifs at h with hnull
  · rw [eq_null_of_isNull hnull]
    exact (Except.ok.inj h).symm
  · split at h <;> cases h
    rfl

theorem failures_eq (h : s.Everywhere IsSound) (v : Value) (all : Bool) :
    s.failures v all = (Complaint.wanted all (s.complaints [] v)).mapM Complaint.failure :=
  collect_document h all

theorem failures_eq_nil_iff (h : s.Everywhere IsSound) (all : Bool) :
    s.failures v all = .ok [] ↔ s.admits v = true := by
  have hwanted : Complaint.wanted all (s.complaints [] v) = [] ↔ s.admits v = true :=
    Complaint.wanted_eq_nil_iff.trans (complaints_eq_nil_iff h)
  rw [failures_eq h, ← hwanted]
  constructor
  · intro hnil
    exact List.length_eq_zero_iff.1 (Except.length_of_mapM_eq_ok hnil).symm
  · intro hnil
    rw [hnil]
    rfl

/-- What is cast is returned if it is null where none is required, or if there are no failures. -/
theorem judge_eq_ok_iff_failures : s.judge v all = .ok w ↔
    w = v ∧ if v.isNull then s.isRequired = false else s.failures v all = .ok [] := by
  constructor
  · intro hok
    obtain rfl := eq_of_judge hok
    refine ⟨rfl, ?_⟩
    unfold judge at hok
    split_ifs at hok ⊢ with hnull hrequired
    · simpa using hrequired
    · split at hok <;> cases hok
      assumption
  · rintro ⟨rfl, hv⟩
    unfold judge
    split_ifs at hv ⊢ with hnull hrequired
    · simp [hv] at hrequired
    · rw [eq_null_of_isNull hnull]
    · rw [hv]

theorem judge_eq_ok_iff (h : s.Everywhere IsSound) : s.judge v all = .ok w ↔
    w = v ∧ if v.isNull then s.isRequired = false else s.admits v = true := by
  rw [judge_eq_ok_iff_failures, failures_eq_nil_iff h]

/-- What a value that is not null is refused with is what is collected from it. -/
theorem failures_of_judge {failures : List Failure} (hnull : v.isNull = false)
    (h : s.judge v all = .error (.invalid failures)) : s.failures v all = .ok failures := by
  rw [judge, hnull] at h
  simp only [Bool.false_eq_true, if_false] at h
  split at h <;> cases h
  assumption

end FieldSchema.Schema
