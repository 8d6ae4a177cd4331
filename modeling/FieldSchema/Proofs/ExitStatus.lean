import FieldSchema.Command.Run
import FieldSchema.Proofs.Judged
import FieldSchema.Proofs.Writing

/-!
# The status of a validation

Failures are collected up to the first or all of them, and either way there are none exactly if the
document finds nothing (`Document.collect_eq_ok_nil_iff`). So a validation returns or not however
many failures are asked for, and the command tells by its status which, unless it has to print what
is returned and cannot (`Command.isVerdict_status_iff`). It can if the names and the defaults of the
declared fields can be written.
-/

namespace FieldSchema

namespace Findings

theorem failures_eq_nil_iff (f : Findings) : f.failures = .ok [] ↔ f = none := by
  constructor
  · intro h
    obtain ⟨failures, hfailures, hstop⟩ := Except.exists_of_bind_eq_ok h
    obtain ⟨violations, stop⟩ := f
    cases stop with
    | some m => cases hstop
    | none =>
      cases hstop
      obtain rfl : violations = [] :=
        List.length_eq_zero_iff.1 (Except.length_of_mapM_eq_ok hfailures).symm
      rfl
  · rintro rfl
    rfl

theorem firstFailure_eq_nil_iff (f : Findings) : f.firstFailure = .ok [] ↔ f = none := by
  constructor
  · intro h
    obtain ⟨violations, stop⟩ := f
    cases violations with
    | nil =>
      cases stop with
      | some m => cases h
      | none => rfl
    | cons v violations =>
      obtain ⟨_, -, h⟩ := Except.exists_of_bind_eq_ok h
      cases h
  · rintro rfl
    rfl

end Findings

/-- Nothing is collected exactly if nothing is found. -/
theorem Document.collect_eq_ok_nil_iff (document v : Value) (all : Bool) :
    collect document v all = .ok [] ↔ check [] v document = .none := by
  cases all with
  | true => exact Findings.failures_eq_nil_iff _
  | false => exact Findings.firstFailure_eq_nil_iff _

namespace Schema

variable {s : Schema} {v w : Value}

theorem validate_eq_ok_iff (all : Bool) : s.validate v all = .ok w ↔ w = s.cast v ∧
    if (s.cast v).isNull then s.isRequired = false
    else Document.check [] (s.cast v) s.document = .none := by
  rw [validate_eq_judge, judge_eq_ok_iff_failures, failures, Document.collect_eq_ok_nil_iff]

/-- What is returned does not depend on how many failures are asked for. -/
theorem validate_eq_ok_iff_of_all (all all' : Bool) :
    s.validate v all = .ok w ↔ s.validate v all' = .ok w := by
  rw [validate_eq_ok_iff, validate_eq_ok_iff]

end Schema

namespace Command

variable {files : Files} {file : String} {input? : Option String} {s : Schema} {v w : Value}

theorem isWritable_of_readJson {words text : String} (h : readJson words text = .ok v) :
    v.isWritable = true := by
  unfold readJson at h
  split at h <;> cases h
  rename_i hread
  exact Json.isWritable_of_read hread

/-- The value to be validated can be written, since it is read. -/
theorem isWritable_of_readInput (h : readInput files input? = .ok v) : v.isWritable = true := by
  unfold readInput at h
  split at h
  · cases h
    rfl
  · split at h
    · simp only at h
      split at h
      · cases h
      · cases h
      · exact isWritable_of_readJson h
    · exact isWritable_of_readJson h

/-- A command that ends early has the status 1. -/
theorem status_outcome (halt : Halt) (logText : String) : (halt.outcome logText).status = 1 := by
  cases halt <;> rfl

theorem status_validateOutcome_of_error {all : Bool} {fault : Fault}
    (h : s.validate v all = .error fault) (r : Reporting) (log : List LogLine) :
    (validateOutcome all r log s v).status = 1 := by
  rw [validateOutcome, h]
  cases fault with
  | invalid failures =>
    cases hreport : jsonText (Failure.report failures) with
    | ok text => simp only [hreport]
    | error halt => simp only [hreport, status_outcome]
  | _ => rfl

/-- What is returned is printed as it is written, unless nothing is to be printed. If it cannot be
written, the misuse escapes. -/
theorem validateOutcome_of_ok {all : Bool} (h : s.validate v all = .ok w) (r : Reporting)
    (log : List LogLine) : validateOutcome all r log s v =
      if r.quiet then ⟨0, "", r.logText log, .none⟩
      else match Json.written w with
        | .ok text => ⟨0, text ++ "\n", r.logText log, .none⟩
        | .error m => ⟨1, "", r.logText log, some (.fault (.misuse m))⟩ := by
  rw [validateOutcome, h]
  simp only [jsonText]
  cases Json.written w <;> rfl

theorem status_validateOutcome_of_ok {all : Bool} (h : s.validate v all = .ok w) (r : Reporting)
    (log : List LogLine) : (validateOutcome all r log s v).status =
      if r.quiet = true ∨ w.isWritable = true then 0 else 1 := by
  rw [validateOutcome_of_ok h, ← Json.isOk_written]
  cases r.quiet with
  | true => rfl
  | false => cases Json.written w <;> rfl

theorem run_validate (hload : (loadSchema files (normalPath file)).2 = .ok s)
    (hinput : readInput files input? = .ok v) (all : Bool) (r : Reporting) :
    run files (.validate file input? all r) =
      validateOutcome all r (loadSchema files (normalPath file)).1 s v := by
  rw [run]
  generalize loadSchema files (normalPath file) = loaded at hload
  obtain ⟨log, result⟩ := loaded
  obtain rfl : result = .ok s := hload
  simp only [hinput]

/-- A validation that ends well has built a schema, read a value, and returned one. -/
theorem exists_of_status_eq_zero {all : Bool} {r : Reporting}
    (h : (run files (.validate file input? all r)).status = 0) :
    ∃ s v w, (loadSchema files (normalPath file)).2 = .ok s ∧ readInput files input? = .ok v ∧
      s.validate v all = .ok w := by
  rw [run] at h
  generalize loadSchema files (normalPath file) = loaded at h ⊢
  obtain ⟨log, result⟩ := loaded
  cases result with
  | error halt => simp [status_outcome] at h
  | ok s =>
    cases hinput : readInput files input? with
    | error halt => simp [hinput, status_outcome] at h
    | ok v =>
      simp only [hinput] at h
      cases hvalidate : s.validate v all with
      | error fault => simp [status_validateOutcome_of_error hvalidate] at h
      | ok w => exact ⟨s, v, w, rfl, rfl, hvalidate⟩

/-- That a status is the verdict of a validation: 0 if it returns, and 1 otherwise. -/
def IsVerdict (status : Nat) (outcome : Except Fault Value) : Prop :=
  status = if outcome.isOk then 0 else 1

theorem isVerdict_validateOutcome_iff (all : Bool) (r : Reporting) (log : List LogLine) :
    IsVerdict (validateOutcome all r log s v).status (s.validate v false) ↔
      ∀ w, s.validate v false = .ok w → r.quiet = true ∨ w.isWritable = true := by
  -- the verdict is on the first failure, while all of them may be asked for
  have hall : ∀ w, s.validate v false = .ok w ↔ s.validate v all = .ok w := fun w =>
    Schema.validate_eq_ok_iff_of_all false all
  unfold IsVerdict
  cases hvalidate : s.validate v all with
  | ok w =>
    rw [status_validateOutcome_of_ok hvalidate, (hall w).2 hvalidate]
    have hzero : (if r.quiet = true ∨ w.isWritable = true then 0 else 1) = 0 ↔
        (r.quiet = true ∨ w.isWritable = true) := by
      split_ifs with h <;> simp [h]
    simpa [Except.isOk, Except.toBool] using hzero
  | error fault =>
    rw [status_validateOutcome_of_error hvalidate]
    cases hfirst : s.validate v false with
    | ok w =>
      rw [(hall w).1 hfirst] at hvalidate
      cases hvalidate
    | error _ => simp [Except.isOk, Except.toBool]

/-- The status is the verdict on the value, however much is asked for, exactly if what is returned
has not to be printed or can be written. If it cannot, the misuse of the writing escapes. It can if
the names and the defaults of all declared fields can. -/
theorem isVerdict_status_iff (hload : (loadSchema files (normalPath file)).2 = .ok s)
    (hinput : readInput files input? = .ok v) :
    (∀ all r, IsVerdict (run files (.validate file input? all r)).status (s.validate v false) ↔
      ∀ w, s.validate v false = .ok w → r.quiet = true ∨ w.isWritable = true) ∧
    (∀ all r w, s.validate v false = .ok w → r.quiet = false → w.isWritable = false →
      ∃ m, Json.written w = .error m ∧
        (run files (.validate file input? all r)).status = 1 ∧
        (run files (.validate file input? all r)).escape? = some (.fault (.misuse m))) ∧
    (s.Everywhere Schema.IsWritable → ∀ w, s.validate v false = .ok w → w.isWritable = true) := by
  refine ⟨fun all r => ?_, fun all r w hvalidate hquiet hw => ?_, fun hs w hvalidate => ?_⟩
  · rw [run_validate hload hinput]
    exact isVerdict_validateOutcome_iff all r _
  · rw [run_validate hload hinput,
      validateOutcome_of_ok ((Schema.validate_eq_ok_iff_of_all false all).1 hvalidate), hquiet]
    rw [← Json.isOk_written] at hw
    cases hwritten : Json.written w with
    | ok text => simp [hwritten, Except.isOk, Except.toBool] at hw
    | error m => exact ⟨m, rfl, rfl, rfl⟩
  · obtain ⟨rfl, -⟩ := (Schema.validate_eq_ok_iff false).1 hvalidate
    exact Schema.isWritable_cast s hs (isWritable_of_readInput hinput)

/-! ## A default with a date for a key -/

def datedText : String := "a: {type: mixed, default: {2020-01-01: x}}"

def datedFiles : Files := fun _ => .text datedText

def datedRequest (quiet : Bool) : Request := .validate "s.yaml" (some "{}") false ⟨0, quiet⟩

theorem status_dated_quiet : (run datedFiles (datedRequest true)).status = 0 := by decide +kernel

theorem isVerdict_status_dated : ∃ s v,
    (loadSchema datedFiles (normalPath "s.yaml")).2 = .ok s ∧
    readInput datedFiles (some "{}") = .ok v ∧
    IsVerdict (run datedFiles (datedRequest true)).status (s.validate v false) := by
  obtain ⟨s, v, w, hload, hinput, -⟩ := exists_of_status_eq_zero status_dated_quiet
  exact ⟨s, v, hload, hinput,
    ((isVerdict_status_iff hload hinput).1 false ⟨0, true⟩).2 fun _ _ => .inl rfl⟩

/-- The record that is returned cannot be written, and the command ends with the status 1 as if it
had been refused. -/
theorem not_isVerdict_status_dated : ∃ s v w,
    (loadSchema datedFiles (normalPath "s.yaml")).2 = .ok s ∧
    readInput datedFiles (some "{}") = .ok v ∧ s.validate v false = .ok w ∧
    ¬ IsVerdict (run datedFiles (datedRequest false)).status (s.validate v false) ∧
    (run datedFiles (datedRequest false)).escape?.map (·.message) =
      some "keys must be str, int, float, bool or None, not date" ∧
    (run datedFiles (datedRequest true)).status = 0 := by
  obtain ⟨s, v, w, hload, hinput, hvalidate⟩ := exists_of_status_eq_zero status_dated_quiet
  have hstatus : (run datedFiles (datedRequest false)).status = 1 := by decide +kernel
  refine ⟨s, v, w, hload, hinput, hvalidate, ?_, by decide +kernel, status_dated_quiet⟩
  rw [hvalidate, hstatus]
  exact Nat.one_ne_zero

end Command

end FieldSchema
