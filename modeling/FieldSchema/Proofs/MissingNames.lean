import FieldSchema.Proofs.Compiled
import FieldSchema.Proofs.QuotedText
import Mathlib.Data.List.Nodup

/-!
# Missing names

What a keyword of required names finds is told by a message that shows the name, and the name is
recovered from that (`Violation.missingProperty_absence`), since different names are shown
differently. So each absent name is reported, once and in the order of the list, and named by the
field. Only the empty name is not: its absence is reported for the record
(`Document.failures_required_iff`).
-/

namespace FieldSchema

/-- The names of a list that a record has nothing under. -/
def absentNames (record : Entries Value) (names : List String) : List String :=
  names.filter fun name => !record.has (.text name)

namespace Violation

/-- That a record does not have one of the names it is required to have. -/
def absence (path : List Value) (record : Entries Value) (document : Value) (names : List String)
    (name : String) : Violation :=
  ⟨path, .map record, document, some Keyword.required.name, .list (names.map .text),
    (Value.text name).shown ++ " is a required property"⟩

/-- The name of a property of the record at the end of a path. -/
def memberName (path : List Value) (name : String) : String :=
  if pathText path = "" then name else pathText path ++ "." ++ name

/-- The field that the absence of a name is reported for. -/
def absentField (path : List Value) (name : String) : String :=
  if name = "" then Complaint.fieldName path else memberName path name

variable {path : List Value} {record : Entries Value} {document : Value} {names : List String}
  {name : String}

theorem memberName_injective (path : List Value) : Function.Injective (memberName path) := by
  intro a b h
  unfold memberName at h
  split_ifs at h
  · exact h
  · exact String.append_right_inj _ |>.1 h

theorem propertyPath_text : propertyPath path (.text name) = .ok (absentField path name) := by
  by_cases hname : name = ""
  · simp [propertyPath, absentField, Complaint.fieldName, Value.isTruthy, hname]
  · simp [propertyPath, absentField, memberName, Value.isTruthy, hname]

/-- The absence of the empty name is reported for the record itself. -/
theorem absentField_eq_iff : absentField path name = memberName path name ↔ name ≠ "" := by
  by_cases hname : name = ""
  · refine iff_of_false ?_ (not_not_intro hname)
    rw [absentField, if_pos hname, Complaint.fieldName, memberName, hname]
    split_ifs
    · decide
    · intro h
      have hlength := congrArg String.length h
      simp at hlength
  · rw [absentField, if_neg hname]
    simp [hname]

/-- The missing name is recovered from the message. -/
theorem missingProperty_absence (h : name ∈ absentNames record names) :
    (absence path record document names name).missingProperty = .ok (.text name) := by
  have hfilter : (names.map Value.text).filter (fun n => !record.has n) =
      (absentNames record names).map .text := List.filter_map
  refine Schema.missingProperty_required ?_ ?_
  · intro n hn
    obtain ⟨s, -, rfl⟩ := List.mem_map.1 hn
    rfl
  · rw [hfilter]
    refine Value.find?_shown (fun v hv => ?_) (List.mem_map_of_mem h)
    obtain ⟨s, -, rfl⟩ := List.mem_map.1 hv
    exact ⟨s, rfl⟩

theorem failure_absence (h : name ∈ absentNames record names) :
    (absence path record document names name).failure = .ok (.missing (absentField path name)) := by
  have hrequired : (absence path record document names name).keyword =
      some Keyword.required.name := rfl
  have hpath : propertyPath (absence path record document names name).path (.text name) =
      .ok (absentField path name) := propertyPath_text
  simp only [failure, hrequired, if_true, missingProperty_absence h, bind, Except.bind, hpath]
  rfl

end Violation

namespace Document

open Violation

variable {path : List Value} {record : Entries Value} {document : Value} {names : List String}

theorem checkRequired_eq (names : List String) : ∀ rest : List String,
    checkRequired path (.map record) document (.list (names.map .text)) record (rest.map .text) =
      ⟨(absentNames record rest).map (absence path record document names), none⟩
  | [] => rfl
  | name :: rest => by
    have hkey : (Value.text name).isKey = true := rfl
    have hcons : absentNames record (name :: rest) =
        if !record.has (.text name) then name :: absentNames record rest
        else absentNames record rest := List.filter_cons
    rw [List.map_cons, checkRequired, hkey, checkRequired_eq names rest, hcons]
    cases record.has (.text name) <;> rfl

/-- What the keyword of required names finds: an absence for each absent name, in their order. -/
theorem checkRequiredNames_eq :
    checkRequiredNames path (.map record) document (.list (names.map .text)) =
      ⟨(absentNames record names).map (absence path record document names), none⟩ :=
  checkRequired_eq names names

theorem failures_required :
    (checkRequiredNames path (.map record) document (.list (names.map .text))).failures =
      .ok ((absentNames record names).map fun name => .missing (absentField path name)) := by
  have hfailures : ((absentNames record names).map (absence path record document names)).mapM
      Violation.failure =
        .ok ((absentNames record names).map fun name => .missing (absentField path name)) := by
    rw [List.mapM_map]
    exact Except.mapM_eq_ok fun name hname => failure_absence hname
  rw [checkRequiredNames_eq, Findings.failures]
  simp only [hfailures]
  rfl

/-- A missing name is recovered from the message that shows it, also where halves of surrogate pairs
stand in it, and the failures of a list of required names are those of the absent names, in their
order. They name exactly these, each once, if the empty name is not among them. -/
theorem failures_required_iff (hnames : names.Nodup) (path : List Value) (record : Entries Value)
    (document : Value) :
    (∀ name ∈ absentNames record names,
      (absence path record document names name).missingProperty = .ok (.text name)) ∧
    (∀ texts : List (List Nat), (∀ ns ∈ texts, Text.AreCodePoints ns) → ∀ ns ∈ texts, ∀ words,
      texts.find? (fun ms => Text.quotedCodes ns ++ words = Text.quotedCodes ms ++ words) =
        some ns) ∧
    (checkRequiredNames path (.map record) document (.list (names.map .text))).violations =
      (absentNames record names).map (absence path record document names) ∧
    ∃ failures, (checkRequiredNames path (.map record) document
        (.list (names.map .text))).failures = .ok failures ∧
      failures = (absentNames record names).map (fun name => .missing (absentField path name)) ∧
      (failures.map (·.field) = (absentNames record names).map (memberName path) ∧
        (failures.map (·.field)).Nodup ↔ "" ∉ absentNames record names) := by
  refine ⟨fun _ => missingProperty_absence, fun _ htexts _ hns => Text.find?_quotedCodes htexts hns,
    congrArg Findings.violations checkRequiredNames_eq, _, failures_required, rfl, ?_⟩
  have hfields : ((absentNames record names).map fun name =>
      Failure.missing (absentField path name)).map (·.field) =
        (absentNames record names).map (absentField path) := by
    rw [List.map_map]
    rfl
  have hsame : (absentNames record names).map (absentField path) =
      (absentNames record names).map (memberName path) ↔ "" ∉ absentNames record names := by
    simp only [List.map_inj_left, absentField_eq_iff]
    exact ⟨fun h hmem => h "" hmem rfl, fun h name hname heq => h (heq ▸ hname)⟩
  rw [hfields, hsame]
  refine ⟨And.left, fun h => ⟨h, ?_⟩⟩
  rw [hsame.2 h]
  exact List.Nodup.map (memberName_injective path) (hnames.filter _)

theorem failures_required_quotes :
    ["it's", "it\"s", "b"].Nodup ∧ "" ∉ absentNames [(.text "b", .int 1)] ["it's", "it\"s", "b"] ∧
    (absence [.text "o"] [(.text "b", .int 1)] .null ["it's", "it\"s", "b"]
      "it\"s").missingProperty = .ok (.text "it\"s") ∧
    [[0xD800], [39]].find?
      (fun ms => Text.quotedCodes [39] ++ [' '] = Text.quotedCodes ms ++ [' ']) = some [39] ∧
    ∃ failures, (checkRequiredNames [.text "o"] (.map [(.text "b", .int 1)]) .null
        (.list [.text "it's", .text "it\"s", .text "b"])).failures = .ok failures ∧
      failures.map (·.field) = ["o.it's", "o.it\"s"] := by
  obtain ⟨hrecovered, hcodes, -, failures, hfailures, -, hexactly⟩ :=
    failures_required_iff (show ["it's", "it\"s", "b"].Nodup by decide) [.text "o"]
      [(.text "b", .int 1)] .null
  refine ⟨by decide, by decide, hrecovered _ (by decide), hcodes _ ?_ _ (by decide) _, failures,
    hfailures, (hexactly.2 (by decide)).1.trans (by decide)⟩
  unfold Text.AreCodePoints
  decide

/-- The failures of a document that only requires names. -/
theorem collect_requiredEntry (names : List String) (record : Entries Value) :
    collect (.map [(.text "required", .list (names.map .text))]) (.map record) true =
      .ok ((absentNames record names).map fun name => .missing (absentField [] name)) := by
  have hcheck : checkWith passedOver [] (.map record)
      (.map [(.text "required", .list (names.map .text))]) =
      checkRequiredNames [] (.map record) (.map [(.text "required", .list (names.map .text))])
        (.list (names.map .text)) ++ .none := rfl
  rw [collect, collectWith, hcheck, Findings.append_none, if_pos rfl]
  exact failures_required

/-- The empty name and the name that stands for the validated value itself are both missing, and
both absences are reported for `this`. -/
theorem collect_requiredEntry_unnamed :
    absentNames [] ["", "this"] = ["", "this"] ∧
    collect (.map [(.text "required", .list [.text "", .text "this"])]) (.map []) true =
      .ok [.missing "this", .missing "this"] :=
  ⟨by decide, collect_requiredEntry ["", "this"] []⟩

end Document

end FieldSchema
