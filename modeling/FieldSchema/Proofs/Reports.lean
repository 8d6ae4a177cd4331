import FieldSchema.Proofs.Complaints

/-!
# Findings that report complaints

The interpretation of a document reports some complaints if it is not stopped and its violations
are reported as the failures of these complaints, in their order (`Findings.Reports`). What is
reported by the parts of a document is reported by the document (`Findings.Reports.append`), and
decides whether it accepts (`Findings.Reports.accepts`) and what it collects
(`Findings.Reports.collect`).
-/

namespace FieldSchema

namespace Findings

/-- That a search is not stopped and finds what some complaints say. -/
structure Reports (f : Findings) (complaints : List Complaint) : Prop where
  stop : f.stop = Option.none
  failures : f.violations.map Violation.failure = complaints.map Complaint.failure

section

variable {f g : Findings} {cs ds : List Complaint}

theorem reports_none : Findings.none.Reports [] := ⟨rfl, rfl⟩

theorem reports_one {v : Violation} {c : Complaint} (h : v.failure = c.failure) :
    (one v).Reports [c] := ⟨rfl, by simp [one, h]⟩

theorem append_of_stop {m : Misuse} (h : f.stop = some m) : f ++ g = f := by
  show append f g = f
  rw [append, h]

theorem append_eq (h : f.stop = Option.none) :
    f ++ g = ⟨f.violations ++ g.violations, g.stop⟩ := by
  show append f g = _
  rw [append, h]

theorem append_none : f ++ Findings.none = f := by
  cases hs : f.stop with
  | some m => exact append_of_stop hs
  | none =>
    rw [append_eq hs]
    simp [Findings.none, ← hs]

theorem append_assoc (f g h : Findings) : f ++ g ++ h = f ++ (g ++ h) := by
  cases hf : f.stop with
  | some m => rw [append_of_stop hf, append_of_stop hf, append_of_stop hf]
  | none =>
    cases hg : g.stop with
    | some m =>
      rw [append_of_stop hg, append_eq hf]
      exact append_of_stop hg
    | none =>
      rw [append_eq hg, append_eq hf, append_eq (by simpa using hg), append_eq hf]
      simp

namespace Reports

theorem append (hf : f.Reports cs) (hg : g.Reports ds) : (f ++ g).Reports (cs ++ ds) := by
  rw [append_eq hf.stop]
  exact ⟨hg.stop, by simp [hf.failures, hg.failures]⟩

theorem accepts (h : f.Reports cs) : f.accepts = .ok cs.isEmpty := by
  have hlength : f.violations.length = cs.length := by simpa using congrArg List.length h.failures
  cases hv : f.violations with
  | nil =>
    rw [hv] at hlength
    have hcs : cs = [] := List.length_eq_zero_iff.1 hlength.symm
    simp [Findings.accepts, hv, h.stop, hcs]
  | cons v vs =>
    rw [hv] at hlength
    cases cs with
    | nil => simp at hlength
    | cons c cs => simp [Findings.accepts, hv]

/-- What is collected are the failures of the complaints, all of them or just the first. -/
theorem collect {foreign : Document.ForeignKeywords} {document v : Value}
    (h : (Document.checkWith foreign [] v document).Reports cs) (all : Bool) :
    Document.collectWith foreign document v all =
      (Complaint.wanted all cs).mapM Complaint.failure := by
  -- the conversion of a list may end in a misuse, but depends on the failures alone
  have hmap : ∀ (vs : List Violation) (cs : List Complaint),
      vs.map Violation.failure = cs.map Complaint.failure →
        vs.mapM Violation.failure = cs.mapM Complaint.failure := by
    intro vs cs h
    have hid : ∀ {α : Type} (l : List α) (f : α → Except Misuse Failure),
        l.mapM f = (l.map f).mapM id := fun l f => (List.mapM_map (g := id)).symm
    rw [hid vs, hid cs, h]
  unfold Document.collectWith
  cases all with
  | true =>
    simp only [if_true, Complaint.wanted, Findings.failures, hmap _ _ h.failures, h.stop]
    cases cs.mapM Complaint.failure <;> rfl
  | false =>
    have hfirst := hmap ((Document.checkWith foreign [] v document).violations.take 1) (cs.take 1)
      (by rw [List.map_take, List.map_take, h.failures])
    rw [if_neg Bool.false_ne_true, Complaint.wanted, if_neg Bool.false_ne_true, ← hfirst,
      Findings.firstFailure]
    cases (Document.checkWith foreign [] v document).violations with
    | nil =>
      rw [h.stop]
      rfl
    | cons violation violations =>
      simp

end Reports

end

end Findings

namespace Document

variable {foreign : ForeignKeywords} {path : List Value} {v document : Value}
  {chosen other : Findings}

/-- What one keyword of a document finds. -/
def checkEntry (foreign : ForeignKeywords) (path : List Value) (v document : Value)
    (chosen other : Findings) (entry : Value × Value) : Findings :=
  checkEntries foreign path v document chosen other [entry]

theorem checkEntries_cons (entry : Value × Value) (entries : List (Value × Value)) :
    checkEntries foreign path v document chosen other (entry :: entries) =
      checkEntry foreign path v document chosen other entry ++
        checkEntries foreign path v document chosen other entries := by
  obtain ⟨key, argument⟩ := entry
  unfold checkEntry
  conv_lhs => unfold checkEntries
  conv_rhs =>
    arg 1
    unfold checkEntries
  rw [show checkEntries foreign path v document chosen other [] = .none from rfl,
    Findings.append_none]

theorem checkEntries_append (entries more : List (Value × Value)) :
    checkEntries foreign path v document chosen other (entries ++ more) =
      checkEntries foreign path v document chosen other entries ++
        checkEntries foreign path v document chosen other more := by
  induction entries with
  | nil => rfl
  | cons entry entries ih =>
    rw [List.cons_append, checkEntries_cons, checkEntries_cons, ih, Findings.append_assoc]

theorem checkAll_append (documents more : List Value) :
    checkAll foreign path v (documents ++ more) =
      checkAll foreign path v documents ++ checkAll foreign path v more := by
  induction documents with
  | nil => rfl
  | cons document documents ih =>
    simp only [List.cons_append, checkAll, ih, Findings.append_assoc]

theorem reports_checkAll_flatMap {α : Type} {items : List α} {documents : α → List Value}
    {complaints : α → List Complaint}
    (h : ∀ a ∈ items, (checkAll foreign path v (documents a)).Reports (complaints a)) :
    (checkAll foreign path v (items.flatMap documents)).Reports (items.flatMap complaints) := by
  induction items with
  | nil => exact Findings.reports_none
  | cons a items ih =>
    rw [List.flatMap_cons, List.flatMap_cons, checkAll_append]
    exact (h a List.mem_cons_self).append (ih fun a ha => h a (List.mem_cons_of_mem _ ha))

theorem checkEntry_plain {k : Keyword}
    (hk : k ≠ .not ∧ k ≠ .choice ∧ k ≠ .allOf ∧ k ≠ .properties ∧ k ≠ .required)
    (argument : Value) :
    checkEntry foreign path v document chosen other (.text k.name, argument) =
      checkKeyword path v document k argument := by
  unfold checkEntry checkEntries
  rw [show checkEntries foreign path v document chosen other [] = .none from rfl,
    Findings.append_none, Keyword.ofKey?_name]
  cases k <;> simp_all

theorem checkKeyword_of_objection {k : Keyword} {argument : Value} {holds : Bool}
    (h : IsObjectionTo holds (k.objection? argument v)) : ∃ objection,
      checkKeyword path v document k argument =
        if holds then .none else .one ⟨path, v, document, some k.name, argument, objection⟩ := by
  cases holds with
  | true =>
    rw [IsObjectionTo, if_pos rfl] at h
    exact ⟨"", by rw [checkKeyword, h]; rfl⟩
  | false =>
    rw [IsObjectionTo, if_neg Bool.false_ne_true] at h
    obtain ⟨objection, h⟩ := h
    exact ⟨objection, by rw [checkKeyword, h]; rfl⟩

/-- A document that does not stand for another one finds what its keywords find. -/
theorem checkWith_map {entries : List (Value × Value)} (h : reference? entries = none) :
    checkWith foreign path v (.map entries) = checkEntries foreign path v (.map entries)
      (checkUnder foreign "then" path v entries) (checkUnder foreign "else" path v entries)
      entries := by
  rw [checkWith, h]

theorem reference?_eq_none {entries : Entries Value}
    (h : entries.get? (.text Keyword.referenceName) = none) : reference? entries = none := by
  rw [reference?, Entries.named?, h]

/-- A document of one keyword accepts what the keyword does not object to. -/
theorem accepts_single {k : Keyword}
    (hk : k ≠ .not ∧ k ≠ .choice ∧ k ≠ .allOf ∧ k ≠ .properties ∧ k ≠ .required)
    {argument : Value} {holds : Bool} (h : IsObjectionTo holds (k.objection? argument v)) :
    (checkWith foreign path v (.map [(.text k.name, argument)])).accepts = .ok holds := by
  have hreference : reference? [(Value.text k.name, argument)] = none := by cases k <;> rfl
  rw [checkWith_map hreference]
  show (checkEntry foreign path v _ _ _ (.text k.name, argument)).accepts = _
  rw [checkEntry_plain hk]
  obtain ⟨objection, hcheck⟩ := checkKeyword_of_objection h
  rw [hcheck]
  cases holds <;> rfl

end Document

end FieldSchema
