import FieldSchema.Proofs.ExitStatus
import FieldSchema.Proofs.Reports

/-!
# Searches that end with the first violation

`Document.search` interprets a document like `Document.check` but ends with the first violation: the
rest of the keywords, of the documents in `allOf` and of the properties is not looked at, and a
condition is decided by the first violation in it. It comes to the first of what is found in full
(`Document.search_eq`), so the first failure is collected without what comes after it being found or
converted. Where everything can be collected, what is collected early is the first of it, and a
validation that ends early tells the same with one failure (`Schema.early_of_all`).
-/

namespace FieldSchema

/-- What a search for one violation comes to: a violation, or that there is none, unless it is
stopped before. -/
abbrev Found := Except Misuse (Option Violation)

namespace Found

/-- A search, and another one if it finds nothing. -/
def orElse (found : Found) (other : Unit → Found) : Found :=
  match found with
  | .ok none => other ()
  | found => found

/-- What is found as failures. -/
def failures (found : Found) : Except Misuse (List Failure) :=
  match found with
  | .ok (some v) => do pure [← v.failure]
  | .ok none => .ok []
  | .error m => .error m

end Found

namespace Findings

variable {f g : Findings} {failures : List Failure}

/-- The first of the findings, which is the misuse if there is no violation before it. -/
def first (f : Findings) : Found :=
  match f.violations, f.stop with
  | v :: _, _ => .ok (some v)
  | [], some m => .error m
  | [], .none => .ok Option.none

theorem first_append (f g : Findings) : (f ++ g).first = f.first.orElse fun _ => g.first := by
  obtain ⟨violations, stop⟩ := f
  rcases stop with _ | m
  · rw [append_eq rfl]
    rcases violations with _ | ⟨v, violations⟩ <;> rfl
  · rw [append_of_stop (m := m) rfl]
    rcases violations with _ | ⟨v, violations⟩ <;> rfl

theorem accepts_eq (f : Findings) : f.accepts = (·.isNone) <$> f.first := by
  obtain ⟨violations, stop⟩ := f
  rcases violations with _ | ⟨v, violations⟩
  · rcases stop with _ | m <;> rfl
  · rfl

theorem firstFailure_eq (f : Findings) : f.firstFailure = f.first.failures := by
  obtain ⟨violations, stop⟩ := f
  rcases violations with _ | ⟨v, violations⟩
  · rcases stop with _ | m <;> rfl
  · rfl

/-- Where all of the findings become failures, the first of them becomes the first failure. -/
theorem firstFailure_of_failures (h : f.failures = .ok failures) :
    f.firstFailure = .ok (failures.take 1) := by
  obtain ⟨violations, stop⟩ := f
  obtain ⟨converted, hconverted, hstop⟩ := Except.exists_of_bind_eq_ok h
  rcases stop with _ | m
  · obtain rfl : converted = failures := Except.ok.inj hstop
    rcases violations with _ | ⟨v, violations⟩
    · cases hconverted
      rfl
    · obtain ⟨failure, rest, hv, -, rfl⟩ := Except.exists_of_mapM_cons_eq_ok hconverted
      show (do pure [← v.failure]) = _
      rw [hv]
      rfl
  · cases hstop

end Findings

namespace Document

/-! ## The search -/

/-- A search in a document within another one. -/
def searchEntered (document : Value) (found : Found) : Found :=
  match document with
  | .null | .number _ | .date _ | .dateTime _ | .pattern _ | .schema .. =>
    .error (.notContainer document)
  | _ => found

def searchPlainAll (path : List Value) (v : Value) : List Value → Found
  | [] => .ok none
  | document :: documents =>
    (searchEntered document (checkPlain path v document).first).orElse fun _ =>
      searchPlainAll path v documents

def searchRequired (path : List Value) (v document argument : Value) (record : Entries Value) :
    List Value → Found
  | [] => .ok none
  | name :: names =>
    if !name.isKey then .error (.notHashable name)
    else if record.has name then searchRequired path v document argument record names
    else .ok (some ⟨path, v, document, some Keyword.required.name, argument,
      name.shown ++ " is a required property"⟩)

def searchRequiredNames (path : List Value) (v document argument : Value) : Found :=
  match v with
  | .map record =>
    match argument.items with
    | .ok names => searchRequired path v document argument record names
    | .error m => .error m
  | _ => .ok none

def searchNot (path : List Value) (v document argument : Value) (inner : Found) : Found :=
  match inner with
  | .ok none =>
    .ok (some ⟨path, v, document, some Keyword.not.name, argument,
      v.shown ++ " should not be valid under " ++ argument.shown⟩)
  | .ok (some _) => .ok none
  | .error m => .error m

def searchChoice (test : Found) (chosen other : Unit → Found) : Found :=
  match test with
  | .ok none => chosen ()
  | .ok (some _) => other ()
  | .error m => .error m

variable (foreign : ForeignKeywords)

def searchForeign (path : List Value) (v document key argument : Value) : Found :=
  match Keyword.foreignName? key with
  | some name => (foreign name path v document argument).first
  | none => .ok none

mutual

/-- The first violation of a document. -/
def search (path : List Value) (v : Value) : Value → Found
  | .map entries =>
    match reference? entries with
    | some target => (foreign Keyword.referenceName path v (.map entries) target).first
    | none =>
      searchEntries path v (.map entries) (fun _ => searchUnder "then" path v entries)
        (fun _ => searchUnder "else" path v entries) entries
  | document => (checkPlain path v document).first
  termination_by structural document => document

def searchUnder (key : String) (path : List Value) (v : Value) : List (Value × Value) → Found
  | [] => .ok none
  | (name, document) :: entries =>
    if name.same (.text key) then searchEntered document (search path v document)
    else searchUnder key path v entries
  termination_by structural entries => entries

def searchEntries (path : List Value) (v document : Value) (chosen other : Unit → Found) :
    List (Value × Value) → Found
  | [] => .ok none
  | (key, argument) :: entries =>
    Found.orElse
      (match Keyword.ofKey? key with
      | none => searchForeign foreign path v document key argument
      | some .not => searchNot path v document argument (search path v argument)
      | some .choice => searchChoice (search path v argument) chosen other
      | some .allOf =>
        match argument with
        | .list documents => searchAll path v documents
        | .tuple documents => searchAll path v documents
        | argument =>
          match argument.items with
          | .ok documents => searchPlainAll path v documents
          | .error m => .error m
      | some .properties =>
        match v with
        | .map record =>
          match argument with
          | .map properties => searchProperties path record properties
          | argument => .error (.noAttribute argument "items")
        | _ => .ok none
      | some .required => searchRequiredNames path v document argument
      | some keyword => (checkKeyword path v document keyword argument).first)
      fun _ => searchEntries path v document chosen other entries
  termination_by structural entries => entries

def searchAll (path : List Value) (v : Value) : List Value → Found
  | [] => .ok none
  | document :: documents =>
    (searchEntered document (search path v document)).orElse fun _ => searchAll path v documents
  termination_by structural documents => documents

def searchProperties (path : List Value) (record : Entries Value) : List (Value × Value) → Found
  | [] => .ok none
  | (name, document) :: properties =>
    Found.orElse
      (match record.get? name with
      | some v => searchEntered document (search (path ++ [name]) v document)
      | none => .ok none)
      fun _ => searchProperties path record properties
  termination_by structural properties => properties

end

/-! ## It comes to the first finding -/

variable {foreign} {path : List Value} {v document argument : Value}

theorem first_entered (document : Value) (findings : Findings) :
    (entered document findings).first = searchEntered document findings.first := by
  cases document <;> rfl

theorem searchPlainAll_eq : ∀ documents : List Value,
    searchPlainAll path v documents = (checkPlainAll path v documents).first
  | [] => rfl
  | document :: documents => by
    rw [checkPlainAll, Findings.first_append, first_entered, ← searchPlainAll_eq documents]
    rfl

theorem searchRequired_eq (record : Entries Value) : ∀ names : List Value,
    searchRequired path v document argument record names =
      (checkRequired path v document argument record names).first
  | [] => rfl
  | name :: names => by
    unfold searchRequired checkRequired
    split_ifs with hkey hhas
    · rfl
    · rw [Findings.first_append, ← searchRequired_eq record names]
      rfl
    · rw [Findings.first_append]
      rfl

theorem searchRequiredNames_eq (path : List Value) (v document argument : Value) :
    searchRequiredNames path v document argument =
      (checkRequiredNames path v document argument).first := by
  unfold searchRequiredNames checkRequiredNames
  cases v with
  | map record =>
    rcases argument.items with m | names
    · rfl
    · exact searchRequired_eq record names
  | _ => rfl

theorem searchNot_eq (inner : Findings) : searchNot path v document argument inner.first =
    (checkNot path v document argument inner).first := by
  rw [checkNot, Findings.accepts_eq]
  rcases inner.first with m | _ | violation <;> rfl

theorem searchChoice_eq (test chosen other : Findings) :
    searchChoice test.first (fun _ => chosen.first) (fun _ => other.first) =
      (checkChoice test chosen other).first := by
  rw [checkChoice, Findings.accepts_eq]
  rcases test.first with m | _ | violation <;> rfl

theorem searchForeign_eq (path : List Value) (v document key argument : Value) :
    searchForeign foreign path v document key argument =
      (checkForeign foreign path v document key argument).first := by
  unfold searchForeign checkForeign
  cases Keyword.foreignName? key <;> rfl

mutual

theorem search_eq (path : List Value) (v : Value) : ∀ document : Value,
    search foreign path v document = (checkWith foreign path v document).first
  | .map entries => by
    have hthen := searchUnder_eq "then" path v entries
    have helse := searchUnder_eq "else" path v entries
    rw [search, checkWith, hthen, helse, searchEntries_eq]
    cases reference? entries <;> rfl
  | .null | .bool _ | .number _ | .text _ | .list _ | .tuple _ | .date _ | .dateTime _
  | .pattern _ | .schema .. => rfl
  termination_by structural document => document

theorem searchUnder_eq (key : String) (path : List Value) (v : Value) :
    ∀ entries : List (Value × Value),
      searchUnder foreign key path v entries = (checkUnder foreign key path v entries).first
  | [] => rfl
  | (name, document) :: entries => by
    unfold searchUnder checkUnder
    split_ifs with hname
    · rw [first_entered, search_eq path v document]
    · exact searchUnder_eq key path v entries
  termination_by structural entries => entries

theorem searchEntries_eq (path : List Value) (v document : Value) (chosen other : Findings) :
    ∀ entries : List (Value × Value),
      searchEntries foreign path v document (fun _ => chosen.first) (fun _ => other.first) entries =
        (checkEntries foreign path v document chosen other entries).first
  | [] => rfl
  | (key, argument) :: entries => by
    unfold searchEntries checkEntries
    rw [Findings.first_append, searchEntries_eq path v document chosen other entries]
    congr 1
    rcases Keyword.ofKey? key with _ | keyword
    · exact searchForeign_eq path v document key argument
    · cases keyword with
      | not =>
        show searchNot path v document argument (search foreign path v argument) = _
        rw [search_eq path v argument, searchNot_eq]
      | choice =>
        show searchChoice (search foreign path v argument) _ _ = _
        rw [search_eq path v argument, searchChoice_eq]
      | allOf =>
        cases argument with
        | list documents => exact searchAll_eq path v documents
        | tuple documents => exact searchAll_eq path v documents
        | map entries => exact searchPlainAll_eq (entries.map (·.1))
        | text s => exact searchPlainAll_eq _
        | _ => rfl
      | properties =>
        cases v with
        | map record =>
          cases argument with
          | map properties => exact searchProperties_eq path record properties
          | _ => rfl
        | _ => rfl
      | required => exact searchRequiredNames_eq path v document argument
      | _ => rfl
  termination_by structural entries => entries

theorem searchAll_eq (path : List Value) (v : Value) : ∀ documents : List Value,
    searchAll foreign path v documents = (checkAll foreign path v documents).first
  | [] => rfl
  | document :: documents => by
    rw [searchAll, checkAll, Findings.first_append, first_entered, search_eq path v document,
      searchAll_eq path v documents]
  termination_by structural documents => documents

theorem searchProperties_eq (path : List Value) (record : Entries Value) :
    ∀ properties : List (Value × Value),
      searchProperties foreign path record properties =
        (checkProperties foreign path record properties).first
  | [] => rfl
  | (name, document) :: properties => by
    unfold searchProperties checkProperties
    rw [Findings.first_append, searchProperties_eq path record properties]
    congr 1
    cases record.get? name with
    | none => rfl
    | some v =>
      show searchEntered document (search foreign (path ++ [name]) v document) = _
      rw [first_entered, search_eq (path ++ [name]) v document]
  termination_by structural properties => properties

end

theorem collect_early_eq (foreign : ForeignKeywords) (document v : Value) :
    collectWith foreign document v false = (search foreign [] v document).failures := by
  rw [search_eq, ← Findings.firstFailure_eq]
  rfl

/-- Where all failures can be collected, the early one is the first of them. -/
theorem collect_early_of_all {failures : List Failure}
    (h : collectWith foreign document v true = .ok failures) :
    collectWith foreign document v false = .ok (failures.take 1) :=
  Findings.firstFailure_of_failures h

end Document

namespace Schema

variable {s : Schema} {v w : Value} {failures : List Failure}

/-- What is refused with all of the failures is refused early with the first of them. -/
theorem judge_early_of_all (h : s.judge v true = .error (.invalid failures)) :
    ∃ failure rest, failures = failure :: rest ∧
      s.judge v false = .error (.invalid [failure]) := by
  by_cases hnull : v.isNull = true
  · unfold judge at h ⊢
    rw [if_pos hnull] at h ⊢
    split_ifs at h ⊢ with hrequired
    cases h
    exact ⟨_, [], rfl, rfl⟩
  · rw [Bool.not_eq_true] at hnull
    have hall : s.failures v true = .ok failures := failures_of_judge hnull h
    have hearly : s.failures v false = .ok (failures.take 1) := Document.collect_early_of_all hall
    rcases failures with _ | ⟨failure, rest⟩
    · have hok : s.judge v true = .ok v :=
        judge_eq_ok_iff_failures.2 ⟨rfl, by rw [hnull]; exact hall⟩
      cases hok.symm.trans h
    · refine ⟨failure, rest, rfl, ?_⟩
      unfold judge
      rw [hnull, hearly]
      rfl

/-- What keywords of other origin find does not matter to the documents of schemas that are built.
-/
theorem Reachable.collectWith_eq (h : s.Reachable) (foreign : Document.ForeignKeywords) (v : Value)
    (all : Bool) :
    Document.collectWith foreign s.document v all = Document.collect s.document v all := by
  rw [collectWith_document h.everywhere_isSound, collect_document h.everywhere_isSound]

/-- What a document collects early is the first of what it collects in full wherever that is
complete, whatever keywords of other origin find. It is what the search for one violation comes to,
and so does not depend on what would come after. The documents of schemas that are built collect the
same whatever such keywords find. A validation that ends early returns what one that collects
everything returns, and is refused with the first of its failures. -/
theorem early_of_all :
    (∀ foreign document v failures,
      Document.collectWith foreign document v true = .ok failures →
        Document.collectWith foreign document v false = .ok (failures.take 1)) ∧
    (∀ foreign document v, Document.collectWith foreign document v false =
      (Document.search foreign [] v document).failures) ∧
    (∀ s : Schema, s.Reachable → ∀ foreign v all,
      Document.collectWith foreign s.document v all = Document.collect s.document v all) ∧
    ∀ (s : Schema) (v : Value),
      (∀ w, s.validate v true = .ok w → s.validate v false = .ok w) ∧
      ∀ failures, s.validate v true = .error (.invalid failures) → ∃ failure rest,
        failures = failure :: rest ∧ s.validate v false = .error (.invalid [failure]) :=
  ⟨fun _ _ _ _ => Document.collect_early_of_all, Document.collect_early_eq,
    fun _ => Reachable.collectWith_eq, fun _ _ =>
      ⟨fun _ => (validate_eq_ok_iff_of_all true false).1, fun _ => judge_early_of_all⟩⟩

/-- A code has four characters, and at least three of them are asked for besides. -/
def fourCharacters : Schema :=
  ((ofKind .string).withRule (.minLength (.int 3)) .null).withRule (.exactLength (.int 4)) .null

/-- A keyword of other origin, which demands a number of entries. -/
def leastSize : Document.ForeignKeywords := fun name path v document argument =>
  match name, v, argument with
  | "minProperties", .map record, .number (.int n) =>
    if record.length < n then
      .one ⟨path, v, document, some name, argument, v.shown ++ " does not have enough properties"⟩
    else .none
  | _, _, _ => .none

def sizedDocument : Value :=
  .map [(.text "minProperties", .int 2), (.text "enum", .list [])]

theorem early_of_all_fourCharacters :
    (∃ size value : Failure,
      Document.collectWith leastSize sizedDocument (.map []) true = .ok [size, value] ∧
        Document.collectWith leastSize sizedDocument (.map []) false = .ok [size]) ∧
    ∃ short exact : Failure,
      fourCharacters.validate (.text "ab") true = .error (.invalid [short, exact]) ∧
        fourCharacters.validate (.text "ab") false = .error (.invalid [short]) ∧
        Document.collect fourCharacters.document (.text "ab") false = .ok [short] ∧
        fourCharacters.validate (.text "abcd") false = .ok (.text "abcd") := by
  obtain ⟨hcollect, -, -, hvalidate⟩ := early_of_all
  constructor
  · obtain ⟨size, value, hall⟩ : ∃ size value : Failure,
        Document.collectWith leastSize sizedDocument (.map []) true = .ok [size, value] :=
      ⟨_, _, rfl⟩
    exact ⟨size, value, hall, hcollect _ _ _ _ hall⟩
  · obtain ⟨short, exact, hall⟩ : ∃ short exact : Failure,
        fourCharacters.validate (.text "ab") true = .error (.invalid [short, exact]) :=
      ⟨_, _, rfl⟩
    obtain ⟨failure, rest, hcons, hearly⟩ := (hvalidate fourCharacters (.text "ab")).2 _ hall
    obtain ⟨rfl, -⟩ := List.cons.inj hcons
    have hcollected : Document.collect fourCharacters.document (.text "ab") true =
        .ok [short, exact] := failures_of_judge rfl hall
    exact ⟨short, exact, hall, hearly, hcollect _ _ _ _ hcollected,
      (hvalidate fourCharacters (.text "abcd")).1 _ rfl⟩

end Schema

end FieldSchema
