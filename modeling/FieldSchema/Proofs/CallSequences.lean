import FieldSchema.Proofs.Compiled
import FieldSchema.Proofs.ConstraintOrder
import Mathlib.Data.List.Induction
import Mathlib.Data.List.Nodup

/-!
# Schemas after a sequence of calls

A schema is made by calls of methods, one after another (`Context.callAll`). Of the tests that are
declared on the way those of the last calls are left, in the order of these calls
(`Context.remainingTests`), and the demand for a value, the documents of tests, the description and
the compiled document all keep to them (`Context.isLeftBy_callAll`). One call drops the test of its
name and adds the one that it declares (`Context.Calls.tests_applyTo`), which leaves a schema tidy
(`Context.Calls.isTidy_applyTo`); the rest is by induction on the last call.
-/

namespace FieldSchema

/-- A call of a method by its name. -/
structure MethodCall where
  method : String
  arguments : Arguments

/-- The name of the test that a call replaces or drops. -/
def MethodCall.testName (call : MethodCall) : String :=
  if call.method = Method.notRequired.name then Method.required.name else call.method

namespace Value

/-- What a mapping has under a key. -/
def under? (v : Value) (key : String) : Option Value :=
  match v with
  | .map entries => Entries.named? entries key
  | _ => none

/-- The items of the list that a mapping has under a key, if it has one. -/
def itemsUnder (v : Value) (key : String) : List Value :=
  match v.under? key with
  | some (.list items) => items
  | _ => []

end Value

/-! ## Tests that methods declare -/

theorem Rule.exists_method (r : Rule) : ∃ m : Method, m.takesMessage = true ∧ m.name = r.name := by
  cases r with
  | required _ => exact ⟨.required, rfl, rfl⟩
  | oneOf _ => exact ⟨.oneOf, rfl, rfl⟩
  | notOneOf _ => exact ⟨.notOneOf, rfl, rfl⟩
  | minLength _ | minItems _ | minimum _ | notBefore _ => exact ⟨.min, rfl, rfl⟩
  | maxLength _ | maxItems _ | maximum _ | notAfter _ => exact ⟨.max, rfl, rfl⟩
  | exactLength _ | exactItems _ => exact ⟨.length, rfl, rfl⟩
  | matching _ => exact ⟨.matching, rfl, rfl⟩
  | email => exact ⟨.email, rfl, rfl⟩
  | url => exact ⟨.url, rfl, rfl⟩
  | uuid => exact ⟨.uuid, rfl, rfl⟩
  | moreThan _ => exact ⟨.moreThan, rfl, rfl⟩
  | lessThan _ => exact ⟨.lessThan, rfl, rfl⟩
  | positive => exact ⟨.positive, rfl, rfl⟩
  | negative => exact ⟨.negative, rfl, rfl⟩
  | integer => exact ⟨.integer, rfl, rfl⟩
  | isTrue => exact ⟨.isTrue, rfl, rfl⟩
  | isFalse => exact ⟨.isFalse, rfl, rfl⟩

/-- No test has the name of a method that declares none. -/
theorem Test.name_ne (t : Test) {m : Method} (h : m.takesMessage = false) : t.name ≠ m.name := by
  obtain ⟨m', hm', hname⟩ := t.rule.exists_method
  rintro heq
  rw [Method.name_injective (hname.trans heq), h] at hm'
  cases hm'

/-- The arguments of a call that are bound are as many as the method has parameters. -/
theorem Arguments.length_of_bind {arguments : Arguments} {m : Method} {kind : Kind}
    {values : List Value} (h : arguments.bind m kind = .ok values) :
    values.length = m.allParameters.length := by
  unfold bind at h
  simp only [] at h
  split at h
  · cases h
  · split_ifs at h with hlength hmissing
    cases h
    simp only [List.length_append, List.length_map, List.length_drop]
    omega

namespace Context

variable {context : Context} {s t : Schema} {m : Method} {kind : Kind} {arguments : List Value}
  {c : Change}

theorem arguments_of_takesMessage (kind : Kind) (hm : m.takesMessage = true)
    (hlength : arguments.length = m.allParameters.length) :
    (∃ v message rule, arguments = [v, message] ∧ rule? m kind v = some rule) ∨
      ∃ message, arguments = [message] ∧
        (m = .required ∨ m ≠ .required ∧ ∃ rule, fixedRule? m = some rule) := by
  have htwo : m.parameters ≠ [] → arguments.length = 2 → ∃ v message rule,
      arguments = [v, message] ∧ rule? m kind v = some rule := by
    intro hparameters h
    obtain ⟨v, message, rfl⟩ := List.length_eq_two.1 h
    cases m <;> simp [Method.takesMessage, Method.parameters] at hm hparameters <;>
      exact ⟨v, message, _, rfl, rfl⟩
  have hone : m.parameters = [] → arguments.length = 1 → ∃ message, arguments = [message] ∧
      (m = .required ∨ m ≠ .required ∧ ∃ rule, fixedRule? m = some rule) := by
    intro hparameters h
    obtain ⟨message, rfl⟩ := List.length_eq_one_iff.1 h
    cases m <;> simp [Method.takesMessage, Method.parameters, fixedRule?] at hm hparameters ⊢
  by_cases hparameters : m.parameters = []
  · refine .inr (hone hparameters ?_)
    simp [hlength, Method.allParameters, hparameters, hm]
  · refine .inl (htwo hparameters ?_)
    have hfew : m.parameters.length = 1 := by
      cases m <;> simp [Method.takesMessage, Method.parameters] at hm hparameters ⊢
    simp [hlength, Method.allParameters, hfew, hm]

/-- A method that takes a message declares one test, of its own name. -/
theorem exists_test_of_changeOf (hm : m.takesMessage = true)
    (hlength : arguments.length = m.allParameters.length)
    (h : context.changeOf m kind arguments = .ok c) :
    ∃ rule message, rule.name = m.name ∧ c.tests? = some (m.name, [.of rule message]) := by
  have hne : m ≠ .notRequired ∧ m ≠ .nullable ∧ m ≠ .default ∧ m ≠ .label ∧ m ≠ .shape := by
    refine ⟨?_, ?_, ?_, ?_, ?_⟩ <;> rintro rfl <;> cases hm
  rcases arguments_of_takesMessage kind hm hlength with
    ⟨v, message, rule, rfl, hrule⟩ | ⟨message, rfl, rfl | ⟨hrequired, rule, hrule⟩⟩
  · rw [changeOf_rule hne.1 hne.2.1, hrule] at h
    obtain ⟨rule, rfl, rfl⟩ := Except.exists_of_map_eq_ok h
    have hname := name_eq_of_rule? hrule
    exact ⟨rule, message, hname, by rw [← hname]; rfl⟩
  · cases h
    exact ⟨_, message, rfl, rfl⟩
  · rw [changeOf_fixedRule (by simp [hne, hrequired]), hrule] at h
    cases h
    have hname := name_eq_of_fixedRule? hrule
    exact ⟨rule, message, hname, by rw [← hname]; rfl⟩

/-- Any other method declares none, and one of them drops the demand for a value. -/
theorem tests?_of_changeOf (hm : m.takesMessage = false)
    (h : context.changeOf m kind arguments = .ok c) :
    c.tests? = if m = .notRequired then some (Method.required.name, []) else none := by
  unfold changeOf at h
  split at h
  case h_1 => cases hm
  case h_2 | h_3 | h_4 | h_5 =>
    cases h
    rfl
  case h_6 =>
    obtain ⟨_, -, h⟩ := Except.exists_of_bind_eq_ok h
    obtain ⟨_, -, h⟩ := Except.exists_of_bind_eq_ok h
    cases h
    rfl
  case h_7 =>
    obtain ⟨_, -, h⟩ := Except.exists_of_bind_eq_ok h
    cases h
    rfl
  case h_8 v _ hne _ =>
    have hnone : rule? m kind v = none := by
      cases m <;> first | rfl | cases hm
    rw [hnone] at h
    cases h
    rw [if_neg hne]
  case h_9 _ hne _ _ _ _ =>
    have hnone : fixedRule? m = none := by
      cases m <;> first | rfl | cases hm
    rw [hnone] at h
    cases h
    rw [if_neg hne]
  case h_10 _ _ hne _ _ _ _ _ _ _ _ =>
    cases h
    rw [if_neg fun heq => hne heq]

theorem isRequired?_of_changeOf (hlength : arguments.length = m.allParameters.length)
    (h : context.changeOf m kind arguments = .ok c) : c.isRequired? =
      if m = .required then some true else if m = .notRequired then some false else none := by
  by_cases hrequired : m = .required
  · subst hrequired
    obtain ⟨message, rfl⟩ := List.length_eq_one_iff.1 hlength
    cases h
    rfl
  · by_cases hnot : m = .notRequired
    · subst hnot
      cases h
      rfl
    · have hslot : m.slot = m := if_neg hnot
      have hnone : c.isRequired?.isSome ≠ true := fun hsome =>
        hrequired (hslot ▸ (isOf_of_changeOf h).isRequired hsome)
      rw [if_neg hrequired, if_neg hnot]
      simpa using hnone

/-! ## Single calls -/

/-- The tests that a call declares: those of a schema of the kind without any other constraints. -/
def declaredTests (context : Context) (kind : Kind) (call : MethodCall) : List Test :=
  match context.invoke (.ofKind kind) call.method call.arguments with
  | .ok s => s.tests
  | .error _ => []

/-- That the call of a method makes a change to every schema of a kind. -/
structure Calls (context : Context) (kind : Kind) (call : MethodCall) (m : Method) (c : Change) :
    Prop where
  name : m.name = call.method
  mem : m ∈ Method.common ++ Method.own kind
  isOf : c.IsOf m.slot
  test : m.takesMessage = true →
    ∃ rule message, rule.name = m.name ∧ c.tests? = some (m.name, [.of rule message])
  noTest : m.takesMessage = false →
    c.tests? = if m = .notRequired then some (Method.required.name, []) else none
  isRequired : c.isRequired? =
    if m = .required then some true else if m = .notRequired then some false else none
  result : ∀ s : Schema, s.kind = kind →
    context.invoke s call.method call.arguments = .ok (c.applyTo s)

/-- Where no method is registered, a call that is not refused makes one and the same change to all
schemas of the kind. -/
theorem exists_calls (hregistry : context.registry = []) (call : MethodCall)
    (h : context.invoke s call.method call.arguments = .ok t) :
    ∃ m c, context.Calls s.kind call m c ∧ t = c.applyTo s := by
  obtain ⟨m, values, hcapability, hbind, h⟩ := exists_apply_of_invoke hregistry h
  have hlength := Arguments.length_of_bind hbind
  rw [apply_eq rfl] at h
  cases hchange : context.changeOf m s.kind values with
  | error fault => simp [hchange, Except.map] at h
  | ok c =>
    obtain ⟨hm, hname⟩ := Registry.mem_of_capability?_nil hcapability
    have happly : ∀ s' : Schema, s'.kind = s.kind →
        context.apply m s' values = .ok (c.applyTo s') := fun s' hs' =>
      (apply_eq hs' m values).trans (by rw [hchange]; rfl)
    refine ⟨m, c, ⟨hname, hm, isOf_of_changeOf hchange,
      fun hm => exists_test_of_changeOf hm hlength hchange,
      fun hm => tests?_of_changeOf hm hchange, isRequired?_of_changeOf hlength hchange,
      fun s' hs' => ?_⟩, ?_⟩
    · rw [invoke_eq_apply hregistry (hs' ▸ hcapability), hs', hbind]
      exact happly s' hs'
    · simpa [hchange, Except.map] using h.symm

namespace Calls

variable {call : MethodCall}

theorem testName_eq (h : context.Calls kind call m c) : call.testName = m.slot.name := by
  rw [MethodCall.testName, ← h.name, Method.slot]
  by_cases hm : m = .notRequired
  · rw [hm]
    rfl
  · rw [if_neg hm, if_neg fun heq => hm (Method.name_injective heq)]

theorem declaredTests_eq (h : context.Calls kind call m c) :
    context.declaredTests kind call = c.testsOf [] := by
  rw [declaredTests, h.result _ rfl]
  rfl

/-- A call drops the test of its name, if there is one, and adds what it declares. -/
theorem tests_applyTo (h : context.Calls kind call m c) (s : Schema) :
    (c.applyTo s).tests =
      s.tests.filter (·.name ≠ call.testName) ++ context.declaredTests kind call := by
  rw [h.declaredTests_eq, h.testName_eq]
  show c.testsOf s.tests = _
  unfold Change.testsOf
  cases htests : c.tests? with
  | some p =>
    obtain ⟨name, added⟩ := p
    obtain ⟨rfl, -⟩ := h.isOf.tests _ htests
    rfl
  | none =>
    -- no test has the name of such a method, so none is dropped
    have hmessage : m.takesMessage = false := by
      by_contra hm
      obtain ⟨_, _, -, hsome⟩ := h.test (by simpa using hm)
      rw [htests] at hsome
      cases hsome
    have hnot : m ≠ .notRequired := by
      rintro rfl
      have hsome := h.noTest rfl
      rw [htests] at hsome
      cases hsome
    have hkeep : s.tests.filter (·.name ≠ m.slot.name) = s.tests := by
      rw [Method.slot, if_neg hnot]
      exact List.filter_eq_self.2 fun t _ => by simpa using t.name_ne hmessage
    rw [hkeep, List.append_nil]

/-- It declares one test of its name if the method takes a message, and none otherwise. -/
theorem declaredTests_spec (h : context.Calls kind call m c) :
    (m.takesMessage = true → ∃ rule message, rule.name = call.method ∧
      context.declaredTests kind call = [.of rule message]) ∧
    (m.takesMessage = false → context.declaredTests kind call = []) := by
  rw [h.declaredTests_eq, ← h.name]
  refine ⟨fun hm => ?_, fun hm => ?_⟩
  · obtain ⟨rule, message, hname, htests⟩ := h.test hm
    exact ⟨rule, message, hname, by rw [Change.testsOf, htests]; rfl⟩
  · rw [Change.testsOf, h.noTest hm]
    by_cases hnot : m = .notRequired <;> simp [hnot]

theorem declaredNames_eq (h : context.Calls kind call m c) :
    (context.declaredTests kind call).map (·.name) =
      if m.takesMessage then [call.testName] else [] := by
  cases hm : m.takesMessage with
  | true =>
    obtain ⟨rule, message, hname, heq⟩ := h.declaredTests_spec.1 hm
    have hnot : m ≠ .notRequired := by
      rintro rfl
      cases hm
    rw [heq, h.testName_eq, Method.slot, if_neg hnot, h.name, ← hname]
    rfl
  | false =>
    rw [h.declaredTests_spec.2 hm]
    rfl

end Calls

theorem declaredTests_cases (hregistry : context.registry = []) (kind : Kind)
    (call : MethodCall) : context.declaredTests kind call = [] ∨
      ∃ test, context.declaredTests kind call = [test] ∧ test.name = call.testName := by
  cases hinvoke : context.invoke (.ofKind kind) call.method call.arguments with
  | error fault => exact .inl (by rw [declaredTests, hinvoke])
  | ok t =>
    obtain ⟨m, c, hcall, -⟩ :
        ∃ m c, context.Calls kind call m c ∧ t = c.applyTo (.ofKind kind) :=
      exists_calls hregistry call hinvoke
    have hnames := hcall.declaredNames_eq
    split at hnames
    · obtain ⟨test, htest, hname⟩ := List.map_eq_singleton_iff.1 hnames
      exact .inr ⟨test, htest, hname⟩
    · exact .inl (List.map_eq_nil_iff.1 hnames)

end Context

/-! ## Sequences of calls -/

/-- What the parts of a schema have to do with each other, whatever calls have been made. -/
structure Schema.IsTidy (s : Schema) : Prop where
  nodup : s.testNames.Nodup
  isRequired_iff : s.isRequired = true ↔ "required" ∈ s.testNames
  messages : ∀ t ∈ s.tests, t.message.isTruthy = true
  fields_eq_nil : s.kind ≠ .object → s.fields = []

namespace Context

variable {context : Context} {s t : Schema} {m : Method} {kind : Kind} {c : Change}

theorem isTidy_ofKind (kind : Kind) : (Schema.ofKind kind).IsTidy :=
  ⟨.nil, by simp [Schema.ofKind, Schema.testNames], List.forall_mem_nil _, fun _ => rfl⟩

theorem Calls.testNames_applyTo {call : MethodCall} (h : context.Calls kind call m c)
    (s : Schema) : (c.applyTo s).testNames = s.testNames.filter (· ≠ call.testName) ++
      if m.takesMessage then [call.testName] else [] := by
  rw [Schema.testNames, h.tests_applyTo, List.map_append, h.declaredNames_eq, Schema.testNames,
    List.filter_map]
  rfl

/-- The demand for a value and the test for it come and go together. -/
theorem Calls.isRequired_applyTo_iff {call : MethodCall} (h : context.Calls kind call m c)
    (hs : s.isRequired = true ↔ "required" ∈ s.testNames) :
    (c.applyTo s).isRequired = true ↔ "required" ∈ (c.applyTo s).testNames := by
  rw [h.testNames_applyTo, h.testName_eq]
  show c.isRequired?.getD s.isRequired = true ↔ _
  rw [h.isRequired]
  by_cases hrequired : m = .required
  · subst hrequired
    simp [Method.takesMessage, Method.slot, Method.name]
  · by_cases hnot : m = .notRequired
    · subst hnot
      simp [Method.takesMessage, Method.slot, Method.name]
    · have hname : "required" ≠ m.name := fun heq =>
        hrequired (Method.name_injective heq.symm)
      have hslot : m.slot = m := if_neg hnot
      rw [if_neg hrequired, if_neg hnot, Option.getD_none, hs, hslot, List.mem_append,
        List.mem_filter]
      split <;> simp [hname]

/-- One call leaves a schema tidy. -/
theorem Calls.isTidy_applyTo {call : MethodCall} (h : context.Calls s.kind call m c)
    (hs : s.IsTidy) : (c.applyTo s).IsTidy where
  nodup := by
    have hkept : (s.testNames.filter (· ≠ call.testName)).Nodup := hs.nodup.filter _
    rw [h.testNames_applyTo]
    split
    · rw [← List.concat_eq_append]
      exact List.Nodup.concat (by simp) hkept
    · rwa [List.append_nil]
  isRequired_iff := h.isRequired_applyTo_iff hs.isRequired_iff
  messages := by
    rw [h.tests_applyTo, List.forall_mem_append]
    refine ⟨fun t ht => hs.messages t (List.mem_filter.1 ht).1, ?_⟩
    cases hm : m.takesMessage with
    | true =>
      obtain ⟨rule, message, -, heq⟩ := h.declaredTests_spec.1 hm
      rw [heq]
      exact List.forall_mem_singleton.2 (Test.isTruthy_message_of rule message)
    | false =>
      rw [h.declaredTests_spec.2 hm]
      exact List.forall_mem_nil _
  fields_eq_nil := by
    intro hkind
    have hnone : c.fields? = none := by
      by_contra hsome
      have hslot : m.slot = .shape := h.isOf.fields (Option.isSome_iff_ne_none.2 hsome)
      have hshape : m = .shape := by
        cases m <;> first | rfl | cases hslot
      exact hkind (Method.kind_eq_of_shape_mem (hshape ▸ h.mem))
    show Entries.putAll s.fields (c.fields?.getD []) = []
    rw [hs.fields_eq_nil hkind, hnone]
    rfl

/-- Makes calls one after another. -/
def callAll (context : Context) (s : Schema) (calls : List MethodCall) : Except Fault Schema :=
  calls.foldlM (fun s call => context.invoke s call.method call.arguments) s

/-- The tests that some calls leave: of each name what the last call for it declares, in the order
of these calls. -/
def remainingTests (context : Context) (kind : Kind) : List MethodCall → List Test
  | [] => []
  | call :: calls =>
    (if calls.any (·.testName = call.testName) then [] else context.declaredTests kind call) ++
      remainingTests context kind calls

/-- One more call drops the test of its name, if there is one, and adds what it declares. -/
theorem remainingTests_concat (hregistry : context.registry = []) (call : MethodCall) :
    ∀ calls : List MethodCall, context.remainingTests kind (calls ++ [call]) =
      (context.remainingTests kind calls).filter (·.name ≠ call.testName) ++
        context.declaredTests kind call
  | [] => by simp [remainingTests]
  | first :: calls => by
    have ih := remainingTests_concat hregistry call calls
    have hfirst : (if (calls ++ [call]).any (·.testName = first.testName) then []
        else context.declaredTests kind first) =
          (if calls.any (·.testName = first.testName) then []
            else context.declaredTests kind first).filter (·.name ≠ call.testName) := by
      cases hlater : calls.any (·.testName = first.testName) with
      | true => simp [hlater]
      | false =>
        -- what the first call declares is dropped exactly if the last one is for the same name
        rcases declaredTests_cases hregistry kind first with hnil | ⟨test, htest, hname⟩
        · simp [hnil]
        · by_cases hsame : call.testName = first.testName
          · simp [hlater, hsame, htest, hname]
          · simp [hlater, hsame, htest, hname, Ne.symm hsame]
    rw [List.cons_append, remainingTests, remainingTests, ih, hfirst, List.filter_append,
      List.append_assoc]

theorem callAll_concat (context : Context) (s : Schema) (calls : List MethodCall)
    (call : MethodCall) : context.callAll s (calls ++ [call]) =
      context.callAll s calls >>= fun s => context.invoke s call.method call.arguments := by
  simp only [callAll, List.foldlM_append, List.foldlM_cons, List.foldlM_nil, bind_pure]

/-- The schemas that constructors make: those without constraints, and records of fields. -/
inductive IsConstructed (context : Context) : Schema → Prop
  | ofKind (kind : Kind) : IsConstructed context (.ofKind kind)
  | newRecord {fields : Value} {s : Schema} (h : context.newRecord fields = .ok s) :
      IsConstructed context s

theorem IsConstructed.isTidy (h : context.IsConstructed s) (hregistry : context.registry = []) :
    s.IsTidy ∧ s.tests = [] := by
  cases h with
  | ofKind kind => exact ⟨isTidy_ofKind kind, rfl⟩
  | @newRecord fields _ h =>
    unfold Context.newRecord at h
    split_ifs at h
    · obtain ⟨m, c, hcall, rfl⟩ := exists_calls hregistry ⟨"shape", .one fields⟩ h
      have hm : m = .shape := Method.name_injective hcall.name
      have hnone := hcall.declaredTests_spec.2 (hm ▸ rfl)
      exact ⟨hcall.isTidy_applyTo (isTidy_ofKind _), by rw [hcall.tests_applyTo, hnone]; rfl⟩
    · cases h
      exact ⟨isTidy_ofKind _, rfl⟩

/-- What a sequence of calls leaves of a schema without tests. -/
structure IsLeftBy (context : Context) (kind : Kind) (calls : List MethodCall) (s : Schema) :
    Prop where
  kind_eq : s.kind = kind
  tests : s.tests = context.remainingTests kind calls
  isTidy : s.IsTidy
  declared : ∀ call ∈ calls, ∃ m ∈ Method.common ++ Method.own kind, m.name = call.method ∧
    (m.takesMessage = true → ∃ rule message, rule.name = call.method ∧
      context.declaredTests kind call = [.of rule message]) ∧
    (m.takesMessage = false → context.declaredTests kind call = [])

/-- What sequences of calls leave, by induction on the last call. -/
theorem isLeftBy_of_callAll (hregistry : context.registry = []) (hs : s.IsTidy)
    (htests : s.tests = []) (calls : List MethodCall) :
    ∀ {t : Schema}, context.callAll s calls = .ok t → context.IsLeftBy s.kind calls t := by
  induction calls using List.reverseRecOn with
  | nil =>
    rintro _ ⟨⟩
    exact ⟨rfl, htests, hs, List.forall_mem_nil _⟩
  | append_singleton calls call ih =>
    intro t h
    rw [callAll_concat] at h
    obtain ⟨t', hcalls, hinvoke⟩ := Except.exists_of_bind_eq_ok h
    have hleft : context.IsLeftBy s.kind calls t' := ih hcalls
    obtain ⟨m, c, hcall, rfl⟩ := exists_calls hregistry call hinvoke
    have hcall' : context.Calls s.kind call m c := hleft.kind_eq ▸ hcall
    refine ⟨hleft.kind_eq, ?_, hcall.isTidy_applyTo hleft.isTidy, ?_⟩
    · rw [hcall'.tests_applyTo, remainingTests_concat hregistry, hleft.tests]
    · refine List.forall_mem_append.2 ⟨hleft.declared, List.forall_mem_singleton.2 ?_⟩
      exact ⟨m, hcall'.mem, hcall'.name, hcall'.declaredTests_spec⟩

end Context

/-! ## What tests are listed -/

namespace Schema

variable {s : Schema}

theorem under?_fragment (t : Test) : t.fragment.under? "$comment" = some (.text t.name) ∧
    t.fragment.under? "errorMessage" = some t.message := by
  have hnotes := t.annotations [] .null none .null ""
  rw [t.fragment_eq] at hnotes ⊢
  exact hnotes

theorem itemsUnder_tests_described (s : Schema) :
    s.described.itemsUnder "tests" = s.tests.map (·.described) := by
  cases s
  rfl

/-- The documents of the tests stand before those of the conditions of fields. -/
theorem itemsUnder_allOf_document (s : Schema) : s.document.itemsUnder "allOf" =
    s.tests.map (·.fragment) ++ s.fields.flatMap fun e => e.2.conditionals e.1 := by
  have hhead := s.get?_headEntries (show "allOf" ∉ ["type", "title", "default"] by decide)
  have hrequired := get?_listEntry (show "required" ≠ "allOf" by decide)
  have hproperties : ∀ properties : List (Value × Value), Entries.get?
      (if properties.isEmpty then [] else [(Value.text "properties", Value.map properties)])
      (.text "allOf") = none := by
    intro properties
    split <;> rfl
  have hallOf : ∀ items : List Value, (match Entries.get? (listEntry "allOf" items)
      (.text "allOf") with
      | some (.list items) => items
      | _ => []) = items := by
    intro items
    cases items <;> rfl
  rw [document_eq, ← fieldConditionals_eq, Value.itemsUnder, Value.under?, Entries.named?,
    documentEntries, ← headEntries, Entries.get?_append, hhead, recordEntries]
  simp only [Entries.get?_append, hproperties, hrequired, Option.none_or]
  cases hempty : (s.tests.map (·.fragment)).isEmpty with
  | true =>
    rw [List.isEmpty_iff.1 hempty]
    exact hallOf (fieldConditionals s.fields)
  | false =>
    have hnil : Entries.get? ([] : Entries Value) (.text "allOf") = none := rfl
    simp only [Bool.false_eq_true, if_false, hnil, Option.or_none]
    exact hallOf _

theorem mem_conditionals {name document : Value} :
    document ∈ s.conditionals name ↔ ∃ c ∈ s.conditions,
      choiceDocument (matchDocument c.sibling c.expected) (c.chosen.branchOf name)
        (c.other.branchOf name) = document := by
  rw [conditionals_eq, List.mem_map]

/-- How the tests of a schema show in its description and in its document. -/
structure ListsTests (s : Schema) : Prop where
  fragments : ∀ t ∈ s.tests, t.fragment.under? "$comment" = some (.text t.name) ∧
    ∃ message, t.fragment.under? "errorMessage" = some message ∧ message.isTruthy = true
  names : (s.described.itemsUnder "tests").map (·.under? "name") =
    (s.tests.map (·.fragment)).map (·.under? "$comment")
  allOf : ∃ conditionals, s.document.itemsUnder "allOf" = s.tests.map (·.fragment) ++ conditionals ∧
    ∀ document ∈ conditionals, s.kind = .object ∧ ∃ e ∈ s.fields, ∃ c ∈ e.2.conditions,
      choiceDocument (matchDocument c.sibling c.expected) (c.chosen.branchOf e.1)
        (c.other.branchOf e.1) = document

theorem IsTidy.listsTests (h : s.IsTidy) : s.ListsTests where
  fragments := fun t ht =>
    ⟨(under?_fragment t).1, t.message, (under?_fragment t).2, h.messages t ht⟩
  names := by
    rw [itemsUnder_tests_described, List.map_map, List.map_map]
    exact List.map_congr_left fun t _ => (under?_fragment t).1.symm
  allOf := by
    refine ⟨_, s.itemsUnder_allOf_document, fun document hdocument => ?_⟩
    obtain ⟨e, he, hmem⟩ := List.mem_flatMap.1 hdocument
    have hobject : s.kind = .object := by
      by_contra hkind
      rw [h.fields_eq_nil hkind] at he
      cases he
    exact ⟨hobject, e, he, mem_conditionals.1 hmem⟩

end Schema

namespace Context

/-- What calls leave of a schema that a constructor makes: the tests of the last calls, with the
demand for a value, the fragments, the description and the document that go with them. -/
theorem isLeftBy_callAll {context : Context} {s t : Schema} {calls : List MethodCall}
    (hregistry : context.registry = []) (hs : context.IsConstructed s)
    (h : context.callAll s calls = .ok t) :
    context.IsLeftBy s.kind calls t ∧ t.ListsTests := by
  obtain ⟨htidy, htests⟩ := hs.isTidy hregistry
  have hleft : context.IsLeftBy s.kind calls t :=
    isLeftBy_of_callAll hregistry htidy htests calls h
  exact ⟨hleft, hleft.isTidy.listsTests⟩

/-- The calls for a text that is required, is not any more, and is required again. -/
def requiredAgain : List MethodCall :=
  [⟨"required", .none⟩, ⟨"min", .one (.int 3)⟩, ⟨"not_required", .none⟩, ⟨"min", .one (.int 5)⟩,
    ⟨"required", .one (.text "needed")⟩]

theorem isLeftBy_requiredAgain : ∃ t, empty.callAll (.ofKind .string) requiredAgain = .ok t ∧
    (empty.IsLeftBy .string requiredAgain t ∧ t.ListsTests) ∧
      t.testNames = ["min", "required"] := by
  obtain ⟨t, h, hnames⟩ : ∃ t, empty.callAll (.ofKind .string) requiredAgain = .ok t ∧
      t.testNames = ["min", "required"] := ⟨_, rfl, rfl⟩
  exact ⟨t, h, isLeftBy_callAll rfl (.ofKind .string) h, hnames⟩

end Context

end FieldSchema
