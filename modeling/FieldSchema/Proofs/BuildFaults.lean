import FieldSchema.Proofs.ConstraintRuns

/-!
# What stops a building

A declaration that cannot be built is reported by a fault of declarations
(`Fault.isDeclarationError`), but for two constraints whose arguments are used without a check:
fields that are no mapping, and a pattern that is not refused but cannot be read all the same
(`IsMisfit`). Each fault that is not one of declarations is the misuse of such an argument
(`Context.faultsRightly`), and a building that comes to one stops there
(`Context.schemaOf_of_comesTo`).
-/

namespace FieldSchema

/-- The text that a pattern is read from. -/
def Value.patternSource : Value → String
  | .pattern source => source
  | v => v.plain

/-- That a method takes an argument which it has no use for, and what it comes to. -/
inductive IsMisfit : String → Value → Misuse → Prop
  | fields {v : Value} (hbool : v.isBool = false) (hmap : v.isMap = false) :
      IsMisfit Method.shape.name v (.noAttribute v "items")
  | pattern {v : Value} {fault : Pattern.Fault} (hbool : v.isBool = false)
      (hread : Pattern.read v.patternSource.toList = .error fault)
      (hfault : fault = .repeatTooLarge ∨ fault = .alphabetConflict ∨ fault = .tooDeep) :
      IsMisfit Method.matching.name v (.pattern v.patternSource fault)

theorem IsMisfit.not_isDeclarationError {method : String} {v : Value} {misuse : Misuse}
    (h : IsMisfit method v misuse) : (Fault.misuse misuse).isDeclarationError = false := by
  cases h with
  | fields => rfl
  | pattern _ _ hfault => obtain rfl | rfl | rfl := hfault <;> rfl

theorem IsMisfit.isBool {method : String} {v : Value} {misuse : Misuse}
    (h : IsMisfit method v misuse) : v.isBool = false := by
  cases h <;> assumption

theorem IsMisfit.method_ne {method : String} {v : Value} {misuse : Misuse}
    (h : IsMisfit method v misuse) : method ≠ "when" ∧ (v.isMap = true → method ≠ "shape") := by
  cases h with
  | fields _ hmap => exact ⟨by decide, by simp [hmap]⟩
  | pattern => exact ⟨by decide, fun _ => by decide⟩

/-! ## Faults -/

/-- That a result, if it is a fault, is one of declarations or one of some misuses. -/
def FaultsBy {α : Type} (P : Misuse → Prop) (x : Except Fault α) : Prop :=
  ∀ fault, x = .error fault →
    fault.isDeclarationError = true ∨ ∃ misuse, P misuse ∧ fault = .misuse misuse

namespace FaultsBy

variable {α β : Type} {P Q : Misuse → Prop} {x : Except Fault α} {f : α → Except Fault β}

theorem ok (a : α) : FaultsBy P (.ok a : Except Fault α) := nofun

theorem error {fault : Fault} (h : fault.isDeclarationError = true) :
    FaultsBy P (.error fault : Except Fault α) := by
  rintro _ ⟨⟩
  exact .inl h

theorem misuse {m : Misuse} (h : P m) : FaultsBy P (.error (.misuse m) : Except Fault α) := by
  rintro _ ⟨⟩
  exact .inr ⟨m, h, rfl⟩

theorem mono (h : FaultsBy P x) (hPQ : ∀ m, P m → Q m) : FaultsBy Q x := fun fault hfault =>
  (h fault hfault).imp_right fun ⟨m, hm, heq⟩ => ⟨m, hPQ m hm, heq⟩

theorem bind (hx : FaultsBy P x) (hf : ∀ a, x = .ok a → FaultsBy P (f a)) :
    FaultsBy P (x >>= f) := by
  cases x with
  | error fault =>
    rintro _ ⟨⟩
    exact hx fault rfl
  | ok a => exact hf a rfl

theorem map (hx : FaultsBy P x) (g : α → β) : FaultsBy P (g <$> x) := by
  cases x with
  | error fault =>
    rintro _ ⟨⟩
    exact hx fault rfl
  | ok a => exact ok (g a)

end FaultsBy

theorem Build.result_bind {α β : Type} (x : Build α) (f : α → Build β) :
    (x >>= f).result = x.result >>= fun a => (f a).result := by
  obtain ⟨notes, result⟩ := x
  cases result <;> rfl

theorem Build.result_bind_of_ok {α β : Type} {x : Build α} {a : α} (h : x.result = .ok a)
    (f : α → Build β) : (x >>= f).result = (f a).result := by
  rw [result_bind, h]
  rfl

theorem Build.result_bind_of_error {α β : Type} {x : Build α} {fault : Fault}
    (h : x.result = .error fault) (f : α → Build β) : (x >>= f).result = .error fault := by
  rw [result_bind, h]
  rfl

/-! ## Calls -/

theorem Arguments.bind_cases (positional : List Value) (m : Method) (kind : Kind) :
    (∃ misuse, bind ⟨positional, []⟩ m kind = .error misuse ∧ misuse.family = .kind) ∨
      ∃ more, bind ⟨positional, []⟩ m kind = .ok (positional ++ more) := by
  unfold bind
  simp only [namedFault?]
  split_ifs
  · exact .inl ⟨_, rfl, rfl⟩
  · exact .inr ⟨_, rfl⟩
  · exact .inl ⟨_, rfl, rfl⟩

namespace Context

variable {context : Context} {m : Method} {kind : Kind} {v : Value} {P : Misuse → Prop}

theorem faultsBy_numberArgument (method : String) : FaultsBy P (numberArgument method v) := by
  unfold numberArgument
  split
  · exact .ok _
  · exact .error rfl

theorem faultsBy_dateArgument : FaultsBy P (dateArgument v) := by
  unfold dateArgument
  split
  · exact .ok _
  · exact .ok _
  · split
    · exact .ok _
    · exact .error rfl
  · exact .error rfl

theorem faultsBy_valuesArgument : FaultsBy P (valuesArgument v) := by
  unfold valuesArgument
  split
  · exact .ok _
  · exact .error rfl

theorem faultsBy_branchArgument : FaultsBy P (context.branchArgument v) := by
  unfold branchArgument
  split
  · exact .ok _
  · exact .error rfl

theorem faultsBy_fieldSchemas (entries : List (Value × Value)) :
    FaultsBy P (context.fieldSchemas entries) := by
  induction entries with
  | nil => exact .ok _
  | cons e entries ih =>
    rw [fieldSchemas]
    split
    · exact ih.bind fun _ _ => .ok _
    · exact .error rfl

theorem faultsBy_fieldsArgument (hbool : v.isBool = false) :
    FaultsBy (IsMisfit Method.shape.name v) (context.fieldsArgument v) := by
  unfold fieldsArgument
  split
  · exact faultsBy_fieldSchemas _
  · rename_i hmap
    refine .misuse (.fields hbool ?_)
    cases v <;> first | rfl | exact (hmap _ rfl).elim

theorem faultsBy_patternArgument (hbool : v.isBool = false) :
    FaultsBy (IsMisfit Method.matching.name v) (patternArgument v) := by
  unfold patternArgument
  simp only []
  split
  · exact .ok _
  · rename_i fault hread
    split_ifs with hfamily
    · exact .error rfl
    · refine .misuse (.pattern hbool hread ?_)
      cases fault <;> simp [Misuse.family] at hfamily ⊢

theorem faultsBy_rule? {rule : Except Fault Rule} (hbool : v.isBool = false)
    (h : rule? m kind v = some rule) : FaultsBy (IsMisfit m.name v) rule := by
  have hnumber : ∀ (method : String) (f : Number → Rule),
      FaultsBy (IsMisfit m.name v) (f <$> numberArgument method v) := fun method f =>
    (faultsBy_numberArgument method).map f
  have hdate : ∀ f : DateLimit → Rule, FaultsBy (IsMisfit m.name v) (f <$> dateArgument v) :=
    fun f => faultsBy_dateArgument.map f
  cases m <;> simp only [rule?, Option.some.injEq, reduceCtorEq] at h <;> subst h
  case oneOf | notOneOf => exact faultsBy_valuesArgument.map _
  case matching => exact (faultsBy_patternArgument hbool).map _
  case lessThan | moreThan => exact hnumber _ _
  case length => cases kind <;> exact hnumber _ _
  case min | max => cases kind <;> first | exact hdate _ | exact hnumber _ _

/-- A method is stopped by nothing but a misfit, unless by a fault of declarations. -/
theorem faultsBy_changeOf (hbool : v.isBool = false) (more : List Value) :
    FaultsBy (IsMisfit m.name v) (context.changeOf m kind (v :: more)) := by
  generalize harguments : v :: more = arguments
  unfold changeOf
  split
  case h_1 | h_2 | h_3 | h_4 | h_5 => exact .ok _
  case h_6 =>
    exact faultsBy_branchArgument.bind fun _ _ => faultsBy_branchArgument.bind fun _ _ => .ok _
  case h_7 =>
    cases harguments
    exact (faultsBy_fieldsArgument hbool).bind fun _ _ => .ok _
  case h_8 =>
    cases harguments
    split
    · rename_i hrule
      exact (faultsBy_rule? hbool hrule).bind fun _ _ => .ok _
    · exact .ok _
  case h_9 => split <;> exact .ok _
  case h_10 => exact .ok _

theorem faultsBy_calledChange (hbool : v.isBool = false) :
    FaultsBy (IsMisfit m.name v) (context.calledChange m kind [v]) := by
  rw [calledChange]
  rcases Arguments.bind_cases [v] m kind with ⟨misuse, hbind, hfamily⟩ | ⟨more, hbind⟩
  · rw [hbind]
    exact .error (by simpa [Fault.isDeclarationError] using hfamily)
  · rw [hbind]
    exact faultsBy_changeOf hbool more

theorem faultsBy_calledChange_nil : FaultsBy P (context.calledChange m kind []) := by
  cases m <;> first | exact .ok _ | exact .error rfl

/-! ## Constraints -/

variable {s t : Schema} {name typeName argument declaration : Value} {misuse : Misuse}

theorem applyPlain_of_isBool_eq_false (hbool : argument.isBool = false) (method : String) :
    context.applyPlain typeName name method s argument =
      .ofResult (context.invoke s method (.one argument)) := by
  cases argument <;> first | rfl | cases hbool

theorem faultsBy_applyPlain (hplain : context.IsPlain) (hs : s.kind = kind)
    (hm : Registry.capability? [] kind m.name = some (.builtIn m)) :
    FaultsBy (IsMisfit m.name argument)
      (context.applyPlain typeName name m.name s argument).result := by
  have hinvoke : ∀ positional, FaultsBy (IsMisfit m.name argument)
      (context.calledChange m kind positional) →
      FaultsBy (IsMisfit m.name argument) (context.invoke s m.name ⟨positional, []⟩) := by
    intro positional h
    rw [invoke_eq hplain hs hm]
    exact h.map _
  cases hbool : argument.isBool with
  | false =>
    rw [applyPlain_of_isBool_eq_false hbool]
    exact hinvoke [argument] (faultsBy_calledChange hbool)
  | true =>
    obtain ⟨b, rfl⟩ : ∃ b, argument = .bool b := by
      cases argument <;> first | exact ⟨_, rfl⟩ | cases hbool
    cases b with
    | false => exact .ok s
    | true => exact hinvoke [] faultsBy_calledChange_nil

theorem patternArgument_eq_error {fault : Pattern.Fault}
    (hread : Pattern.read v.patternSource.toList = .error fault)
    (hfault : fault = .repeatTooLarge ∨ fault = .alphabetConflict ∨ fault = .tooDeep) :
    patternArgument v = .error (.misuse (.pattern v.patternSource fault)) := by
  unfold patternArgument
  simp only []
  split
  · rename_i hok
    cases hok.symm.trans hread
  · rename_i fault' herror
    obtain rfl : fault' = fault := Except.error.inj (herror.symm.trans hread)
    refine (if_neg ?_).trans rfl
    obtain rfl | rfl | rfl := hfault <;> nofun

theorem calledChange_of_isMisfit {method : String} (hm : m.name = method)
    (h : IsMisfit method v misuse) : context.calledChange m kind [v] = .error (.misuse misuse) := by
  cases h with
  | fields hbool hmap =>
    obtain rfl : m = .shape := Method.name_injective hm
    have hfields : context.fieldsArgument v = .error (.misuse (.noAttribute v "items")) := by
      cases v <;> first | rfl | cases hmap
    have hchange : context.changeOf .shape kind [v] = Except.error _ := congrArg (· >>= _) hfields
    exact hchange
  | pattern hbool hread hfault =>
    obtain rfl : m = .matching := Method.name_injective hm
    have hpattern := patternArgument_eq_error hread hfault
    have hchange : context.changeOf .matching kind [v, .null] = Except.error _ :=
      congrArg (fun source => (Rule.matching <$> source) >>= _) hpattern
    exact hchange

/-- A misfit stops the building. -/
theorem applyConstraint_of_isMisfit (hplain : context.IsPlain) (hs : s.kind = kind)
    {method : String} (hresolve : context.registry.resolve? kind name = some method)
    (h : IsMisfit method argument misuse) :
    (context.applyConstraint kind typeName s name argument).result = .error (.misuse misuse) := by
  obtain ⟨hwhen, hshape⟩ := h.method_ne
  obtain ⟨m, hname, hm⟩ := exists_capability_of_resolve? (hplain.registry ▸ hresolve)
  rw [applyConstraint_eq_applyPlain hresolve hwhen hshape, applyPlain_of_isBool_eq_false h.isBool]
  have hinvoke := invoke_eq hplain hs (hname ▸ hm) [argument]
  rw [calledChange_of_isMisfit hname h, hname] at hinvoke
  exact hinvoke

/-! ## What a building comes to -/

/-- That a constraint is applied when a schema is built from a declaration, those before it having
been applied. -/
inductive TurnsTo (context : Context) : Value → String → Value → Prop
  | intro {before after : Entries Value} {name argument : Value} {kind : Kind} {s : Schema}
      {method : String}
      (hkind : Declaration.kindOf (Entries.get? (before ++ (name, argument) :: after) typeKey) =
        .ok kind)
      (hbefore : (context.applyEntries kind (.ofKind kind) before).result = .ok s)
      (hname : typeKey.same name = false)
      (hmethod : context.registry.resolve? kind name = some method) :
      TurnsTo context (.map (before ++ (name, argument) :: after)) method argument

/-- That a declaration in the argument of a constraint is built, those before it having been built.
-/
inductive Opens (context : Context) : String → Value → Value → Prop
  | chosen {sibling declaration : Value} {branches rest : Entries Value}
      (hkeys : conditionKeys.find? (fun key => !Entries.has branches (.text key)) = none)
      (hthen : Entries.named? branches "then" = some declaration) :
      Opens context "when" (.map ((sibling, .map branches) :: rest)) declaration
  | other {sibling declaration : Value} {branches rest : Entries Value} {s : Schema}
      (hkeys : conditionKeys.find? (fun key => !Entries.has branches (.text key)) = none)
      (hchosen : (context.branchOf "then" branches).result = .ok s)
      (hother : Entries.named? branches "otherwise" = some declaration) :
      Opens context "when" (.map ((sibling, .map branches) :: rest)) declaration
  | field {name declaration : Value} {before after : Entries Value}
      {fields : List (Value × Schema)} (hbefore : (context.fieldsOf before).result = .ok fields)
      (hnew : context.schema? declaration = none) :
      Opens context "shape" (.map (before ++ (name, declaration) :: after)) declaration

/-- That the building of a schema comes to a misfit, in the declaration or in one inside it. -/
inductive ComesTo (context : Context) (misuse : Misuse) : Value → Prop
  | here {declaration argument : Value} {method : String}
      (hturn : context.TurnsTo declaration method argument)
      (h : IsMisfit method argument misuse) : ComesTo context misuse declaration
  | inside {declaration inner argument : Value} {method : String}
      (hturn : context.TurnsTo declaration method argument)
      (hopen : context.Opens method argument inner) (h : ComesTo context misuse inner) :
      ComesTo context misuse declaration

theorem ComesTo.not_isDeclarationError {context : Context} {misuse : Misuse} {declaration : Value}
    (h : context.ComesTo misuse declaration) :
    (Fault.misuse misuse).isDeclarationError = false := by
  induction h with
  | here _ h => exact h.not_isDeclarationError
  | inside _ _ _ ih => exact ih

theorem fieldOf_eq (hnew : context.schema? declaration = none) :
    context.fieldOf declaration = context.schemaOf declaration := by
  rw [fieldOf, hnew]

theorem fieldsOf_eq_error {fault : Fault} (hnew : context.schema? declaration = none)
    (h : (context.schemaOf declaration).result = .error fault) (after : Entries Value) :
    ∀ {before : Entries Value} {fields : List (Value × Schema)},
      (context.fieldsOf before).result = .ok fields →
        (context.fieldsOf (before ++ (name, declaration) :: after)).result = .error fault
  | [], _, _ => by
    rw [List.nil_append, fieldsOf_cons, fieldOf_eq hnew]
    exact Build.result_bind_of_error h _
  | (_, _) :: before, _, hbefore => by
    rw [fieldsOf_cons] at hbefore
    rw [List.cons_append, fieldsOf_cons]
    obtain ⟨_, hfield, hbefore⟩ := Build.exists_of_bind_eq_ok hbefore
    obtain ⟨_, hrest, -⟩ := Build.exists_of_bind_eq_ok hbefore
    rw [Build.result_bind_of_ok hfield]
    exact Build.result_bind_of_error (fieldsOf_eq_error hnew h after hrest) _

theorem notedFields_eq_error {fault : Fault}
    (h : (context.schemaOf declaration).result = .error fault) (after : Entries Value) :
    ∀ {before : Entries Value} {fields : List (Value × Schema)},
      (context.notedFields before).result = .ok fields →
        (context.notedFields (before ++ (name, declaration) :: after)).result = .error fault
  | [], _, _ => by
    rw [List.nil_append, notedFields, Build.result_bind_of_ok rfl]
    exact Build.result_bind_of_error h _
  | (_, _) :: before, _, hbefore => by
    rw [notedFields] at hbefore
    rw [List.cons_append, notedFields, Build.result_bind_of_ok rfl]
    obtain ⟨_, -, hbefore⟩ := Build.exists_of_bind_eq_ok hbefore
    obtain ⟨_, hfield, hbefore⟩ := Build.exists_of_bind_eq_ok hbefore
    obtain ⟨_, hrest, -⟩ := Build.exists_of_bind_eq_ok hbefore
    rw [Build.result_bind_of_ok hfield]
    exact Build.result_bind_of_error (notedFields_eq_error h after hrest) _

/-- A declaration in the argument of a constraint that stops the building stops the constraint. -/
theorem applyConstraint_of_opens {method : String} {fault : Fault}
    (hresolve : context.registry.resolve? kind name = some method)
    (hopen : context.Opens method argument declaration)
    (h : (context.schemaOf declaration).result = .error fault) :
    (context.applyConstraint kind typeName s name argument).result = .error fault := by
  cases hopen with
  | @chosen _ _ branches _ hkeys hthen =>
    have hbranch : (context.branchOf "then" branches).result = .error fault := by
      rw [branchOf_eq, hthen]
      exact h
    rw [applyConstraint_when hresolve hkeys, Build.result_bind_of_ok rfl]
    exact Build.result_bind_of_error hbranch _
  | @other _ _ branches _ _ hkeys hchosen hother =>
    have hbranch : (context.branchOf "otherwise" branches).result = .error fault := by
      rw [branchOf_eq, hother]
      exact h
    rw [applyConstraint_when hresolve hkeys, Build.result_bind_of_ok rfl,
      Build.result_bind_of_ok hchosen]
    exact Build.result_bind_of_error hbranch _
  | field hbefore hnew =>
    rw [applyConstraint_shape hresolve]
    exact Build.result_bind_of_error (fieldsOf_eq_error hnew h _ hbefore) _

/-- Where a constraint stops, the declaration that turns to it stops. -/
theorem schemaOf_of_turnsTo {method : String} {fault : Fault}
    (hturn : context.TurnsTo declaration method argument)
    (h : ∀ {kind : Kind} {s : Schema} {name : Value}, s.kind = kind →
      context.registry.resolve? kind name = some method →
      (context.applyConstraint kind (.text kind.name) s name argument).result = .error fault) :
    (context.schemaOf declaration).result = .error fault := by
  cases hturn with
  | @intro before after name _ kind s _ hkind hbefore hname hmethod =>
    rw [schemaOf, hkind]
    simp only []
    rw [applyEntries_append, Build.result_bind_of_ok hbefore]
    have hs : s.kind = kind := kind_of_applyEntries hbefore
    rw [applyEntries, if_neg (by simp [hname])]
    exact Build.result_bind_of_error (h hs hmethod) _

/-- A building that comes to a misfit stops there. -/
theorem schemaOf_of_comesTo (hplain : context.IsPlain) (h : context.ComesTo misuse declaration) :
    (context.schemaOf declaration).result = .error (.misuse misuse) := by
  induction h with
  | here hturn hmisfit =>
    exact schemaOf_of_turnsTo hturn fun hs hresolve =>
      applyConstraint_of_isMisfit hplain hs hresolve hmisfit
  | inside hturn hopen _ ih =>
    exact schemaOf_of_turnsTo hturn fun _ hresolve =>
      applyConstraint_of_opens hresolve hopen ih

/-! ## What stops a building -/

/-- That a constraint with an argument stops a building. -/
def StopsAt (context : Context) (method : String) (argument : Value) (misuse : Misuse) : Prop :=
  IsMisfit method argument misuse ∨
    ∃ declaration, context.Opens method argument declaration ∧ context.ComesTo misuse declaration

theorem ComesTo.of_stopsAt {method : String} (hturn : context.TurnsTo declaration method argument)
    (h : context.StopsAt method argument misuse) : context.ComesTo misuse declaration := by
  rcases h with h | ⟨inner, hopen, h⟩
  · exact .here hturn h
  · exact .inside hturn hopen h

/-- That a constraint of a name stops a building. -/
def StopsFor (context : Context) (kind : Kind) (name argument : Value) (misuse : Misuse) : Prop :=
  ∃ method, context.registry.resolve? kind name = some method ∧
    context.StopsAt method argument misuse

theorem Opens.cons {entries : Entries Value} {field : Schema} {first : Value}
    (hfield : (context.fieldOf first).result = .ok field)
    (h : context.Opens "shape" (.map entries) declaration) :
    context.Opens "shape" (.map ((name, first) :: entries)) declaration := by
  generalize hmethod : "shape" = method at h
  cases h with
  | chosen | other => exact absurd hmethod (by decide)
  | @field name' _ before after fields hbefore hnew =>
    have hmore : (context.fieldsOf ((name, first) :: before)).result =
        .ok ((name, field) :: fields) := by
      rw [fieldsOf_cons, Build.result_bind_of_ok hfield, Build.result_bind_of_ok hbefore]
      rfl
    exact .field hmore hnew

/-- That the building of a schema is stopped by nothing but misfits that it comes to, unless by a
fault of declarations. -/
def FaultsRightly (context : Context) (declaration : Value) : Prop :=
  FaultsBy (context.ComesTo · declaration) (context.schemaOf declaration).result

theorem faultsBy_branchOf {branches : Entries Value}
    (h : ∀ e ∈ branches, context.FaultsRightly e.2) (key : String) :
    FaultsBy (fun misuse => ∃ declaration,
      Entries.named? branches key = some declaration ∧ context.ComesTo misuse declaration)
      (context.branchOf key branches).result := by
  rw [branchOf_eq]
  cases hnamed : Entries.named? branches key with
  | none => exact .error rfl
  | some declaration =>
    obtain ⟨e, he, -, rfl⟩ := Entries.exists_mem_of_get? hnamed
    exact (h e he).mono fun _ hcomes => ⟨e.2, rfl, hcomes⟩

theorem faultsBy_fieldsOf : ∀ {entries : Entries Value},
    (∀ e ∈ entries, context.FaultsRightly e.2) →
    FaultsBy (fun misuse => ∃ declaration, context.Opens "shape" (.map entries) declaration ∧
      context.ComesTo misuse declaration) (context.fieldsOf entries).result
  | [], _ => .ok _
  | (name, declaration) :: entries, h => by
    obtain ⟨hfirst, hothers⟩ := List.forall_mem_cons.1 h
    rw [fieldsOf_cons, Build.result_bind]
    refine FaultsBy.bind ?_ fun field hfield => ?_
    · cases hs : context.schema? declaration with
      | some s =>
        rw [fieldOf, hs]
        exact .ok s
      | none =>
        rw [fieldOf_eq hs]
        have hopen : context.Opens "shape" (.map ([] ++ (name, declaration) :: entries))
            declaration := .field rfl hs
        exact hfirst.mono fun _ hcomes => ⟨declaration, hopen, hcomes⟩
    · rw [Build.result_bind]
      refine ((faultsBy_fieldsOf hothers).mono ?_).bind fun _ _ => .ok _
      rintro misuse ⟨inner, hopen, hcomes⟩
      exact ⟨inner, hopen.cons hfield, hcomes⟩

/-- What stops a constraint, given what stops the declarations in its argument. -/
theorem faultsBy_applyConstraint (hplain : context.IsPlain)
    (hdeclared : argument.HoldsOnly context.FaultsRightly) (hs : s.kind = kind) :
    FaultsBy (context.StopsFor kind name argument)
      (context.applyConstraint kind typeName s name argument).result := by
  cases context.constraintCase kind name argument with
  | refused hrefused =>
    obtain ⟨fault, hdeclaration, hfault⟩ := hrefused typeName
    rw [hfault context rfl rfl]
    exact .error hdeclaration
  | @condition sibling branches rest hwhen hkeys =>
    have hbranch := faultsBy_branchOf (hdeclared.branches sibling branches rest rfl)
    rw [applyConstraint_when hwhen hkeys, Build.result_bind_of_ok rfl, Build.result_bind]
    refine ((hbranch "then").mono ?_).bind fun chosen hchosen => ?_
    · rintro misuse ⟨declaration, hthen, h⟩
      exact ⟨_, hwhen, .inr ⟨declaration, .chosen hkeys hthen, h⟩⟩
    · rw [Build.result_bind]
      refine ((hbranch "otherwise").mono ?_).bind fun other _ => ?_
      · rintro misuse ⟨declaration, hother, h⟩
        exact ⟨_, hwhen, .inr ⟨declaration, .other hkeys hchosen hother, h⟩⟩
      · rw [addCondition_eq hplain]
        exact .ok _
  | @fields arguments hshape =>
    have hkind : s.kind = .object := hs.trans (kind_eq_of_resolve?_shape hplain hshape)
    have hfields := faultsBy_fieldsOf (hdeclared.fields arguments rfl)
    rw [applyConstraint_shape hshape, Build.result_bind]
    refine (hfields.mono fun misuse h => ⟨_, hshape, .inr h⟩).bind fun fields _ => ?_
    rw [shapeFields_eq hplain hkind]
    exact .ok _
  | plain hresolve hwhen hshape =>
    obtain ⟨m, rfl, hm⟩ := exists_capability_of_resolve? (hplain.registry ▸ hresolve)
    rw [applyConstraint_eq_applyPlain hresolve hwhen hshape]
    exact (faultsBy_applyPlain hplain hs hm).mono fun _ h => ⟨_, hresolve, .inl h⟩

theorem faultsBy_applyEntries (hplain : context.IsPlain) : ∀ (after : Entries Value)
    {before : Entries Value} {kind : Kind} {s : Schema},
    (∀ e ∈ after, e.2.HoldsOnly context.FaultsRightly) →
    Declaration.kindOf (Entries.get? (before ++ after) typeKey) = .ok kind →
    (context.applyEntries kind (.ofKind kind) before).result = .ok s →
    FaultsBy (context.ComesTo · (.map (before ++ after))) (context.applyEntries kind s after).result
  | [], _, _, s, _, _, _ => .ok s
  | (name, argument) :: after, before, kind, s, hdeclared, hkind, hbefore => by
    obtain ⟨hfirst, hothers⟩ := List.forall_mem_cons.1 hdeclared
    have hs : s.kind = kind := kind_of_applyEntries hbefore
    rw [applyEntries]
    -- the constraint is one more of those that are applied
    have hmore : ∀ u : Schema, (context.applyEntries kind s [(name, argument)]).result = .ok u →
        FaultsBy (context.ComesTo · (.map (before ++ (name, argument) :: after)))
          (context.applyEntries kind u after).result := by
      intro u hu
      have hbefore' : (context.applyEntries kind (.ofKind kind)
          (before ++ [(name, argument)])).result = .ok u := by
        rw [applyEntries_append, Build.result_bind_of_ok hbefore]
        exact hu
      rw [List.append_cons] at hkind ⊢
      exact faultsBy_applyEntries hplain after hothers hkind hbefore'
    split_ifs with hname
    · exact hmore s (by rw [applyEntries, if_pos hname]; rfl)
    · rw [Build.result_bind]
      refine ((faultsBy_applyConstraint hplain hfirst hs).mono ?_).bind fun u hu => hmore u ?_
      · rintro misuse ⟨method, hresolve, h⟩
        exact .of_stopsAt (.intro hkind hbefore (by simpa using hname) hresolve) h
      · rw [applyEntries, if_neg hname, Build.result_bind_of_ok hu]
        rfl

theorem faultsRightly (hplain : context.IsPlain) (declaration : Value) :
    context.FaultsRightly declaration := by
  induction declaration using Value.induct_declaration with
  | bare v hbare =>
    rw [FaultsRightly]
    rcases schemaOf_of_isMap_eq_false hbare with ⟨kind, hkind⟩ | ⟨fault, hfault⟩
    · rw [hkind]
      exact .ok _
    · rw [hfault]
      exact .error rfl
  | map entries ih =>
    rw [FaultsRightly, schemaOf]
    split
    · rename_i kind hkind
      exact faultsBy_applyEntries hplain entries ih
        (show Declaration.kindOf (Entries.get? ([] ++ entries) typeKey) = _ from hkind) rfl
    · exact .error rfl

/-- That the building of a record comes to a misfit, in the declaration of one of its fields. -/
inductive RecordComesTo (context : Context) (misuse : Misuse) : Value → Prop
  | intro {name declaration : Value} {before after : Entries Value}
      {fields : List (Value × Schema)} (hbefore : (context.notedFields before).result = .ok fields)
      (h : context.ComesTo misuse declaration) :
      RecordComesTo context misuse (.map (before ++ (name, declaration) :: after))

theorem RecordComesTo.not_isDeclarationError (h : context.RecordComesTo misuse declaration) :
    (Fault.misuse misuse).isDeclarationError = false := by
  cases h with
  | intro _ h => exact h.not_isDeclarationError

theorem faultsBy_notedFields (hplain : context.IsPlain) : ∀ entries : Entries Value,
    FaultsBy (context.RecordComesTo · (.map entries)) (context.notedFields entries).result
  | [] => .ok _
  | (name, declaration) :: entries => by
    rw [notedFields, Build.result_bind_of_ok rfl, Build.result_bind]
    refine ((faultsRightly hplain declaration).mono ?_).bind fun field hfield => ?_
    · intro misuse h
      have hfirst : (context.notedFields []).result = .ok [] := rfl
      exact .intro hfirst h
    · rw [Build.result_bind]
      refine ((faultsBy_notedFields hplain entries).mono ?_).bind fun _ _ => .ok _
      rintro misuse (@⟨name', inner, before, after, fields, hbefore, h⟩)
      have hmore : (context.notedFields ((name, declaration) :: before)).result =
          .ok ((name, field) :: fields) := by
        rw [notedFields, Build.result_bind_of_ok rfl, Build.result_bind_of_ok hfield,
          Build.result_bind_of_ok hbefore]
        rfl
      exact .intro hmore h

theorem recordOf_of_recordComesTo (hplain : context.IsPlain)
    (h : context.RecordComesTo misuse declaration) :
    (context.recordOf declaration).result = .error (.misuse misuse) := by
  cases h with
  | intro hbefore h =>
    exact Build.result_bind_of_error
      (notedFields_eq_error (schemaOf_of_comesTo hplain h) _ hbefore) _

theorem recordOf_cases (hplain : context.IsPlain) (declarations : Value) :
    (∃ s, (context.recordOf declarations).result = .ok s ∧ s.kind = .object) ∨
      ∃ fault, (context.recordOf declarations).result = .error fault ∧
        (fault.isDeclarationError = true ∨
          ∃ misuse, context.RecordComesTo misuse declarations ∧ fault = .misuse misuse) := by
  cases hmap : declarations.isMap with
  | false =>
    have hrefused : (context.recordOf declarations).result =
        .error (.declaration (.shapeless declarations)) := by
      cases declarations with
      | map _ => cases hmap
      | _ => rfl
    exact .inr ⟨_, hrefused, .inl rfl⟩
  | true =>
    obtain ⟨entries, rfl⟩ := Value.eq_map_of_isMap hmap
    cases hfields : (context.notedFields entries).result with
    | ok fields =>
      refine .inl ⟨(Schema.ofKind .object).withFields fields, ?_, rfl⟩
      rw [recordOf, Build.result_bind_of_ok hfields, shapeFields_eq hplain rfl]
      rfl
    | error fault =>
      refine .inr ⟨fault, ?_, faultsBy_notedFields hplain entries fault hfields⟩
      rw [recordOf]
      exact Build.result_bind_of_error hfields _

/-- A record is built from declarations, or the building ends with a fault of declarations, unless
it comes to a misfit: then it ends with that. -/
theorem recordOf_faults_iff (hplain : context.IsPlain) (declarations : Value) :
    (((∃ s, (context.recordOf declarations).result = .ok s ∧ s.kind = .object) ∨
        ∃ fault, (context.recordOf declarations).result = .error fault ∧
          fault.isDeclarationError = true) ↔
      ¬ ∃ misuse, context.RecordComesTo misuse declarations) ∧
    ∀ misuse, context.RecordComesTo misuse declarations →
      (context.recordOf declarations).result = .error (.misuse misuse) ∧
        (Fault.misuse misuse).isDeclarationError = false := by
  have hmisfit : ∀ misuse, context.RecordComesTo misuse declarations →
      (context.recordOf declarations).result = .error (.misuse misuse) ∧
        (Fault.misuse misuse).isDeclarationError = false := fun misuse h =>
    ⟨recordOf_of_recordComesTo hplain h, h.not_isDeclarationError⟩
  refine ⟨⟨?_, fun hnone => ?_⟩, hmisfit⟩
  · rintro hreported ⟨misuse, hcomes⟩
    obtain ⟨hstop, hnot⟩ := hmisfit misuse hcomes
    rcases hreported with ⟨s, hs, -⟩ | ⟨fault, hfault, hdeclaration⟩
    · cases hs.symm.trans hstop
    · obtain rfl : fault = .misuse misuse := Except.error.inj (hfault.symm.trans hstop)
      rw [hnot] at hdeclaration
      cases hdeclaration
  · refine (recordOf_cases hplain declarations).imp_right fun ⟨fault, hfault, hcases⟩ => ?_
    rcases hcases with hdeclaration | ⟨misuse, hcomes, -⟩
    · exact ⟨fault, hfault, hdeclaration⟩
    · exact absurd ⟨misuse, hcomes⟩ hnone

/-- A record whose fields are a number. -/
def numberedShape : Value :=
  .map [(.text "a", .map [(.text "type", .text "object"), (.text "shape", .int 5)])]

theorem recordComesTo_numberedShape :
    empty.RecordComesTo (.noAttribute (.int 5) "items") numberedShape := by
  have hfirst : (empty.notedFields []).result = .ok [] := rfl
  have hkind : Declaration.kindOf (Entries.get? ([(.text "type", .text "object")] ++
      (.text "shape", .int 5) :: []) typeKey) = .ok .object := rfl
  have hbefore : (empty.applyEntries .object (.ofKind .object)
      [(.text "type", .text "object")]).result = .ok (.ofKind .object) := rfl
  have hturn : empty.TurnsTo (.map ([(.text "type", .text "object")] ++
      (.text "shape", .int 5) :: [])) "shape" (.int 5) := .intro hkind hbefore rfl rfl
  exact .intro hfirst (.here hturn (.fields rfl rfl))

theorem recordOf_faults_numberedShape :
    empty.RecordComesTo (.noAttribute (.int 5) "items") numberedShape ∧
      (empty.recordOf numberedShape).result = .error (.misuse (.noAttribute (.int 5) "items")) :=
  ⟨recordComesTo_numberedShape,
    ((recordOf_faults_iff isPlain_empty numberedShape).2 _ recordComesTo_numberedShape).1⟩

/-- The fault is none that a declaration is reported by. -/
theorem recordOf_numberedShape : ∃ fault, (empty.recordOf numberedShape).result = .error fault ∧
    fault.isDeclarationError = false :=
  ⟨.misuse (.noAttribute (.int 5) "items"), rfl, rfl⟩

end Context

end FieldSchema
