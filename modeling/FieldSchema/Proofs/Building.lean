import FieldSchema.Declaration.Building
import FieldSchema.Proofs.Reachable

/-!
# What building leads to

Where no method is registered, a schema that is built from declarations is reachable by the methods
of its kind (`Context.reachable_of_schemaOf`, `Context.reachable_of_recordOf`). What is built keeps
the kind that was declared, since no method changes it. Declarations are gone through by induction
on those inside them (`Value.induct_declaration`).
-/

namespace FieldSchema

/-! ## Mappings with keys -/

namespace Value

mutual

/-- Whether what names an entry of a mapping can be a key, at every depth. -/
def isKeyed : Value → Bool
  | .list items => areKeyed items
  | .tuple items => areKeyed items
  | .map entries => entriesKeyed entries
  | _ => true
  termination_by structural v => v

def areKeyed : List Value → Bool
  | [] => true
  | v :: vs => isKeyed v && areKeyed vs
  termination_by structural vs => vs

def entriesKeyed : List (Value × Value) → Bool
  | [] => true
  | (k, v) :: entries => isKey k && isKeyed v && entriesKeyed entries
  termination_by structural entries => entries

end

theorem entriesKeyed_cons {k v : Value} {entries : List (Value × Value)}
    (h : entriesKeyed ((k, v) :: entries) = true) :
    k.isKey = true ∧ v.isKeyed = true ∧ entriesKeyed entries = true := by
  simpa [entriesKeyed, and_assoc] using h

theorem isKeyed_map_iff {entries : List (Value × Value)} : (map entries).isKeyed = true ↔
    ∀ e ∈ entries, e.1.isKey = true ∧ e.2.isKeyed = true := by
  rw [isKeyed]
  induction entries with
  | nil => simp [entriesKeyed]
  | cons e entries ih => simp [entriesKeyed, ih, and_assoc]

end Value

/-! ## Declarations inside declarations -/

namespace Value

variable {P : Value → Prop}

/-- That the declarations which an argument can hold have a property: those of branches, which are
inside the first entry, and those of fields. -/
structure HoldsOnly (P : Value → Prop) (argument : Value) : Prop where
  branches : ∀ sibling branches rest, argument = .map ((sibling, .map branches) :: rest) →
    ∀ e ∈ branches, P e.2
  fields : ∀ declarations, argument = .map declarations → ∀ e ∈ declarations, P e.2

mutual

theorem induct_declaration_aux (bare : ∀ v : Value, v.isMap = false → P v)
    (map : ∀ entries : List (Value × Value), (∀ e ∈ entries, e.2.HoldsOnly P) → P (.map entries)) :
    ∀ v : Value, P v ∧ v.HoldsOnly P
  | .map entries => by
    have hall := induct_declarations_aux bare map entries
    refine ⟨map entries fun e he => (hall e he).2, ⟨?_, ?_⟩⟩
    · rintro sibling branches rest ⟨⟩
      exact (hall _ (.head _)).2.fields branches rfl
    · rintro _ ⟨⟩ e he
      exact (hall e he).1
  | .null | .bool _ | .number _ | .text _ | .list _ | .tuple _ | .date _ | .dateTime _
  | .pattern _ | .schema _ _ => ⟨bare _ rfl, ⟨nofun, nofun⟩⟩
  termination_by structural v => v

theorem induct_declarations_aux (bare : ∀ v : Value, v.isMap = false → P v)
    (map : ∀ entries : List (Value × Value), (∀ e ∈ entries, e.2.HoldsOnly P) → P (.map entries)) :
    ∀ entries : List (Value × Value), ∀ e ∈ entries, P e.2 ∧ e.2.HoldsOnly P
  | [] => List.forall_mem_nil _
  | (_, v) :: entries => List.forall_mem_cons.2
      ⟨induct_declaration_aux bare map v, induct_declarations_aux bare map entries⟩
  termination_by structural entries => entries

end

/-- Induction over declarations: a mapping comes after the declarations in the arguments of its
constraints. -/
@[elab_as_elim]
theorem induct_declaration (bare : ∀ v : Value, v.isMap = false → P v)
    (map : ∀ entries : List (Value × Value), (∀ e ∈ entries, e.2.HoldsOnly P) → P (.map entries))
    (v : Value) : P v :=
  (induct_declaration_aux bare map v).1

end Value

/-! ## Calls -/

/-- Fields that a record can have. -/
def Schema.AreFields (fields : List (Value × Schema)) : Prop :=
  ∀ e ∈ fields, e.1.isKey = true ∧ e.2.Reachable

theorem Schema.AreFields.reachable {fields : List (Value × Schema)} {s : Schema}
    (h : AreFields fields) (hs : s.Reachable) (ho : s.kind = .object) :
    (s.withFields fields).Reachable :=
  .withFields hs ho (fun e he => (h e he).1) fun e he => (h e he).2

theorem Method.kind_eq_of_shape_mem {kind : Kind} (h : Method.shape ∈ common ++ own kind) :
    kind = .object := by
  cases kind <;> simp [common, own] at h
  rfl

namespace Registry

variable {registry : Registry} {kind : Kind} {name : String} {m : Method}

theorem family_of_methods {kind? : Option Kind} {misuse : Misuse}
    (h : registry.methods kind? = .error misuse) : misuse.family = .kind := by
  unfold methods at h
  split_ifs at h
  · cases h
    rfl
  · cases hlists : (lineage kind?).mapM fun c => (registry.entry c).listing with
    | ok lists =>
      rw [hlists] at h
      cases h
    | error m =>
      rw [hlists] at h
      cases h
      obtain ⟨c, -, hc⟩ := Except.exists_of_mapM_eq_error hlists
      unfold ClassEntry.listing at hc
      split at hc <;> cases hc
      rfl

/-- The common methods are not hidden. -/
theorem builtIn?_common_of_ownData (h : (ownData kind).contains name = true) :
    builtIn? Method.common name = none := by
  have hall : ∀ n ∈ ["type_name", "json_type", "fields"], builtIn? Method.common n = none := by
    decide
  have hdata : ownData kind ⊆ ["type_name", "json_type", "fields"] := by cases kind <;> decide
  exact hall name (hdata (List.contains_iff_mem.1 h))

theorem capability?_nil : capability? [] kind name =
    ((builtIn? (Method.own kind) name).or (builtIn? Method.common name)).map .builtIn := by
  have hrecipe : ∀ kind? : Option Kind, recipe? [] kind? name = none := fun _ => rfl
  have hcommon : (if (ownData kind).contains name then none
      else (builtIn? Method.common name).map Capability.builtIn) =
        (builtIn? Method.common name).map .builtIn := by
    split
    · rename_i h
      rw [builtIn?_common_of_ownData h, Option.map_none]
    · rfl
  rw [capability?, found?, found?, hrecipe, hrecipe, Option.map_none, Option.none_or,
    Option.none_or, hcommon]
  cases builtIn? (Method.own kind) name <;> rfl

theorem mem_of_capability?_nil (h : capability? [] kind name = some (.builtIn m)) :
    m ∈ Method.common ++ Method.own kind ∧ m.name = name := by
  rw [capability?_nil, Option.map_eq_some_iff] at h
  obtain ⟨m', h, hm⟩ := h
  cases hm
  rcases Option.or_eq_some_iff.1 h with h | ⟨-, h⟩
  · exact ⟨List.mem_append_right _ (List.mem_of_find?_eq_some h), by simpa using List.find?_some h⟩
  · exact ⟨List.mem_append_left _ (List.mem_of_find?_eq_some h), by simpa using List.find?_some h⟩

end Registry

namespace Arguments

theorem mem_of_bind {positional values : List Value} {m : Method} {kind : Kind}
    (h : bind ⟨positional, []⟩ m kind = .ok values) :
    ∀ v ∈ values, v ∈ positional ∨ v = .null := by
  unfold bind at h
  simp only [namedFault?] at h
  split_ifs at h
  simp only [Except.ok.injEq] at h
  subst h
  intro v hv
  rcases List.mem_append.1 hv with hv | hv
  · exact .inl hv
  · obtain ⟨_, -, rfl⟩ := List.mem_map.1 hv
    exact .inr rfl

end Arguments

namespace Context

/-- That what is kept is reachable, and no method is registered. -/
structure IsPlain (context : Context) : Prop where
  built : ∀ s ∈ context.built, s.Reachable
  registry : context.registry = []

theorem isPlain_empty : empty.IsPlain := ⟨by simp [empty], rfl⟩

variable {context : Context} {s t : Schema} {m : Method}

theorem reachable_of_schema? (hplain : context.IsPlain) {v : Value}
    (h : context.schema? v = some s) : s.Reachable := by
  cases v <;> simp only [schema?, reduceCtorEq] at h
  exact hplain.built s (Array.mem_of_getElem? h)

theorem areFields_of_fieldSchemas (hplain : context.IsPlain) :
    ∀ {entries : List (Value × Value)} {fields : List (Value × Schema)},
      Value.entriesKeyed entries = true → context.fieldSchemas entries = .ok fields →
      Schema.AreFields fields
  | [], fields, _, h => by
    cases h
    exact List.forall_mem_nil _
  | (name, v) :: entries, fields, hkeyed, h => by
    obtain ⟨hname, -, hentries⟩ := Value.entriesKeyed_cons hkeyed
    unfold fieldSchemas at h
    cases hs : context.schema? v with
    | none => simp [hs] at h
    | some s =>
      simp only [hs] at h
      obtain ⟨rest, hrest, h⟩ := Except.exists_of_bind_eq_ok h
      cases h
      exact List.forall_mem_cons.2 ⟨⟨hname, reachable_of_schema? hplain hs⟩,
        areFields_of_fieldSchemas hplain hentries hrest⟩

/-- A method, other than the one that takes branches, leads on from a reachable schema. -/
theorem reachable_of_apply (hplain : context.IsPlain) (hs : s.Reachable)
    (hm : m ∈ Method.common ++ Method.own s.kind) (hne : m ≠ .when) {arguments : List Value}
    (hkeyed : ∀ v ∈ arguments, v.isKeyed = true) (h : context.apply m s arguments = .ok t) :
    t.Reachable ∧ t.kind = s.kind := by
  unfold apply at h
  split at h
  · cases h
    exact ⟨.required hs _, rfl⟩
  · cases h
    exact ⟨.notRequired hs, rfl⟩
  · cases h
    exact ⟨.nullable hs, rfl⟩
  · cases h
    exact ⟨.withDefault hs _, rfl⟩
  · cases h
    exact ⟨.withLabel hs _, rfl⟩
  · exact absurd rfl hne
  · rename_i fields
    obtain ⟨_, hfields, h⟩ := Except.exists_of_bind_eq_ok h
    cases h
    obtain ⟨entries, rfl⟩ : ∃ entries, fields = .map entries := by
      cases fields <;> simp [fieldsArgument] at hfields
      exact ⟨_, rfl⟩
    have hfields := areFields_of_fieldSchemas hplain (hkeyed _ List.mem_cons_self) hfields
    exact ⟨hfields.reachable hs (Method.kind_eq_of_shape_mem hm), rfl⟩
  · split at h
    · obtain ⟨rule, hrule, h⟩ := Except.exists_of_bind_eq_ok h
      cases h
      rename_i hr
      exact ⟨.rule hs hm (hr.trans (congrArg some hrule)) _, rfl⟩
    · cases h
      exact ⟨hs, rfl⟩
  · split at h
    · rename_i hr
      cases h
      exact ⟨.fixedRule hs hm hr _, rfl⟩
    · cases h
      exact ⟨hs, rfl⟩
  · cases h
    exact ⟨hs, rfl⟩

/-- Where nothing is registered, a call by name binds the arguments and applies the method. -/
theorem invoke_eq_apply (hregistry : context.registry = []) {name : String} {m : Method}
    (hm : Registry.capability? [] s.kind name = some (.builtIn m)) (arguments : Arguments) :
    context.invoke s name arguments =
      ((arguments.bind m s.kind).mapError Fault.misuse >>= context.apply m s) := by
  have hdepth : maxDepth = 499 + 1 := rfl
  rw [invoke, hdepth, call, hregistry, hm]

theorem exists_apply_of_invoke (hregistry : context.registry = []) {name : String}
    {arguments : Arguments} (h : context.invoke s name arguments = .ok t) :
    ∃ m values, Registry.capability? [] s.kind name = some (.builtIn m) ∧
      arguments.bind m s.kind = .ok values ∧ context.apply m s values = .ok t := by
  cases hcapability : Registry.capability? [] s.kind name with
  | none =>
    have hdepth : maxDepth = 499 + 1 := rfl
    rw [invoke, hdepth, call, hregistry, hcapability] at h
    cases h
  | some capability =>
    cases capability with
    | custom recipe => simp [Registry.capability?_nil] at hcapability
    | builtIn m =>
      rw [invoke_eq_apply hregistry hcapability] at h
      obtain ⟨values, hvalues, h⟩ := Except.exists_of_bind_eq_ok h
      exact ⟨m, values, rfl, Except.mapError_eq_ok_iff.1 hvalues, h⟩

/-- Where nothing is registered, a call of a method by name leads on from a reachable schema. -/
theorem reachable_of_invoke (hplain : context.IsPlain) (hs : s.Reachable) {name : String}
    (hne : name ≠ "when") {positional : List Value} (hkeyed : ∀ v ∈ positional, v.isKeyed = true)
    (h : context.invoke s name ⟨positional, []⟩ = .ok t) : t.Reachable ∧ t.kind = s.kind := by
  obtain ⟨m, values, hcapability, hbind, happly⟩ := exists_apply_of_invoke hplain.registry h
  -- the name is one that the kind has, so the rule it declares is one of the kind
  obtain ⟨hm, rfl⟩ := Registry.mem_of_capability?_nil hcapability
  refine reachable_of_apply hplain hs hm (fun hwhen => hne (hwhen ▸ rfl)) (fun v hv => ?_) happly
  rcases Arguments.mem_of_bind hbind v hv with hv | rfl
  · exact hkeyed v hv
  · rfl

end Context

/-! ## Building -/

theorem Build.exists_of_bind_eq_ok {α β : Type} {x : Build α} {f : α → Build β} {b : β}
    (h : (x >>= f).result = .ok b) : ∃ a, x.result = .ok a ∧ (f a).result = .ok b := by
  obtain ⟨notes, result⟩ := x
  cases result with
  | error fault => cases h
  | ok a => exact ⟨a, rfl, h⟩

theorem Build.bind_eq_ok_iff {α β : Type} {x : Build α} {f : α → Build β} {b : β} :
    (x >>= f).result = .ok b ↔ ∃ a, x.result = .ok a ∧ (f a).result = .ok b := by
  refine ⟨exists_of_bind_eq_ok, ?_⟩
  obtain ⟨notes, result⟩ := x
  rintro ⟨a, rfl, hb⟩
  exact hb

namespace Context

variable {context : Context} {s t : Schema} {kind : Kind} {name typeName : Value}

theorem reachable_of_applyPlain (hplain : context.IsPlain) (hs : s.Reachable) {method : String}
    (hne : method ≠ "when") {argument : Value} (hkeyed : argument.isKeyed = true)
    (h : (context.applyPlain typeName name method s argument).result = .ok t) :
    t.Reachable ∧ t.kind = s.kind := by
  unfold applyPlain at h
  split at h
  · cases h
    exact ⟨hs, rfl⟩
  · exact reachable_of_invoke hplain hs hne (List.forall_mem_nil _) h
  · exact reachable_of_invoke hplain hs hne (List.forall_mem_singleton.2 hkeyed) h

theorem shapeFields_eq (hplain : context.IsPlain) (hs : s.kind = .object)
    {fields : List (Value × Schema)} {declarations : Value} :
    context.shapeFields s fields declarations = .ok (s.withFields fields) := by
  rw [shapeFields, hplain.registry, hs]
  rfl

theorem addCondition_eq (hplain : context.IsPlain) (c : Condition) :
    context.addCondition s c = .ok (s.whenSibling c) := by
  rw [addCondition, hplain.registry, Registry.capability?_nil]
  cases Registry.builtIn? (Method.own s.kind) "when" <;> rfl

theorem kind_eq_of_resolve?_shape (hplain : context.IsPlain)
    (h : context.registry.resolve? kind name = some "shape") :
    kind = .object := by
  cases name <;> simp only [Registry.resolve?, Registry.resolveOn?, reduceCtorEq] at h
  have hmem := List.find?_some h
  rw [hplain.registry] at hmem
  cases kind <;> first | rfl | exact absurd hmem (by decide)

/-! ### Single constraints -/

section

variable {argument : Value}

/-- Every constraint but a condition or the fields in a mapping is applied as it is. -/
theorem applyConstraint_eq_applyPlain {method : String}
    (hresolve : context.registry.resolve? kind name = some method) (hwhen : method ≠ "when")
    (hshape : argument.isMap = true → method ≠ "shape") :
    context.applyConstraint kind typeName s name argument =
      context.applyPlain typeName name method s argument := by
  unfold applyConstraint
  cases argument <;> simp_all [Value.isMap]

/-- A condition is built from the first entry of a mapping, which is a mapping that holds the
branches. -/
theorem applyConstraint_when (hwhen : context.registry.resolve? kind name = some "when")
    {sibling : Value} {branches : List (Value × Value)}
    (hkeys : conditionKeys.find? (fun key => !Entries.has branches (.text key)) = none)
    (rest : List (Value × Value)) :
    context.applyConstraint kind typeName s name (.map ((sibling, .map branches) :: rest)) = (do
      Build.note (.branches sibling)
      let chosen ← context.branchOf "then" branches
      let other ← context.branchOf "otherwise" branches
      .ofResult (context.addCondition s
        ⟨sibling, (Entries.named? branches "is").getD .null, chosen, other⟩)) := by
  unfold applyConstraint
  simp only [hwhen, hkeys]

theorem applyConstraint_shape (hshape : context.registry.resolve? kind name = some "shape")
    (arguments : List (Value × Value)) :
    context.applyConstraint kind typeName s name (.map arguments) = (do
      let fields ← context.fieldsOf arguments
      .ofResult (context.shapeFields s fields (.map arguments))) := by
  unfold applyConstraint
  simp only [hshape]

/-- What a name means nothing for is the fault of the declaration. -/
theorem isDeclarationError_nameFault (context : Context) (kind : Kind) (name typeName : Value) :
    (context.nameFault kind name typeName).isDeclarationError = true := by
  unfold nameFault
  split
  · rename_i hmethods
    simp [Fault.isDeclarationError, Registry.family_of_methods hmethods]
  · rfl

/-- What applying a constraint comes to, by its method and its argument. It is refused for nothing
but the meaning of its name and the form of its argument. -/
inductive ConstraintCase (context : Context) (kind : Kind) (name : Value) : Value → Prop
  | refused {argument : Value} (h : ∀ typeName, ∃ fault : Fault, fault.isDeclarationError = true ∧
      ∀ other : Context, other.registry.resolve? kind name = context.registry.resolve? kind name →
        other.nameFault kind name typeName = context.nameFault kind name typeName →
        ∀ s, other.applyConstraint kind typeName s name argument = .fail fault) :
      ConstraintCase context kind name argument
  | condition {sibling : Value} {branches rest : List (Value × Value)}
      (hwhen : context.registry.resolve? kind name = some "when")
      (hkeys : conditionKeys.find? (fun key => !Entries.has branches (.text key)) = none) :
      ConstraintCase context kind name (.map ((sibling, .map branches) :: rest))
  | fields {arguments : List (Value × Value)}
      (hshape : context.registry.resolve? kind name = some "shape") :
      ConstraintCase context kind name (.map arguments)
  | plain {argument : Value} {method : String}
      (hresolve : context.registry.resolve? kind name = some method) (hwhen : method ≠ "when")
      (hshape : argument.isMap = true → method ≠ "shape") :
      ConstraintCase context kind name argument

theorem constraintCase (context : Context) (kind : Kind) (name argument : Value) :
    context.ConstraintCase kind name argument := by
  cases hresolve : context.registry.resolve? kind name with
  | none =>
    refine .refused fun typeName => ⟨_, isDeclarationError_nameFault context kind name typeName,
      fun other hother hfault s => ?_⟩
    unfold applyConstraint
    cases argument <;> simp only [hother, hresolve, hfault]
  | some method =>
    by_cases hwhen : method = "when"
    · subst hwhen
      by_cases hparts : ∃ sibling branches rest,
          argument = .map ((sibling, .map branches) :: rest) ∧
          conditionKeys.find? (fun key => !Entries.has branches (.text key)) = none
      · obtain ⟨sibling, branches, rest, rfl, hkeys⟩ := hparts
        exact .condition hresolve hkeys
      · have hmalformed : ∃ fault : DeclarationFault, ∀ other : Context,
            other.registry.resolve? kind name = some "when" → ∀ typeName s,
              other.applyConstraint kind typeName s name argument = .refuse fault := by
          unfold applyConstraint
          split
          · split
            · exact ⟨_, fun other hother typeName s => by simp only [hother]; rfl⟩
            · rename_i branches _
              cases hkeys : conditionKeys.find? fun key => !Entries.has branches (.text key) with
              | none => exact absurd ⟨_, _, _, rfl, hkeys⟩ hparts
              | some key => exact ⟨_, fun other hother typeName s => by simp only [hother]; rfl⟩
            · exact ⟨_, fun other hother typeName s => by simp only [hother]; rfl⟩
          · exact ⟨_, fun other hother typeName s => by simp only [hother]; rfl⟩
        obtain ⟨fault, hfault⟩ := hmalformed
        exact .refused fun typeName => ⟨.declaration fault, rfl, fun other hother _ s =>
          hfault other (hother.trans hresolve) typeName s⟩
    · by_cases hshape : argument.isMap = true ∧ method = "shape"
      · obtain ⟨hmap, rfl⟩ := hshape
        obtain ⟨arguments, rfl⟩ := Value.eq_map_of_isMap hmap
        exact .fields hresolve
      · exact .plain hresolve hwhen fun hmap heq => hshape ⟨hmap, heq⟩

end

/-! ### Declarations -/

/-- A declaration that is no mapping is that of a kind alone, or refused. -/
theorem schemaOf_of_isMap_eq_false {v : Value} (h : v.isMap = false) :
    (∃ kind, ∀ context : Context, context.schemaOf v = pure (.ofKind kind)) ∨
      ∃ fault, ∀ context : Context, context.schemaOf v = .refuse fault := by
  cases v with
  | map entries => cases h
  | text typeName =>
    cases hkind : Declaration.kindOfName typeName with
    | error fault => exact .inr ⟨fault, fun context => by rw [schemaOf, hkind]⟩
    | ok kind => exact .inl ⟨kind, fun context => by rw [schemaOf, hkind]⟩
  | _ => exact .inr ⟨_, fun _ => rfl⟩

theorem branchOf_eq (context : Context) (key : String) : ∀ entries : Entries Value,
    context.branchOf key entries = match Entries.named? entries key with
      | some declaration => context.schemaOf declaration
      | none => .refuse (.incompleteCondition (.text key))
  | [] => rfl
  | (name, declaration) :: entries => by
    rw [branchOf, Entries.named?, Entries.get?_cons]
    by_cases hname : (Value.text key).same name = true
    · rw [if_pos hname, if_pos hname]
    · rw [if_neg hname, if_neg hname]
      exact branchOf_eq context key entries

/-- Builds a field. A schema that is already built is taken as it is. -/
def fieldOf (context : Context) (declaration : Value) : Build Schema :=
  match context.schema? declaration with
  | some s => pure s
  | none => context.schemaOf declaration

theorem fieldsOf_cons (context : Context) (name declaration : Value) (entries : Entries Value) :
    context.fieldsOf ((name, declaration) :: entries) =
      context.fieldOf declaration >>= fun field =>
        context.fieldsOf entries >>= fun fields => pure ((name, field) :: fields) := by
  rw [fieldsOf, fieldOf]
  cases context.schema? declaration <;> rfl

/-- That what a declaration is built into is reachable. -/
def BuildsReachable (context : Context) (declaration : Value) : Prop :=
  declaration.isKeyed = true →
    ∀ s : Schema, (context.schemaOf declaration).result = .ok s → s.Reachable

theorem reachable_of_branchOf {entries : List (Value × Value)}
    (hkeyed : (Value.map entries).isKeyed = true) (h : ∀ e ∈ entries, context.BuildsReachable e.2)
    {key : String} (hbranch : (context.branchOf key entries).result = .ok s) : s.Reachable := by
  rw [branchOf_eq] at hbranch
  cases hnamed : Entries.named? entries key with
  | none =>
    rw [hnamed] at hbranch
    cases hbranch
  | some declaration =>
    rw [hnamed] at hbranch
    obtain ⟨e, he, -, rfl⟩ := Entries.exists_mem_of_get? hnamed
    exact h e he (Value.isKeyed_map_iff.1 hkeyed e he).2 s hbranch

theorem reachable_of_fieldOf (hplain : context.IsPlain) {declaration : Value}
    (hkeyed : declaration.isKeyed = true) (h : context.BuildsReachable declaration)
    (hfield : (context.fieldOf declaration).result = .ok s) : s.Reachable := by
  unfold fieldOf at hfield
  split at hfield
  · rename_i hbuilt
    cases hfield
    exact reachable_of_schema? hplain hbuilt
  · exact h hkeyed s hfield

theorem areFields_of_fieldsOf (hplain : context.IsPlain) : ∀ {entries : List (Value × Value)}
    {fields : List (Value × Schema)}, Value.entriesKeyed entries = true →
    (∀ e ∈ entries, context.BuildsReachable e.2) →
    (context.fieldsOf entries).result = .ok fields → Schema.AreFields fields
  | [], fields, _, _, hfields => by
    cases hfields
    exact List.forall_mem_nil _
  | (name, declaration) :: entries, fields, hkeyed, h, hfields => by
    obtain ⟨hname, hdeclaration, hentries⟩ := Value.entriesKeyed_cons hkeyed
    obtain ⟨hfirst, hothers⟩ := List.forall_mem_cons.1 h
    rw [fieldsOf_cons] at hfields
    obtain ⟨field, hfield, hfields⟩ := Build.exists_of_bind_eq_ok hfields
    obtain ⟨rest, hrest, hfields⟩ := Build.exists_of_bind_eq_ok hfields
    cases hfields
    exact List.forall_mem_cons.2 ⟨⟨hname, reachable_of_fieldOf hplain hdeclaration hfirst hfield⟩,
      areFields_of_fieldsOf hplain hentries hothers hrest⟩

/-- A constraint leads from one reachable schema to another, where the declarations in its argument
do. -/
theorem reachable_of_applyConstraint (hplain : context.IsPlain) {argument : Value}
    (hkeyed : argument.isKeyed = true) (hdeclared : argument.HoldsOnly context.BuildsReachable)
    (hs : s.Reachable) (hkind : s.kind = kind)
    (h : (context.applyConstraint kind typeName s name argument).result = .ok t) :
    t.Reachable ∧ t.kind = kind := by
  cases context.constraintCase kind name argument with
  | refused hrefused =>
    obtain ⟨fault, -, hfault⟩ := hrefused typeName
    rw [hfault context rfl rfl] at h
    cases h
  | @condition sibling branches rest hwhen hkeys =>
    rw [applyConstraint_when hwhen hkeys] at h
    obtain ⟨_, -, h⟩ := Build.exists_of_bind_eq_ok h
    obtain ⟨chosen, hchosen, h⟩ := Build.exists_of_bind_eq_ok h
    obtain ⟨other, hother, h⟩ := Build.exists_of_bind_eq_ok h
    rw [addCondition_eq hplain] at h
    cases h
    obtain ⟨hsibling, hbranches, -⟩ := Value.entriesKeyed_cons hkeyed
    have hbuilt := hdeclared.branches sibling branches rest rfl
    exact ⟨.whenSibling hs hsibling (reachable_of_branchOf hbranches hbuilt hchosen)
      (reachable_of_branchOf hbranches hbuilt hother), hkind⟩
  | @fields arguments hshape =>
    rw [applyConstraint_shape hshape] at h
    obtain ⟨fields, hbuild, h⟩ := Build.exists_of_bind_eq_ok h
    have ho : s.kind = .object := hkind.trans (kind_eq_of_resolve?_shape hplain hshape)
    rw [shapeFields_eq hplain ho] at h
    cases h
    have hfields := areFields_of_fieldsOf hplain hkeyed (hdeclared.fields arguments rfl) hbuild
    exact ⟨hfields.reachable hs ho, hkind⟩
  | plain hresolve hwhen hshape =>
    rw [applyConstraint_eq_applyPlain hresolve hwhen hshape] at h
    subst hkind
    exact reachable_of_applyPlain hplain hs hwhen hkeyed h

theorem reachable_of_applyEntries (hplain : context.IsPlain) :
    ∀ {entries : List (Value × Value)} {s t : Schema}, Value.entriesKeyed entries = true →
    (∀ e ∈ entries, e.2.HoldsOnly context.BuildsReachable) → s.Reachable → s.kind = kind →
    (context.applyEntries kind s entries).result = .ok t → t.Reachable
  | [], s, t, _, _, hs, _, h => by
    cases h
    exact hs
  | (name, argument) :: entries, s, t, hkeyed, hdeclared, hs, hkind, h => by
    obtain ⟨-, hargument, hentries⟩ := Value.entriesKeyed_cons hkeyed
    obtain ⟨hfirst, hothers⟩ := List.forall_mem_cons.1 hdeclared
    rw [applyEntries] at h
    split_ifs at h
    · exact reachable_of_applyEntries hplain hentries hothers hs hkind h
    · obtain ⟨u, hu, h⟩ := Build.exists_of_bind_eq_ok h
      obtain ⟨hu, hkind⟩ := reachable_of_applyConstraint hplain hargument hfirst hs hkind hu
      exact reachable_of_applyEntries hplain hentries hothers hu hkind h

theorem buildsReachable (hplain : context.IsPlain) (v : Value) : context.BuildsReachable v := by
  induction v using Value.induct_declaration with
  | bare v hbare =>
    intro _ s h
    rcases schemaOf_of_isMap_eq_false hbare with ⟨kind, hkind⟩ | ⟨fault, hfault⟩
    · rw [hkind] at h
      cases h
      exact .ofKind kind
    · rw [hfault] at h
      cases h
  | map entries ih =>
    intro hkeyed s h
    rw [schemaOf] at h
    split at h
    · exact reachable_of_applyEntries hplain hkeyed ih (.ofKind _) rfl h
    · cases h

/-- A schema that is built from a declaration is reachable. -/
theorem reachable_of_schemaOf (hplain : context.IsPlain) {v : Value} (hkeyed : v.isKeyed = true)
    (h : (context.schemaOf v).result = .ok s) : s.Reachable :=
  buildsReachable hplain v hkeyed s h

theorem areFields_of_notedFields (hplain : context.IsPlain) : ∀ {entries : List (Value × Value)}
    {fields : List (Value × Schema)}, Value.entriesKeyed entries = true →
    (context.notedFields entries).result = .ok fields →
    Schema.AreFields fields
  | [], fields, _, h => by
    cases h
    exact List.forall_mem_nil _
  | (name, declaration) :: entries, fields, hkeyed, h => by
    obtain ⟨hname, hdeclaration, hentries⟩ := Value.entriesKeyed_cons hkeyed
    rw [notedFields] at h
    obtain ⟨_, -, h⟩ := Build.exists_of_bind_eq_ok h
    obtain ⟨field, hfield, h⟩ := Build.exists_of_bind_eq_ok h
    obtain ⟨rest, hrest, h⟩ := Build.exists_of_bind_eq_ok h
    cases h
    exact List.forall_mem_cons.2 ⟨⟨hname, reachable_of_schemaOf hplain hdeclaration hfield⟩,
      areFields_of_notedFields hplain hentries hrest⟩

/-- A record schema that is built from declarations is reachable. -/
theorem reachable_of_recordOf (hplain : context.IsPlain) {declarations : Value}
    (hkeyed : declarations.isKeyed = true)
    (h : (context.recordOf declarations).result = .ok s) : s.Reachable := by
  unfold recordOf at h
  split at h
  · obtain ⟨fields, hfields, h⟩ := Build.exists_of_bind_eq_ok h
    rw [shapeFields_eq hplain rfl] at h
    cases h
    exact (areFields_of_notedFields hplain hkeyed hfields).reachable (.ofKind .object) rfl
  · cases h

end Context

end FieldSchema
