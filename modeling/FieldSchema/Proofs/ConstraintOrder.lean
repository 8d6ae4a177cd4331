import FieldSchema.Proofs.Building
import FieldSchema.Proofs.Changes
import FieldSchema.Proofs.FieldOrder
import FieldSchema.Proofs.Nulls
import FieldSchema.Proofs.TestOrder

/-!
# The order of declared constraints

The constraints of a declaration can stand in any order, if they are of different methods
(`Context.schemaOf_perm`). A method makes one and the same change to every schema of a kind
(`Context.apply_eq`), so a constraint either makes a change that depends on nothing before it
(`Context.Makes`) or is refused wherever it stands (`Context.exists_makes`), and what is built are
these changes, made one after another (`Context.applyEntries_eq_ok_iff`). Changes of different slots
lead to the same schema but for the order of its tests, which shows in nothing but the order of what
is complained of (`Schema.Shuffles.sameOutcome_field`). What cannot be reported is the same in both
orders (`Schema.Shuffles.sameMisuse_field`): a field that is missing, with a name that is no text.
-/

namespace FieldSchema

namespace Context

variable {context : Context} {s t : Schema} {m : Method} {kind : Kind} {name : Value}

/-! ## The changes that methods make -/

/-- The change that a method makes to schemas of a kind, given its arguments. -/
def changeOf (context : Context) (m : Method) (kind : Kind) (arguments : List Value) :
    Except Fault Change :=
  match m, arguments with
  | .required, [message] =>
    .ok { Change.rule (.required (kind = .string)) message with isRequired? := some true }
  | .notRequired, _ => .ok { tests? := some ("required", []), isRequired? := some false }
  | .nullable, _ => .ok { isNullable? := some true }
  | .default, [v] => .ok { default? := some v }
  | .label, [v] => .ok { label? := some v }
  | .when, [sibling, expected, chosen, other] => do
    let chosen ← context.branchArgument chosen
    let other ← context.branchArgument other
    pure (.condition ⟨sibling, expected, chosen, other⟩)
  | .shape, [fields] => do
    let fields ← context.fieldsArgument fields
    pure (.fields fields)
  | m, [v, message] =>
    match rule? m kind v with
    | some rule => do
      let rule ← rule
      pure (.rule rule message)
    | none => .ok {}
  | m, [message] =>
    match fixedRule? m with
    | some rule => .ok (.rule rule message)
    | none => .ok {}
  | _, _ => .ok {}

theorem changeOf_rule (h : m ≠ .notRequired) (h' : m ≠ .nullable) (v message : Value) :
    context.changeOf m kind [v, message] = match rule? m kind v with
      | some rule => (Change.rule · message) <$> rule
      | none => .ok {} := by
  cases m <;> first | contradiction | rfl

theorem changeOf_fixedRule (h : m ∉ [.required, .notRequired, .nullable, .default, .label, .shape])
    (message : Value) : context.changeOf m kind [message] = match fixedRule? m with
      | some rule => .ok (.rule rule message)
      | none => .ok {} := by
  cases m <;> first | rfl | exact absurd (by decide) h

/-- With arguments that are not those of a method nothing changes. -/
theorem changeOf_eq_empty {arguments : List Value} (hnot : m = .notRequired → False)
    (hnull : m = .nullable → False) (hone : ∀ v, arguments = [v] → False)
    (htwo : ∀ v message, arguments = [v, message] → False)
    (hwhen : ∀ sibling expected chosen other, m = .when →
      arguments = [sibling, expected, chosen, other] → False) :
    context.changeOf m kind arguments = .ok {} := by
  unfold changeOf
  split
  · exact (hone _ rfl).elim
  · exact (hnot rfl).elim
  · exact (hnull rfl).elim
  · exact (hone _ rfl).elim
  · exact (hone _ rfl).elim
  · exact (hwhen _ _ _ _ rfl rfl).elim
  · exact (hone _ rfl).elim
  · exact (htwo _ _ rfl).elim
  · exact (hone _ rfl).elim
  · rfl

/-- A method makes one and the same change to all schemas of a kind. -/
theorem apply_eq (hkind : s.kind = kind) (m : Method) (arguments : List Value) :
    context.apply m s arguments = (context.changeOf m kind arguments).map (·.applyTo s) := by
  subst hkind
  unfold apply
  split
  case h_1 message =>
    have hrule := Change.applyTo_rule (.required (s.kind = .string)) message s
    rw [Schema.required, ← hrule]
    rfl
  case h_2 | h_3 | h_4 | h_5 =>
    cases s
    simp [changeOf, Except.map, Change.applyTo, Change.testsOf, Entries.putAll, Schema.notRequired,
      Schema.withoutTest, Schema.nullable, Schema.withDefault, Schema.withLabel]
  case h_6 sibling expected chosen other =>
    rw [changeOf]
    cases context.branchArgument chosen with
    | error fault => rfl
    | ok chosen =>
      cases context.branchArgument other with
      | error fault => rfl
      | ok other => exact congrArg Except.ok (Change.applyTo_condition _ s).symm
  case h_7 fields =>
    rw [changeOf]
    cases context.fieldsArgument fields with
    | error fault => rfl
    | ok fields => exact congrArg Except.ok (Change.applyTo_fields fields s).symm
  case h_8 v message hne hne' =>
    rw [changeOf_rule hne hne']
    cases rule? m s.kind v with
    | none => simp [Except.map, Change.applyTo_empty]
    | some rule =>
      cases rule with
      | error fault => rfl
      | ok rule => exact congrArg Except.ok (Change.applyTo_rule rule message s).symm
  case h_9 message hrequired hnot hnull hdefault hlabel hshape =>
    have hne : m ∉ [.required, .notRequired, .nullable, .default, .label, .shape] := by
      simpa using ⟨hrequired, hnot, hnull, hdefault, hlabel, hshape⟩
    rw [changeOf_fixedRule hne]
    cases fixedRule? m with
    | none => simp [Except.map, Change.applyTo_empty]
    | some rule => exact congrArg Except.ok (Change.applyTo_rule rule message s).symm
  case h_10 _ _ hnot hnull htwo hone _ _ _ hwhen _ =>
    have hempty : context.changeOf m s.kind arguments = .ok {} :=
      changeOf_eq_empty hnot hnull hone htwo hwhen
    rw [hempty, Except.map, Change.applyTo_empty]

/-- The change that a method makes is one of its slot. -/
theorem isOf_of_changeOf {arguments : List Value} {c : Change}
    (h : context.changeOf m kind arguments = .ok c) : c.IsOf m.slot := by
  unfold changeOf at h
  split at h
  case h_1 message =>
    cases h
    have hrule := Change.isOf_rule (m := .required) nofun
      (show (Rule.required (kind = .string)).name = _ from rfl) message
    exact { hrule with isRequired := fun _ => rfl }
  case h_2 =>
    cases h
    refine { Change.isOf_empty _ with tests := ?_, isRequired := fun _ => rfl }
    rintro _ ⟨⟩
    exact ⟨rfl, List.forall_mem_nil _⟩
  case h_3 | h_4 | h_5 =>
    cases h
    constructor <;> first | exact fun _ => rfl | nofun
  case h_6 =>
    obtain ⟨_, -, h⟩ := Except.exists_of_bind_eq_ok h
    obtain ⟨_, -, h⟩ := Except.exists_of_bind_eq_ok h
    cases h
    exact Change.isOf_condition _
  case h_7 =>
    obtain ⟨_, -, h⟩ := Except.exists_of_bind_eq_ok h
    cases h
    exact Change.isOf_fields _
  case h_8 v message hne _ =>
    split at h
    · obtain ⟨rule, rfl, h⟩ := Except.exists_of_bind_eq_ok h
      cases h
      exact Change.isOf_rule hne (name_eq_of_rule? ‹_›) message
    · cases h
      exact Change.isOf_empty _
  case h_9 message _ hne _ _ _ _ =>
    split at h
    · cases h
      exact Change.isOf_rule hne (name_eq_of_fixedRule? ‹_›) message
    · cases h
      exact Change.isOf_empty _
  case h_10 =>
    cases h
    exact Change.isOf_empty _

/-! ## The changes that constraints make -/

/-- A name that resolves is that of a method of the kind, where no method is registered. -/
theorem exists_capability_of_resolve? {method : String}
    (h : Registry.resolve? [] kind name = some method) :
    ∃ m : Method, m.name = method ∧ Registry.capability? [] kind method = some (.builtIn m) := by
  have hsome : (Registry.capability? [] kind method).isSome = true := by
    cases name <;> simp only [Registry.resolve?, Registry.resolveOn?, reduceCtorEq] at h
    have hfound := List.find?_some h
    rw [Bool.and_eq_true] at hfound
    exact hfound.2
  obtain ⟨capability, hcapability⟩ := Option.isSome_iff_exists.1 hsome
  cases capability with
  | custom recipe => simp [Registry.capability?_nil] at hcapability
  | builtIn m => exact ⟨m, (Registry.mem_of_capability?_nil hcapability).2, hcapability⟩

/-- The change that the call of a method makes. -/
def calledChange (context : Context) (m : Method) (kind : Kind) (positional : List Value) :
    Except Fault Change := do
  let values ← (Arguments.bind ⟨positional, []⟩ m kind).mapError .misuse
  context.changeOf m kind values

theorem invoke_eq (hplain : context.IsPlain) (hkind : s.kind = kind)
    (hm : Registry.capability? [] kind m.name = some (.builtIn m)) (positional : List Value) :
    context.invoke s m.name ⟨positional, []⟩ =
      (context.calledChange m kind positional).map (·.applyTo s) := by
  subst hkind
  rw [invoke_eq_apply hplain.registry hm, calledChange]
  cases (Arguments.bind ⟨positional, []⟩ m s.kind).mapError Fault.misuse with
  | error fault => rfl
  | ok values => exact apply_eq rfl m values

/-- That a constraint makes a change to every schema of a kind, given with its slot. -/
structure Makes (context : Context) (kind : Kind) (e : Value × Value) (p : Method × Change) :
    Prop where
  resolves : ∃ m : Method, context.registry.resolve? kind e.1 = some m.name ∧ p.1 = m.slot
  isOf : p.2.IsOf p.1
  result : ∀ s : Schema, s.kind = kind →
    (context.applyConstraint kind (.text kind.name) s e.1 e.2).result = .ok (p.2.applyTo s)

/-- That a building leads from no schema of a kind to another. -/
def Fails (kind : Kind) (build : Schema → Build Schema) : Prop :=
  ∀ s t : Schema, s.kind = kind → (build s).result ≠ .ok t

theorem exists_change_of_applyPlain (hplain : context.IsPlain)
    (hm : Registry.capability? [] kind m.name = some (.builtIn m)) (typeName argument : Value) :
    (∃ c : Change, c.IsOf m.slot ∧ ∀ s : Schema, s.kind = kind →
      (context.applyPlain typeName name m.name s argument).result = .ok (c.applyTo s)) ∨
    Fails kind fun s => context.applyPlain typeName name m.name s argument := by
  have hinvoke : ∀ positional, (∃ c : Change, c.IsOf m.slot ∧ ∀ s : Schema, s.kind = kind →
      context.invoke s m.name ⟨positional, []⟩ = .ok (c.applyTo s)) ∨
      ∀ s t : Schema, s.kind = kind → context.invoke s m.name ⟨positional, []⟩ ≠ .ok t := by
    intro positional
    cases hcalled : context.calledChange m kind positional with
    | error fault =>
      refine .inr fun s t hs => ?_
      rw [invoke_eq hplain hs hm, hcalled]
      nofun
    | ok c =>
      obtain ⟨values, -, hchange⟩ := Except.exists_of_bind_eq_ok hcalled
      refine .inl ⟨c, isOf_of_changeOf hchange, fun s hs => ?_⟩
      rw [invoke_eq hplain hs hm, hcalled]
      rfl
  unfold Fails applyPlain
  split
  · exact .inl ⟨{}, Change.isOf_empty _, fun s _ =>
      congrArg Except.ok (Change.applyTo_empty s).symm⟩
  · exact hinvoke []
  · exact hinvoke [_]

/-- A condition is built from its argument alone. -/
theorem exists_makes_when (hplain : context.IsPlain)
    (hwhen : context.registry.resolve? kind name = some Method.when.name)
    {sibling : Value} {branches : List (Value × Value)}
    (hkeys : conditionKeys.find? (fun key => !Entries.has branches (.text key)) = none)
    (rest : List (Value × Value)) :
    (∃ p, context.Makes kind (name, .map ((sibling, .map branches) :: rest)) p) ∨
      Fails kind fun s => context.applyConstraint kind (.text kind.name) s name
        (.map ((sibling, .map branches) :: rest)) := by
  simp only [Fails, applyConstraint_when hwhen hkeys]
  by_cases hparts : ∃ chosen other, (context.branchOf "then" branches).result = .ok chosen ∧
      (context.branchOf "otherwise" branches).result = .ok other
  · obtain ⟨chosen, other, hchosen, hother⟩ := hparts
    refine .inl ⟨(.when, .condition
      ⟨sibling, (Entries.named? branches "is").getD .null, chosen, other⟩),
      ⟨.when, hwhen, rfl⟩, Change.isOf_condition _, fun s _ => ?_⟩
    rw [applyConstraint_when hwhen hkeys]
    refine Build.bind_eq_ok_iff.2 ⟨(), rfl, Build.bind_eq_ok_iff.2 ⟨chosen, hchosen,
      Build.bind_eq_ok_iff.2 ⟨other, hother, ?_⟩⟩⟩
    rw [addCondition_eq hplain, Change.applyTo_condition]
    rfl
  · refine .inr fun s t _ h => hparts ?_
    obtain ⟨_, -, h⟩ := Build.exists_of_bind_eq_ok h
    obtain ⟨chosen, hchosen, h⟩ := Build.exists_of_bind_eq_ok h
    obtain ⟨other, hother, -⟩ := Build.exists_of_bind_eq_ok h
    exact ⟨chosen, other, hchosen, hother⟩

/-- Fields are built from their declarations alone. -/
theorem exists_makes_shape (hplain : context.IsPlain)
    (hshape : context.registry.resolve? kind name = some Method.shape.name)
    (arguments : List (Value × Value)) : (∃ p, context.Makes kind (name, .map arguments) p) ∨
      Fails kind fun s =>
        context.applyConstraint kind (.text kind.name) s name (.map arguments) := by
  have hobject : kind = .object := kind_eq_of_resolve?_shape hplain hshape
  simp only [Fails, applyConstraint_shape hshape]
  cases hfields : (context.fieldsOf arguments).result with
  | ok fields =>
    refine .inl ⟨(.shape, .fields fields), ⟨.shape, hshape, rfl⟩, Change.isOf_fields fields,
      fun s hs => ?_⟩
    rw [applyConstraint_shape hshape]
    refine Build.bind_eq_ok_iff.2 ⟨fields, hfields, ?_⟩
    rw [shapeFields_eq hplain (hs.trans hobject), Change.applyTo_fields]
    rfl
  | error fault =>
    refine .inr fun s t _ h => ?_
    obtain ⟨fields, hok, -⟩ := Build.exists_of_bind_eq_ok h
    rw [hfields] at hok
    cases hok

/-- A constraint makes one and the same change to all schemas of a kind, or is refused for each of
them. -/
theorem exists_makes (hplain : context.IsPlain) (kind : Kind) (e : Value × Value) :
    (∃ p, context.Makes kind e p) ∨
      Fails kind fun s => context.applyConstraint kind (.text kind.name) s e.1 e.2 := by
  obtain ⟨name, argument⟩ := e
  simp only [Fails]
  cases context.constraintCase kind name argument with
  | refused hrefused =>
    refine .inr fun s t _ h => ?_
    obtain ⟨fault, -, hfault⟩ := hrefused (.text kind.name)
    rw [hfault context rfl rfl] at h
    cases h
  | condition hwhen hkeys => exact exists_makes_when hplain hwhen hkeys _
  | fields hshape => exact exists_makes_shape hplain hshape _
  | plain hresolve hwhen hshape =>
    obtain ⟨m, rfl, hm⟩ := exists_capability_of_resolve? (hplain.registry ▸ hresolve)
    have heq : ∀ s, context.applyConstraint kind (.text kind.name) s name argument =
        context.applyPlain (.text kind.name) name m.name s argument := fun s =>
      applyConstraint_eq_applyPlain hresolve hwhen hshape
    simp only [heq]
    rcases exists_change_of_applyPlain hplain hm (.text kind.name) argument with
      ⟨c, hof, hresult⟩ | hfails
    · refine .inl ⟨(m.slot, c), ⟨m, hresolve, rfl⟩, hof, fun s hs => ?_⟩
      rw [heq]
      exact hresult s hs
    · exact .inr hfails

/-- What is built from constraints are their changes, made one after another. -/
theorem applyEntries_eq_ok_iff (hplain : context.IsPlain) :
    ∀ {entries : Entries Value} {s t : Schema}, s.kind = kind →
      ((context.applyEntries kind s entries).result = .ok t ↔ ∃ changes,
        List.Forall₂ (context.Makes kind) (Declaration.constraints entries) changes ∧
          t = Change.applyAll s changes)
  | [], s, t, _ => by
    simp only [applyEntries, Declaration.constraints, List.filter_nil, List.forall₂_nil_left_iff,
      exists_eq_left]
    exact ⟨fun h => (Except.ok.inj h).symm, fun h => h ▸ rfl⟩
  | (name, argument) :: entries, s, t, hs => by
    rw [applyEntries]
    by_cases hname : typeKey.same name = true
    · have hconstraints : Declaration.constraints ((name, argument) :: entries) =
          Declaration.constraints entries := by simp [Declaration.constraints, hname]
      rw [if_pos hname, hconstraints]
      exact applyEntries_eq_ok_iff hplain hs
    · have hconstraints : Declaration.constraints ((name, argument) :: entries) =
          (name, argument) :: Declaration.constraints entries := by
        simp [Declaration.constraints, hname]
      rw [if_neg hname, hconstraints, Build.bind_eq_ok_iff]
      simp only [List.forall₂_cons_left_iff]
      constructor
      · rintro ⟨u, hu, h⟩
        rcases exists_makes hplain kind (name, argument) with ⟨p, hp⟩ | hfails
        · have happlied : p.2.applyTo s = u := Except.ok.inj ((hp.result s hs).symm.trans hu)
          subst happlied
          obtain ⟨changes, hchanges, rfl⟩ :=
            (applyEntries_eq_ok_iff hplain (s := p.2.applyTo s) hs).1 h
          exact ⟨_, ⟨p, changes, hp, hchanges, rfl⟩, rfl⟩
        · exact absurd hu (hfails s u hs)
      · rintro ⟨_, ⟨p, changes, hp, hchanges, rfl⟩, rfl⟩
        exact ⟨_, hp.result s hs, (applyEntries_eq_ok_iff hplain (s := p.2.applyTo s) hs).2
          ⟨changes, hchanges, rfl⟩⟩

/-! ## Declarations in another order -/

/-- That the constraints of a declaration are of different methods, and that there are not both one
that demands a value and one that does not. -/
structure AreIndependent (context : Context) (kind : Kind) (entries : Entries Value) : Prop where
  distinct : (Declaration.constraints entries).Pairwise fun e e' => ∀ m,
    context.registry.resolve? kind e.1 = some m → context.registry.resolve? kind e'.1 ≠ some m
  toggle : ∀ e ∈ Declaration.constraints entries, ∀ e' ∈ Declaration.constraints entries,
    context.registry.resolve? kind e.1 = some "required" →
      context.registry.resolve? kind e'.1 ≠ some "not_required"

theorem constraints_perm {entries entries' : Entries Value} (h : entries.Perm entries') :
    (Declaration.constraints entries).Perm (Declaration.constraints entries') :=
  h.filter _

theorem AreIndependent.perm {entries entries' : Entries Value} (h : entries.Perm entries')
    (hindependent : context.AreIndependent kind entries) :
    context.AreIndependent kind entries' where
  distinct := (constraints_perm h).pairwise hindependent.distinct fun hne m hm hm' => hne m hm' hm
  toggle := fun e he e' he' => hindependent.toggle e ((constraints_perm h).mem_iff.2 he) e'
    ((constraints_perm h).mem_iff.2 he')

theorem slot_ne_slot {m m' : Method} (hne : m ≠ m')
    (hrequired : m = .required → m' ≠ .notRequired)
    (hrequired' : m' = .required → m ≠ .notRequired) : m.slot ≠ m'.slot := by
  unfold Method.slot
  split_ifs with h h'
  · exact fun _ => hne (h.trans h'.symm)
  · exact fun hs => hrequired' hs.symm h
  · exact fun hs => hrequired hs ‹_›
  · exact hne

theorem exists_of_mem_forall₂ {α β : Type} {R : α → β → Prop} {as : List α} {bs : List β} {b : β}
    (h : List.Forall₂ R as bs) (hb : b ∈ bs) : ∃ a ∈ as, R a b := by
  induction h with
  | nil => simp at hb
  | cons hr _ ih =>
    rcases List.mem_cons.1 hb with rfl | hb
    · exact ⟨_, .head _, hr⟩
    · obtain ⟨a, ha, hr⟩ := ih hb
      exact ⟨a, .tail _ ha, hr⟩

/-- The changes of such constraints are of different slots. -/
theorem AreIndependent.pairwise_slot {entries : Entries Value} {changes : List (Method × Change)}
    (hindependent : context.AreIndependent kind entries)
    (h : List.Forall₂ (context.Makes kind) (Declaration.constraints entries) changes) :
    changes.Pairwise (·.1 ≠ ·.1) := by
  obtain ⟨hdistinct, htoggle⟩ := hindependent
  generalize Declaration.constraints entries = constraints at h hdistinct htoggle
  induction h with
  | nil => exact .nil
  | @cons e p constraints changes hp hchanges ih =>
    obtain ⟨hfirst, hrest⟩ := List.pairwise_cons.1 hdistinct
    refine List.pairwise_cons.2 ⟨fun q hq => ?_, ih hrest fun e he e' he' =>
      htoggle e (.tail _ he) e' (.tail _ he')⟩
    obtain ⟨e', he', hq⟩ := exists_of_mem_forall₂ hchanges hq
    obtain ⟨m, hm, hslot⟩ := hp.resolves
    obtain ⟨m', hm', hslot'⟩ := hq.resolves
    rw [hslot, hslot']
    refine slot_ne_slot ?_ ?_ ?_
    · rintro rfl
      exact hfirst e' he' _ hm hm'
    · rintro rfl rfl
      exact htoggle e (.head _) e' (.tail _ he') hm hm'
    · rintro rfl rfl
      exact htoggle e' (.tail _ he') e (.head _) hm' hm

/-- A declaration with its constraints in another order builds the same schema but for the order of
its tests. -/
theorem exists_schemaOf_perm (hplain : context.IsPlain) {entries entries' : Entries Value}
    (hperm : entries.Perm entries') (hkeys : AreKeys (entries.map (·.1)))
    (hindependent : ∀ kind, Declaration.kindOf (entries.get? typeKey) = .ok kind →
      context.AreIndependent kind entries)
    (h : (context.schemaOf (.map entries)).result = .ok s) :
    ∃ s', (context.schemaOf (.map entries')).result = .ok s' ∧ s.Shuffles s' := by
  have htype : entries'.get? typeKey = entries.get? typeKey :=
    (Entries.get?_perm hkeys hperm typeKey).symm
  rw [schemaOf] at h ⊢
  rw [htype]
  cases hkind : Declaration.kindOf (entries.get? typeKey) with
  | error fault =>
    rw [hkind] at h
    cases h
  | ok kind =>
    rw [hkind] at h
    obtain ⟨changes, hchanges, rfl⟩ :=
      (applyEntries_eq_ok_iff hplain (s := .ofKind kind) rfl).1 h
    obtain ⟨changes', hchanges', hchangesPerm⟩ :=
      List.perm_comp_forall₂ (constraints_perm hperm).symm hchanges
    refine ⟨_, (applyEntries_eq_ok_iff hplain rfl).2 ⟨changes', hchanges', rfl⟩, ?_⟩
    have hof : ∀ p ∈ changes, p.2.IsOf p.1 := fun p hp => by
      obtain ⟨_, -, hmakes⟩ := exists_of_mem_forall₂ hchanges hp
      exact hmakes.isOf
    exact Change.shuffles_applyAll_perm hchangesPerm.symm hof
      ((hindependent kind hkind).pairwise_slot hchanges) _

theorem isKeyed_field {declaration : Value} (hkey : name.isKey = true)
    (h : declaration.isKeyed = true) : (Value.map [(name, declaration)]).isKeyed = true := by
  simp [Value.isKeyed_map_iff, hkey, h]

/-- The order of the constraints in a declaration does not matter, where they are of different
methods: it is accepted in every order, and as the declaration of a field it comes to the same on
every value. It is answered with the same value or is refused with the same failures, always so
where all messages and names are texts, and where it is not answered both orders end in the same
misuse. -/
theorem schemaOf_perm (hplain : context.IsPlain) {entries entries' : Entries Value}
    (hperm : entries.Perm entries') (hkeys : AreKeys (entries.map (·.1)))
    (hkeyed : (Value.map entries).isKeyed = true)
    (hindependent : ∀ kind, Declaration.kindOf (entries.get? typeKey) = .ok kind →
      context.AreIndependent kind entries) :
    ((∃ s, (context.schemaOf (.map entries)).result = .ok s) ↔
        ∃ s', (context.schemaOf (.map entries')).result = .ok s') ∧
      ∀ s, (context.schemaOf (.map entries)).result = .ok s →
        (∀ t ∈ s.tests, t.message.isText = true) → ∀ name : Value, name.isKey = true →
          ∃ o o' : Schema, (context.recordOf (.map [(name, .map entries)])).result = .ok o ∧
            (context.recordOf (.map [(name, .map entries')])).result = .ok o' ∧
            ∀ v all, (o.Answers v all ↔ o'.Answers v all) ∧
              (o.Answers v all ∨ o.Everywhere Schema.IsTextual →
                SameOutcome Eq (Reordered all) (o.validate v all) (o'.validate v all)) ∧
              (¬ o.Answers v all → ∃ m, o.validate v all = .error (.misuse m) ∧
                o'.validate v all = .error (.misuse m)) := by
  have hindependent' : ∀ kind, Declaration.kindOf (entries'.get? typeKey) = .ok kind →
      context.AreIndependent kind entries' := by
    intro kind hkind
    rw [← Entries.get?_perm hkeys hperm] at hkind
    exact (hindependent kind hkind).perm hperm
  refine ⟨⟨fun ⟨s, hs⟩ => ?_, fun ⟨s', hs'⟩ => ?_⟩, fun s hs hmessages name hname => ?_⟩
  · obtain ⟨s', hs', -⟩ := exists_schemaOf_perm hplain hperm hkeys hindependent hs
    exact ⟨s', hs'⟩
  · obtain ⟨s, hs, -⟩ := exists_schemaOf_perm hplain hperm.symm (hkeys.perm (hperm.map _))
      hindependent' hs'
    exact ⟨s, hs⟩
  · obtain ⟨s', hs', hshuffles⟩ := exists_schemaOf_perm hplain hperm hkeys hindependent hs
    have ho := recordOf_field hplain hname hs
    have ho' := recordOf_field hplain hname hs'
    have hreachable := reachable_of_recordOf hplain (isKeyed_field hname hkeyed) ho
    have hsound := hreachable.everywhere_isSound
    have hsound' := (reachable_of_recordOf hplain
      (isKeyed_field hname (isKeyed_map_perm hperm hkeyed)) ho').everywhere_isSound
    refine ⟨_, _, ho, ho', fun v all => ?_⟩
    obtain ⟨hiff, hsame⟩ := hshuffles.sameOutcome_field hmessages hsound hsound' v all
    refine ⟨hiff, fun h => hsame (h.elim id fun htext => ?_), fun hno => ?_⟩
    · exact Schema.answers_of_isTextual hreachable htext
    · exact hshuffles.sameMisuse_field hmessages hsound hsound' hno

/-- A code is a text of two characters or more, among some. -/
def codeDeclaration : Entries Value :=
  [(.text "type", .text "string"), (.text "required", .bool true), (.text "min", .int 2),
    (.text "oneOf", .list [.text "ab", .text "abc"])]

def code : Schema :=
  (((Schema.ofKind .string).required .null).withRule (.minLength (.int 2)) .null).withRule
    (.oneOf [.text "ab", .text "abc"]) .null

theorem schemaOf_codeDeclaration : (empty.schemaOf (.map codeDeclaration)).result = .ok code :=
  rfl

theorem areIndependent_codeDeclaration : empty.AreIndependent .string codeDeclaration := by
  have hmethods : (Declaration.constraints codeDeclaration).map
      (fun e => empty.registry.resolve? .string e.1) =
        [some "required", some "min", some "one_of"] := rfl
  constructor
  · have hnodup : ((Declaration.constraints codeDeclaration).map
        fun e => empty.registry.resolve? .string e.1).Nodup := by
      rw [hmethods]
      decide
    exact (List.pairwise_map.1 hnodup).imp fun hne m hm hm' => hne (hm.trans hm'.symm)
  · intro e he e' he' _ hm'
    have hmem := List.mem_map_of_mem (f := fun e => empty.registry.resolve? .string e.1) he'
    rw [hmethods, hm'] at hmem
    exact absurd hmem (by decide)

theorem isTextual_code : code.Everywhere Schema.IsTextual :=
  .leaf ⟨by decide, List.forall_mem_nil _⟩ rfl rfl

theorem schemaOf_perm_code : ∃ o o' : Schema,
    (empty.recordOf (.map [(.text "code", .map codeDeclaration)])).result = .ok o ∧
      (empty.recordOf (.map [(.text "code", .map codeDeclaration.reverse)])).result = .ok o' ∧
        SameOutcome Eq (Reordered true) (o.validate (.map [(.text "code", .text "a")]) true)
          (o'.validate (.map [(.text "code", .text "a")]) true) := by
  have hkeys : AreKeys (codeDeclaration.map (·.1)) := ⟨by decide, by decide⟩
  have hindependent : ∀ kind, Declaration.kindOf (Entries.get? codeDeclaration typeKey) = .ok kind →
      empty.AreIndependent kind codeDeclaration := by
    intro kind hkind
    obtain rfl : Kind.string = kind := Except.ok.inj hkind
    exact areIndependent_codeDeclaration
  obtain ⟨-, hfield⟩ := schemaOf_perm isPlain_empty (List.reverse_perm codeDeclaration).symm hkeys
    rfl hindependent
  obtain ⟨o, o', ho, ho', hsame⟩ := hfield code schemaOf_codeDeclaration
    isTextual_code.self.messages (.text "code") rfl
  refine ⟨o, o', ho, ho', (hsame _ true).2.1 (.inr ?_)⟩
  obtain rfl : Schema.recordOfFields [(.text "code", code)] = o :=
    Except.ok.inj ((recordOf_field isPlain_empty rfl schemaOf_codeDeclaration).symm.trans ho)
  exact .intro ⟨List.forall_mem_nil _, by decide⟩ (List.forall_mem_singleton.2 isTextual_code)
    (List.forall_mem_nil _) (List.forall_mem_nil _)

/-- A text that is demanded. -/
def demandedDeclaration : Entries Value :=
  [(.text "type", .text "string"), (.text "required", .bool true)]

/-- A record with such a text under a number. -/
def numberedField : Schema :=
  (Schema.ofKind .object).withFields [(.int 1, (Schema.ofKind .string).required .null)]

/-- Neither order is answered: that the field is missing cannot be reported. -/
theorem validate_numberedField :
    (empty.recordOf (.map [(.int 1, .map demandedDeclaration)])).result = .ok numberedField ∧
      (empty.recordOf (.map [(.int 1, .map demandedDeclaration.reverse)])).result =
        .ok numberedField ∧
      numberedField.validate (.map []) true = .error (.misuse (.notJoinable 0 (.int 1))) :=
  ⟨rfl, rfl, rfl⟩

end Context

end FieldSchema
