import FieldSchema.Proofs.Operations
import FieldSchema.Proofs.Registrations

/-!
# What a registration leaves as it was

Two contexts that differ at most in what one name stands for (`Context.AgreeBut`) find the same
under every other name, so calls that do not come to that name are answered alike
(`Context.AgreeBut.invoke_eq`), declarations that do not declare it are built alike
(`Context.AgreeBut.schemaOf_eq`), and where it is the name of no operation schemas do the same. A
registration leaves such a context behind, if the name is new to the class, is none that schemas
have for something else, and is called by no recipe (`Context.undisturbed_of_register`). A recipe
under the name of an operation is registered all the same, and under the name of the list of names
it is refused but leaves nothing listed.
-/

namespace FieldSchema

/-! ## Names in declarations -/

/-- That a text is a spelling of a method's name. -/
def Value.Spells (v : Value) (n : String) : Prop := ∃ s, v = .text s ∧ n ∈ spellings s

theorem Registry.spells_of_resolve? {registry : Registry} {kind : Kind} {v : Value} {m : String}
    (h : registry.resolve? kind v = some m) : v.Spells m := by
  cases v <;> simp only [resolve?, resolveOn?, reduceCtorEq] at h
  exact ⟨_, rfl, List.mem_of_find?_eq_some h⟩

/-- That a declaration has a constraint by a name, or a branch or a field at any depth does. The
type is no constraint. -/
inductive Declares (n : String) : Value → Prop
  | constraint {entries : Entries Value} {e : Value × Value} (he : e ∈ entries)
      (htype : typeKey.same e.1 = false) (hn : e.1.Spells n) : Declares n (.map entries)
  | branch {entries branches rest : Entries Value} {name sibling : Value} {e : Value × Value}
      {key : String} (he : (name, .map ((sibling, .map branches) :: rest)) ∈ entries)
      (hwhen : name.Spells "when") (hbranch : e ∈ branches) (hkey : key ∈ ["then", "otherwise"])
      (hsame : (Value.text key).same e.1 = true) (h : Declares n e.2) : Declares n (.map entries)
  | field {entries fields : Entries Value} {name : Value} {e : Value × Value}
      (he : (name, .map fields) ∈ entries) (hshape : name.Spells "shape") (hfield : e ∈ fields)
      (h : Declares n e.2) : Declares n (.map entries)

theorem Declares.mono {n : String} {entries more : Entries Value} (h : entries ⊆ more)
    (hn : Declares n (.map entries)) : Declares n (.map more) := by
  cases hn with
  | constraint he htype hn => exact .constraint (h he) htype hn
  | branch he hwhen hbranch hkey hsame hn => exact .branch (h he) hwhen hbranch hkey hsame hn
  | field he hshape hfield hn => exact .field (h he) hshape hfield hn

/-! ## Contexts that differ under one name -/

namespace Context

/-- That two contexts differ at most in what one name stands for. The fields of a record are
declared by a method that is the same in both, and no recipe under another name calls that name. -/
structure AgreeBut (n : String) (context context' : Context) : Prop where
  built : context'.built = context.built
  names : ∀ c m, m ≠ n → (m ∈ context'.registry.names c ↔ m ∈ context.registry.names c)
  fault : ∀ c m, context'.registry.methods c = .error m ↔ context.registry.methods c = .error m
  recipe : ∀ c m, m ≠ n → context'.registry.recipe? c m = context.registry.recipe? c m
  shape : context'.registry.capability? (some .object) "shape" =
    context.registry.capability? (some .object) "shape"
  not_called : ∀ c m recipe, context.registry.recipe? c m = some recipe →
    ∀ step ∈ recipe.steps, step.method ≠ n

theorem foldlM_congr {α β : Type} {f g : β → α → Except Fault β} : ∀ (l : List α) (b : β),
    (∀ b, ∀ a ∈ l, f b a = g b a) → l.foldlM f b = l.foldlM g b
  | [], _, _ => rfl
  | a :: l, b, h => by
    rw [List.foldlM_cons, List.foldlM_cons, h b a (.head _)]
    congr 1
    funext b'
    exact foldlM_congr l b' fun b'' a' ha' => h b'' a' (.tail _ ha')

namespace AgreeBut

variable {n name : String} {context context' : Context} {s : Schema} {kind : Kind}

section

variable (h : AgreeBut n context context')

include h

theorem schema?_eq : context'.schema? = context.schema? := by
  funext v
  cases v <;> simp only [schema?, h.built]

theorem fieldSchemas_eq (entries : Entries Value) :
    context'.fieldSchemas entries = context.fieldSchemas entries := by
  induction entries with
  | nil => rfl
  | cons e entries ih => rw [fieldSchemas, fieldSchemas, ih, h.schema?_eq]

/-- A method refers to what is built, not to what is registered. -/
theorem apply_eq (m : Method) (s : Schema) (arguments : List Value) :
    context'.apply m s arguments = context.apply m s arguments := by
  have hbranch : context'.branchArgument = context.branchArgument := by
    funext v
    rw [branchArgument, branchArgument, h.schema?_eq]
  have hfields : context'.fieldsArgument = context.fieldsArgument := by
    funext v
    cases v <;> simp only [fieldsArgument, h.fieldSchemas_eq]
  unfold apply
  simp only [hbranch, hfields]

theorem found?_eq (c : Option Kind) (hname : name ≠ n) :
    context'.registry.found? c name = context.registry.found? c name := by
  simp only [Registry.found?, h.recipe c name hname]

theorem capability?_eq (c : Option Kind) (hname : name ≠ n) :
    context'.registry.capability? c name = context.registry.capability? c name := by
  cases c <;> simp only [Registry.capability?, h.found?_eq _ hname]

theorem not_called_of_capability? {c : Option Kind} {recipe : Recipe}
    (hname : context.registry.capability? c name = some (.custom recipe)) :
    ∀ step ∈ recipe.steps, step.method ≠ n := by
  have hfound : ∀ d, context.registry.found? d name = some (.custom recipe) →
      context.registry.recipe? d name = some recipe := fun d hd => by
    unfold Registry.found? at hd
    rcases Option.or_eq_some_iff.1 hd with hd | ⟨-, hd⟩
    · simpa using hd
    · simp at hd
  cases c with
  | none => exact h.not_called _ _ _ (hfound _ hname)
  | some kind =>
    rcases Option.or_eq_some_iff.1 hname with hname | ⟨-, hname⟩
    · exact h.not_called _ _ _ (hfound _ hname)
    · split_ifs at hname
      exact h.not_called _ _ _ (hfound _ hname)

/-- Calls are answered alike where the name stands for the same, since those that a recipe goes on
to are by other names. -/
theorem call_eq : ∀ (fuel : Nat) (s : Schema) {name : String} (arguments : Arguments),
    context'.registry.capability? (some s.kind) name =
      context.registry.capability? (some s.kind) name →
    context'.call fuel s name arguments = context.call fuel s name arguments
  | 0, _, _, _, _ => rfl
  | fuel + 1, s, name, arguments, hname => by
    rw [call, call, hname]
    cases hcapability : context.registry.capability? (some s.kind) name with
    | none => rfl
    | some capability =>
      cases capability with
      | builtIn m => simp only [h.apply_eq]
      | custom recipe =>
        have hsteps := h.not_called_of_capability? hcapability
        obtain ⟨steps, forward⟩ := recipe
        cases arguments.named with
        | cons e rest => rfl
        | nil =>
          cases steps with
          | nil => rfl
          | cons step steps =>
            obtain ⟨hfirst, hrest⟩ := List.forall_mem_cons.1 hsteps
            simp only [call_eq fuel s _ (h.capability?_eq _ hfirst)]
            congr 1
            funext first
            exact foldlM_congr steps first fun t step hstep =>
              call_eq fuel t ⟨step.arguments, []⟩ (h.capability?_eq _ (hrest step hstep))

theorem invoke_eq (s : Schema) (arguments : Arguments) (hname : name ≠ n) :
    context'.invoke s name arguments = context.invoke s name arguments :=
  h.call_eq maxDepth s arguments (h.capability?_eq _ hname)

/-! ### Building -/

theorem resolve?_eq {v : Value} (hv : ¬ v.Spells n) :
    context'.registry.resolve? kind v = context.registry.resolve? kind v := by
  cases v with
  | text s =>
    simp only [Registry.resolve?, Registry.resolveOn?, ← List.head?_filter]
    refine congrArg List.head? (List.filter_congr fun spelling hspelling => ?_)
    have hne : spelling ≠ n := fun heq => hv ⟨s, rfl, heq ▸ hspelling⟩
    have hnames : (context'.registry.names (some kind)).contains spelling =
        (context.registry.names (some kind)).contains spelling := by
      rw [Bool.eq_iff_iff, List.contains_iff_mem, List.contains_iff_mem, h.names _ _ hne]
    rw [hnames, h.capability?_eq _ hne]
  | _ => rfl

theorem nameFault_eq (v typeName : Value) :
    context'.nameFault kind v typeName = context.nameFault kind v typeName := by
  unfold nameFault
  cases hmethods : context.registry.methods (some kind) with
  | error m => rw [(h.fault _ m).2 hmethods]
  | ok names =>
    cases hmethods' : context'.registry.methods (some kind) with
    | error m => rw [(h.fault _ m).1 hmethods'] at hmethods
                 cases hmethods
    | ok names' => cases v <;> rfl

theorem shapeFields_eq (hshape : context'.registry.capability? (some s.kind) "shape" =
    context.registry.capability? (some s.kind) "shape") (fields : List (Value × Schema))
    (declarations : Value) :
    context'.shapeFields s fields declarations = context.shapeFields s fields declarations := by
  unfold shapeFields
  rw [hshape]
  split
  · exact h.call_eq maxDepth s _ hshape
  · rfl

theorem addCondition_eq (hname : "when" ≠ n) (s : Schema) (condition : Condition) :
    context'.addCondition s condition = context.addCondition s condition := by
  unfold addCondition
  rw [h.capability?_eq _ hname, h.invoke_eq s _ hname]

theorem applyPlain_eq (hname : name ≠ n) (typeName v : Value) (s : Schema) (argument : Value) :
    context'.applyPlain typeName v name s argument =
      context.applyPlain typeName v name s argument := by
  unfold applyPlain
  simp only [h.invoke_eq s _ hname]

end

/-- That a declaration is built alike, if it does not declare the name. -/
def BuildsAlike (n : String) (context context' : Context) (declaration : Value) : Prop :=
  ¬ Declares n declaration → context'.schemaOf declaration = context.schemaOf declaration

theorem branchOf_eq {branches : Entries Value} {key : String}
    (hbuilt : ∀ e ∈ branches, BuildsAlike n context context' e.2)
    (hn : ∀ e ∈ branches, (Value.text key).same e.1 = true → ¬ Declares n e.2) :
    context'.branchOf key branches = context.branchOf key branches := by
  rw [Context.branchOf_eq, Context.branchOf_eq]
  cases hnamed : Entries.named? branches key with
  | none => rfl
  | some declaration =>
    obtain ⟨e, he, hsame, rfl⟩ := Entries.exists_mem_of_get? hnamed
    exact hbuilt e he (hn e he hsame)

section

variable (h : AgreeBut n context context')

include h

theorem fieldsOf_eq : ∀ {fields : Entries Value},
    (∀ e ∈ fields, BuildsAlike n context context' e.2) → (∀ e ∈ fields, ¬ Declares n e.2) →
    context'.fieldsOf fields = context.fieldsOf fields
  | [], _, _ => rfl
  | (name, declaration) :: fields, hbuilt, hn => by
    obtain ⟨hfirst, hothers⟩ := List.forall_mem_cons.1 hbuilt
    obtain ⟨hnfirst, hnothers⟩ := List.forall_mem_cons.1 hn
    rw [fieldsOf, fieldsOf, h.schema?_eq, hfirst hnfirst, fieldsOf_eq hothers hnothers]

/-- A constraint by another name is applied alike, where the declarations in its argument are built
alike. -/
theorem applyConstraint_eq {v argument : Value} (htype : typeKey.same v = false)
    (hbuilt : argument.HoldsOnly (BuildsAlike n context context'))
    (hn : ¬ Declares n (.map [(v, argument)])) (typeName : Value) (s : Schema) :
    context'.applyConstraint kind typeName s v argument =
      context.applyConstraint kind typeName s v argument := by
  have hv : ¬ v.Spells n := fun hv => hn (.constraint (.head _) htype hv)
  have hne : ∀ {method}, context.registry.resolve? kind v = some method → v.Spells method ∧
      method ≠ n ∧ context'.registry.resolve? kind v = some method := fun hmethod =>
    ⟨Registry.spells_of_resolve? hmethod, fun heq => hv (heq ▸ Registry.spells_of_resolve? hmethod),
      (h.resolve?_eq hv).trans hmethod⟩
  cases context.constraintCase kind v argument with
  | refused hrefused =>
    obtain ⟨fault, -, hfault⟩ := hrefused typeName
    rw [hfault context rfl rfl, hfault context' (h.resolve?_eq hv) (h.nameFault_eq v typeName)]
  | @condition sibling branches rest hwhen hkeys =>
    obtain ⟨hspells, hname, hwhen'⟩ := hne hwhen
    have hbranch : ∀ key ∈ ["then", "otherwise"],
        context'.branchOf key branches = context.branchOf key branches := fun key hkey =>
      branchOf_eq (hbuilt.branches sibling branches rest rfl) fun e he hsame h' =>
        hn (.branch (.head _) hspells he hkey hsame h')
    rw [applyConstraint_when hwhen' hkeys, applyConstraint_when hwhen hkeys,
      hbranch _ (by simp), hbranch _ (by simp)]
    simp only [h.addCondition_eq hname]
  | @fields arguments hshape =>
    obtain ⟨hspells, hname, hshape'⟩ := hne hshape
    have hfields := h.fieldsOf_eq (hbuilt.fields arguments rfl) fun e he h' =>
      hn (.field (.head _) hspells he h')
    rw [applyConstraint_shape hshape', applyConstraint_shape hshape, hfields]
    simp only [h.shapeFields_eq (h.capability?_eq _ hname)]
  | plain hmethod hwhen hshape =>
    obtain ⟨-, hname, hmethod'⟩ := hne hmethod
    rw [applyConstraint_eq_applyPlain hmethod' hwhen hshape,
      applyConstraint_eq_applyPlain hmethod hwhen hshape, h.applyPlain_eq hname]

theorem applyEntries_eq : ∀ {entries : Entries Value} {s : Schema},
    (∀ e ∈ entries, e.2.HoldsOnly (BuildsAlike n context context')) →
    ¬ Declares n (.map entries) →
    context'.applyEntries kind s entries = context.applyEntries kind s entries
  | [], _, _, _ => rfl
  | (name, argument) :: entries, s, hbuilt, hn => by
    obtain ⟨hfirst, hothers⟩ := List.forall_mem_cons.1 hbuilt
    have hnothers : ¬ Declares n (.map entries) := fun h' => hn (h'.mono (List.subset_cons_self ..))
    have hnfirst : ¬ Declares n (.map [(name, argument)]) := fun h' => hn (h'.mono (by simp))
    rw [applyEntries, applyEntries]
    split_ifs with htype
    · exact applyEntries_eq hothers hnothers
    · rw [h.applyConstraint_eq (by simpa using htype) hfirst hnfirst]
      congr 1
      funext t
      exact applyEntries_eq hothers hnothers

theorem buildsAlike (declaration : Value) : BuildsAlike n context context' declaration := by
  induction declaration using Value.induct_declaration with
  | bare v hbare =>
    intro _
    rcases schemaOf_of_isMap_eq_false hbare with ⟨kind, hkind⟩ | ⟨fault, hfault⟩
    · rw [hkind, hkind]
    · rw [hfault, hfault]
  | map entries ih =>
    intro hn
    rw [schemaOf, schemaOf]
    split
    · exact h.applyEntries_eq ih hn
    · rfl

/-- Declarations that do not declare the name are built alike. -/
theorem schemaOf_eq (declaration : Value) (hn : ¬ Declares n declaration) :
    context'.schemaOf declaration = context.schemaOf declaration :=
  h.buildsAlike declaration hn

end

theorem notedFields_eq (h : AgreeBut n context context') : ∀ entries : Entries Value,
    (∀ e ∈ entries, ¬ Declares n e.2) → context'.notedFields entries = context.notedFields entries
  | [], _ => rfl
  | (name, declaration) :: entries, hn => by
    obtain ⟨hfirst, hrest⟩ := List.forall_mem_cons.1 hn
    rw [notedFields, notedFields, h.schemaOf_eq declaration hfirst, notedFields_eq h entries hrest]

theorem recordOf_eq (h : AgreeBut n context context') (declarations : Value)
    (hn : ∀ entries, declarations = .map entries → ∀ e ∈ entries, ¬ Declares n e.2) :
    context'.recordOf declarations = context.recordOf declarations := by
  unfold recordOf
  split
  · rename_i entries
    rw [h.notedFields_eq entries (hn entries rfl)]
    simp only [h.shapeFields_eq (s := .ofKind .object) h.shape]
  · rfl

/-! ### Operations -/

/-- Where the name is that of no operation, the same stands in the place of operations. -/
theorem replacements_eq (h : AgreeBut n context context') (hn : ∀ op : Operation, op.name ≠ n) :
    context'.replacements = context.replacements := by
  have hinvoke : ∀ op : Operation, (fun s arguments => context'.invoke s op.name arguments) =
      fun s arguments => context.invoke s op.name arguments := fun op => by
    funext s arguments
    exact h.invoke_eq s arguments (hn op)
  simp only [replacements, hinvoke, h.recipe _ _ (hn _)]

end AgreeBut

end Context

/-! ## What a registration changes -/

namespace Registry

variable {registry : Registry} {kind? c : Option Kind} {n name : String} {names : List String}
  {v : Value} {recipe : Recipe}

/-- That two listings fail alike, or have the same names but for one. -/
inductive SameBut (n : String) :
    Except Misuse (List String) → Except Misuse (List String) → Prop
  | ok {names names' : List String} (h : ∀ m, m ≠ n → (m ∈ names ↔ m ∈ names')) :
      SameBut n (.ok names) (.ok names')
  | error (m : Misuse) : SameBut n (.error m) (.error m)

theorem SameBut.refl (x : Except Misuse (List String)) : SameBut n x x := by
  cases x with
  | ok names => exact .ok fun _ _ => .rfl
  | error m => exact .error m

theorem SameBut.eq_error_iff {x y : Except Misuse (List String)} (h : SameBut n x y) (m : Misuse) :
    x = .error m ↔ y = .error m := by
  cases h with
  | ok _ => simp
  | error _ => rfl

theorem SameBut.mem_names_iff {registry' : Registry} {m : String}
    (h : SameBut n (registry'.methods c) (registry.methods c)) (hm : m ≠ n) :
    m ∈ registry'.names c ↔ m ∈ registry.names c := by
  unfold names
  generalize registry'.methods c = x at h ⊢
  generalize registry.methods c = y at h ⊢
  cases h with
  | ok h => exact h m hm
  | error _ => rfl

theorem SameBut.flatten {α : Type} {f g : α → Except Misuse (List String)} :
    ∀ {l : List α}, (∀ a ∈ l, SameBut n (f a) (g a)) →
      SameBut n (List.flatten <$> l.mapM f) (List.flatten <$> l.mapM g)
  | [], _ => .refl _
  | a :: l, h => by
    obtain ⟨hfirst, hrest⟩ := List.forall_mem_cons.1 h
    have hrest := SameBut.flatten hrest
    rw [List.mapM_cons, List.mapM_cons]
    generalize f a = x at hfirst ⊢
    generalize g a = y at hfirst ⊢
    cases hfirst with
    | error m => exact .error m
    | ok hfirst =>
      cases hf : l.mapM f <;> cases hg : l.mapM g <;> rw [hf, hg] at hrest <;> cases hrest
      · exact .error _
      · rename_i hrest
        refine .ok fun m hm => ?_
        simp only [List.flatten_cons, List.mem_append, hfirst m hm, hrest m hm]

/-- That a registry is what calls lead to, accepted or not. -/
inductive Reached : Registry → Prop
  | nothing : Reached []
  | register {registry : Registry} (h : registry.Reached) (kind? : Option Kind) (name : Value)
      (recipe : Recipe) : Reached (registry.register kind? name recipe).1

/-- A class that has a list keeps its built-in names on it. -/
theorem Reached.mem_listing (h : registry.Reached) (hc : (registry.entry c).listing = .ok names)
    (hn : n ∈ ClassEntry.builtInNames c) : n ∈ names := by
  induction h generalizing c names with
  | nothing =>
    obtain rfl := Except.ok.inj hc
    exact hn
  | @register registry _ kind? v recipe ih =>
    cases hname : methodName v with
    | error m =>
      simp only [Registry.register, hname] at hc
      exact ih hc hn
    | ok name =>
      rw [entry_register hname] at hc
      split_ifs at hc with heq
      · subst heq
        simp only [ClassEntry.listing_eq_ok_iff, ClassEntry.register_eq] at hc
        split_ifs at hc
        obtain ⟨old, hold, rfl⟩ := Option.map_eq_some_iff.1 hc
        exact ClassEntry.mem_insertName.2 (.inl (ih (ClassEntry.listing_eq_ok_iff.2 hold) hn))
      · exact ih hc hn

/-- That a name is new: it is none of the names that a class answers with, none of the other
attributes of schemas, and no recipe calls it. -/
structure IsNew (registry : Registry) (kind? : Option Kind) (n : String) : Prop where
  unlisted : ∃ names, registry.methods kind? = .ok names ∧ n ∉ names
  not_attribute : n ∉ attributeNames
  not_called : ∀ c m recipe, registry.recipe? c m = some recipe →
    ∀ step ∈ recipe.steps, step.method ≠ n

theorem mem_lineage (c : Option Kind) : c ∈ lineage c := by
  cases c <;> simp [lineage]

/-- A class that answers has lists along its lineage, the names of which it answers with. -/
theorem exists_listing_of_methods (h : registry.methods kind? = .ok names)
    (hc : c ∈ lineage kind?) :
    ∃ listed, (registry.entry c).listing = .ok listed ∧ ∀ m ∈ listed, m ∈ names := by
  unfold methods at h
  split_ifs at h
  obtain ⟨lists, hlists, rfl⟩ := Except.exists_of_map_eq_ok h
  obtain ⟨listed, hmem, hlisted⟩ := Except.exists_of_mapM_eq_ok hlists c hc
  exact ⟨listed, hlisted, fun m hm => List.mem_flatten.2 ⟨listed, hmem, hm⟩⟩

namespace IsNew

variable (h : registry.IsNew kind? n) (hname : methodName v = .ok n)

include h hname

/-- A registration under a new name leaves the other names that classes answer with. -/
theorem sameBut_methods (recipe : Recipe) (c : Option Kind) :
    SameBut n ((registry.register kind? v recipe).1.methods c) (registry.methods c) := by
  obtain ⟨names, hnames, -⟩ := h.unlisted
  obtain ⟨listed, hlisted, -⟩ := exists_listing_of_methods hnames (mem_lineage _)
  have hlist : n ≠ ClassEntry.listName := fun heq => h.not_attribute (heq ▸ by decide)
  have hmethods : methodsName ≠ n := fun heq => h.not_attribute (heq ▸ by decide)
  have hrecipe : ∀ d, (registry.register kind? v recipe).1.recipe? d methodsName =
      registry.recipe? d methodsName := fun d => by
    rw [recipe?_register hname, if_neg fun hd => hmethods hd.2]
  unfold methods
  simp only [hrecipe]
  split
  · exact .refl _
  · refine SameBut.flatten fun d _ => ?_
    rw [entry_register hname]
    split
    · rename_i heq
      subst heq
      rw [ClassEntry.listing_eq_ok_iff] at hlisted
      have hnew : ((registry.entry d).register n recipe).1.listing =
          .ok (ClassEntry.insertName listed n) := by
        simp [ClassEntry.listing_eq_ok_iff, ClassEntry.register_eq, hlist, hlisted]
      rw [hnew, ClassEntry.listing_eq_ok_iff.2 hlisted]
      refine .ok fun m hm => ?_
      simp [ClassEntry.mem_insertName, hm]
    · exact .refl _

end IsNew

/-- A registration in the place of the list of names is refused, and leaves the class and those that
extend it without names. -/
theorem resolve?_of_register_listName (registry : Registry) (kind? : Option Kind)
    (recipe : Recipe) :
    (registry.register kind? (.text ClassEntry.listName) recipe).2 =
        .error (.notSequence "function") ∧
      ∀ kind, kind? ∈ lineage (some kind) → ∀ v,
        (registry.register kind? (.text ClassEntry.listName) recipe).1.resolve? kind v = none := by
  have hname : methodName (.text ClassEntry.listName) = .ok ClassEntry.listName :=
    methodName_text (by decide) (by decide +kernel)
  refine ⟨by rw [register_snd hname, ClassEntry.register_eq]; rfl, fun kind hkind v => ?_⟩
  have hnames : (registry.register kind? (.text ClassEntry.listName) recipe).1.names (some kind) =
      [] := by
    rw [Registry.names]
    cases hmethods : (registry.register kind? (.text ClassEntry.listName) recipe).1.methods
      (some kind) with
    | error m => rfl
    | ok names =>
      obtain ⟨listed, hlisted, -⟩ := exists_listing_of_methods hmethods hkind
      rw [entry_register hname, if_pos rfl, ClassEntry.listing_eq_ok_iff, ClassEntry.register_eq]
        at hlisted
      cases hlisted
  cases v <;> simp only [resolve?, resolveOn?]
  simp [hnames]

end Registry

namespace Context

variable {context : Context} {kind? : Option Kind} {n : String} {v : Value} {recipe : Recipe}

/-- Records have the method that declares their fields on their own class. -/
theorem capability?_shape (registry : Registry) : registry.capability? (some .object) "shape" =
    registry.found? (some .object) "shape" := by
  have hown : Registry.builtIn? (Method.own .object) "shape" = some .shape := rfl
  simp only [Registry.capability?, Registry.found?, hown]
  cases registry.recipe? (some .object) "shape" <;> rfl

/-- A registration under a new name changes nothing under other names. -/
theorem agreeBut_register (hreached : context.registry.Reached)
    (hnew : context.registry.IsNew kind? n) (hname : Registry.methodName v = .ok n)
    (recipe : Recipe) : AgreeBut n context (context.register kind? v recipe).1 := by
  have hmethods := hnew.sameBut_methods hname recipe
  refine ⟨rfl, fun c m hm => (hmethods c).mem_names_iff hm, fun c => (hmethods c).eq_error_iff,
    fun c m hm => ?_, ?_, hnew.not_called⟩
  · simp only [register, Registry.recipe?_register hname, hm, and_false, if_false]
  · -- nothing new can be registered for records under the name of that method
    have hshape : ¬ (some Kind.object = kind? ∧ "shape" = n) := by
      rintro ⟨rfl, rfl⟩
      obtain ⟨names, hnames, hunlisted⟩ := hnew.unlisted
      obtain ⟨listed, hlisted, hmem⟩ :=
        Registry.exists_listing_of_methods hnames (Registry.mem_lineage _)
      exact hunlisted (hmem _ (hreached.mem_listing hlisted (by decide)))
    simp only [capability?_shape, Registry.found?, register, Registry.recipe?_register hname,
      if_neg hshape]

/-- A registration leaves alone what does not come to its name: if the name is refused, everything,
and if it is new, the building of every declaration without it and whatever is done with a schema.
-/
theorem undisturbed_of_register (hreached : context.registry.Reached)
    (hnew : ∀ n, Registry.methodName v = .ok n → context.registry.IsNew kind? n) :
    (∀ declaration, (∀ n, v = .text n → ¬ Declares n declaration) →
      (context.register kind? v recipe).1.schemaOf declaration = context.schemaOf declaration) ∧
    (∀ declarations, (∀ n, v = .text n → ∀ entries, declarations = .map entries →
        ∀ e ∈ entries, ¬ Declares n e.2) →
      (context.register kind? v recipe).1.recordOf declarations = context.recordOf declarations) ∧
    ∀ s, (∀ w, (context.register kind? v recipe).1.cast s w = context.cast s w) ∧
      (∀ w all?, (context.register kind? v recipe).1.validate s w all? =
        context.validate s w all?) ∧
      (context.register kind? v recipe).1.describe s = context.describe s ∧
      (context.register kind? v recipe).1.document s = context.document s := by
  cases hname : Registry.methodName v with
  | error m =>
    have hsame : (context.register kind? v recipe).1 = context := by
      simp only [register, Registry.register, hname]
    rw [hsame]
    exact ⟨fun _ _ => rfl, fun _ _ => rfl, fun _ => ⟨fun _ => rfl, fun _ _ => rfl, rfl, rfl⟩⟩
  | ok n =>
    obtain rfl := Registry.eq_of_methodName hname
    have hagree := agreeBut_register hreached (hnew n hname) hname recipe
    have hops : ∀ op : Operation, op.name ≠ n := fun op heq =>
      (hnew n hname).not_attribute (List.mem_append_left _ (heq ▸ List.mem_map_of_mem (by
        cases op <;> decide)))
    have hreplacements := hagree.replacements_eq hops
    refine ⟨fun declaration hn => hagree.schemaOf_eq declaration (hn n rfl),
      fun declarations hn => hagree.recordOf_eq declarations (hn n rfl), fun s => ?_⟩
    simp only [cast, validate, describe, document, hreplacements, implies_true, and_self]

/-- A method for texts that stands for a length. -/
def passcode : Recipe := ⟨[⟨"length", [.int 4]⟩], false⟩

def shortText : Value := .map [(.text "type", .text "string"), (.text "max", .int 2)]

theorem not_declares_shortText : ¬ Declares "passcode" shortText := by
  have hspells : ∀ s, "passcode" ∉ spellings s → ¬ (Value.text s).Spells "passcode" := by
    rintro s hs ⟨_, ⟨⟩, hn⟩
    exact hs hn
  have hentries : ∀ e ∈ [(Value.text "type", Value.text "string"), (.text "max", .int 2)],
      ¬ e.1.Spells "passcode" ∧ e.2.isMap = false :=
    List.forall_mem_cons.2 ⟨⟨hspells _ (by decide), rfl⟩,
      List.forall_mem_singleton.2 ⟨hspells _ (by decide), rfl⟩⟩
  intro h
  cases h with
  | constraint he _ hn => exact (hentries _ he).1 hn
  | branch he => exact absurd (hentries _ he).2 (by simp [Value.isMap])
  | field he => exact absurd (hentries _ he).2 (by simp [Value.isMap])

theorem isNew_passcode : Registry.IsNew [] (some .string) "passcode" where
  unlisted := ⟨_, rfl, by decide⟩
  not_attribute := by decide
  not_called c m recipe h := by simp [Registry.recipe?, Registry.entry, ClassEntry.ofKind?] at h

theorem undisturbed_of_register_passcode :
    (empty.register (some .string) (.text "passcode") passcode).1.schemaOf shortText =
      empty.schemaOf shortText ∧
    (empty.register (some .string) (.text "passcode") passcode).1.validate (.ofKind .string)
      (.int 3) none = empty.validate (.ofKind .string) (.int 3) none := by
  obtain ⟨hbuilt, -, hdone⟩ := @undisturbed_of_register empty (some .string) (.text "passcode")
    passcode .nothing fun n hn => by
      obtain rfl := Value.text.inj (Registry.eq_of_methodName hn)
      exact isNew_passcode
  refine ⟨hbuilt _ ?_, (hdone _).2.1 _ _⟩
  rintro _ ⟨⟩
  exact not_declares_shortText

/-- The name of an operation is no capability, and accepted: the operation is another from then
on. -/
theorem describe_of_register_describe :
    (∃ names, empty.registry.methods (some .string) = .ok names ∧ "describe" ∉ names) ∧
    (empty.register (some .string) (.text "describe") ⟨[], false⟩).2 = .ok () ∧
    (empty.register (some .string) (.text "describe") ⟨[], false⟩).1.describe (.ofKind .string) ≠
      empty.describe (.ofKind .string) := by
  have hname : Registry.methodName (.text "describe") = .ok "describe" :=
    Registry.methodName_text (by decide) (by decide +kernel)
  have hafter : (empty.register (some .string) (.text "describe") ⟨[], false⟩).1.describe
      (.ofKind .string) = .ok (.schema 0 "StringSchema(type='string')") := by
    simp only [register, Registry.register, hname]
    rfl
  have hbefore : empty.describe (.ofKind .string) = .ok (.map [(.text "type", .text "string"),
      (.text "label", .null), (.text "tests", .list [])]) := rfl
  refine ⟨⟨_, rfl, by decide⟩, (Registry.register_snd hname _ _ _).trans rfl, ?_⟩
  rw [hafter, hbefore]
  intro h
  cases h

end Context

end FieldSchema
