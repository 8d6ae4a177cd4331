import FieldSchema.Proofs.BuildFaults
import FieldSchema.Proofs.Undisturbed

/-!
# Constraints that are declared false

A constraint declared false is passed over, so where no method is registered a declaration can be
rid of all of them, in itself and in the declarations inside it, and what is built stays the same
(`Context.schemaOf_enabled`). Nothing that is looked up is taken away: the type, and the keys of
conditions and fields. Declarations stand inside the arguments of two methods only, whose names mean
no others (`Method.eq_of_spells`), so the argument of any other constraint is left as it is.

Buildings follow one another, and so does what they keep without the notes of what is passed over
(`Build.Quiets`).
-/

namespace FieldSchema

/-! ## Names of methods -/

namespace Method

/-- A method's name is spelled in no other way than it is written. -/
theorem spellings_name (m : Method) : spellings m.name = [m.name, m.name] := by
  cases m <;> rfl

/-- No value spells two methods. -/
theorem eq_of_spells {m m' : Method} {v : Value} (h : v.Spells m.name) (h' : v.Spells m'.name) :
    m = m' := by
  obtain ⟨s, rfl, hm⟩ := h
  obtain ⟨_, ⟨⟩, hm'⟩ := h'
  -- one that is written as it stands is the only one
  have hstands : ∀ {k k' : Method}, k.name = s → k'.name ∈ spellings s → k' = k := by
    rintro k k' rfl hk'
    rw [spellings_name] at hk'
    exact name_injective (by simpa using hk')
  have hcases : ∀ {k : Method}, k.name ∈ spellings s →
      k.name = s ∨ k.name = String.ofList (snakeCase s.toList) := fun hk => by
    simpa [spellings] using hk
  rcases hcases hm with heq | heq
  · exact (hstands heq hm').symm
  rcases hcases hm' with heq' | heq'
  · exact hstands heq' hm
  · exact name_injective (heq.trans heq'.symm)

end Method

/-- Where nothing is registered, a name that spells a method means no other. -/
theorem Registry.eq_of_resolve?_of_spells {kind : Kind} {v : Value} {method : String} {m : Method}
    (h : resolve? [] kind v = some method) (hm : v.Spells m.name) : method = m.name := by
  obtain ⟨m', rfl, -⟩ := Context.exists_capability_of_resolve? h
  rw [Method.eq_of_spells (spells_of_resolve? h) hm]

/-! ## Declarations without them -/

namespace Value

instance (v : Value) (n : String) : Decidable (v.Spells n) :=
  match v with
  | .text s => decidable_of_iff (n ∈ spellings s) (by simp [Spells])
  | .null | .bool _ | .number _ | .list _ | .tuple _ | .map _ | .date _ | .dateTime _
  | .pattern _ | .schema _ _ => .isFalse (by simp [Spells])

def isFalse : Value → Bool
  | .bool b => !b
  | _ => false

theorem eq_of_isFalse {v : Value} (h : v.isFalse = true) : v = .bool false := by
  cases v <;> simp_all [isFalse]

def branchKeys : List String := ["then", "otherwise"]

/-- Whether a key of a condition is that of a branch. -/
def isBranchKey (name : Value) : Bool := branchKeys.any fun key => (Value.text key).same name

mutual

/-- A declaration without the constraints that are declared false, in it and in the declarations of
fields and branches inside it. -/
def enabled : Value → Value
  | .map entries => .map (enabledEntries entries)
  | v => v
  termination_by structural v => v

/-- The entries of a mapping. The type is no constraint. -/
def enabledEntries : Entries Value → Entries Value
  | [] => []
  | (name, argument) :: entries =>
    if typeKey.same name then (name, argument) :: enabledEntries entries
    else if argument.isFalse then enabledEntries entries
    else (name, enabledArgument name argument) :: enabledEntries entries
  termination_by structural entries => entries

/-- The argument of a constraint, which holds declarations if it is a condition or the fields. -/
def enabledArgument (name : Value) : Value → Value
  | .map arguments =>
    if name.Spells "shape" then .map (enabledUnder (fun _ => true) arguments)
    else if name.Spells "when" then .map (enabledCondition arguments)
    else .map arguments
  | v => v
  termination_by structural v => v

/-- The entries of a condition, of which only the first counts. What is matched is no declaration.
-/
def enabledCondition : Entries Value → Entries Value
  | (sibling, .map branches) :: rest =>
    (sibling, .map (enabledUnder isBranchKey branches)) :: rest
  | arguments => arguments
  termination_by structural arguments => arguments

/-- The declarations under some of the keys. -/
def enabledUnder (isDeclared : Value → Bool) : Entries Value → Entries Value
  | [] => []
  | (key, v) :: entries =>
    (key, if isDeclared key then enabled v else v) :: enabledUnder isDeclared entries
  termination_by structural entries => entries

end

theorem get?_enabledEntries (entries : Entries Value) :
    Entries.get? (enabledEntries entries) typeKey = Entries.get? entries typeKey := by
  induction entries with
  | nil => rfl
  | cons e entries ih =>
    obtain ⟨name, argument⟩ := e
    rw [enabledEntries]
    split_ifs with htype hfalse
    · rw [Entries.get?_cons, Entries.get?_cons, ih]
    all_goals simp only [Entries.get?_cons, htype, ih, Bool.false_eq_true, if_false]

theorem keys_enabledUnder (isDeclared : Value → Bool) (entries : Entries Value) :
    (enabledUnder isDeclared entries).map (·.1) = entries.map (·.1) := by
  induction entries with
  | nil => rfl
  | cons e entries ih => rw [enabledUnder, List.map_cons, List.map_cons, ih]

theorem has_enabledUnder (isDeclared : Value → Bool) (entries : Entries Value) (key : Value) :
    Entries.has (enabledUnder isDeclared entries) key = Entries.has entries key := by
  rw [Entries.has_eq_any, Entries.has_eq_any, keys_enabledUnder]

/-- What is found under a key, if a declaration stands under every name that is the same, or under
none. -/
theorem get?_enabledUnder {isDeclared : Value → Bool} {key : Value} {b : Bool}
    (h : ∀ name, key.same name = true → isDeclared name = b) (entries : Entries Value) :
    Entries.get? (enabledUnder isDeclared entries) key =
      (Entries.get? entries key).map fun v => if b then v.enabled else v := by
  induction entries with
  | nil => rfl
  | cons e entries ih =>
    obtain ⟨name, v⟩ := e
    rw [enabledUnder, Entries.get?_cons, Entries.get?_cons, ih]
    by_cases hsame : key.same name = true
    · rw [if_pos hsame, if_pos hsame, h name hsame, Option.map_some]
    · rw [if_neg hsame, if_neg hsame]

theorem named?_is_enabledUnder (branches : Entries Value) :
    Entries.named? (enabledUnder isBranchKey branches) "is" = Entries.named? branches "is" := by
  have hother : ∀ name, (Value.text "is").same name = true → isBranchKey name = false := by
    intro name hname
    cases name <;> simp only [same, reduceCtorEq, beq_iff_eq] at hname
    subst hname
    rfl
  simpa [Entries.named?] using get?_enabledUnder hother branches

theorem named?_enabledUnder {key : String} (hkey : key ∈ branchKeys) (branches : Entries Value) :
    Entries.named? (enabledUnder isBranchKey branches) key =
      (Entries.named? branches key).map enabled :=
  get?_enabledUnder (b := true) (fun _ hname => List.any_eq_true.2 ⟨key, hkey, hname⟩) branches

theorem enabledArgument_when {name : Value} (hname : name.Spells "when") (sibling : Value)
    (branches rest : Entries Value) :
    enabledArgument name (.map ((sibling, .map branches) :: rest)) =
      .map ((sibling, .map (enabledUnder isBranchKey branches)) :: rest) := by
  have hshape : ¬ name.Spells "shape" := fun h =>
    absurd (@Method.eq_of_spells .when .shape name hname h) (by decide)
  rw [enabledArgument, if_neg hshape, if_pos hname, enabledCondition]

end Value

/-! ## Building without them -/

def Note.isPassedOver : Note → Bool
  | .passedOver _ _ => true
  | _ => false

namespace Build

variable {α β : Type} {x y : Build α}

/-- That a building comes to what another comes to, if that succeeds, and keeps all notes but those
of what is passed over. -/
def Quiets (x y : Build α) : Prop :=
  ∀ a, x.result = .ok a → y = ⟨x.notes.filter fun n => !n.isPassedOver, .ok a⟩

namespace Quiets

theorem refl (h : ∀ n ∈ x.notes, n.isPassedOver = false) : Quiets x x := fun a ha => by
  have hnotes : x.notes.filter (fun n => !n.isPassedOver) = x.notes :=
    List.filter_eq_self.2 fun n hn => by simp [h n hn]
  rw [hnotes, ← ha]

theorem ofResult (result : Except Fault α) : Quiets (.ofResult result) (.ofResult result) :=
  refl (List.forall_mem_nil _)

theorem fail (fault : Fault) : Quiets (.fail fault) y := nofun

theorem bind {f g : α → Build β} (hx : Quiets x y) (hf : ∀ a, Quiets (f a) (g a)) :
    Quiets (x >>= f) (y >>= g) := fun b hb => by
  obtain ⟨a, ha, hb⟩ := exists_of_bind_eq_ok hb
  have hnotes : (x >>= f).notes = x.notes ++ (f a).notes := by
    obtain ⟨notes, result⟩ := x
    obtain rfl : result = .ok a := ha
    rfl
  rw [hx a ha, hnotes, List.filter_append]
  exact congrArg (fun z : Build β => Build.mk (_ ++ z.notes) z.result) (hf a b hb)

end Quiets

end Build

namespace Context

open Build (Quiets)

variable {context : Context} {s : Schema} {kind : Kind} {typeName name argument : Value}

/-- A constraint that is declared false is passed over, if its name means a method. -/
theorem quiets_applyConstraint_false :
    Quiets (context.applyConstraint kind typeName s name (.bool false)) (pure s) := by
  cases context.constraintCase kind name (.bool false) with
  | refused hrefused =>
    obtain ⟨fault, -, hfault⟩ := hrefused typeName
    rw [hfault context rfl rfl]
    exact .fail fault
  | plain hmethod hwhen hshape =>
    rw [applyConstraint_eq_applyPlain hmethod hwhen hshape]
    rintro _ ⟨⟩
    rfl

theorem quiets_applyPlain (hfalse : argument.isFalse = false) (method : String) :
    Quiets (context.applyPlain typeName name method s argument)
      (context.applyPlain typeName name method s argument) := by
  unfold applyPlain
  split
  · cases hfalse
  · exact .ofResult _
  · exact .ofResult _

/-- Where nothing is registered, fields are declared whatever they were declared by. -/
theorem shapeFields_congr (hregistry : context.registry = []) (fields : List (Value × Schema))
    (declarations declarations' : Value) :
    context.shapeFields s fields declarations = context.shapeFields s fields declarations' := by
  unfold shapeFields
  split
  · rename_i hcustom
    simp [hregistry, Registry.capability?_nil] at hcustom
  · rfl

/-- That a declaration is built alike without the constraints in it that are declared false. -/
def QuietsEnabled (context : Context) (declaration : Value) : Prop :=
  Quiets (context.schemaOf declaration) (context.schemaOf declaration.enabled)

theorem quiets_branchOf {branches : Entries Value} (h : ∀ e ∈ branches, context.QuietsEnabled e.2)
    {key : String} (hkey : key ∈ Value.branchKeys) : Quiets (context.branchOf key branches)
      (context.branchOf key (Value.enabledUnder Value.isBranchKey branches)) := by
  rw [branchOf_eq, branchOf_eq, Value.named?_enabledUnder hkey]
  cases hnamed : Entries.named? branches key with
  | none => exact .fail _
  | some declaration =>
    obtain ⟨e, he, -, rfl⟩ := Entries.exists_mem_of_get? hnamed
    exact h e he

theorem quiets_fieldOf {declaration : Value} (h : context.QuietsEnabled declaration) :
    Quiets (context.fieldOf declaration) (context.fieldOf declaration.enabled) := by
  have hbuilt : context.schema? declaration.enabled = context.schema? declaration := by
    cases declaration <;> rfl
  unfold fieldOf
  rw [hbuilt]
  split
  · exact .refl (List.forall_mem_nil _)
  · exact h

theorem quiets_fieldsOf : ∀ {declarations : Entries Value},
    (∀ e ∈ declarations, context.QuietsEnabled e.2) → Quiets (context.fieldsOf declarations)
      (context.fieldsOf (Value.enabledUnder (fun _ => true) declarations))
  | [], _ => .refl (List.forall_mem_nil _)
  | (name, declaration) :: declarations, h => by
    obtain ⟨hfirst, hothers⟩ := List.forall_mem_cons.1 h
    rw [Value.enabledUnder, if_pos rfl, fieldsOf_cons, fieldsOf_cons]
    exact (quiets_fieldOf hfirst).bind fun field =>
      (quiets_fieldsOf hothers).bind fun fields => .refl (List.forall_mem_nil _)

/-- A constraint does the same without the constraints in its argument that are declared false,
where the declarations there are built alike without them. -/
theorem quiets_applyConstraint (hregistry : context.registry = [])
    (hdeclared : argument.HoldsOnly context.QuietsEnabled) (hfalse : argument.isFalse = false) :
    Quiets (context.applyConstraint kind typeName s name argument)
      (context.applyConstraint kind typeName s name (Value.enabledArgument name argument)) := by
  cases context.constraintCase kind name argument with
  | refused hrefused =>
    obtain ⟨fault, -, hfault⟩ := hrefused typeName
    rw [hfault context rfl rfl]
    exact .fail fault
  | @condition sibling branches rest hwhen hkeys =>
    have hkeys' : conditionKeys.find? (fun key =>
        !Entries.has (Value.enabledUnder Value.isBranchKey branches) (.text key)) = none := by
      simpa only [Value.has_enabledUnder] using hkeys
    rw [Value.enabledArgument_when (Registry.spells_of_resolve? hwhen),
      applyConstraint_when hwhen hkeys, applyConstraint_when hwhen hkeys',
      Value.named?_is_enabledUnder]
    have hbranch : ∀ key ∈ Value.branchKeys, Quiets (context.branchOf key branches)
        (context.branchOf key (Value.enabledUnder Value.isBranchKey branches)) := fun key hkey =>
      quiets_branchOf (hdeclared.branches sibling branches rest rfl) hkey
    exact .bind (.refl (List.forall_mem_singleton.2 rfl)) fun _ =>
      (hbranch "then" (by decide)).bind fun _ =>
        (hbranch "otherwise" (by decide)).bind fun _ => .ofResult _
  | @fields arguments hshape =>
    rw [Value.enabledArgument, if_pos (Registry.spells_of_resolve? hshape),
      applyConstraint_shape hshape, applyConstraint_shape hshape]
    refine (quiets_fieldsOf (hdeclared.fields arguments rfl)).bind fun fields => ?_
    rw [shapeFields_congr hregistry fields (.map arguments)]
    exact .ofResult _
  | @plain _ method hmethod hwhen hshape =>
    -- the name spells neither of the two methods that have declarations in their arguments
    have honly : ∀ {m : Method}, name.Spells m.name → method = m.name := fun hm =>
      Registry.eq_of_resolve?_of_spells (hregistry ▸ hmethod) hm
    have hsame : Value.enabledArgument name argument = argument := by
      cases argument with
      | map arguments =>
        have hshape' : ¬ name.Spells "shape" := fun hs => hshape rfl (honly (m := .shape) hs)
        have hwhen' : ¬ name.Spells "when" := fun hs => hwhen (honly (m := .when) hs)
        rw [Value.enabledArgument, if_neg hshape', if_neg hwhen']
      | _ => rfl
    rw [hsame, applyConstraint_eq_applyPlain hmethod hwhen hshape]
    exact quiets_applyPlain hfalse method

theorem quiets_applyEntries (hregistry : context.registry = []) :
    ∀ {entries : Entries Value} {s : Schema},
    (∀ e ∈ entries, e.2.HoldsOnly context.QuietsEnabled) →
    Quiets (context.applyEntries kind s entries)
      (context.applyEntries kind s (Value.enabledEntries entries))
  | [], _, _ => .refl (List.forall_mem_nil _)
  | (name, argument) :: entries, s, h => by
    obtain ⟨hfirst, hothers⟩ := List.forall_mem_cons.1 h
    rw [applyEntries, Value.enabledEntries]
    split_ifs with htype hfalse
    · rw [applyEntries, if_pos htype]
      exact quiets_applyEntries hregistry hothers
    · obtain rfl := Value.eq_of_isFalse hfalse
      exact quiets_applyConstraint_false.bind fun t => quiets_applyEntries hregistry hothers
    · rw [applyEntries, if_neg htype]
      exact (quiets_applyConstraint hregistry hfirst (by simpa using hfalse)).bind fun t =>
        quiets_applyEntries hregistry hothers

theorem quietsEnabled (hregistry : context.registry = []) (declaration : Value) :
    context.QuietsEnabled declaration := by
  induction declaration using Value.induct_declaration with
  | bare v hbare =>
    have hsame : v.enabled = v := by
      cases v <;> first | rfl | cases hbare
    rw [QuietsEnabled, hsame]
    rcases schemaOf_of_isMap_eq_false hbare with ⟨kind, hkind⟩ | ⟨fault, hfault⟩
    · rw [hkind]
      exact .refl (List.forall_mem_nil _)
    · rw [hfault]
      exact .fail _
  | map entries ih =>
    rw [QuietsEnabled, Value.enabled, schemaOf, schemaOf, Value.get?_enabledEntries]
    split
    · exact quiets_applyEntries hregistry ih
    · exact .fail _

/-- Where nothing is registered, a declaration that is built is built into the same schema without
the constraints in it that are declared false, and noted alike but for what was passed over. -/
theorem schemaOf_enabled (hregistry : context.registry = []) {declaration : Value}
    (h : (context.schemaOf declaration).result = .ok s) :
    (context.schemaOf declaration.enabled).result = .ok s ∧
      (context.schemaOf declaration.enabled).notes =
        (context.schemaOf declaration).notes.filter fun n => !n.isPassedOver := by
  rw [quietsEnabled hregistry declaration s h]
  exact ⟨rfl, rfl⟩

/-- Constraints that are declared false in a record, in a field, and in both branches of a condition
on a truth value. -/
def withDisabled : Value :=
  .map [(typeKey, .text "object"), (.text "required", .bool false), (.text "shape", .map [
    (.text "paid", .text "boolean"),
    (.text "amount", .map [(typeKey, .text "number"), (.text "positive", .bool false),
      (.text "max", .int 9), (.text "when", .map [(.text "paid", .map [(.text "is", .bool false),
        (.text "then", .map [(.text "notRequired", .bool false), (typeKey, .text "number")]),
        (.text "otherwise", .map [(typeKey, .text "number"), (.text "default", .bool false),
          (.text "min", .int 1)])])])])]), (.text "label", .bool false)]

def withoutDisabled : Value :=
  .map [(typeKey, .text "object"), (.text "shape", .map [
    (.text "paid", .text "boolean"),
    (.text "amount", .map [(typeKey, .text "number"),
      (.text "max", .int 9), (.text "when", .map [(.text "paid", .map [(.text "is", .bool false),
        (.text "then", .map [(typeKey, .text "number")]),
        (.text "otherwise", .map [(typeKey, .text "number"),
          (.text "min", .int 1)])])])])])]

theorem schemaOf_enabled_withDisabled : withDisabled.enabled = withoutDisabled ∧
    ∃ s : Schema, s.fields.length = 2 ∧ (empty.schemaOf withDisabled).result = .ok s ∧
      (empty.schemaOf withoutDisabled).result = .ok s :=
  have hwithout : withDisabled.enabled = withoutDisabled := rfl
  ⟨hwithout, _, rfl, rfl, hwithout ▸ (@schemaOf_enabled empty _ rfl withDisabled rfl).1⟩

end Context

end FieldSchema
