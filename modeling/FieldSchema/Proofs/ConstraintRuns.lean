import FieldSchema.Proofs.ConstraintOrder

/-!
# Runs of constraints

No method leads from a schema to one of another kind, be it built in or a recipe of calls
(`Context.kind_of_call`), and so no run of constraints does (`Context.kind_of_applyConstraints`). A
name therefore means the same on the schema that a run starts from as on those that it comes to, and
a run can be broken off and taken up again anywhere: it comes to the same, and a fault that ends it
depends on nothing behind it (`Context.applyConstraints_in_parts`).
-/

namespace FieldSchema

namespace Build

variable {α β γ : Type} {x : Build α}

theorem andThen_assoc (x : Build α) (f : α → Build β) (g : β → Build γ) :
    (x.andThen f).andThen g = x.andThen fun a => (f a).andThen g := by
  obtain ⟨notes, fault | a⟩ := x
  · rfl
  · rcases hfa : f a with ⟨more, fault | b⟩ <;> simp [andThen, hfa]

theorem andThen_pure (x : Build α) : x.andThen pure = x := by
  obtain ⟨notes, fault | a⟩ := x
  · rfl
  · exact congrArg (Build.mk · _) (List.append_nil notes)

instance : LawfulMonad Build := LawfulMonad.mk' Build andThen_pure (fun _ _ => rfl) andThen_assoc

theorem bind_congr {f g : α → Build β} (h : ∀ a, x.result = .ok a → f a = g a) :
    x >>= f = x >>= g := by
  obtain ⟨notes, fault | a⟩ := x
  · rfl
  · exact congrArg (fun y : Build β => Build.mk (notes ++ y.notes) y.result) (h a rfl)

/-- What follows a fault is not begun. -/
theorem bind_of_error {fault : Fault} (h : x.result = .error fault) (f : α → Build β) :
    x >>= f = ⟨x.notes, .error fault⟩ := by
  obtain ⟨notes, result⟩ := x
  obtain rfl : result = .error fault := h
  rfl

end Build

namespace Context

variable {context : Context} {s t : Schema} {kind : Kind} {typeName name argument : Value}

/-! ## Kinds along a run -/

theorem kind_of_apply {m : Method} {arguments : List Value}
    (h : context.apply m s arguments = .ok t) : t.kind = s.kind := by
  rw [apply_eq rfl] at h
  rcases hchange : context.changeOf m s.kind arguments with fault | c <;> rw [hchange] at h <;>
    cases h
  rfl

/-- A call leads to a schema of the same kind, whatever is registered. -/
theorem kind_of_call : ∀ {fuel : Nat} {s t : Schema} {name : String} {arguments : Arguments},
    context.call fuel s name arguments = .ok t → t.kind = s.kind
  | 0, _, _, _, _, h => by cases h
  | fuel + 1, s, t, name, arguments, h => by
    unfold call at h
    split at h
    · cases h
    · obtain ⟨values, -, h⟩ := Except.exists_of_bind_eq_ok h
      exact kind_of_apply h
    · split at h
      · cases h
      · split at h
        · cases h
          rfl
        · obtain ⟨first, hfirst, h⟩ := Except.exists_of_bind_eq_ok h
          exact Except.foldlM_keeps (P := fun b => b.kind = s.kind)
            (fun b step c hb hc => (kind_of_call hc).trans hb) (kind_of_call hfirst) h

theorem kind_of_addCondition {c : Condition} (h : context.addCondition s c = .ok t) :
    t.kind = s.kind := by
  unfold addCondition at h
  split at h
  · exact kind_of_call h
  · cases h
    rfl

theorem kind_of_shapeFields {fields : List (Value × Schema)}
    (h : context.shapeFields s fields argument = .ok t) : t.kind = s.kind := by
  unfold shapeFields at h
  split at h
  · exact kind_of_call h
  · cases h
    rfl

theorem kind_of_applyPlain {method : String}
    (h : (context.applyPlain typeName name method s argument).result = .ok t) :
    t.kind = s.kind := by
  unfold applyPlain at h
  split at h
  · cases h
    rfl
  · exact kind_of_call h
  · exact kind_of_call h

/-- A constraint leads to a schema of the same kind. The schemas of branches and fields in its
argument can be of any. -/
theorem kind_of_applyConstraint
    (h : (context.applyConstraint kind typeName s name argument).result = .ok t) :
    t.kind = s.kind := by
  rcases context.constraintCase kind name argument with
    hrefused | ⟨hwhen, hkeys⟩ | hshape | ⟨hresolve, hwhen, hshape⟩
  · obtain ⟨fault, -, hfault⟩ := hrefused typeName
    rw [hfault context rfl rfl] at h
    cases h
  · rw [applyConstraint_when hwhen hkeys] at h
    obtain ⟨_, -, h⟩ := Build.exists_of_bind_eq_ok h
    obtain ⟨_, -, h⟩ := Build.exists_of_bind_eq_ok h
    obtain ⟨_, -, h⟩ := Build.exists_of_bind_eq_ok h
    exact kind_of_addCondition h
  · rw [applyConstraint_shape hshape] at h
    obtain ⟨_, -, h⟩ := Build.exists_of_bind_eq_ok h
    exact kind_of_shapeFields h
  · rw [applyConstraint_eq_applyPlain hresolve hwhen hshape] at h
    exact kind_of_applyPlain h

theorem kind_of_applyConstraints : ∀ {constraints : List (Value × Value)} {s t : Schema},
    (context.applyConstraints kind typeName s constraints).result = .ok t → t.kind = s.kind
  | [], _, _, h => by
    cases h
    rfl
  | (name, argument) :: constraints, s, t, h => by
    rw [applyConstraints] at h
    obtain ⟨u, hu, h⟩ := Build.exists_of_bind_eq_ok h
    exact (kind_of_applyConstraints h).trans (kind_of_applyConstraint hu)

/-! ## Runs in parts -/

theorem applyConstraints_append (kind : Kind) (typeName : Value) (second : List (Value × Value)) :
    ∀ (first : List (Value × Value)) (s : Schema),
      context.applyConstraints kind typeName s (first ++ second) =
        context.applyConstraints kind typeName s first >>= fun t =>
          context.applyConstraints kind typeName t second
  | [], _ => rfl
  | (name, argument) :: first, s => by
    rw [List.cons_append, applyConstraints, applyConstraints, bind_assoc]
    exact bind_congr fun t => applyConstraints_append kind typeName second first t

/-- A declaration is built by a run of the constraints in it. -/
theorem applyEntries_eq (kind : Kind) : ∀ (entries : List (Value × Value)) (s : Schema),
    context.applyEntries kind s entries =
      context.applyConstraints kind (.text kind.name) s (Declaration.constraints entries)
  | [], _ => rfl
  | (name, argument) :: entries, s => by
    rw [applyEntries, Declaration.constraints]
    by_cases htype : typeKey.same name = true
    · rw [if_pos htype, List.filter_cons_of_neg (by simp [htype])]
      exact applyEntries_eq kind entries s
    · rw [if_neg htype, List.filter_cons_of_pos (by simp [htype]), applyConstraints]
      exact bind_congr fun t => applyEntries_eq kind entries t

theorem applyEntries_append (kind : Kind) (before after : List (Value × Value)) (s : Schema) :
    context.applyEntries kind s (before ++ after) =
      context.applyEntries kind s before >>= fun t => context.applyEntries kind t after := by
  rw [applyEntries_eq, applyEntries_eq, Declaration.constraints, List.filter_append,
    applyConstraints_append]
  exact bind_congr fun t => (applyEntries_eq kind after t).symm

theorem kind_of_applyEntries {entries : List (Value × Value)}
    (h : (context.applyEntries kind s entries).result = .ok t) : t.kind = s.kind := by
  rw [applyEntries_eq] at h
  exact kind_of_applyConstraints h

/-- Applies constraints to a schema, in order. Each name is looked up on the kind of the schema that
the constraints before it led to. -/
def applyInTurn (context : Context) (typeName : Value) (s : Schema) :
    List (Value × Value) → Build Schema
  | [] => pure s
  | (name, argument) :: constraints => do
    let s ← context.applyConstraint s.kind typeName s name argument
    applyInTurn context typeName s constraints

theorem applyConstraints_eq_applyInTurn (typeName : Value) :
    ∀ (constraints : List (Value × Value)) (s : Schema),
      context.applyConstraints s.kind typeName s constraints =
        context.applyInTurn typeName s constraints
  | [], _ => rfl
  | (name, argument) :: constraints, s => by
    rw [applyConstraints, applyInTurn]
    refine Build.bind_congr fun t ht => ?_
    rw [← kind_of_applyConstraint ht]
    exact applyConstraints_eq_applyInTurn typeName constraints t

/-- Constraints can be applied in two parts, the second to what the first leads to. A fault in the
first part is that of the whole, with the same notes, whatever stands in the second. And names can
be looked up on the schema that is reached when it is their turn. -/
theorem applyConstraints_in_parts (context : Context) (typeName : Value) (s : Schema)
    (first second : List (Value × Value)) :
    context.applyConstraints s.kind typeName s (first ++ second) = (do
      let t ← context.applyConstraints s.kind typeName s first
      context.applyConstraints t.kind typeName t second) ∧
    (∀ fault, (context.applyConstraints s.kind typeName s first).result = .error fault →
      context.applyConstraints s.kind typeName s (first ++ second) =
        ⟨(context.applyConstraints s.kind typeName s first).notes, .error fault⟩) ∧
    context.applyConstraints s.kind typeName s first = context.applyInTurn typeName s first := by
  refine ⟨?_, fun fault hfault => ?_, applyConstraints_eq_applyInTurn typeName first s⟩
  · rw [applyConstraints_append]
    exact Build.bind_congr fun t ht => by rw [kind_of_applyConstraints ht]
  · rw [applyConstraints_append]
    exact Build.bind_of_error hfault _

/-- Constraints of a record of which the second is none of records. -/
def misplacedBound : List (Value × Value) :=
  [(.text "required", .bool true), (.text "min", .int 3), (.text "label", .text "crate")]

def crateFields : List (Value × Value) :=
  [(.text "shape", .map [(.text "size", .map [(typeKey, .text "number"), (.text "min", .int 1)])])]

theorem applyConstraints_in_parts_crate :
    (empty.applyConstraints .object (.text "object") (.ofKind .object) misplacedBound).result =
        .error (.declaration (.unknownMethod (.text "min") (.text "object"))) ∧
      empty.applyConstraints .object (.text "object") (.ofKind .object)
          (misplacedBound ++ crateFields) =
        ⟨[], .error (.declaration (.unknownMethod (.text "min") (.text "object")))⟩ :=
  have hfault : (empty.applyConstraints .object (.text "object") (.ofKind .object)
      misplacedBound).result =
        .error (.declaration (.unknownMethod (.text "min") (.text "object"))) := rfl
  ⟨hfault, (applyConstraints_in_parts empty (.text "object") (.ofKind .object) misplacedBound
    crateFields).2.1 _ hfault⟩

end Context

end FieldSchema
