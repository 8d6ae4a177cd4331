import FieldSchema.Operation.Basic
import FieldSchema.Schema.Validation

/-!
# Operations with custom methods in their place

Each operation asks for what stands in its place before it does its own work. What a custom method
answers with is a schema, so a question that has one in its place is taken for affirmed, and where a
record or a list is needed the operation ends with a misuse.

A custom method in the place of selection can lead to any schema, on which casting goes on. `again`
is what casting comes to on it.
-/

namespace FieldSchema

namespace Replacements

variable (r : Replacements)

/-! ## Questions -/

def isRequired (s : Schema) : Bool := (r.ofKind s.kind .isRequired).isSome || s.isRequired

def hasDefault (s : Schema) : Bool := (r.ofKind s.kind .hasDefault).isSome || s.hasDefault

def isConditional (s : Schema) : Bool := (r.ofKind s.kind .conditions).isSome || s.isConditional

def getDefault (s : Schema) : Except Fault Value :=
  match r.ofKind s.kind .getDefault with
  | some f => Replacement.answer f s .none
  | none =>
    if s.kind = .object then
      if r.hasDefault s then
        match r.inherited .getDefault with
        | some f => Replacement.answer f s .none
        | none => .ok (s.default?.getD .null)
      else .ok (if s.fields.isEmpty then .null else .map [])
    else .ok (s.default?.getD .null)

def select (s : Schema) (parent : Value) : Except Fault Schema :=
  match r.ofKind s.kind .select with
  | some f => f s (.one parent)
  | none => (s.selectFor parent).mapError .misuse

def isType (s : Schema) (v : Value) : Except Fault Value :=
  match r.ofKind s.kind .isType with
  | some f => Replacement.answer f s (.one v)
  | none => .ok (.bool (s.isType v))

/-- What a record's own operation goes on to: what stands in the place of that of all kinds. -/
def inheritedBy (kind : Kind) (op : Operation) : Option Replacement :=
  if kind = .object then r.inherited op else none

/-! ## Descriptions -/

mutual

def describe : Schema → Except Fault Value
  | ⟨kind, tests, conditions, isRequired, isNullable, default?, label, fields⟩ =>
    let s : Schema := ⟨kind, tests, conditions, isRequired, isNullable, default?, label, fields⟩
    match r.ofKind kind .describe with
    | some f => Replacement.answer f s .none
    | none =>
      match r.inheritedBy kind .describe with
      | some f => do
        let description ← Replacement.answer f s .none
        let _ ← describeFields fields
        .error (.misuse (.notAssignable description))
      | none => do
        let described ← describeFields fields
        pure (.map ([(.text "type", .text kind.name), (.text "label", label),
            (.text "tests", .list (tests.map (·.described)))] ++
          if kind = .object then [(.text "fields", .map described)] else []))
  termination_by structural s => s

def describeFields : List (Value × Schema) → Except Fault (List (Value × Value))
  | [] => .ok []
  | (name, field) :: fields => do
    let description ← describe field
    let rest ← describeFields fields
    pure ((name, description) :: rest)
  termination_by structural fields => fields

end

/-! ## Compiled documents -/

def requiredNames (fields : List (Value × Schema)) : List Value :=
  (fields.filter (r.isRequired ·.2)).map (·.1)

open Schema in
mutual

def document : Schema → Except Fault Value
  | ⟨kind, tests, conditions, isRequired, isNullable, default?, label, fields⟩ =>
    let s : Schema := ⟨kind, tests, conditions, isRequired, isNullable, default?, label, fields⟩
    match r.ofKind kind .document with
    | some f => Replacement.answer f s .none
    | none =>
      match r.inheritedBy kind .document with
      | some f => do
        let inherited ← Replacement.answer f s .none
        if fields.isEmpty then pure inherited
        else do
          let _ ← fieldDocuments fields
          .error (.misuse (.notAssignable inherited))
      | none => do
        let properties ← fieldDocuments fields
        let conditionals ← fieldConditionals fields
        pure (.map (typeEntry kind isNullable ++ titleEntry label ++ defaultEntry default? ++
          recordEntries (tests.map (·.fragment)) properties (r.requiredNames fields) conditionals))
  termination_by structural s => s

def fieldDocuments : List (Value × Schema) → Except Fault (List (Value × Value))
  | [] => .ok []
  | (name, field) :: fields => do
    let document ← document field
    let rest ← fieldDocuments fields
    pure ((name, document) :: rest)
  termination_by structural fields => fields

def fieldConditionals : List (Value × Schema) → Except Fault (List Value)
  | [] => .ok []
  | (name, field) :: fields => do
    let first ← conditionals name field
    let rest ← fieldConditionals fields
    pure (first ++ rest)
  termination_by structural fields => fields

/-- The conditions of a field; a custom method cannot be gone through. -/
def conditionals (name : Value) : Schema → Except Fault (List Value)
  | ⟨kind, _, conditions, _, _, _, _, _⟩ =>
    match r.ofKind kind .conditions with
    | some _ => .error (.misuse (.notSequence "method"))
    | none => choices name conditions
  termination_by structural s => s

def choices (name : Value) : List Condition → Except Fault (List Value)
  | [] => .ok []
  | ⟨sibling, expected, chosen, other⟩ :: rest => do
    let chosenDocument ← document chosen
    let chosenNested ← conditionals name chosen
    let otherDocument ← document other
    let otherNested ← conditionals name other
    let rest ← choices name rest
    pure (choiceDocument (matchDocument sibling expected)
      (branchDocument name (r.isRequired chosen) chosenDocument chosenNested)
      (branchDocument name (r.isRequired other) otherDocument otherNested) :: rest)
  termination_by structural conditions => conditions

end

/-! ## Casting -/

/-- What a field has when its turn is over, cast by the schema that was selected for it. -/
def fill (name : Value) (s : Schema) (castTo : Value → Except Fault Value)
    (record : Entries Value) : Except Fault (Entries Value) :=
  match record.get? name with
  | some v => record.put name <$> castTo v
  | none => if r.hasDefault s then record.put name <$> r.getDefault s else .ok record

/-- Casts a value by a schema's own coercion, a record by its fields. -/
def castOwn (s : Schema) (v : Value)
    (castRecord : Entries Value → Except Fault (Entries Value)) : Except Fault Value :=
  match r.ofKind s.kind .cast with
  | some f => Replacement.answer f s (.one v)
  | none =>
    match v with
    | .null => r.getDefault s
    | .map record =>
      if s.kind = .object then .map <$> castRecord record
      else (s.kind.convert v).mapError .misuse
    | v => (s.kind.convert v).mapError .misuse

variable (again : Schema → Value → Except Fault Value)

mutual

def castIn (record : Entries Value) : Schema → Value → Except Fault Value
  | ⟨kind, tests, conditions, isRequired, isNullable, default?, label, fields⟩, v =>
    match castLast? record conditions v with
    | some w => w
    | none =>
      r.castOwn ⟨kind, tests, conditions, isRequired, isNullable, default?, label, fields⟩ v
        fun inner => do
          let cast ← castFields false fields inner
          castFields true fields cast
  termination_by structural s => s

def castLast? (record : Entries Value) : List Condition → Value → Option (Except Fault Value)
  | [], _ => none
  | ⟨sibling, expected, chosen, other⟩ :: rest, v =>
    match castLast? record rest v with
    | some w => some w
    | none =>
      some (if Condition.holds ⟨sibling, expected, chosen, other⟩ record then
        castIn record chosen v else castIn record other v)
  termination_by structural conditions => conditions

def castFields (conditional : Bool) :
    List (Value × Schema) → Entries Value → Except Fault (Entries Value)
  | [], record => .ok record
  | (name, field) :: rest, record => do
    let record ←
      if r.isConditional field = conditional then
        match r.ofKind field.kind .select with
        | some f => do
          let selected ← f field (.one (.map record))
          r.fill name selected (again selected) record
        | none => do
          let selected ← (field.selectFor (.map record)).mapError .misuse
          r.fill name selected (castIn record field) record
      else pure record
    castFields conditional rest record
  termination_by structural fields => fields

end

/-- Casts a value, `fuel` bounds how often custom methods lead from one schema to another. -/
def castAtDepth : (fuel : Nat) → Schema → Value → Except Fault Value
  | 0, _, _ => .error (.misuse .endless)
  | fuel + 1, s, v => r.castOwn s v fun record => do
      let cast ← r.castFields (castAtDepth fuel) false s.fields record
      r.castFields (castAtDepth fuel) true s.fields cast

def cast (s : Schema) (v : Value) : Except Fault Value := r.castAtDepth Context.maxDepth s v

/-! ## Validation -/

/-- The arguments of a validation, which says by name whether it ends at the first failure. -/
def validationArguments (v : Value) (all? : Option Bool) : Arguments :=
  ⟨[v], (all?.map fun all => ("abort_early", .bool (!all))).toList⟩

/-- Validates a value. Where it is not said whether all failures are wanted, the first is. -/
def validate (s : Schema) (v : Value) (all? : Option Bool) : Except Fault Value :=
  match r.ofKind s.kind .validate with
  | some f => Replacement.answer f s (validationArguments v all?)
  | none => do
    let w ← r.cast s v
    if w.isNull then
      if s.isRequired then .error (.invalid [.missing Failure.root]) else pure .null
    else do
      let document ← r.document s
      match Document.collect document w (all?.getD false) with
      | .ok [] => pure w
      | .ok failures => .error (.invalid failures)
      | .error m => .error (.misuse m)

def isValid (s : Schema) (v : Value) (all? : Option Bool) : Except Fault Value :=
  match r.ofKind s.kind .isValid with
  | some f => Replacement.answer f s (validationArguments v all?)
  | none =>
    match r.validate s v all? with
    | .ok _ => .ok (.bool true)
    | .error (.invalid _) => .ok (.bool false)
    | .error fault => .error fault

end Replacements

namespace Context

variable (context : Context)

def cast (s : Schema) (v : Value) : Except Fault Value := context.replacements.cast s v

def validate (s : Schema) (v : Value) (all? : Option Bool) : Except Fault Value :=
  context.replacements.validate s v all?

def isValid (s : Schema) (v : Value) (all? : Option Bool) : Except Fault Value :=
  context.replacements.isValid s v all?

def isType (s : Schema) (v : Value) : Except Fault Value := context.replacements.isType s v

def describe (s : Schema) : Except Fault Value := context.replacements.describe s

def document (s : Schema) : Except Fault Value := context.replacements.document s

def select (s : Schema) (parent : Value) : Except Fault Schema :=
  context.replacements.select s parent

def getDefault (s : Schema) : Except Fault Value := context.replacements.getDefault s

end Context

end FieldSchema
