import FieldSchema.Schema.Basic

/-!
# Compiled documents

A schema compiles to a document of keywords that `Document.check` interprets: the type, the tests
and the fields each become a part of it. A condition becomes an `if` on the sibling with both
branches, in the document of the record that holds the field; the conditions of a branch test
siblings of the same record and stand in the branch.
-/

namespace FieldSchema.Schema

/-- The type keyword: null is a second type of a nullable schema. -/
def typeEntry (kind : Kind) (nullable : Bool) : List (Value × Value) :=
  match kind.typeName? with
  | none => []
  | some name =>
    [(.text "type", if nullable then .list [.text name, .text "null"] else .text name)]

def titleEntry (label : Value) : List (Value × Value) :=
  if label.isNull then [] else [(.text "title", label)]

def defaultEntry (default? : Option Value) : List (Value × Value) :=
  match default? with
  | some v => [(.text "default", v)]
  | none => []

def listEntry (keyword : String) (items : List Value) : List (Value × Value) :=
  if items.isEmpty then [] else [(.text keyword, .list items)]

def requiredNames (fields : List (Value × Schema)) : List Value :=
  (fields.filter (·.2.isRequired)).map (·.1)

/-- The document of a record's field under one branch of a condition. -/
def branchDocument (name : Value) (isRequired : Bool) (document : Value) (nested : List Value) :
    Value :=
  .map ([(.text "properties", .map [(name, document)])] ++
    (if isRequired then [(.text "required", .list [name])] else []) ++ listEntry "allOf" nested)

/-- The document of a condition: accepted records have the sibling with the expected value. -/
def matchDocument (sibling expected : Value) : Value :=
  .map [(.text "properties", .map [(sibling, .map [(.text "const", expected)])]),
    (.text "required", .list [sibling])]

def choiceDocument (test chosen other : Value) : Value :=
  .map [(.text "if", test), (.text "then", chosen), (.text "else", other)]

/-- The tests and the conditions of a record stand in one list: where there are tests, in their
place. -/
def recordEntries (tests : List Value) (properties : List (Value × Value)) (required : List Value)
    (conditionals : List Value) : List (Value × Value) :=
  let leading := if tests.isEmpty then [] else listEntry "allOf" (tests ++ conditionals)
  let trailing := if tests.isEmpty then listEntry "allOf" conditionals else []
  leading ++
    (if properties.isEmpty then [] else [(.text "properties", .map properties)]) ++
    listEntry "required" required ++ trailing

mutual

def document : Schema → Value
  | ⟨kind, tests, _, _, nullable, default?, label, fields⟩ =>
    .map (typeEntry kind nullable ++ titleEntry label ++ defaultEntry default? ++
      recordEntries (tests.map (·.fragment)) (fieldDocuments fields) (requiredNames fields)
        (fieldConditionals fields))
  termination_by structural s => s

def fieldDocuments : List (Value × Schema) → List (Value × Value)
  | [] => []
  | (name, field) :: fields => (name, document field) :: fieldDocuments fields
  termination_by structural fields => fields

def fieldConditionals : List (Value × Schema) → List Value
  | [] => []
  | (name, field) :: fields => conditionals name field ++ fieldConditionals fields
  termination_by structural fields => fields

def conditionals (name : Value) : Schema → List Value
  | ⟨_, _, conditions, _, _, _, _, _⟩ => choices name conditions
  termination_by structural s => s

def choices (name : Value) : List Condition → List Value
  | [] => []
  | ⟨sibling, expected, chosen, other⟩ :: rest =>
    choiceDocument (matchDocument sibling expected)
      (branchDocument name chosen.isRequired (document chosen) (conditionals name chosen))
      (branchDocument name other.isRequired (document other) (conditionals name other)) ::
      choices name rest
  termination_by structural conditions => conditions

end

mutual

/-- The description of a schema: its type, label and tests, and for records the fields. -/
def described : Schema → Value
  | ⟨kind, tests, _, _, _, _, label, fields⟩ =>
    .map ([(.text "type", .text kind.name), (.text "label", label),
        (.text "tests", .list (tests.map (·.described)))] ++
      if kind = .object then [(.text "fields", .map (describedFields fields))] else [])
  termination_by structural s => s

def describedFields : List (Value × Schema) → List (Value × Value)
  | [] => []
  | (name, field) :: fields => (name, described field) :: describedFields fields
  termination_by structural fields => fields

end

end FieldSchema.Schema
