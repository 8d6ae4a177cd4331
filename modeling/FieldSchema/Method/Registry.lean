import FieldSchema.Method.Basic

/-!
# Custom methods

A custom method is a recipe of calls. It is registered on the class of a kind or on the class that
all of them extend, and takes precedence over what is found after it: a kind's own methods, then
those for all kinds. Of two registrations of one name on one class the later counts.

A class keeps two things apart: the functions under their names and the list of the names that
declarations can use. A registration writes the function first and the list after it. The list has
a name of its own, under which a function can be registered as well; then there is no list any more.
-/

namespace FieldSchema

/-- One call of a recipe. -/
structure RecipeStep where
  method : String
  arguments : List Value

/-- A custom method: calls that are made one after another, each on the result of the one before.
With `forward` the first call gets the arguments of the custom method, before its own. -/
structure Recipe where
  steps : List RecipeStep
  forward : Bool

/-- What was registered on a class, `none` for the class of all kinds: the names that it lists,
unless a function stands in the place of the list, and the recipes, the latest first. -/
structure ClassEntry where
  kind? : Option Kind
  listed? : Option (List String)
  recipes : List (String × Recipe)

/-- The classes that something was registered on. -/
abbrev Registry := List ClassEntry

/-- What a name stands for on a kind. -/
inductive Capability where
  | builtIn (m : Method)
  | custom (recipe : Recipe)

/-- The name of a recipe's function in reports. -/
def customCallee : String := "fn"

namespace ClassEntry

/-- The name of the list of names. -/
def listName : String := "METHODS"

def builtInNames : Option Kind → List String
  | none => Method.common.map (·.name)
  | some kind => (Method.own kind).map (·.name)

/-- A class on which nothing was registered. -/
def ofKind? (kind? : Option Kind) : ClassEntry := ⟨kind?, some (builtInNames kind?), []⟩

/-- Writes a function under a name, be it that of the list. -/
def write (entry : ClassEntry) (name : String) (recipe : Recipe) : ClassEntry :=
  ⟨entry.kind?, if name = listName then none else entry.listed?, (name, recipe) :: entry.recipes⟩

/-- The names on the list. A function that stands in its place cannot be gone through. -/
def listing (entry : ClassEntry) : Except Misuse (List String) :=
  match entry.listed? with
  | some names => .ok names
  | none => .error (.notSequence "function")

def insertName (names : List String) (name : String) : List String :=
  if names.contains name then names else names ++ [name]

/-- Adds a name to the list. -/
def list (entry : ClassEntry) (name : String) : Except Misuse ClassEntry := do
  let names ← entry.listing
  pure { entry with listed? := some (insertName names name) }

/-- Writes a function and adds its name to the list: what the class is then, and what the
registration fails with if it does. What is written stays written when the name cannot be listed. -/
def register (entry : ClassEntry) (name : String) (recipe : Recipe) :
    ClassEntry × Except Misuse Unit :=
  let written := entry.write name recipe
  match written.list name with
  | .ok listed => (listed, .ok ())
  | .error m => (written, .error m)

end ClassEntry

namespace Registry

def methodName (name : Value) : Except Misuse String :=
  if !name.isTruthy then .error (.methodName name)
  else
    match name with
    | .text s => if s.startsWith "_" then .error (.methodName name) else .ok s
    | v => .error (.noAttribute v "startswith")

/-- The class of a kind, or that of all kinds, as registrations left it. -/
def entry (registry : Registry) (kind? : Option Kind) : ClassEntry :=
  (registry.find? (·.kind? = kind?)).getD (.ofKind? kind?)

def put (registry : Registry) (entry : ClassEntry) : Registry :=
  entry :: registry.filter (·.kind? ≠ entry.kind?)

/-- Registers a recipe on a class: the registry that the call leaves behind, and what it fails with
if it does. -/
def register (registry : Registry) (kind? : Option Kind) (name : Value) (recipe : Recipe) :
    Registry × Except Misuse Unit :=
  match methodName name with
  | .error m => (registry, .error m)
  | .ok name =>
    let (entry, outcome) := (registry.entry kind?).register name recipe
    (registry.put entry, outcome)

def recipe? (registry : Registry) (kind? : Option Kind) (name : String) : Option Recipe :=
  (registry.entry kind?).recipes.lookup name

def builtIn? (methods : List Method) (name : String) : Option Method :=
  methods.find? (·.name = name)

/-- What a class has under a name itself: its recipe, else its own method. -/
def found? (registry : Registry) (kind? : Option Kind) (name : String) : Option Capability :=
  let methods := match kind? with
    | none => Method.common
    | some kind => Method.own kind
  ((registry.recipe? kind? name).map .custom).or ((builtIn? methods name).map .builtIn)

/-- The names under which the class of a kind has something else than a method. It hides what all
kinds have under such a name, unless the class itself has a recipe there. -/
def ownData : Kind → List String
  | .mixed => []
  | .object => ["type_name", "json_type", "fields"]
  | _ => ["type_name", "json_type"]

/-- What a name stands for on a class: what the class itself has, else what all kinds have. -/
def capability? (registry : Registry) (kind? : Option Kind) (name : String) : Option Capability :=
  match kind? with
  | none => registry.found? none name
  | some kind =>
    (registry.found? (some kind) name).or
      (if (ownData kind).contains name then none else registry.found? none name)

/-- The classes that the names of a class are listed on. -/
def lineage : Option Kind → List (Option Kind)
  | none => [none]
  | some kind => [none, some kind]

/-- The name under which a class answers with its names. -/
def methodsName : String := "methods"

/-- The names that declarations can use on a class. Without a list there is no answer, and none
either where a recipe is registered in the place of it: a recipe needs a schema. -/
def methods (registry : Registry) (kind? : Option Kind) : Except Misuse (List String) :=
  if (lineage kind?).any fun c => (registry.recipe? c methodsName).isSome then
    .error (.missingArguments customCallee ["schema"])
  else
    List.flatten <$> (lineage kind?).mapM fun c => (registry.entry c).listing

def names (registry : Registry) (kind? : Option Kind) : List String :=
  match registry.methods kind? with
  | .ok names => names
  | .error _ => []

end Registry

end FieldSchema
