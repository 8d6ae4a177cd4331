import FieldSchema.Document.Findings

/-!
# Interpretation of documents

`Document.checkWith` goes through the keywords of a document in the order in which they stand, and
into the documents in their arguments. `Document.collectWith` is the outcome as failures.

Some keywords are of other origin: no schema compiles to them, and what they find is given from
outside. `Document.check` and `Document.collect` pass over them.
-/

namespace FieldSchema.Document

/-- The outcome of a document that is no mapping: `true` accepts all, `false` nothing. -/
def checkPlain (path : List Value) (v : Value) : Value → Findings
  | .bool true => .none
  | .bool false =>
    .one ⟨path, v, .bool false, none, .null, "False schema does not allow " ++ v.shown⟩
  | document => .stopped (.noAttribute document "get")

/-- The outcome of a document within another one. Only a container can be looked into. -/
def entered (document : Value) (findings : Findings) : Findings :=
  match document with
  | .null | .number _ | .date _ | .dateTime _ | .pattern _ | .schema .. =>
    .stopped (.notContainer document)
  | _ => findings

def checkPlainAll (path : List Value) (v : Value) : List Value → Findings
  | [] => .none
  | document :: documents =>
    entered document (checkPlain path v document) ++ checkPlainAll path v documents

def checkKeyword (path : List Value) (v document : Value) (keyword : Keyword) (argument : Value) :
    Findings :=
  match keyword.objection? argument v with
  | .ok (some objection) => .one ⟨path, v, document, some keyword.name, argument, objection⟩
  | .ok none => .none
  | .error m => .stopped m

def checkRequired (path : List Value) (v document argument : Value) (record : Entries Value) :
    List Value → Findings
  | [] => .none
  | name :: names =>
    if !name.isKey then .stopped (.notHashable name)
    else
      (if record.has name then .none
      else .one ⟨path, v, document, some Keyword.required.name, argument,
        name.shown ++ " is a required property"⟩) ++
        checkRequired path v document argument record names

def checkRequiredNames (path : List Value) (v document argument : Value) : Findings :=
  match v with
  | .map record =>
    match argument.items with
    | .ok names => checkRequired path v document argument record names
    | .error m => .stopped m
  | _ => .none

def checkNot (path : List Value) (v document argument : Value) (inner : Findings) : Findings :=
  match inner.accepts with
  | .ok true =>
    .one ⟨path, v, document, some Keyword.not.name, argument,
      v.shown ++ " should not be valid under " ++ argument.shown⟩
  | .ok false => .none
  | .error m => .stopped m

def checkChoice (test chosen other : Findings) : Findings :=
  match test.accepts with
  | .ok true => chosen
  | .ok false => other
  | .error m => .stopped m

/-- What the keywords of other origin find in a value, each by its name: given are the place of the
value, the value, the document that has the keyword, and the keyword's argument. -/
abbrev ForeignKeywords := String → List Value → Value → Value → Value → Findings

/-- Where keywords of other origin are passed over. -/
def passedOver : ForeignKeywords := fun _ _ _ _ _ => .none

variable (foreign : ForeignKeywords)

/-- What a key that is none of the keywords here finds. -/
def checkForeign (path : List Value) (v document key argument : Value) : Findings :=
  match Keyword.foreignName? key with
  | some name => foreign name path v document argument
  | none => .none

/-- The document that another one stands for, besides which its other keywords do not count. -/
def reference? (entries : Entries Value) : Option Value :=
  match entries.named? Keyword.referenceName with
  | some .null | none => none
  | some target => some target

mutual

/-- What a document finds in a value, given what keywords of other origin find. -/
def checkWith (path : List Value) (v : Value) : Value → Findings
  | .map entries =>
    match reference? entries with
    | some target => foreign Keyword.referenceName path v (.map entries) target
    | none =>
      checkEntries path v (.map entries) (checkUnder "then" path v entries)
        (checkUnder "else" path v entries) entries
  | document => checkPlain path v document
  termination_by structural document => document

/-- What the document under a key finds, nothing if there is none. -/
def checkUnder (key : String) (path : List Value) (v : Value) : List (Value × Value) → Findings
  | [] => .none
  | (name, document) :: entries =>
    if name.same (.text key) then entered document (checkWith path v document)
    else checkUnder key path v entries
  termination_by structural entries => entries

/-- What the keywords of a document find. The two branches of a choice are given by what they
find. -/
def checkEntries (path : List Value) (v document : Value) (chosen other : Findings) :
    List (Value × Value) → Findings
  | [] => .none
  | (key, argument) :: entries =>
    (match Keyword.ofKey? key with
      | none => checkForeign foreign path v document key argument
      | some .not => checkNot path v document argument (checkWith path v argument)
      | some .choice => checkChoice (checkWith path v argument) chosen other
      | some .allOf =>
        match argument with
        | .list documents => checkAll path v documents
        | .tuple documents => checkAll path v documents
        | argument =>
          match argument.items with
          | .ok documents => checkPlainAll path v documents
          | .error m => .stopped m
      | some .properties =>
        match v with
        | .map record =>
          match argument with
          | .map properties => checkProperties path record properties
          | argument => .stopped (.noAttribute argument "items")
        | _ => .none
      | some .required => checkRequiredNames path v document argument
      | some keyword => checkKeyword path v document keyword argument) ++
      checkEntries path v document chosen other entries
  termination_by structural entries => entries

def checkAll (path : List Value) (v : Value) : List Value → Findings
  | [] => .none
  | document :: documents =>
    entered document (checkWith path v document) ++ checkAll path v documents
  termination_by structural documents => documents

def checkProperties (path : List Value) (record : Entries Value) : List (Value × Value) → Findings
  | [] => .none
  | (name, document) :: properties =>
    (match record.get? name with
      | some v => entered document (checkWith (path ++ [name]) v document)
      | none => .none) ++ checkProperties path record properties
  termination_by structural properties => properties

end

def collectWith (document v : Value) (all : Bool) : Except Misuse (List Failure) :=
  let findings := checkWith foreign [] v document
  if all then findings.failures else findings.firstFailure

/-- What a document finds by the keywords here. -/
abbrev check (path : List Value) (v document : Value) : Findings :=
  checkWith passedOver path v document

def collect (document v : Value) (all : Bool) : Except Misuse (List Failure) :=
  collectWith passedOver document v all

end FieldSchema.Document
