import FieldSchema.Markup.Node
import FieldSchema.Value.Basic

/-!
# Reading declaration texts

The value of a text is the value of its root node. Of two equal keys the first keeps its place and
the last its value. A merge key takes over the entries of the mappings it names, before the
mapping's own.

Nodes are valued level by level: all keys and scalars of a collection before the contents of the
collections in it. So of several faults the one nearest to the root is reported, and among those of
one level the first.

No value holds itself, since an alias within the node that it would stand for is refused.
-/

namespace FieldSchema.Markup

/-- A fault with the level that it is found at. -/
abbrev Found := Nat × Fault

def firstFound : List Found → Option Found
  | [] => none
  | f :: fs =>
    match firstFound fs with
    | some g => if g.1 < f.1 then some g else some f
    | none => some f

def isMergeKey : Node → Bool
  | .scalar .merge _ | .sequence .merge _ | .mapping .merge _ => true
  | _ => false

def plainKey : Node → Node
  | .scalar .value text => .scalar .str text
  | node => node

/-- The entries that a merge takes over: those of a mapping, or those of several, where the first
mapping has the last word. -/
def takenEntries? : Node → Option (List (Node × Node))
  | .mapping _ entries => some entries
  | .sequence _ items =>
    let parts : Option (List (List (Node × Node))) := items.mapM fun item =>
      match item with
      | .mapping _ entries => some entries
      | _ => none
    parts.map fun taken => taken.reverse.flatten
  | .scalar .. => none

/-- The entries of a mapping, sorted into merges that cannot be done, entries taken over, and the
mapping's own. -/
structure Sorted where
  bad : List (Node × Node)
  taken : List (Node × Node)
  own : List (Node × Node)

mutual

/-- A node in which all merge keys are resolved, at every depth. Where one cannot be, it stays as
the first key of its mapping, and has no value. -/
def Node.merged : Node → Node
  | .scalar tag text => .scalar tag text
  | .sequence tag items => .sequence tag (mergedItems items)
  | .mapping tag entries =>
    let sorted := mergedEntries entries
    .mapping tag (sorted.bad ++ sorted.taken ++ sorted.own)
  termination_by structural node => node

def mergedItems : List Node → List Node
  | [] => []
  | node :: nodes => node.merged :: mergedItems nodes
  termination_by structural nodes => nodes

def mergedEntries : List (Node × Node) → Sorted
  | [] => ⟨[], [], []⟩
  | (key, value) :: entries =>
    let key := key.merged
    let value := value.merged
    let sorted := mergedEntries entries
    if isMergeKey key then
      match takenEntries? value with
      | some taken => { sorted with taken := taken ++ sorted.taken }
      | none => { sorted with bad := (key, value) :: sorted.bad }
    else { sorted with own := (plainKey key, value) :: sorted.own }
  termination_by structural entries => entries

end

/-- The text of a scalar. A mapping with an equals sign for a key counts as the scalar there. -/
def scalarText (fuel : Nat) : Node → Except Fault (List Char)
  | .scalar _ text => .ok text
  | .sequence .. => flaw .wrongNode
  | .mapping _ entries =>
    match fuel with
    | 0 => flaw .tooDeep
    | fuel + 1 =>
      match entries.find? fun e => match e.1 with
          | .scalar .value _ | .sequence .value _ | .mapping .value _ => true
          | _ => false with
      | some (_, value) => scalarText fuel value
      | none => flaw .wrongNode

def scalarValue (tag : Tag) (node : Node) : Except Fault Value := do
  let text ← scalarText 100 node
  match tag with
  | .null => pure .null
  | .bool => .bool <$> readTruth text
  | .int => .int <$> readInt text
  | .float => .float <$> readFloat text
  | .timestamp =>
    match ← readStamp text with
    | .inl d => pure (.date d)
    | .inr t => pure (.dateTime t)
  | .str => pure (.text (String.ofList text))
  | _ => flaw .undefinedTag

/-- The value of a scalar at a level, with the fault found in its place. -/
def scalarAt (level : Nat) (tag : Tag) (node : Node) : Value × List Found :=
  match scalarValue tag node with
  | .ok v => (v, [])
  | .error f => (.null, [(level, f)])

def faultAt (level : Nat) (f : Flaw) : Value × List Found := (.null, [(level, .flaw f)])

mutual

/-- The value of a node at a level, with the faults found in it. The contents of a collection are
one level below it. -/
def valueAt (level : Nat) : Node → Value × List Found
  | .scalar tag text =>
    match tag with
    | .seq | .map | .pairs => faultAt (level + 1) .wrongNode
    | tag => scalarAt level tag (.scalar tag text)
  | .sequence tag items =>
    match tag with
    | .seq =>
      let (vs, found) := valuesAt (level + 1) items
      (.list vs, found)
    | .pairs =>
      let (vs, found) := pairsAt (level + 1) items
      (.list vs, found)
    | .map => faultAt (level + 1) .wrongNode
    | tag => scalarAt level tag (.sequence tag [])
  | .mapping tag entries =>
    match tag with
    | .map =>
      let (es, found) := entriesAt (level + 1) entries
      (.map (es.foldl (fun m (k, v) => Entries.put m k v) []), found)
    | .seq | .pairs => faultAt (level + 1) .wrongNode
    | tag => scalarAt level tag (.mapping tag entries)
  termination_by structural node => node

def valuesAt (level : Nat) : List Node → List Value × List Found
  | [] => ([], [])
  | node :: nodes =>
    let (v, found) := valueAt level node
    let (vs, more) := valuesAt level nodes
    (v :: vs, found ++ more)
  termination_by structural nodes => nodes

/-- The values of entries. A key must not be a list or a mapping. -/
def entriesAt (level : Nat) : List (Node × Node) → List (Value × Value) × List Found
  | [] => ([], [])
  | (key, value) :: entries =>
    let (k, keyFound) := valueAt level key
    let bad := if k.isKey then [] else [(level, .flaw .badKey)]
    let (v, valueFound) := valueAt level value
    let (es, more) := entriesAt level entries
    ((k, v) :: es, keyFound ++ bad ++ valueFound ++ more)
  termination_by structural entries => entries

/-- The values of nodes that are mappings of one entry each, as pairs. -/
def pairsAt (level : Nat) : List Node → List Value × List Found
  | [] => ([], [])
  | node :: nodes =>
    let (v, found) :=
      match node with
      | .mapping _ [(key, value)] =>
        let (k, keyFound) := valueAt level key
        let (v, valueFound) := valueAt level value
        (Value.tuple [k, v], keyFound ++ valueFound)
      | _ => faultAt level .wrongNode
    let (vs, more) := pairsAt level nodes
    (v :: vs, found ++ more)
  termination_by structural nodes => nodes

end

/-- Reads the value of a text. A text without a document is null. -/
def read (cs : List Char) : Except Fault Value := do
  match ← rootNode cs with
  | none => pure .null
  | some root =>
    let (v, found) := valueAt 0 root.merged
    match firstFound found with
    | some (_, fault) => throw fault
    | none => pure v

end FieldSchema.Markup
