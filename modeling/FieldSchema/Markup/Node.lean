import FieldSchema.Markup.Token
import FieldSchema.Markup.Form

/-!
# Nodes

The tokens of a document form a tree of scalars, sequences and mappings. Every node has a tag, its
own or the one that its form gives it. An alias stands for the node that its anchor marks. Nodes are
finite, so an alias within that node, which would make a value that holds itself, is refused as one
without an anchor.
-/

namespace FieldSchema.Markup

/-- A node of a document. -/
inductive Node where
  | scalar (tag : Tag) (text : List Char)
  | sequence (tag : Tag) (items : List Node)
  | mapping (tag : Tag) (entries : List (Node × Node))

/-- What is left of the tokens, the tag handles in force and the nodes marked so far. -/
structure Tree where
  tokens : List Token
  handles : List (List Char × List Char)
  anchors : List (List Char × Node)

/-- Readers of nodes. -/
abbrev TreeReader := StateT Tree (Except Fault)

namespace TreeReader

def fail {α : Type} (f : Flaw) : TreeReader α := throw (.flaw f)

def peek : TreeReader (Option Token) := do pure (← get).tokens.head?

def drop : TreeReader Unit := modify fun t => { t with tokens := t.tokens.tail }

def sees (ts : List Token) : TreeReader Bool := do
  pure (match ← peek with
    | some t => ts.contains t
    | none => false)

/-- Passes the next token if it is a given one, and says whether it was. -/
def takeIf (t : Token) : TreeReader Bool := do
  if ← sees [t] then
    drop
    pure true
  else pure false

def emptyNode : Node := .scalar (Tag.ofPlain []) []

def takeAnchor : TreeReader (Option (List Char)) := do
  match ← peek with
  | some (.anchor name) =>
    drop
    pure (some name)
  | _ => pure none

def takeTag : TreeReader (Option (List Char)) := do
  match ← peek with
  | some (.tag handle suffix) =>
    drop
    match handle with
    | none => pure (some suffix)
    | some handle =>
      match (← get).handles.lookup handle with
      | some expansion => pure (some (expansion ++ suffix))
      | none => fail .undefinedHandle
  | _ => pure none

def takeProperties : TreeReader (Option (List Char) × Option (List Char)) := do
  match ← takeAnchor with
  | some name => pure (some name, ← takeTag)
  | none =>
    let tag ← takeTag
    if tag.isSome then pure (← takeAnchor, tag) else pure (none, none)

/-- The tag of a scalar. The bare mark asks for the form, as for a plain scalar. -/
def scalarTag (tag : Option (List Char)) (text : List Char) (plain : Bool) : Tag :=
  match tag with
  | none => if plain then Tag.ofPlain text else .str
  | some ['!'] => Tag.ofPlain text
  | some name => Tag.ofName name

def collectionTag (tag : Option (List Char)) (usual : Tag) : Tag :=
  match tag with
  | none | some ['!'] => usual
  | some name => Tag.ofName name

/-- Marks a node. A name marks one node only. -/
def mark (anchor : Option (List Char)) (node : Node) : TreeReader Node := do
  match anchor with
  | none => pure node
  | some name =>
    if ((← get).anchors.lookup name).isSome then fail .repeatedAnchor
    else
      modify fun t => { t with anchors := (name, node) :: t.anchors }
      pure node

mutual

/-- Reads a node. In block context block collections may stand here, and behind a key or a value
also a sequence that is not indented. -/
def node (block indentless : Bool) : (fuel : Nat) → TreeReader Node
  | 0 => fail .tooDeep
  | fuel + 1 => do
    match ← peek with
    | some (.alias name) =>
      drop
      match (← get).anchors.lookup name with
      | some node => pure node
      | none => fail .undefinedAlias
    | _ =>
      let (anchor, tag) ← takeProperties
      let sequenceTag := collectionTag tag .seq
      let mappingTag := collectionTag tag .map
      match ← peek with
      | some (.scalar text plain) =>
        drop
        mark anchor (.scalar (scalarTag tag text plain) text)
      | some .listStart =>
        drop
        mark anchor (.sequence sequenceTag (← list true fuel))
      | some .recordStart =>
        drop
        mark anchor (.mapping mappingTag (← record true fuel))
      | some .entry =>
        if indentless then mark anchor (.sequence sequenceTag (← indentlessEntries fuel))
        else emptyOr anchor tag
      | some .sequenceStart =>
        if block then
          drop
          mark anchor (.sequence sequenceTag (← entries fuel))
        else emptyOr anchor tag
      | some .mappingStart =>
        if block then
          drop
          mark anchor (.mapping mappingTag (← pairs fuel))
        else emptyOr anchor tag
      | _ => emptyOr anchor tag

def emptyOr (anchor tag : Option (List Char)) : TreeReader Node :=
  if anchor.isNone && tag.isNone then fail .unexpectedToken
  else mark anchor (.scalar (scalarTag tag [] tag.isNone) [])

def nodeUnless (stops : List Token) (block indentless : Bool) : (fuel : Nat) → TreeReader Node
  | 0 => fail .tooDeep
  | fuel + 1 => do
    if ← sees stops then pure emptyNode else node block indentless fuel

def entries : (fuel : Nat) → TreeReader (List Node)
  | 0 => fail .tooDeep
  | fuel + 1 => do
    if ← takeIf .entry then
      let item ← nodeUnless [.entry, .blockEnd] true false fuel
      pure (item :: (← entries fuel))
    else if ← takeIf .blockEnd then pure []
    else fail .unexpectedToken

def indentlessEntries : (fuel : Nat) → TreeReader (List Node)
  | 0 => fail .tooDeep
  | fuel + 1 => do
    if ← takeIf .entry then
      let item ← nodeUnless [.entry, .key, .value, .blockEnd] true false fuel
      pure (item :: (← indentlessEntries fuel))
    else pure []

def pairs : (fuel : Nat) → TreeReader (List (Node × Node))
  | 0 => fail .tooDeep
  | fuel + 1 => do
    if ← takeIf .key then
      let key ← nodeUnless [.key, .value, .blockEnd] true true fuel
      let value ←
        if ← takeIf .value then nodeUnless [.key, .value, .blockEnd] true true fuel
        else pure emptyNode
      pure ((key, value) :: (← pairs fuel))
    else if ← takeIf .blockEnd then pure []
    else fail .unexpectedToken

/-- Reads the items of a sequence in brackets. An item with a key is a mapping of one entry. -/
def list (first : Bool) : (fuel : Nat) → TreeReader (List Node)
  | 0 => fail .tooDeep
  | fuel + 1 => do
    if ← takeIf .listEnd then pure []
    else
      if !first then
        if !(← takeIf .separator) then fail .unexpectedToken
      if ← takeIf .key then
        let key ← nodeUnless [.value, .separator, .listEnd] false false fuel
        let value ←
          if ← takeIf .value then nodeUnless [.separator, .listEnd] false false fuel
          else pure emptyNode
        pure (.mapping .map [(key, value)] :: (← list false fuel))
      else if ← takeIf .listEnd then pure []
      else
        let item ← node false false fuel
        pure (item :: (← list false fuel))

/-- Reads the entries of a mapping in braces. A key may stand without a value. -/
def record (first : Bool) : (fuel : Nat) → TreeReader (List (Node × Node))
  | 0 => fail .tooDeep
  | fuel + 1 => do
    if ← takeIf .recordEnd then pure []
    else
      if !first then
        if !(← takeIf .separator) then fail .unexpectedToken
      if ← takeIf .key then
        let key ← nodeUnless [.value, .separator, .recordEnd] false false fuel
        let value ←
          if ← takeIf .value then nodeUnless [.separator, .recordEnd] false false fuel
          else pure emptyNode
        pure ((key, value) :: (← record false fuel))
      else if ← takeIf .recordEnd then pure []
      else
        let key ← node false false fuel
        pure ((key, emptyNode) :: (← record false fuel))

end

/-- Reads the directives of a document: the handles they declare. A version is declared at most
once, and its first number is 1. -/
def directives (versioned : Bool) (handles : List (List Char × List Char)) :
    (fuel : Nat) → TreeReader (List (List Char × List Char))
  | 0 => fail .tooDeep
  | fuel + 1 => do
    match ← peek with
    | some (.version major) =>
      drop
      if versioned || major ≠ 1 then fail .repeatedDirective else directives true handles fuel
    | some (.handle name expansion) =>
      drop
      if (handles.lookup name).isSome then fail .repeatedDirective
      else directives versioned (handles ++ [(name, expansion)]) fuel
    | some .directive =>
      drop
      directives versioned handles fuel
    | _ => pure handles

def usualHandles : List (List Char × List Char) :=
  [(['!'], ['!']), (['!', '!'], "tag:yaml.org,2002:".toList)]

def isDirective : Token → Bool
  | .version _ | .handle .. | .directive => true
  | _ => false

def dropEnds : (fuel : Nat) → TreeReader Unit
  | 0 => fail .tooDeep
  | fuel + 1 => do if ← takeIf .documentEnd then dropEnds fuel else pure ()

/-- Whether the document's content is missing before the next token. -/
def seesNoContent : TreeReader Bool := do
  pure (match ← peek with
    | none => true
    | some t => isDirective t || t = .documentStart || t = .documentEnd)

/-- Reads a document behind its directives and its start mark. -/
def explicitDocument (fuel : Nat) : TreeReader (Option Node) := do
  dropEnds fuel
  if (← peek).isNone then pure none
  else
    let declared ← directives false [] fuel
    modify fun t => { t with handles := declared ++ usualHandles }
    if ← takeIf .documentStart then
      if ← seesNoContent then pure (some emptyNode) else some <$> node true false fuel
    else fail .unexpectedToken

/-- Reads the single document of a text, `none` if there is nothing in it. -/
def document (fuel : Nat) : TreeReader (Option Node) := do
  let explicit : Bool :=
    match ← peek with
    | none => true
    | some t => isDirective t || t = .documentStart
  let root ← if explicit then explicitDocument fuel else some <$> node true false fuel
  dropEnds fuel
  if (← peek).isSome then fail .severalDocuments else pure root

end TreeReader

/-- The root node of a text. Each step of the reader takes a token or enters a part that takes one
next, so a multiple of their number bounds the depth. -/
def rootNode (cs : List Char) : Except Fault (Option Node) := do
  let ts ← tokens cs
  let (root, _) ← (TreeReader.document (3 * ts.length + 6)).run ⟨ts, TreeReader.usualHandles, []⟩
  pure root

end FieldSchema.Markup
