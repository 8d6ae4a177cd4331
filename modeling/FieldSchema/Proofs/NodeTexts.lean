import FieldSchema.Markup.Node
import FieldSchema.Proofs.TokenTexts

/-!
# Nodes of texts of JSON

The tokens of a text of JSON are read as the nodes of its parts if all its keys are recognised as
keys. Behind a key that is not, a value is met where none may stand (`rootNode_written`).
-/

namespace FieldSchema.Markup

open Json (Piece Gap Item Member Numeral Word)

/-! ## Nodes of the parts -/

def keyNode (key : Item (List Piece)) : Node := .scalar .str (folded [] key.content)

mutual

def treeNode : Json.Tree → Node
  | .word w => .scalar (Tag.ofPlain w.written) w.written
  | .number n => .scalar (Tag.ofPlain n.written) n.written
  | .text ps => .scalar .str (folded [] ps)
  | .list _ items => .sequence .seq (itemNodes items)
  | .record _ members => .mapping .map (memberNodes members)
  termination_by structural t => t

def itemNodes : List (Item Json.Tree) → List Node
  | [] => []
  | ⟨_, t, _⟩ :: items => treeNode t :: itemNodes items
  termination_by structural items => items

def memberNodes : List (Member Json.Tree) → List (Node × Node)
  | [] => []
  | ⟨key, ⟨_, t, _⟩⟩ :: members => (keyNode key, treeNode t) :: memberNodes members
  termination_by structural members => members

end

/-! ## Readers of tokens -/

namespace TreeReader

/-- A reader takes some tokens and gives a result if they are good, and fails otherwise. -/
def Parses {α : Type} (m : TreeReader α) (ts : List Token) (good : Prop) (a : α) : Prop :=
  ∀ rest handles anchors,
    (good ∧ m.run ⟨ts ++ rest, handles, anchors⟩ = .ok (a, ⟨rest, handles, anchors⟩)) ∨
      (¬ good ∧ ∃ f, m.run ⟨ts ++ rest, handles, anchors⟩ = .error f)

variable {ts ts' : List Token} {good good' : Prop} {t : Token} {fuel : Nat}
  {handles : List (List Char × List Char)} {anchors : List (List Char × Node)}

theorem takeIf_cons (t t' : Token) : (takeIf t).run ⟨t' :: ts, handles, anchors⟩ =
    if t' = t then pure (true, ⟨ts, handles, anchors⟩)
    else pure (false, ⟨t' :: ts, handles, anchors⟩) := by
  by_cases h : t' = t
  · simp [takeIf, sees, peek, drop, h]
  · simp [takeIf, sees, peek, drop, h]

theorem node_scalar (block indentless : Bool) (text : List Char) (plain : Bool) :
    (node block indentless (fuel + 1)).run ⟨.scalar text plain :: ts, handles, anchors⟩ =
      pure (.scalar (scalarTag none text plain) text, ⟨ts, handles, anchors⟩) := by
  simp [node, peek, takeProperties, takeAnchor, takeTag, drop, mark]

theorem nodeUnless_cons {stops : List Token} (h : t ∉ stops)
    (block indentless : Bool) :
    (nodeUnless stops block indentless (fuel + 1)).run ⟨t :: ts, handles, anchors⟩ =
      (node block indentless fuel).run ⟨t :: ts, handles, anchors⟩ := by
  simp [nodeUnless, sees, peek, h]

theorem parses_scalar (block indentless : Bool) (text : List Char) (plain : Bool) :
    Parses (node block indentless (fuel + 1)) [.scalar text plain] True
      (.scalar (scalarTag none text plain) text) :=
  fun _ _ _ => Or.inl ⟨trivial, node_scalar block indentless text plain⟩

/-- A reader that hands over to another one and makes something of its result. -/
theorem Parses.map {α β : Type} {m : TreeReader β} {m' : TreeReader α} {a : α} (f : α → β)
    (h : Parses m' ts' good a)
    (hrun : ∀ rest handles anchors, m.run ⟨ts ++ rest, handles, anchors⟩ =
      m'.run ⟨ts' ++ rest, handles, anchors⟩ >>= fun r => pure (f r.1, r.2)) :
    Parses m ts good (f a) := by
  intro rest handles anchors
  rw [hrun]
  rcases h rest handles anchors with ⟨hgood, hrun'⟩ | ⟨hbad, fault, hrun'⟩
  · exact Or.inl ⟨hgood, by rw [hrun']; rfl⟩
  · exact Or.inr ⟨hbad, fault, by rw [hrun']; rfl⟩

/-- A reader that hands over to two others, one behind the other. -/
theorem Parses.map₂ {α β γ : Type} {m : TreeReader γ} {m₁ : TreeReader α} {m₂ : TreeReader β}
    {ts₁ ts₂ : List Token} {a : α} {b : β} (f : α → β → γ) (h₁ : Parses m₁ ts₁ good a)
    (h₂ : Parses m₂ ts₂ good' b)
    (hrun : ∀ rest handles anchors, m.run ⟨ts ++ rest, handles, anchors⟩ =
      m₁.run ⟨ts₁ ++ (ts₂ ++ rest), handles, anchors⟩ >>= fun r =>
        m₂.run r.2 >>= fun r' => pure (f r.1 r'.1, r'.2)) :
    Parses m ts (good ∧ good') (f a b) := by
  intro rest handles anchors
  rw [hrun]
  rcases h₁ (ts₂ ++ rest) handles anchors with ⟨hgood, hrun₁⟩ | ⟨hbad, fault, hrun₁⟩
  · rcases h₂ rest handles anchors with ⟨hgood', hrun₂⟩ | ⟨hbad', fault, hrun₂⟩
    · refine Or.inl ⟨⟨hgood, hgood'⟩, ?_⟩
      rw [hrun₁]
      simp only [bind, Except.bind, hrun₂]
      rfl
    · refine Or.inr ⟨fun h => hbad' h.2, fault, ?_⟩
      rw [hrun₁]
      simp only [bind, Except.bind, hrun₂]
  · exact Or.inr ⟨fun h => hbad h.1, fault, by rw [hrun₁]; rfl⟩

theorem parses_list (block indentless : Bool) {items : List Node}
    (h : Parses (list true fuel) ts good items) :
    Parses (node block indentless (fuel + 1)) (.listStart :: ts) good (.sequence .seq items) := by
  refine h.map (Node.sequence .seq) fun rest handles anchors => ?_
  simp [node, peek, takeProperties, takeAnchor, takeTag, drop, mark, collectionTag]

theorem parses_record (block indentless : Bool) {entries : List (Node × Node)}
    (h : Parses (record true fuel) ts good entries) :
    Parses (node block indentless (fuel + 1)) (.recordStart :: ts) good
      (.mapping .map entries) := by
  refine h.map (Node.mapping .map) fun rest handles anchors => ?_
  simp [node, peek, takeProperties, takeAnchor, takeTag, drop, mark, collectionTag]

theorem parses_listEnd (first : Bool) : Parses (list first (fuel + 1)) [.listEnd] True [] := by
  intro rest handles anchors
  refine Or.inl ⟨trivial, ?_⟩
  simp [list, takeIf_cons]
  rfl

/-- Whether a token starts a node in a text of JSON. -/
def isOpener : Token → Bool
  | .scalar .. | .listStart | .recordStart => true
  | _ => false

theorem parses_item (first : Bool) {item : Node} {items : List Node} (ht : isOpener t = true)
    (h : Parses (node false false fuel) (t :: ts) good item)
    (h' : Parses (list false fuel) ts' good' items) :
    Parses (list first (fuel + 1)) ((if first then [] else [.separator]) ++ (t :: ts ++ ts'))
      (good ∧ good') (item :: items) := by
  have hne (t' : Token) (ht' : isOpener t' = false) : t ≠ t' := by
    rintro rfl
    simp [ht] at ht'
  refine h.map₂ List.cons h' fun rest handles anchors => ?_
  cases first <;>
    simp [list, takeIf_cons, hne .listEnd rfl, hne .key rfl]

/-! ### Records -/

theorem parses_recordEnd (first : Bool) :
    Parses (record first (fuel + 1)) [.recordEnd] True [] := by
  intro rest handles anchors
  refine Or.inl ⟨trivial, ?_⟩
  simp [record, takeIf_cons]
  rfl

theorem parses_member (first : Bool) (text : List Char) {value : Node}
    {entries : List (Node × Node)} (ht : isOpener t = true)
    (h : Parses (node false false (fuel + 1)) (t :: ts) good value)
    (h' : Parses (record false (fuel + 2)) ts' good' entries) :
    Parses (record first (fuel + 3))
      ((if first then [] else [.separator]) ++
        (.key :: .scalar text false :: .value :: (t :: ts ++ ts')))
      (good ∧ good') ((.scalar .str text, value) :: entries) := by
  have hkey : Token.scalar text false ∉ [.value, .separator, .recordEnd] := by simp
  have hvalue : t ∉ [.separator, .recordEnd] := by
    cases t <;> simp_all [isOpener]
  refine h.map₂ (fun value entries => (.scalar .str text, value) :: entries) h'
    fun rest handles anchors => ?_
  cases first <;>
    simp [record, takeIf_cons, nodeUnless_cons hkey, nodeUnless_cons hvalue, node_scalar, scalarTag]

/-- Behind a key that is not recognised no value may stand. -/
theorem parses_staleKey (first : Bool) (text : List Char) (more : List Token)
    (entries : List (Node × Node)) :
    Parses (record first (fuel + 2))
      ((if first then [] else [.separator]) ++ (.scalar text false :: .value :: more)) False
      entries := by
  intro rest handles anchors
  refine Or.inr ⟨id, .flaw .unexpectedToken, ?_⟩
  cases first <;> simp [record, takeIf_cons, node_scalar, fail] <;> rfl

/-! ### Trees -/

theorem Parses.congr {α : Type} {m : TreeReader α} {a : α} (h : Parses m ts good a)
    (hgood : good ↔ good') (hts : ts = ts') : Parses m ts' good' a := by
  subst hts
  exact fun rest handles anchors => propext hgood ▸ h rest handles anchors

theorem treeTokens_cons (t : Json.Tree) :
    ∃ o more, treeTokens t = o :: more ∧ isOpener o = true := by
  cases t <;> exact ⟨_, _, rfl, rfl⟩

theorem length_itemTokens (first : Bool) (items : List (Item Json.Tree)) :
    0 < (itemTokens first items).length := by
  rcases items with _ | ⟨item, items⟩
  · simp [itemTokens]
  · obtain ⟨o, more, ho, -⟩ := treeTokens_cons item.content
    simp only [itemTokens, ho, List.length_append, List.length_cons]
    omega

mutual

theorem parses_tree : (t : Json.Tree) → (block indentless : Bool) → (fuel : Nat) →
    3 * (treeTokens t).length ≤ fuel →
    Parses (node block indentless fuel) (treeTokens t)
      (t.all isSimpleKey (fun _ => true) (fun _ => true) = true) (treeNode t)
  | t, _, _, 0, hfuel => by
    obtain ⟨o, more, ho, -⟩ := treeTokens_cons t
    simp [ho] at hfuel
  | .word w, block, indentless, fuel + 1, _ =>
    (parses_scalar block indentless w.written true).congr (by simp [Json.Tree.all]) rfl
  | .number n, block, indentless, fuel + 1, _ =>
    (parses_scalar block indentless n.written true).congr (by simp [Json.Tree.all]) rfl
  | .text ps, block, indentless, fuel + 1, _ =>
    (parses_scalar block indentless (folded [] ps) false).congr (by simp [Json.Tree.all]) rfl
  | .list blank items, block, indentless, fuel + 1, hfuel => by
    simp only [treeTokens, List.length_cons] at hfuel
    exact parses_list block indentless (parses_items items true fuel (by omega))
  | .record blank members, block, indentless, fuel + 1, hfuel => by
    simp only [treeTokens, List.length_cons] at hfuel
    exact parses_record block indentless (parses_members members true fuel (by omega))
  termination_by structural t => t

theorem parses_items : (items : List (Item Json.Tree)) → (first : Bool) → (fuel : Nat) →
    3 * (itemTokens first items).length ≤ fuel →
    Parses (list first fuel) (itemTokens first items)
      (Json.allItems isSimpleKey (fun _ => true) (fun _ => true) items = true) (itemNodes items)
  | items, first, 0, hfuel => by
    have := length_itemTokens first items
    omega
  | [], first, fuel + 1, _ => (parses_listEnd first).congr (by simp [Json.allItems]) rfl
  | ⟨before, t, after⟩ :: items, first, fuel + 1, hfuel => by
    obtain ⟨o, more, ho, hopener⟩ := treeTokens_cons t
    simp only [itemTokens, List.length_append] at hfuel
    have hpos := length_itemTokens false items
    have htree := parses_tree t false false fuel (by omega)
    rw [ho, List.length_cons] at hfuel
    have hitems := parses_items items false fuel (by omega)
    rw [ho] at htree
    exact (parses_item first hopener htree hitems).congr (by simp [Json.allItems])
      (by simp [itemTokens, ho])
  termination_by structural items => items

theorem parses_members : (members : List (Member Json.Tree)) → (first : Bool) → (fuel : Nat) →
    3 * (memberTokens first members).length ≤ fuel →
    Parses (record first fuel) (memberTokens first members)
      (Json.allMembers isSimpleKey (fun _ => true) (fun _ => true) members = true)
      (memberNodes members)
  | [], first, fuel, hfuel => by
    obtain ⟨fuel, rfl⟩ := Nat.exists_eq_add_of_le' (by simpa [memberTokens] using hfuel : 3 ≤ fuel)
    exact (parses_recordEnd first).congr (by simp [Json.allMembers]) rfl
  | ⟨key, ⟨before, t, after⟩⟩ :: members, first, fuel, hfuel => by
    obtain ⟨o, more, ho, hopener⟩ := treeTokens_cons t
    simp only [memberTokens, keyTokens, List.length_append, List.length_cons, List.length_nil]
      at hfuel
    -- the reader of a record is two steps above those of its keys and values
    obtain ⟨fuel, rfl⟩ := Nat.exists_eq_add_of_le' (by omega : 3 ≤ fuel)
    have htree := parses_tree t false false (fuel + 1) (by omega)
    have hmembers := parses_members members false (fuel + 2) (by omega)
    rw [ho] at htree
    cases hkey : isSimpleKey key with
    | true =>
      exact (parses_member first (folded [] key.content) hopener htree hmembers).congr
        (by simp [Json.allMembers, hkey]) (by simp [memberTokens, keyTokens, hkey, ho])
    | false =>
      exact (parses_staleKey first (folded [] key.content)
        (treeTokens t ++ memberTokens false members) _).congr
        (by simp [Json.allMembers, hkey]) (by simp [memberTokens, keyTokens, hkey])
  termination_by structural members => members

end

end TreeReader

/-! ## Whole texts -/

section Roots

open TreeReader

variable {ts : List Token} {good : Prop} {root : Node}

/-- A document that starts with a record and has nothing behind it. -/
theorem parses_document {fuel : Nat} (hfuel : 0 < fuel) (hts : ts.head? = some .recordStart)
    (h : Parses (node true false fuel) ts good root) :
    (good ∧ (document fuel).run ⟨ts, usualHandles, []⟩ =
        .ok (some root, ⟨[], usualHandles, []⟩)) ∨
      (¬ good ∧ ∃ f, (document fuel).run ⟨ts, usualHandles, []⟩ = .error f) := by
  obtain ⟨fuel, rfl⟩ := Nat.exists_eq_succ_of_ne_zero (by omega : fuel ≠ 0)
  have hrun : (document (fuel + 1)).run ⟨ts, usualHandles, []⟩ =
      (node true false (fuel + 1)).run ⟨ts ++ [], usualHandles, []⟩ >>= fun r =>
        (do dropEnds (fuel + 1)
            if (← peek).isSome then fail .severalDocuments else pure (some r.1)).run r.2 := by
    simp [document, peek, isDirective, hts]
  rw [hrun]
  rcases h [] usualHandles [] with ⟨hgood, hnode⟩ | ⟨hbad, fault, hnode⟩
  · refine Or.inl ⟨hgood, ?_⟩
    rw [hnode]
    rfl
  · exact Or.inr ⟨hbad, fault, by rw [hnode]; rfl⟩

/-- A key on one line has no mark of a document in it. -/
theorem isCutKey_of_isSimpleKey {key : Item (List Piece)} (h : isSimpleKey key = true) :
    isCutKey key = true := by
  simp only [isSimpleKey, keyText, List.all_cons, List.all_append, Bool.and_eq_true,
    List.all_eq_true, Bool.not_eq_true'] at h
  simp [isCutKey, endsDocument, hasMark_eq_false h.1.2.1]

variable (before after blank : Gap) (members : List (Member Json.Tree)) {text : List Char}

/-- A record of JSON has its node if its characters are allowed, there is no tab between its parts,
all its keys are recognised and no mark of a document stands behind a break in its texts, and
otherwise it has none. -/
theorem rootNode_written
    (h : text = before.chars ++ ((Json.Tree.record blank members).written ++ after.chars)) :
    if text.all isAllowed = true ∧ '\t' ∉ text ∧ (Json.Tree.record blank members).all isSimpleKey
        (fun _ => true) (fun ps => !endsDocument ps) = true then
      rootNode text = .ok (some (treeNode (.record blank members)))
    else ∃ f, rootNode text = .error f := by
  have hall : (Json.Tree.record blank members).all isSimpleKey (fun _ => true)
      (fun ps => !endsDocument ps) = true ↔ isCut (.record blank members) = true ∧
        (Json.Tree.record blank members).all isSimpleKey (fun _ => true) (fun _ => true) =
          true := by
    rw [isCut, ← Bool.and_eq_true, ← Json.Tree.all_and]
    have hkeys : (fun key => isCutKey key && isSimpleKey key) = isSimpleKey := by
      funext key
      cases hkey : isSimpleKey key with
      | true => simp [isCutKey_of_isSimpleKey hkey]
      | false => simp
    simp [hkeys]
  have hdocument := parses_document (by omega) rfl
    (parses_tree (.record blank members) true false
      (3 * (treeTokens (.record blank members)).length + 6) (by omega))
  have htokens := tokens_written before after blank members h
  simp only [hall]
  split at htokens
  · rename_i hcut
    rcases hdocument with ⟨hgood, hrun⟩ | ⟨hbad, f, hrun⟩
    · rw [if_pos ⟨hcut.1, hcut.2.1, hcut.2.2, hgood⟩]
      simp only [rootNode, htokens, bind, Except.bind, hrun]
      rfl
    · rw [if_neg fun hall => hbad hall.2.2.2]
      exact ⟨f, by simp only [rootNode, htokens, bind, Except.bind, hrun]⟩
  · rename_i hcut
    obtain ⟨f, hf⟩ := htokens
    rw [if_neg fun hall => hcut ⟨hall.1, hall.2.1, hall.2.2.1⟩]
    exact ⟨f, by simp only [rootNode, hf, bind, Except.bind]⟩

end Roots

end FieldSchema.Markup
