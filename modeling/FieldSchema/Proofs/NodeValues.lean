import FieldSchema.Markup.Reading
import FieldSchema.Proofs.NodeTexts
import FieldSchema.Proofs.PlainNumbers
import FieldSchema.Proofs.Rearranged

/-!
# Values of texts of JSON

What a record of JSON is read as in a declaration text (`read_written`). If its keys are recognised,
it is the value that the record has in JSON exactly if its numbers have plain forms and folding
keeps the blanks in its texts (`treeRead_eq_iff`).
-/

namespace FieldSchema.Markup

open Json (Piece Gap Item Member Numeral Word chars)

/-! ## Values that parts are read as -/

def numberRead (n : Numeral) : Value :=
  if isPlainNumber n then n.value else .text (String.ofList n.written)

def textRead (ps : List Piece) : Value := .text (String.ofList (folded [] ps))

mutual

def treeRead : Json.Tree → Value
  | .word w => w.value
  | .number n => numberRead n
  | .text ps => textRead ps
  | .list _ items => .list (itemsRead items)
  | .record _ members => .map (Entries.putAll [] (membersRead members))
  termination_by structural t => t

def itemsRead : List (Item Json.Tree) → List Value
  | [] => []
  | ⟨_, t, _⟩ :: items => treeRead t :: itemsRead items
  termination_by structural items => items

def membersRead : List (Member Json.Tree) → Entries Value
  | [] => []
  | ⟨key, ⟨_, t, _⟩⟩ :: members => (textRead key.content, treeRead t) :: membersRead members
  termination_by structural members => members

end

/-! ## Nodes have these values -/

theorem scalarValue_number (n : Numeral) (h : n.isShort = true) :
    scalarValue (Tag.ofPlain n.written) (.scalar (Tag.ofPlain n.written) n.written) =
      .ok (numberRead n) := by
  rw [ofPlain_numeral, numberRead]
  by_cases hplain : isPlainNumber n = true
  · rw [if_pos hplain, if_pos hplain]
    rcases hfraction : n.fraction with _ | f
    · have hexponent : n.exponent = none := by
        rcases hexponent : n.exponent with _ | e
        · rfl
        · simp [isPlainNumber, hfraction, hexponent] at hplain
      change Value.int <$> readInt n.written = _
      simp [readInt_written n h hfraction hexponent, Numeral.value, hfraction, hexponent]
    · have hvalue := readFloat_written n
      simp only [hfraction, Option.elim_some] at hvalue
      change Value.float <$> readFloat n.written = _
      simp [hvalue, Numeral.value, hfraction]
  · rw [if_neg hplain, if_neg hplain]
    rfl

theorem scalarValue_word (w : Word) :
    scalarValue (Tag.ofPlain w.written) (.scalar (Tag.ofPlain w.written) w.written) =
      .ok w.value := by
  cases w <;> rfl

theorem valueAt_scalar {tag : Tag} {text : List Char} {v : Value}
    (h : scalarValue tag (.scalar tag text) = .ok v) (level : Nat) :
    valueAt level (.scalar tag text) = (v, []) := by
  cases tag
  case seq | map | pairs => cases h
  all_goals simp only [valueAt, scalarAt, h]

mutual

theorem valueAt_tree : (t : Json.Tree) → t.isShort = true → (level : Nat) →
    valueAt level (treeNode t) = (treeRead t, [])
  | .word w, _, level => valueAt_scalar (scalarValue_word w) level
  | .number n, h, level => valueAt_scalar (scalarValue_number n h) level
  | .text ps, _, level => valueAt_scalar rfl level
  | .list _ items, h, level => by
    simp only [treeNode, valueAt, valuesAt_items items h, treeRead]
  | .record _ members, h, level => by
    simp only [treeNode, valueAt, entriesAt_members members h, treeRead]
    rfl
  termination_by structural t => t

theorem valuesAt_items : (items : List (Item Json.Tree)) →
    Json.allItems (fun _ => true) Numeral.isShort (fun _ => true) items = true → (level : Nat) →
    valuesAt level (itemNodes items) = (itemsRead items, [])
  | [], _, _ => rfl
  | ⟨_, t, _⟩ :: items, h, level => by
    simp only [Json.allItems, Bool.and_eq_true] at h
    simp only [itemNodes, valuesAt, valueAt_tree t h.1, valuesAt_items items h.2, itemsRead,
      List.append_nil]
  termination_by structural items => items

theorem entriesAt_members : (members : List (Member Json.Tree)) →
    Json.allMembers (fun _ => true) Numeral.isShort (fun _ => true) members = true → (level : Nat) →
    entriesAt level (memberNodes members) = (membersRead members, [])
  | [], _, _ => rfl
  | ⟨key, ⟨_, t, _⟩⟩ :: members, h, level => by
    have hkey : valueAt level (keyNode key) = (textRead key.content, []) := valueAt_scalar rfl level
    simp only [Json.allMembers, Bool.true_and, Bool.and_eq_true] at h
    simp only [memberNodes, entriesAt, hkey, valueAt_tree t h.1, entriesAt_members members h.2,
      membersRead]
    rfl
  termination_by structural members => members

end

mutual

/-- No key of JSON is a merge key: keys stand between quotes. -/
theorem merged_tree : (t : Json.Tree) → (treeNode t).merged = treeNode t
  | .word _ => rfl
  | .number _ => rfl
  | .text _ => rfl
  | .list _ items => by simp only [treeNode, Node.merged, merged_items items]
  | .record _ members => by
    simp only [treeNode, Node.merged, merged_members members, List.nil_append]
  termination_by structural t => t

theorem merged_items : (items : List (Item Json.Tree)) →
    mergedItems (itemNodes items) = itemNodes items
  | [] => rfl
  | ⟨_, t, _⟩ :: items => by simp only [itemNodes, mergedItems, merged_tree t, merged_items items]
  termination_by structural items => items

theorem merged_members : (members : List (Member Json.Tree)) →
    mergedEntries (memberNodes members) = ⟨[], [], memberNodes members⟩
  | [] => rfl
  | ⟨key, ⟨_, t, _⟩⟩ :: members => by
    have hkey : (keyNode key).merged = keyNode key := rfl
    have hmerge : isMergeKey (keyNode key) = false := rfl
    have hplain : plainKey (keyNode key) = keyNode key := rfl
    simp [memberNodes, mergedEntries, hkey, hmerge, hplain, merged_tree t, merged_members members]
  termination_by structural members => members

end

/-- A record of JSON is read, in a declaration text, as the record of what its parts are read as, or
not at all. -/
theorem read_written (before after blank : Gap) (members : List (Member Json.Tree))
    {text : List Char}
    (h : text = before.chars ++ ((Json.Tree.record blank members).written ++ after.chars))
    (hshort : (Json.Tree.record blank members).isShort = true) :
    if text.all isAllowed = true ∧ '\t' ∉ text ∧ (Json.Tree.record blank members).all isSimpleKey
        (fun _ => true) (fun ps => !endsDocument ps) = true then
      read text = .ok (treeRead (.record blank members))
    else ∃ f, read text = .error f := by
  have hroot := rootNode_written before after blank members h
  split at hroot
  · rename_i hall
    rw [if_pos hall, read, hroot]
    simp only [bind, Except.bind, merged_tree, valueAt_tree _ hshort, firstFound]
    rfl
  · rename_i hall
    obtain ⟨f, hf⟩ := hroot
    rw [if_neg hall]
    exact ⟨f, by rw [read, hf]; rfl⟩

/-! ## The same values as in JSON -/

theorem numberRead_eq_iff (n : Numeral) : numberRead n = n.value ↔ isPlainNumber n = true := by
  rw [numberRead]
  split
  · simp [*]
  · rename_i hplain
    have hvalue : Value.text (String.ofList n.written) ≠ n.value := by
      unfold Numeral.value
      split <;> nofun
    simp [hvalue, hplain]

theorem textRead_eq_iff (ps : List Piece) :
    textRead ps = Json.textOf ps ↔ isSteady [] ps = true := by
  rw [← folded_eq_iff, textRead, Json.textOf, Value.text.injEq, String.ofList_inj]

/-- Spaces alone are kept. -/
theorem isSteady_of_spaces {ps : List Piece} (h : ∀ p ∈ ps, ∀ b, blank? p = some b → b = ' ')
    {blanks : List Char} (hblanks : ∀ b ∈ blanks, b = ' ') : isSteady blanks ps = true := by
  have hkept {bs : List Char} (hbs : ∀ b ∈ bs, b = ' ') : isKept bs = true := by
    simpa [isKept] using Or.inl hbs
  induction ps generalizing blanks with
  | nil => exact hkept hblanks
  | cons p ps ih =>
    have hps : ∀ p ∈ ps, ∀ b, blank? p = some b → b = ' ' := fun p hp => h p (by simp [hp])
    cases hp : blank? p with
    | none => simp [isSteady, hp, hkept hblanks, @ih hps [] (by simp)]
    | some b =>
      have hb := h p (by simp) b hp
      have := @ih hps (blanks ++ [b]) (by simpa [or_imp, forall_and] using ⟨hblanks, hb⟩)
      simpa [isSteady, hp] using this

/-- A key on one line is read as it is in JSON. -/
theorem textRead_of_isSimpleKey {key : Item (List Piece)} (h : isSimpleKey key = true) :
    textRead key.content = Json.textOf key.content := by
  rw [textRead_eq_iff]
  simp only [isSimpleKey, keyText, Json.writtenQuote, List.all_cons, List.all_append,
    Bool.and_eq_true, List.all_eq_true, Bool.not_eq_true', List.mem_flatMap] at h
  refine isSteady_of_spaces (fun p hp b hb => ?_) (by simp)
  obtain ⟨hwritten, -, hblank⟩ := blank?_some hb
  by_contra hspace
  have hbreak := hblank.isBreak hspace
  have hclear := h.1.2.1.1 b ⟨p, hp, by simp [hwritten]⟩
  rw [hbreak] at hclear
  cases hclear

theorem keys_memberValues : (members : List (Member Json.Tree)) →
    (Json.memberValues members).map (·.1) = members.map fun m => Json.textOf m.key.content
  | [] => rfl
  | ⟨_, ⟨_, _, _⟩⟩ :: members => by
    simp [Json.memberValues, keys_memberValues members]

theorem keys_membersRead : (members : List (Member Json.Tree)) →
    Json.allMembers isSimpleKey (fun _ => true) (fun _ => true) members = true →
    (membersRead members).map (·.1) = members.map fun m => Json.textOf m.key.content
  | [], _ => rfl
  | ⟨_, ⟨_, _, _⟩⟩ :: members, h => by
    simp only [Json.allMembers, Bool.and_eq_true] at h
    simp [membersRead, textRead_of_isSimpleKey h.1.1, keys_membersRead members h.2]

theorem areKeys_texts {members : List (Member Json.Tree)}
    (h : (members.map fun m => chars m.key.content).Nodup) :
    AreKeys (members.map fun m => Json.textOf m.key.content) := by
  constructor
  · intro k hk
    obtain ⟨m, -, rfl⟩ := List.mem_map.1 hk
    rfl
  · rw [List.Nodup, List.pairwise_map] at h
    refine List.pairwise_map.2 (h.imp fun hne => ?_)
    simpa [Value.same, Json.textOf, String.ofList_inj] using hne

variable {members : List (Member Json.Tree)}

/-- A record with distinct keys has its entries as they are written. -/
theorem value_record (h : (members.map fun m => chars m.key.content).Nodup) (blank : Gap) :
    (Json.Tree.record blank members).value = .map (Json.memberValues members) := by
  have hkeys := areKeys_texts h
  rw [← keys_memberValues] at hkeys
  rw [Json.Tree.value, Entries.putAll_eq_append hkeys, List.nil_append]

theorem treeRead_record (h : (members.map fun m => chars m.key.content).Nodup)
    (hsimple : Json.allMembers isSimpleKey (fun _ => true) (fun _ => true) members = true)
    (blank : Gap) : treeRead (.record blank members) = .map (membersRead members) := by
  have hkeys := areKeys_texts h
  rw [← keys_membersRead members hsimple] at hkeys
  rw [treeRead, Entries.putAll_eq_append hkeys, List.nil_append]

mutual

/-- A tree whose keys are recognised is read as in JSON exactly if its numbers have plain forms and
its texts keep their blanks. -/
theorem treeRead_eq_iff : (t : Json.Tree) → t.isDistinct = true →
    t.all isSimpleKey (fun _ => true) (fun _ => true) = true →
    (treeRead t = t.value ↔ t.all (fun _ => true) isPlainNumber (isSteady []) = true)
  | .word _, _, _ => by simp [treeRead, Json.Tree.value, Json.Tree.all]
  | .number n, _, _ => numberRead_eq_iff n
  | .text ps, _, _ => textRead_eq_iff ps
  | .list _ items, h, hsimple => by
    rw [treeRead, Json.Tree.value, Value.list.injEq]
    exact itemsRead_eq_iff items h hsimple
  | .record blank members, h, hsimple => by
    simp only [Json.Tree.isDistinct, Bool.and_eq_true, decide_eq_true_eq] at h
    rw [treeRead_record h.1 hsimple, value_record h.1, Value.map.injEq]
    exact membersRead_eq_iff members h.2 hsimple
  termination_by structural t => t

theorem itemsRead_eq_iff : (items : List (Item Json.Tree)) → Json.areDistinct items = true →
    Json.allItems isSimpleKey (fun _ => true) (fun _ => true) items = true →
    (itemsRead items = Json.itemValues items ↔
      Json.allItems (fun _ => true) isPlainNumber (isSteady []) items = true)
  | [], _, _ => by simp [itemsRead, Json.itemValues, Json.allItems]
  | ⟨_, t, _⟩ :: items, h, hsimple => by
    simp only [Json.areDistinct, Json.allItems, Bool.and_eq_true] at h hsimple ⊢
    rw [itemsRead, Json.itemValues, List.cons.injEq, treeRead_eq_iff t h.1 hsimple.1,
      itemsRead_eq_iff items h.2 hsimple.2]
  termination_by structural items => items

theorem membersRead_eq_iff : (members : List (Member Json.Tree)) →
    Json.membersDistinct members = true →
    Json.allMembers isSimpleKey (fun _ => true) (fun _ => true) members = true →
    (membersRead members = Json.memberValues members ↔
      Json.allMembers (fun _ => true) isPlainNumber (isSteady []) members = true)
  | [], _, _ => by simp [membersRead, Json.memberValues, Json.allMembers]
  | ⟨key, ⟨_, t, _⟩⟩ :: members, h, hsimple => by
    simp only [Json.membersDistinct, Json.allMembers, Bool.true_and, Bool.and_eq_true]
      at h hsimple ⊢
    rw [membersRead, Json.memberValues, textRead_of_isSimpleKey hsimple.1.1, List.cons.injEq,
      Prod.mk.injEq, treeRead_eq_iff t h.1 hsimple.1.2, membersRead_eq_iff members h.2 hsimple.2]
    simp
  termination_by structural members => members

end

end FieldSchema.Markup
