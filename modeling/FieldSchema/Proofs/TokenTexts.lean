import FieldSchema.Proofs.ScanTurns

/-!
# Tokens of texts of JSON

A text of JSON is cut into the tokens of its parts, and the colon of a member makes a key of what
stands before it if that is on one line and short enough. Tabs between the parts are refused, and so
are texts between quotes in which the mark of a document follows a break (`tokens_written`).
-/

namespace FieldSchema.Markup

open Json (Piece Gap Item Member Numeral Word chars writtenQuote writtenKey writtenItems
  writtenMembers)

/-! ## Tokens of the parts -/

/-- The text of a key from its quote up to the colon. -/
def keyText (key : Item (List Piece)) : List Char :=
  '"' :: (writtenQuote key.content ++ key.after.chars)

/-- Whether a key is recognised as one. -/
def isSimpleKey (key : Item (List Piece)) : Bool :=
  (keyText key).all (!isBreak ·) && (keyText key).length ≤ maxKeyLength

def keyTokens (key : Item (List Piece)) : List Token :=
  (if isSimpleKey key then [.key] else []) ++ [.scalar (folded [] key.content) false, .value]

mutual

def treeTokens : Json.Tree → List Token
  | .word w => [.scalar w.written true]
  | .number n => [.scalar n.written true]
  | .text ps => [.scalar (folded [] ps) false]
  | .list _ items => .listStart :: itemTokens true items
  | .record _ members => .recordStart :: memberTokens true members
  termination_by structural t => t

def itemTokens (first : Bool) : List (Item Json.Tree) → List Token
  | [] => [.listEnd]
  | ⟨_, t, _⟩ :: items =>
    (if first then [] else [.separator]) ++ (treeTokens t ++ itemTokens false items)
  termination_by structural items => items

def memberTokens (first : Bool) : List (Member Json.Tree) → List Token
  | [] => [.recordEnd]
  | ⟨key, ⟨_, t, _⟩⟩ :: members =>
    (if first then [] else [.separator]) ++
      (keyTokens key ++ (treeTokens t ++ memberTokens false members))
  termination_by structural members => members

end

/-- Whether a key has no mark of a document behind a break. -/
def isCutKey (key : Item (List Piece)) : Bool := !endsDocument key.content

/-- Whether a tree is cut into tokens: whether no mark of a document stands behind a break in its
texts and keys. -/
def isCut (t : Json.Tree) : Bool := t.all isCutKey (fun _ => true) fun ps => !endsDocument ps

namespace Scan

/-! ## Keys -/

section Keys

variable {s : Scan} {rest : List Char} {k : Nat}

/-- The place of a key is too old at the colon exactly if the key is not recognised as one. -/
theorem isStale_colon {key : Item (List Piece)} {s' : Scan} {k : KeyPlace}
    (h : s.cursor.rest = keyText key ++ ':' :: rest)
    (hcursor : s'.cursor = s.cursor.skip (keyText key).length)
    (hindex : k.index = s.cursor.index) (hline : k.line = s.cursor.line) :
    s'.isStale k = !isSimpleKey key := by
  have hlength : s'.cursor.index - k.index = (keyText key).length := by
    rw [hcursor, Cursor.skip_index (by rw [h]; simp), hindex]
    omega
  have hbreaks := Cursor.skip_line_iff (by decide) h
  rw [← hcursor, eq_comm, ← hline] at hbreaks
  have hall : decide (k.line = s'.cursor.line) = (keyText key).all (!isBreak ·) := by
    rw [Bool.eq_iff_iff, decide_eq_true_iff, hbreaks]
    simp
  have hnot : decide (k.line ≠ s'.cursor.line) = !(keyText key).all (!isBreak ·) := by
    rw [← hall, decide_not]
  simp only [isStale, isSimpleKey, hnot, hlength, Bool.not_and, ← decide_not, Nat.not_le]

/-- At a colon the token in front of it becomes a key if its place is still known. -/
theorem leads_colon (hs : Calm s) (hk : s.depth = k + 1) (h : s.cursor.rest = ':' :: rest)
    {places : List (Nat × KeyPlace)} {place : KeyPlace}
    (hplaces : s.places = places ++ [(s.depth, place)])
    (hothers : ∀ p ∈ places, p.1 ≠ s.depth) {before : Array Token} {t : Token}
    (htokens : s.tokens = before.push t) (hplace : place.token = before.size) :
    ∃ s', Leads s s' ∧ Passed { s with tokens := before } [':']
      ((if s.isStale place then [] else [.key]) ++ [t, .value]) s' ∧
      Stand.Holds ⟨k + 1, false⟩ s' := by
  have hdepth : s.depth ≠ 0 := by omega
  have hat : AtToken s.cursor.rest := h ▸ atToken_cons rfl (by decide) _
  have hstep : s.fresh.step = s.fresh.valueMark := step_value h hdepth
  have hnone : (places.filter fun p => !s.isStale p.2).lookup s.depth = none := by
    rw [List.lookup_eq_none_iff]
    intro p hp
    have := hothers p (List.mem_filter.1 hp).1
    simpa using this.symm
  have hfresh : s.fresh.places = (places.filter fun p => !s.isStale p.2) ++
      if s.isStale place then [] else [(s.depth, place)] := by
    rw [fresh, hplaces]
    cases hstale : s.isStale place <;> simp [hstale]
  cases hstale : s.isStale place with
  | true =>
    have hlookup : s.fresh.places.lookup s.depth = none := by
      rw [hfresh, hstale]
      simpa using hnone
    have hvalue : s.fresh.step = .ok { s with
        cursor := s.cursor.skip 1
        tokens := s.tokens.push .value
        keyAllowed := decide (s.depth = 0)
        places := s.fresh.places.filter (·.1 ≠ s.depth) } := by
      have hinside : (decide (s.fresh.depth = 0) && !s.fresh.keyAllowed) = false := by
        simp [fresh, hdepth]
      have houtside : s.fresh.depth ≠ 0 := hdepth
      simp only [hstep, valueMark, show s.fresh.places.lookup s.fresh.depth = none from hlookup,
        hinside, if_neg houtside, hs.fresh.dropPlace, bind, Except.bind]
      rfl
    exact ⟨_, leads_step hs h hat hvalue (by simp [Cursor.skip_rest, h]),
      ⟨rfl, by simp [htokens]⟩, hs.fresh.places _ rfl rfl rfl, hk, by simp⟩
  | false =>
    have hlookup : s.fresh.places.lookup s.depth = some place := by
      rw [hfresh, hstale, List.lookup_append, hnone]
      simp
    have hvalue : s.fresh.step = .ok { s with
        cursor := s.cursor.skip 1
        tokens := ((before.push .key).push t).push .value
        keyAllowed := false
        places := s.fresh.places.filter (·.1 ≠ s.depth) } := by
      have houtside : s.fresh.depth ≠ 0 := hdepth
      have hinsert : (s.fresh.tokens.take place.token).push .key ++
          s.fresh.tokens.drop place.token = (before.push .key).push t := by
        rw [show s.fresh.tokens = before.push t from htokens, hplace, ← Array.toList_inj]
        simp
      simp only [hstep, valueMark, insert,
        show s.fresh.places.lookup s.fresh.depth = some place from hlookup,
        if_neg houtside, hinsert]
      rfl
    exact ⟨_, leads_step hs h hat hvalue (by simp [Cursor.skip_rest, h]),
      ⟨rfl, by simp⟩, hs.fresh.places _ rfl rfl rfl, hk, by simp⟩

/-- A key is passed with the colon behind it. -/
theorem cuts_key (key : Item (List Piece)) : Cuts ⟨k + 1, true⟩ (keyText key ++ [':']) rest
    (keyTokens key) (endsDocument key.content = false ∧ '\t' ∉ key.after.chars) ⟨k + 1, false⟩ := by
  rintro s ⟨hs, hk, hallowed⟩ h
  have hkey := hallowed rfl
  rw [List.append_assoc] at h
  change s.cursor.rest = keyText key ++ ':' :: rest at h
  have hquote : s.cursor.rest =
      '"' :: (writtenQuote key.content ++ (key.after.chars ++ ':' :: rest)) := by
    simpa [keyText] using h
  refine (scans_quoted hs hquote (hs.fresh.savePlace_key hkey)).trans ?_
  intro s₁ hs₁
  have hcursor₁ : s₁.cursor = s.cursor.skip ('"' :: writtenQuote key.content).length := by rw [hs₁]
  have hcalm₁ : Calm s₁ := by
    rw [hs₁]
    refine ⟨hs.indent, hs.outer, fun p hp => ?_⟩
    simp only [List.mem_append, List.mem_singleton] at hp
    rcases hp with hp | rfl
    · exact hs.fresh.required p (List.mem_filter.1 hp).1
    · rfl
  have hrest₁ : s₁.cursor.rest = key.after.chars ++ ':' :: rest := by
    rw [hcursor₁]
    exact Cursor.skip_append_rest (by simpa using hquote)
  refine ((scans_gap key.after (atToken_cons rfl (by decide) _) hcalm₁ hrest₁).trans ?_).congr
    (and_iff_left trivial) fun s' hs' => hs'
  rintro s₂ ⟨allowed, hs₂, -⟩
  have hdepth₂ : s₂.depth = s.depth := by rw [hs₂, hs₁]
  have hcursor₂ : s₂.cursor = s.cursor.skip (keyText key).length := by
    rw [hs₂]
    simp only [hcursor₁, ← Cursor.skip_append, keyText, List.cons_append]
  have hcalm₂ : Calm s₂ := by
    rw [hs₂]
    exact hcalm₁.of_places rfl rfl fun _ hp => hp
  have hcolon : s₂.cursor.rest = ':' :: rest := by rw [hcursor₂, Cursor.skip_append_rest h]
  obtain ⟨s₃, hlead, hpassed, hstand⟩ := leads_colon hcalm₂ (hdepth₂.trans hk) hcolon
    (by rw [hs₂, hs₁]; rfl) (fun p hp => hdepth₂ ▸ of_decide_eq_true (List.mem_filter.1 hp).2)
    (by rw [hs₂, hs₁]) rfl
  refine .of_leads hlead ⟨⟨?_, ?_⟩, hstand⟩
  · rw [hpassed.cursor, Cursor.skip_append]
    exact congrArg (·.skip 1) hcursor₂
  · rw [hpassed.tokens, isStale_colon h hcursor₂ rfl rfl, keyTokens]
    cases isSimpleKey key <;> rfl

end Keys

/-! ## Trees -/

section Trees

variable {rest w : List Char} {p q : Stand} {a : Bool} {k : Nat}

theorem tab_not_mem_plain (h : ∀ e ∈ w, isPlainChar e = true) : '\t' ∉ w :=
  fun htab => by cases h _ htab

theorem tab_not_mem_quote (ps : List Piece) : '\t' ∉ writtenQuote ps := by
  simp only [writtenQuote, List.mem_append, List.mem_flatMap, List.mem_singleton]
  rintro (⟨p, -, hp⟩ | hquote)
  · cases p with
    | raw e hraw =>
      obtain rfl := List.mem_singleton.1 hp
      cases hraw
    | escape letter e hletter =>
      simp only [Piece.written, List.mem_cons, List.not_mem_nil, or_false] at hp
      obtain hp | rfl := hp
      · cases hp
      · cases hletter
    | code a b e f hdigits hhalf =>
      simp only [List.all_cons, List.all_nil, Bool.and_eq_true] at hdigits
      simp only [Piece.written, List.mem_cons, List.not_mem_nil, or_false] at hp
      obtain hp | hp | rfl | rfl | rfl | rfl := hp
      · cases hp
      · cases hp
      · cases hdigits.1
      · cases hdigits.2.1
      · cases hdigits.2.2.1
      · cases hdigits.2.2.2.1
  · cases hquote

theorem atToken_tree (t : Json.Tree) (rest : List Char) : AtToken (t.written ++ rest) := by
  obtain ⟨c, cs, hcs, hc⟩ := t.exists_cons
  have hne (e : Char) (he : Json.opens e = false) : c ≠ e := by
    rintro rfl
    simp [hc] at he
  rw [hcs]
  refine atToken_cons ?_ (hne '#' rfl) _
  simp [isFirm, isBreak, hne ' ' rfl, hne '\n' rfl, hne '\r' rfl, hne '\x85' rfl, hne '\u2028' rfl,
    hne '\u2029' rfl]

theorem items_close (items : List (Item Json.Tree)) (rest : List Char) :
    ∃ d more, writtenItems false items ++ rest = d :: more ∧ IsClose d := by
  rcases items with _ | ⟨item, items⟩
  · exact ⟨']', rest, rfl, Or.inr (Or.inl rfl)⟩
  · exact ⟨',', _, by rw [Json.writtenItems_cons, List.cons_append], Or.inl rfl⟩

theorem members_close (members : List (Member Json.Tree)) (rest : List Char) :
    ∃ d more, writtenMembers false members ++ rest = d :: more ∧ IsClose d := by
  rcases members with _ | ⟨member, members⟩
  · exact ⟨'\x7d', rest, rfl, Or.inr (Or.inr rfl)⟩
  · exact ⟨',', _, by rw [Json.writtenMembers_cons, List.cons_append], Or.inl rfl⟩

theorem cuts_listStart : Cuts ⟨k, a⟩ ['['] rest [.listStart] True ⟨k + 1, true⟩ :=
  cuts_open ⟨rfl, by decide⟩ fun _ => step_listStart

theorem cuts_recordStart : Cuts ⟨k, a⟩ ['\x7b'] rest [.recordStart] True ⟨k + 1, true⟩ :=
  cuts_open ⟨rfl, by decide⟩ fun _ => step_recordStart

theorem cuts_listEnd : Cuts ⟨k + 1, a⟩ [']'] rest [.listEnd] True ⟨k, false⟩ :=
  cuts_close ⟨rfl, by decide⟩ fun _ => step_listEnd

theorem cuts_recordEnd : Cuts ⟨k + 1, a⟩ ['\x7d'] rest [.recordEnd] True ⟨k, false⟩ :=
  cuts_close ⟨rfl, by decide⟩ fun _ => step_recordEnd

theorem cuts_word (w : Word) (g : Gap) {d : Char} (hd : IsClose d) :
    Cuts ⟨k + 1, a⟩ (w.written ++ g.chars) (d :: rest) [.scalar w.written true] ('\t' ∉ g.chars)
      ⟨k + 1, false⟩ := by
  obtain ⟨e, more, hw, he, hplain⟩ := word_plainChar w
  rw [hw] at hplain ⊢
  refine cuts_plain g (Or.inr he) ?_ hplain hd
  rintro rfl
  cases he

theorem cuts_number (n : Numeral) (g : Gap) {d : Char} (hd : IsClose d) :
    Cuts ⟨k + 1, a⟩ (n.written ++ g.chars) (d :: rest) [.scalar n.written true] ('\t' ∉ g.chars)
      ⟨k + 1, false⟩ := by
  obtain ⟨e, more, he, hn⟩ := n.exists_digit
  have hplain := numeral_plainChar n
  rcases hn with hn | hn <;> rw [hn] at hplain ⊢
  · refine cuts_plain g (Or.inr (by simp [Char.isAlphanum, he])) ?_ hplain hd
    rintro rfl
    cases he
  · exact cuts_plain g (Or.inl rfl) (fun _ => ⟨e, more, rfl, he⟩) hplain hd

theorem cuts_list (blank : Gap) (items : List (Item Json.Tree))
    (h : Cuts ⟨k + 1, true⟩ (writtenItems true items) rest (itemTokens true items)
      ('\t' ∉ writtenItems true items ∧ isCut (.list blank items) = true) ⟨k, false⟩) :
    Cuts ⟨k, a⟩ (Json.Tree.list blank items).written rest (treeTokens (.list blank items))
      ('\t' ∉ (Json.Tree.list blank items).written ∧ isCut (.list blank items) = true)
      ⟨k, false⟩ := by
  have hblank : Cuts ⟨k + 1, true⟩ (if items.isEmpty then blank.chars else [])
      (writtenItems true items ++ rest) [] ('\t' ∉ if items.isEmpty then blank.chars else [])
      ⟨k + 1, true⟩ := by
    rcases items with _ | ⟨item, items⟩
    · exact cuts_white blank (atToken_cons (d := ']') rfl (by decide) rest)
    · exact Cuts.nil.congr (by simp) rfl rfl
  refine (cuts_listStart.append (hblank.append h)).congr ?_ rfl rfl
  simp [Json.Tree.written, not_or, and_assoc]

theorem cuts_record (blank : Gap) (members : List (Member Json.Tree))
    (h : Cuts ⟨k + 1, true⟩ (writtenMembers true members) rest (memberTokens true members)
      ('\t' ∉ writtenMembers true members ∧ isCut (.record blank members) = true) ⟨k, false⟩) :
    Cuts ⟨k, a⟩ (Json.Tree.record blank members).written rest (treeTokens (.record blank members))
      ('\t' ∉ (Json.Tree.record blank members).written ∧ isCut (.record blank members) = true)
      ⟨k, false⟩ := by
  have hblank : Cuts ⟨k + 1, true⟩ (if members.isEmpty then blank.chars else [])
      (writtenMembers true members ++ rest) [] ('\t' ∉ if members.isEmpty then blank.chars else [])
      ⟨k + 1, true⟩ := by
    rcases members with _ | ⟨member, members⟩
    · exact cuts_white blank (atToken_cons (d := '\x7d') rfl (by decide) rest)
    · exact Cuts.nil.congr (by simp) rfl rfl
  refine (cuts_recordStart.append (hblank.append h)).congr ?_ rfl rfl
  simp [Json.Tree.written, not_or, and_assoc]

theorem itemTokens_cons (item : Item Json.Tree) (items : List (Item Json.Tree)) :
    itemTokens false (item :: items) = .separator :: itemTokens true (item :: items) := by
  obtain ⟨before, t, after⟩ := item
  simp [itemTokens]

theorem memberTokens_cons (member : Member Json.Tree) (members : List (Member Json.Tree)) :
    memberTokens false (member :: members) =
      .separator :: memberTokens true (member :: members) := by
  obtain ⟨key, before, t, after⟩ := member
  simp [memberTokens]

mutual

theorem cuts_tree : (t : Json.Tree) → (g : Gap) → (a : Bool) → (k : Nat) → {d : Char} →
    (rest : List Char) → IsClose d →
    Cuts ⟨k + 1, a⟩ (t.written ++ g.chars) (d :: rest) (treeTokens t)
      ('\t' ∉ t.written ++ g.chars ∧ isCut t = true) ⟨k + 1, false⟩
  | .word w, g, a, k, d, rest, hd => by
    obtain ⟨-, -, -, -, hplain⟩ := word_plainChar w
    have htab := tab_not_mem_plain hplain
    refine (cuts_word w g hd).congr ?_ rfl rfl
    simp [isCut, Json.Tree.all, Json.Tree.written, htab]
  | .number n, g, a, k, d, rest, hd => by
    have htab := tab_not_mem_plain (numeral_plainChar n)
    refine (cuts_number n g hd).congr ?_ rfl rfl
    simp [isCut, Json.Tree.all, Json.Tree.written, htab]
  | .text ps, g, a, k, d, rest, hd => by
    refine ((cuts_text ps).append (cuts_white g (hd.atToken rest))).congr ?_ rfl
      (by simp [treeTokens])
    simp [isCut, Json.Tree.all, Json.Tree.written, tab_not_mem_quote, and_comm]
  | .list blank items, g, a, k, d, rest, hd => by
    have hitems := cuts_items items true (k + 1) (g.chars ++ d :: rest)
    refine ((cuts_list blank items hitems).append (cuts_white g (hd.atToken rest))).congr ?_ rfl
      (by simp)
    simp only [List.mem_append]
    tauto
  | .record blank members, g, a, k, d, rest, hd => by
    have hmembers := cuts_members members (k + 1) (g.chars ++ d :: rest)
    refine ((cuts_record blank members hmembers).append (cuts_white g (hd.atToken rest))).congr ?_
      rfl (by simp)
    simp only [List.mem_append]
    tauto
  termination_by structural t => t

theorem cuts_items : (items : List (Item Json.Tree)) → (a : Bool) → (k : Nat) → (rest : List Char) →
    Cuts ⟨k + 1, a⟩ (writtenItems true items) rest (itemTokens true items)
      ('\t' ∉ writtenItems true items ∧
        Json.allItems isCutKey (fun _ => true) (fun ps => !endsDocument ps) items = true) ⟨k, false⟩
  | [], a, k, rest => cuts_listEnd.congr (by simp [writtenItems, Json.allItems]) rfl rfl
  | ⟨before, t, after⟩ :: items, a, k, rest => by
    obtain ⟨d, more, hbehind, hd⟩ := items_close items rest
    have htree := cuts_tree t after a k more hd
    rw [← hbehind] at htree
    have hlast : Cuts ⟨k + 1, false⟩ (writtenItems false items) rest (itemTokens false items)
        ('\t' ∉ writtenItems false items ∧
          Json.allItems isCutKey (fun _ => true) (fun ps => !endsDocument ps) items = true)
        ⟨k, false⟩ := by
      rcases items with _ | ⟨item, items⟩
      · exact cuts_listEnd.congr (by simp [writtenItems, Json.allItems]) rfl rfl
      · have hitems := cuts_items (item :: items) true k rest
        refine (cuts_separator.append hitems).congr ?_ (Json.writtenItems_cons item items).symm
          (itemTokens_cons item items).symm
        simp [Json.writtenItems_cons]
    refine ((cuts_white before ?_).append (htree.append hlast)).congr ?_ ?_ ?_
    · rw [List.append_assoc, List.append_assoc]
      exact atToken_tree t _
    · simp only [writtenItems, if_true, List.nil_append, List.mem_append, Json.allItems,
        Bool.and_eq_true, isCut]
      tauto
    · simp [writtenItems]
    · simp [itemTokens]
  termination_by structural items => items

theorem cuts_members : (members : List (Member Json.Tree)) → (k : Nat) → (rest : List Char) →
    Cuts ⟨k + 1, true⟩ (writtenMembers true members) rest (memberTokens true members)
      ('\t' ∉ writtenMembers true members ∧
        Json.allMembers isCutKey (fun _ => true) (fun ps => !endsDocument ps) members = true)
      ⟨k, false⟩
  | [], k, rest => cuts_recordEnd.congr (by simp [writtenMembers, Json.allMembers]) rfl rfl
  | ⟨key, ⟨before, t, after⟩⟩ :: members, k, rest => by
    obtain ⟨d, more, hbehind, hd⟩ := members_close members rest
    have htree := cuts_tree t after false k more hd
    rw [← hbehind] at htree
    have hlast : Cuts ⟨k + 1, false⟩ (writtenMembers false members) rest
        (memberTokens false members)
        ('\t' ∉ writtenMembers false members ∧
          Json.allMembers isCutKey (fun _ => true) (fun ps => !endsDocument ps) members = true)
        ⟨k, false⟩ := by
      rcases members with _ | ⟨member, members⟩
      · exact cuts_recordEnd.congr (by simp [writtenMembers, Json.allMembers]) rfl rfl
      · have hmembers := cuts_members (member :: members) k rest
        refine (cuts_separator.append hmembers).congr ?_
          (Json.writtenMembers_cons member members).symm (memberTokens_cons member members).symm
        simp [Json.writtenMembers_cons]
    have hvalue := (cuts_white (p := ⟨k + 1, false⟩) before ?_).append (htree.append hlast)
    · refine ((cuts_white key.before ?_).append ((cuts_key key).append hvalue)).congr ?_ ?_ ?_
      · exact atToken_cons (d := '"') rfl (by decide) _
      · have hquote : '\t' ≠ '"' := by decide
        have hcolon : '\t' ≠ ':' := by decide
        simp only [writtenMembers, writtenKey, if_true, List.nil_append, List.mem_append,
          List.mem_cons, List.not_mem_nil, Json.allMembers, Bool.and_eq_true, Bool.not_eq_true',
          isCut, isCutKey, tab_not_mem_quote]
        tauto
      · simp [writtenMembers, writtenKey, keyText]
      · simp [memberTokens]
    · rw [List.append_assoc, List.append_assoc]
      exact atToken_tree t _
  termination_by structural members => members

end

end Trees

end Scan

/-! ## Whole texts -/

theorem cuts_text_record (before after blank : Gap) (members : List (Member Json.Tree)) :
    Scan.Cuts ⟨0, true⟩
      (before.chars ++ ((Json.Tree.record blank members).written ++ after.chars)) []
      (treeTokens (.record blank members))
      ('\t' ∉ before.chars ++ ((Json.Tree.record blank members).written ++ after.chars) ∧
        isCut (.record blank members) = true) ⟨0, false⟩ := by
  have hrecord := Scan.cuts_record (a := true) blank members
    (Scan.cuts_members members 0 (after.chars ++ []))
  have hafter := Scan.cuts_white (p := ⟨0, false⟩) after (by simp [Scan.AtToken] : Scan.AtToken [])
  have hat := Scan.atToken_tree (.record blank members) (after.chars ++ [])
  rw [← List.append_assoc] at hat
  refine ((Scan.cuts_white before hat).append (hrecord.append hafter)).congr ?_ rfl (by simp)
  simp only [List.mem_append]
  tauto

/-- A record of JSON is cut into its tokens if all its characters are allowed, there is no tab
between its parts and no mark of a document behind a break in its texts, and otherwise it has
none. -/
theorem tokens_written (before after blank : Gap) (members : List (Member Json.Tree))
    {text : List Char}
    (h : text = before.chars ++ ((Json.Tree.record blank members).written ++ after.chars)) :
    if text.all isAllowed = true ∧ '\t' ∉ text ∧ isCut (.record blank members) = true then
      tokens text = .ok (treeTokens (.record blank members))
    else ∃ f, tokens text = .error f := by
  have hmark : (Scan.start text).cursor.char ≠ '\ufeff' := by
    rcases hbefore : before.chars with _ | ⟨d, more⟩
    · rw [Cursor.char_cons (show (Scan.start text).cursor.rest = '\x7b' :: _ by
        rw [h, hbefore]; rfl)]
      decide
    · rw [Cursor.char_cons (show (Scan.start text).cursor.rest = d :: _ by rw [h, hbefore]; rfl)]
      rintro rfl
      have hspace := before.isSpace '\ufeff' (by rw [hbefore]; simp)
      cases hspace
  have hscans := cuts_text_record before after blank members
  rw [← h] at hscans
  have hscan := hscans (Scan.start text) ⟨⟨rfl, rfl, nofun⟩, rfl, fun _ => rfl⟩
    (by simp [Scan.start, Cursor.start])
  by_cases hallowed : text.all isAllowed = true
  · have htokens : tokens text =
        (Scan.start text).toEnd (text.length + 2) >>= fun ts => pure ts.toList := by
      simp only [tokens, hallowed, Bool.not_true, if_neg hmark]
      rfl
    rw [htokens]
    rcases hscan with ⟨hgood, s', ⟨n, hn, hlead⟩, hpassed, hstand⟩ | ⟨hbad, hfail⟩
    · have hrest : s'.cursor.rest = [] := hpassed.behind (by simp [Scan.start, Cursor.start])
      obtain ⟨fuel, hfuel⟩ : ∃ fuel, text.length + 2 = fuel + n + 1 := by
        have : (Scan.start text).cursor.rest.length = text.length := rfl
        exact ⟨text.length + 1 - n, by omega⟩
      rw [if_pos ⟨hallowed, hgood⟩, hfuel, hlead, Scan.toEnd_end hstand.calm hrest]
      exact congrArg Except.ok hpassed.tokens
    · rw [if_neg fun hall => hbad hall.2]
      obtain ⟨f, hf⟩ := hfail (text.length + 2) (Nat.le_refl _)
      exact ⟨f, by rw [hf]; rfl⟩
  · rw [if_neg fun hall => hallowed hall.1]
    exact ⟨.flaw .unprintable, by simp [tokens, hallowed]; rfl⟩

end FieldSchema.Markup
