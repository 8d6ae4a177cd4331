import FieldSchema.Proofs.Characters
import FieldSchema.Proofs.Undisturbed

/-!
# Both spellings of a name

A name of words with underscores between them can be written with capitals instead, and is found
again (`WordedName.snakeCase_camelCased`). A name without capitals is its own spelling
(`snakeCase_snakeCase`). So a class that lists such a name has the method under both spellings,
unless the one with capitals is listed as well. It fails where the name is listed for all kinds and
the class of a kind has something else under it (`Registry.Reached.resolveOn?_both_iff`).
-/

namespace FieldSchema

/-! ## Letters -/

section

variable {c : Char} {cs rest : List Char}

theorem isCapital_eq_isUpper (c : Char) : isCapital c = c.isUpper :=
  (Bool.decide_and ('A'.val ≤ c.val) (c.val ≤ 'Z'.val)).symm

/-- What holds of the first 128 characters holds of each of them. -/
theorem of_ascii {P : Char → Prop} (h : c.toNat < 128) (hall : ∀ n < 128, P (Char.ofNat n)) :
    P c := by
  simpa using hall c.toNat h

theorem toLower_eq_self (h : c.toNat < 128) : c.isUpper = false → c.toLower = c :=
  of_ascii (P := fun c => c.isUpper = false → c.toLower = c) h (by decide)

theorem isSmall_toLower (h : c.toNat < 128) :
    c.toLower.toNat < 128 ∧ c.toLower.isUpper = false :=
  of_ascii (P := fun c => c.toLower.toNat < 128 ∧ c.toLower.isUpper = false) h (by decide)

theorem ascii_of_isLower (h : c.isLower = true) : c.toNat < 128 := by
  have hle : c.val ≤ 'z'.val := of_decide_eq_true (Bool.and_eq_true_iff.1 h).2
  exact Nat.lt_of_le_of_lt (UInt32.le_iff_toNat_le.1 hle) (by decide)

theorem isUpper_eq_false (h : c.toNat < 128) :
    (c.isLower || c.isDigit) = true → c.isUpper = false :=
  of_ascii (P := fun c => (c.isLower || c.isDigit) = true → c.isUpper = false) h (by decide)

theorem isCapital_toUpper (h : c.toNat < 128) : c.isLower = true →
    c.toUpper.toNat < 128 ∧ isCapital c.toUpper = true ∧ c.toUpper.toLower = c :=
  of_ascii (P := fun c => c.isLower = true →
    c.toUpper.toNat < 128 ∧ isCapital c.toUpper = true ∧ c.toUpper.toLower = c) h (by decide)

theorem separateCapitals_append (cs ds : List Char) :
    separateCapitals (cs ++ ds) = separateCapitals cs ++ separateCapitals ds :=
  List.flatMap_append

theorem separateCapitals_eq_self (h : ∀ c ∈ cs, c.isUpper = false) : separateCapitals cs = cs := by
  induction cs with
  | nil => rfl
  | cons c cs ih =>
    obtain ⟨hc, hcs⟩ := List.forall_mem_cons.1 h
    have hcons : separateCapitals (c :: cs) = [c] ++ separateCapitals cs := by
      simp [separateCapitals, isCapital_eq_isUpper, hc]
    rw [hcons, ih hcs, List.singleton_append]

theorem ascii_of_mem_separateCapitals (h : ∀ c ∈ cs, c.toNat < 128) :
    ∀ c ∈ separateCapitals cs, c.toNat < 128 := by
  intro c hc
  obtain ⟨d, hd, hc⟩ := List.mem_flatMap.1 hc
  split at hc
  · rcases List.mem_cons.1 hc with rfl | hc
    · decide
    · rw [List.mem_singleton.1 hc]
      exact h d hd
  · rw [List.mem_singleton.1 hc]
    exact h d hd

theorem snakeCase_cons (h : ∀ d ∈ c :: cs, d.toNat < 128) :
    snakeCase (c :: cs) = (c :: separateCapitals cs).map Char.toLower := by
  obtain ⟨hc, hcs⟩ := List.forall_mem_cons.1 h
  exact Text.lower_ascii (List.forall_mem_cons.2 ⟨hc, ascii_of_mem_separateCapitals hcs⟩)

theorem map_toLower_eq_self (h : ∀ c ∈ cs, c.toNat < 128 ∧ c.isUpper = false) :
    cs.map Char.toLower = cs :=
  (List.map_congr_left fun c hc => toLower_eq_self (h c hc).1 (h c hc).2).trans (List.map_id cs)

/-- A text that is in lower case already is its own spelling. -/
theorem snakeCase_eq_self (h : ∀ c ∈ cs, c.toNat < 128 ∧ c.isUpper = false) :
    snakeCase cs = cs := by
  cases cs with
  | nil => rfl
  | cons c cs =>
    rw [snakeCase_cons fun d hd => (h d hd).1,
      separateCapitals_eq_self fun d hd => (h d (.tail _ hd)).2]
    exact map_toLower_eq_self h

theorem snakeCase_snakeCase (h : ∀ c ∈ cs, c.toNat < 128) :
    snakeCase (snakeCase cs) = snakeCase cs := by
  cases cs with
  | nil => rfl
  | cons c cs =>
    obtain ⟨hc, hcs⟩ := List.forall_mem_cons.1 h
    refine snakeCase_eq_self fun d hd => ?_
    rw [snakeCase_cons h] at hd
    obtain ⟨e, he, rfl⟩ := List.mem_map.1 hd
    have hascii : ∀ e ∈ c :: separateCapitals cs, e.toNat < 128 :=
      List.forall_mem_cons.2 ⟨hc, ascii_of_mem_separateCapitals hcs⟩
    exact isSmall_toLower (hascii e he)

end

/-! ## Words -/

/-- A word of a name: a small letter of ASCII, then small letters and digits. -/
structure NameWord where
  first : Char
  rest : List Char
  isLower_first : first.isLower = true
  isSmall_rest : (rest.all fun c => c.isLower || c.isDigit) = true

namespace NameWord

variable (w : NameWord)

def chars : List Char := w.first :: w.rest

def capitalized : List Char := w.first.toUpper :: w.rest

theorem isSmall {c : Char} (h : c ∈ w.chars) : c.toNat < 128 ∧ c.isUpper = false := by
  have hsmall : (c.isLower || c.isDigit) = true := by
    rcases List.mem_cons.1 h with rfl | h
    · simp [w.isLower_first]
    · exact List.all_eq_true.1 w.isSmall_rest c h
  have hascii : c.toNat < 128 := by
    rcases Bool.or_eq_true_iff.1 hsmall with hlower | hdigit
    · exact ascii_of_isLower hlower
    · exact (Text.bounds_of_isDigit hdigit).2.trans_lt (by decide)
  exact ⟨hascii, isUpper_eq_false hascii hsmall⟩

theorem map_toLower_chars : w.chars.map Char.toLower = w.chars :=
  map_toLower_eq_self fun _ hc => w.isSmall hc

theorem capital_first : w.first.toUpper.toNat < 128 ∧ isCapital w.first.toUpper = true ∧
    w.first.toUpper.toLower = w.first :=
  isCapital_toUpper (w.isSmall (.head _)).1 w.isLower_first

theorem map_toLower_capitalized : w.capitalized.map Char.toLower = w.chars := by
  have hrest : w.rest.map Char.toLower = w.rest :=
    map_toLower_eq_self fun _ hc => w.isSmall (.tail _ hc)
  rw [capitalized, List.map_cons, w.capital_first.2.2, hrest, chars]

theorem ascii_of_mem_capitalized {c : Char} (h : c ∈ w.capitalized) : c.toNat < 128 := by
  rcases List.mem_cons.1 h with rfl | h
  · exact w.capital_first.1
  · exact (w.isSmall (.tail _ h)).1

/-- The capital of a word is separated from what stands before. -/
theorem separateCapitals_capitalized : separateCapitals w.capitalized = '_' :: w.capitalized := by
  have hrest : separateCapitals w.rest = w.rest :=
    separateCapitals_eq_self fun c hc => (w.isSmall (.tail _ hc)).2
  have hcons : separateCapitals w.capitalized =
      ['_', w.first.toUpper] ++ separateCapitals w.rest := by
    simp [separateCapitals, capitalized, w.capital_first.2.1]
  rw [hcons, hrest]
  rfl

end NameWord

/-- A name that is made of words. -/
structure WordedName where
  first : NameWord
  later : List NameWord

namespace WordedName

variable (n : WordedName)

/-- The words with underscores between them. -/
def underscored : List Char := n.first.chars ++ n.later.flatMap fun w => '_' :: w.chars

/-- The words without anything between them, all but the first with a capital. -/
def camelCased : List Char := n.first.chars ++ n.later.flatMap (·.capitalized)

theorem isSmall_underscored {c : Char} (h : c ∈ n.underscored) :
    c.toNat < 128 ∧ c.isUpper = false := by
  rcases List.mem_append.1 h with h | h
  · exact n.first.isSmall h
  · obtain ⟨w, -, hc⟩ := List.mem_flatMap.1 h
    rcases List.mem_cons.1 hc with rfl | hc
    · decide
    · exact w.isSmall hc

theorem ascii_of_mem_camelCased {c : Char} (h : c ∈ n.camelCased) : c.toNat < 128 := by
  rcases List.mem_append.1 h with h | h
  · exact (n.first.isSmall h).1
  · obtain ⟨w, -, hc⟩ := List.mem_flatMap.1 h
    exact w.ascii_of_mem_capitalized hc

theorem separateCapitals_later (ws : List NameWord) :
    separateCapitals (ws.flatMap (·.capitalized)) = ws.flatMap fun w => '_' :: w.capitalized := by
  induction ws with
  | nil => rfl
  | cons w ws ih =>
    rw [List.flatMap_cons, separateCapitals_append, w.separateCapitals_capitalized, ih,
      List.flatMap_cons]

/-- The spelling with capitals leads back to the words with underscores. -/
theorem snakeCase_camelCased : snakeCase n.camelCased = n.underscored := by
  have hascii : ∀ c ∈ n.first.first :: (n.first.rest ++ n.later.flatMap (·.capitalized)),
      c.toNat < 128 := fun c hc => n.ascii_of_mem_camelCased hc
  have hrest : separateCapitals n.first.rest = n.first.rest :=
    separateCapitals_eq_self fun c hc => (n.first.isSmall (.tail _ hc)).2
  have hlower : '_'.toLower = '_' := rfl
  calc snakeCase n.camelCased
      = (n.first.chars ++ n.later.flatMap fun w => '_' :: w.capitalized).map Char.toLower := by
        rw [NameWord.chars, List.cons_append, ← separateCapitals_later, ← hrest,
          ← separateCapitals_append]
        exact snakeCase_cons hascii
    _ = n.underscored := by
        rw [List.map_append, NameWord.map_toLower_chars, List.map_flatMap]
        simp only [List.map_cons, hlower, NameWord.map_toLower_capitalized, underscored]

theorem snakeCase_underscored : snakeCase n.underscored = n.underscored :=
  snakeCase_eq_self fun _ hc => n.isSmall_underscored hc

/-- The name as it is listed, and as it can be written with capitals. -/
def name : String := String.ofList n.underscored

def camelName : String := String.ofList n.camelCased

theorem spellings_name : spellings n.name = [n.name, n.name] := by
  rw [spellings, name, String.toList_ofList, snakeCase_underscored]

theorem spellings_camelName : spellings n.camelName = [n.camelName, n.name] := by
  rw [spellings, camelName, String.toList_ofList, snakeCase_camelCased, name]

end WordedName

/-! ## Methods under both spellings -/

namespace Registry

variable {registry : Registry} {c : Option Kind} {n : String} {names : List String}

/-- A class has something under every name that is on its list. -/
theorem Reached.isSome_found? (h : registry.Reached)
    (hc : (registry.entry c).listing = .ok names) (hn : n ∈ names) :
    (registry.found? c n).isSome = true := by
  induction h generalizing c names with
  | nothing =>
    obtain rfl := Except.ok.inj hc
    exact isSome_found?_iff.2 (.inl hn)
  | @register registry _ kind? v recipe ih =>
    cases hname : methodName v with
    | error m =>
      simp only [Registry.register, hname] at hc ⊢
      exact ih hc hn
    | ok name =>
      rw [isSome_found?_iff, recipe?_register hname]
      rw [entry_register hname] at hc
      by_cases hwritten : c = kind? ∧ n = name
      · rw [if_pos hwritten]
        exact .inr rfl
      · rw [if_neg hwritten, ← isSome_found?_iff]
        split_ifs at hc with heq
        · subst heq
          simp only [ClassEntry.listing_eq_ok_iff, ClassEntry.register_eq] at hc
          split_ifs at hc
          obtain ⟨old, hold, rfl⟩ := Option.map_eq_some_iff.1 hc
          have hn : n ∈ old := (ClassEntry.mem_insertName.1 hn).resolve_right fun heq =>
            hwritten ⟨rfl, heq⟩
          exact ih (ClassEntry.listing_eq_ok_iff.2 hold) hn
        · exact ih hc hn

/-- What a class answers with is on the list of one of the classes along its lineage. -/
theorem exists_found?_of_mem_names (h : registry.Reached) (hn : n ∈ registry.names c) :
    ∃ d ∈ lineage c, (registry.found? d n).isSome = true := by
  unfold Registry.names at hn
  cases hmethods : registry.methods c with
  | error m =>
    rw [hmethods] at hn
    cases hn
  | ok names =>
    rw [hmethods] at hn
    unfold methods at hmethods
    split_ifs at hmethods
    obtain ⟨lists, hlists, rfl⟩ := Except.exists_of_map_eq_ok hmethods
    obtain ⟨listed, hlisted, hn⟩ := List.mem_flatten.1 hn
    obtain ⟨d, hd, hlisting⟩ := Except.exists_of_mem_mapM hlists listed hlisted
    exact ⟨d, hd, h.isSome_found? hlisting hn⟩

/-- That the class of a kind has something else than a method under a name, and no recipe. -/
def IsHidden (registry : Registry) (c : Option Kind) (n : String) : Prop :=
  ∃ kind, c = some kind ∧ n ∈ ownData kind ∧ registry.recipe? c n = none

theorem Reached.isSome_capability?_iff (h : registry.Reached) (hn : n ∈ registry.names c) :
    (registry.capability? c n).isSome = true ↔ ¬ registry.IsHidden c n := by
  obtain ⟨d, hd, hfound⟩ := exists_found?_of_mem_names h hn
  cases c with
  | none =>
    obtain rfl := List.mem_singleton.1 hd
    refine iff_of_true hfound ?_
    rintro ⟨kind, hkind, -⟩
    cases hkind
  | some kind =>
    have hown : (registry.found? (some kind) n).isSome = true ↔
        n ∈ ClassEntry.builtInNames (some kind) ∨ registry.recipe? (some kind) n ≠ none := by
      rw [isSome_found?_iff, Option.isSome_iff_ne_none]
    have hattribute : n ∈ ownData kind → n ∉ ClassEntry.builtInNames (some kind) := fun hdata hn =>
      builtInNames_not_attributes hn (mem_attributeNames_of_ownData hdata)
    have hhidden : registry.IsHidden (some kind) n ↔
        n ∈ ownData kind ∧ registry.recipe? (some kind) n = none := by
      simp [IsHidden]
    rw [capability?, Option.isSome_or, Bool.or_eq_true, hown, hhidden]
    by_cases hdata : n ∈ ownData kind
    · simp [hdata, hattribute hdata]
    · rw [if_neg (by simpa using hdata)]
      refine iff_of_true ?_ fun hh => hdata hh.1
      rcases List.mem_cons.1 hd with rfl | hd
      · exact .inr hfound
      · rw [List.mem_singleton.1 hd] at hfound
        exact .inl (hown.1 hfound)

/-- That a class has a method under its name, and under the spelling with capitals unless that is
listed for itself. -/
def ResolvesBoth (registry : Registry) (c : Option Kind) (n : WordedName) : Prop :=
  registry.resolveOn? c (.text n.name) = some n.name ∧
    (n.camelName ∉ registry.names c →
      registry.resolveOn? c (.text n.camelName) = some n.name)

/-- Both spellings lead to a name that is listed, if there is anything under it. -/
theorem resolvesBoth_iff {n : WordedName} (hn : n.name ∈ registry.names c) :
    registry.ResolvesBoth c n ↔ (registry.capability? c n.name).isSome = true := by
  have hname : registry.resolveOn? c (.text n.name) = some n.name ↔
      (registry.capability? c n.name).isSome = true := by
    cases hsome : (registry.capability? c n.name).isSome <;>
      simp [resolveOn?, n.spellings_name, hn, hsome]
  have hcamel : n.camelName ∉ registry.names c → (registry.capability? c n.name).isSome = true →
      registry.resolveOn? c (.text n.camelName) = some n.name := fun hunlisted hsome => by
    simp [resolveOn?, n.spellings_camelName, hunlisted, hn, hsome]
  exact ⟨fun h => hname.1 h.1, fun h => ⟨hname.2 h, fun hunlisted => hcamel hunlisted h⟩⟩

/-- The spelling with capitals leads back to a name, a spelling is its own spelling, and so both
lead to a method that is listed, unless the class has something else in its place. -/
theorem Reached.resolveOn?_both_iff (h : registry.Reached) :
    (∀ n : WordedName, snakeCase n.camelCased = n.underscored) ∧
    (∀ cs : List Char, (∀ c ∈ cs, c.toNat < 128) →
      snakeCase (snakeCase cs) = snakeCase cs) ∧
    ∀ (c : Option Kind) (n : WordedName), n.name ∈ registry.names c →
      (registry.ResolvesBoth c n ↔ ¬ registry.IsHidden c n.name) := by
  refine ⟨WordedName.snakeCase_camelCased, fun _ => snakeCase_snakeCase, fun c n hn => ?_⟩
  rw [resolvesBoth_iff hn, h.isSome_capability?_iff hn]

/-- A method of all kinds, three words. -/
def notOneOf : WordedName :=
  ⟨⟨'n', ['o', 't'], rfl, rfl⟩,
    [⟨'o', ['n', 'e'], rfl, rfl⟩, ⟨'o', ['f'], rfl, rfl⟩]⟩

theorem resolveOn?_both_notOneOf :
    resolveOn? [] (some .string) (.text "not_one_of") = some "not_one_of" ∧
      resolveOn? [] (some .string) (.text "notOneOf") = some "not_one_of" := by
  have hname : notOneOf.name = "not_one_of" := by decide
  have hcamelName : notOneOf.camelName = "notOneOf" := by decide
  obtain ⟨-, -, hresolves⟩ := Reached.nothing.resolveOn?_both_iff
  have hboth := hresolves (some .string) notOneOf
  rw [ResolvesBoth, hname, hcamelName] at hboth
  have hhidden : ¬ IsHidden [] (some .string) "not_one_of" := by
    rintro ⟨kind, hkind, hdata, -⟩
    cases hkind
    exact absurd hdata (by decide)
  obtain ⟨hself, hcamel⟩ := (hboth (by decide)).2 hhidden
  exact ⟨hself, hcamel (by decide)⟩

/-- After a registration for all kinds under the name of what the class of texts has else, the name
is listed for texts and means nothing in either spelling. -/
theorem resolveOn?_type_name_eq_none :
    ∃ registry : Registry, registry.Reached ∧
      (Registry.register [] none (.text "type_name") ⟨[], false⟩) = (registry, .ok ()) ∧
      "type_name" ∈ registry.names (some .string) ∧
      "typeName" ∉ registry.names (some .string) ∧
      registry.resolveOn? (some .string) (.text "type_name") = none ∧
      registry.resolveOn? (some .string) (.text "typeName") = none := by
  have hname : methodName (.text "type_name") = .ok "type_name" :=
    methodName_text (by decide) (by decide +kernel)
  refine ⟨(Registry.register [] none (.text "type_name") ⟨[], false⟩).1, .register .nothing _ _ _,
    Prod.ext rfl ?_, ?_⟩ <;> simp only [Registry.register, hname]
  · rfl
  · decide

end Registry

end FieldSchema
