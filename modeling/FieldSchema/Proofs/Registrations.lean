import FieldSchema.Method.Spelling
import FieldSchema.Operation.Basic
import FieldSchema.Proofs.Results
import Mathlib.Data.List.Induction

/-!
# Runs of registrations

A class keeps its list of names and its recipes apart, and a registration writes the recipe before
the name. After any run of accepted registrations the two agree (`Registry.Follows`): what a class
lists are its built-in names and those registered on it, and each of them stands for something. One
call keeps this up (`Registry.Follows.register`), so a run does. So the names of a class are those
of its own and of the class of all kinds, and a declared name means the first of its spellings among
them (`Registry.ComesFrom.names_and_resolution`), in whatever order the calls were made.
-/

namespace FieldSchema

/-- A call that registers a recipe on a class, under a text. -/
structure Registration where
  kind? : Option Kind
  name : String
  recipe : Recipe

namespace ClassEntry

variable {entry entry' : ClassEntry} {names : List String} {name n : String} {recipe : Recipe}

theorem mem_insertName : n ∈ insertName names name ↔ n ∈ names ∨ n = name := by
  unfold insertName
  split
  · rename_i h
    have hmem : name ∈ names := by simpa using h
    exact ⟨.inl, Or.rec id fun heq => heq ▸ hmem⟩
  · simp

/-! ## What a registration leaves of a class -/

theorem listing_eq_ok_iff : entry.listing = .ok names ↔ entry.listed? = some names := by
  unfold listing
  cases entry.listed? <;> simp

theorem register_eq (entry : ClassEntry) (name : String) (recipe : Recipe) :
    entry.register name recipe =
      (⟨entry.kind?, if name = listName then none else entry.listed?.map (insertName · name),
          (name, recipe) :: entry.recipes⟩,
        if name = listName ∨ entry.listed? = none then .error (.notSequence "function")
        else .ok ()) := by
  unfold register write list listing
  by_cases hname : name = listName
  · simp [hname, bind, Except.bind]
  · cases hlisted : entry.listed? <;> simp [hname, bind, Except.bind, pure, Except.pure]

theorem register_snd_eq_ok_iff : (entry.register name recipe).2 = .ok () ↔
    name ≠ listName ∧ ∃ names, entry.listed? = some names := by
  rw [register_eq, ← Option.ne_none_iff_exists']
  split_ifs with h <;> simp_all

end ClassEntry

namespace Registry

variable {registry registry' : Registry} {kind? c : Option Kind} {name n : String} {recipe : Recipe}
  {calls calls' : List Registration} {call : Registration}

/-! ## One registration -/

theorem kind?_entry (registry : Registry) (c : Option Kind) : (registry.entry c).kind? = c := by
  rw [entry]
  cases hfind : registry.find? (·.kind? = c) with
  | none => rfl
  | some e => simpa using List.find?_some hfind

theorem entry_put (registry : Registry) (e : ClassEntry) (c : Option Kind) :
    (registry.put e).entry c = if c = e.kind? then e else registry.entry c := by
  rw [put, entry, List.find?_cons]
  by_cases h : e.kind? = c
  · simp [h]
  · have hfilter : (registry.filter (·.kind? ≠ e.kind?)).find? (·.kind? = c) =
        registry.find? (·.kind? = c) := by
      rw [List.find?_filter]
      congr 1
      funext e'
      by_cases he : e'.kind? = c
      · simp [he, Ne.symm h]
      · simp [he]
    rw [if_neg (Ne.symm h), hfilter, entry]
    simp [h]

theorem eq_of_methodName {v : Value} (h : methodName v = .ok n) : v = .text n := by
  unfold methodName at h
  split_ifs at h
  split at h
  · split_ifs at h
    rw [Except.ok.inj h]
  · cases h

theorem methodName_text (hne : n ≠ "") (hname : n.startsWith "_" = false) :
    methodName (.text n) = .ok n := by
  simp [methodName, Value.isTruthy, hne, hname]

/-- What a registration leaves behind, accepted or not, unless the name is refused. -/
theorem entry_register {v : Value} (hname : methodName v = .ok name) (registry : Registry)
    (kind? : Option Kind) (recipe : Recipe) (c : Option Kind) :
    (registry.register kind? v recipe).1.entry c =
      if c = kind? then ((registry.entry kind?).register name recipe).1 else registry.entry c := by
  simp only [register, hname, entry_put, ClassEntry.register_eq, kind?_entry]

theorem register_snd {v : Value} (hname : methodName v = .ok name) (registry : Registry)
    (kind? : Option Kind) (recipe : Recipe) : (registry.register kind? v recipe).2 =
      ((registry.entry kind?).register name recipe).2 := by
  simp only [register, hname]

theorem methodName_of_register {v : Value} (h : (registry.register kind? v recipe).2 = .ok ()) :
    ∃ name, methodName v = .ok name := by
  unfold register at h
  cases hm : methodName v with
  | error m => simp [hm] at h
  | ok name => exact ⟨name, rfl⟩

theorem recipe?_register {v : Value} (hname : methodName v = .ok name) (registry : Registry)
    (kind? : Option Kind) (recipe : Recipe) (c : Option Kind) (n : String) :
    (registry.register kind? v recipe).1.recipe? c n =
      if c = kind? ∧ n = name then some recipe else registry.recipe? c n := by
  rw [recipe?, entry_register hname, recipe?]
  by_cases hc : c = kind?
  · by_cases hn : n = name
    · simp [hc, hn, ClassEntry.register_eq]
    · have hbeq : (n == name) = false := by simpa using hn
      simp [hc, hn, ClassEntry.register_eq, List.lookup_cons, hbeq]
  · simp [hc]

/-! ## Runs -/

/-- The names of what schemas have beside their methods. -/
def attributeNames : List String :=
  Operation.all.map (·.name) ++ [ClassEntry.listName, methodsName, "add_method", "type_name",
    "json_type", "fields"]

/-- That a class has something under a name. -/
def HasAttribute (registry : Registry) (c : Option Kind) (name : String) : Prop :=
  name ∈ attributeNames ∨ (registry.capability? c name).isSome = true

/-- That a name is listed on some class, or is new to all of them. -/
def Fits (registry : Registry) (name : String) : Prop :=
  (∃ c, name ∈ registry.names c) ∨ ∀ c, ¬ registry.HasAttribute c name

/-- That a registry is what accepted calls lead to, one after another, under names that fit. -/
inductive ComesFrom : Registry → List Registration → Prop
  | nothing : ComesFrom [] []
  | call {registry : Registry} {calls : List Registration} {call : Registration}
      (h : registry.ComesFrom calls) (hfits : registry.Fits call.name)
      (hcall : (registry.register call.kind? (.text call.name) call.recipe).2 = .ok ()) :
      ComesFrom (registry.register call.kind? (.text call.name) call.recipe).1 (calls ++ [call])

/-- The names of a class: those built in and those registered, on the class itself and on that of
all kinds. -/
def availableNames (calls : List Registration) (c : Option Kind) : List String :=
  (lineage c).flatMap fun d =>
    ClassEntry.builtInNames d ++ (calls.filter (·.kind? = d)).map (·.name)

/-- The first spelling of a name that is available. -/
def resolvedAmong (names : List String) : Value → Option String
  | .text s =>
    let respelled := String.ofList (snakeCase s.toList)
    if s ∈ names then some s else if respelled ∈ names then some respelled else none
  | _ => none

/-- What a registry has kept of the calls that led to it: each class lists its own names and those
registered on it, and has recipes under the latter alone. -/
structure Follows (registry : Registry) (calls : List Registration) : Prop where
  listing : ∀ c, ∃ names, (registry.entry c).listing = .ok names ∧
    ∀ n, n ∈ names ↔ n ∈ ClassEntry.builtInNames c ∨ ∃ call ∈ calls, call.kind? = c ∧ call.name = n
  recipe : ∀ c n, (registry.recipe? c n).isSome = true ↔
    ∃ call ∈ calls, call.kind? = c ∧ call.name = n
  accepted : ∀ call ∈ calls,
    methodName (.text call.name) = .ok call.name ∧ call.name ∉ attributeNames

theorem mem_availableNames : n ∈ availableNames calls c ↔ ∃ d ∈ lineage c,
    n ∈ ClassEntry.builtInNames d ∨ ∃ call ∈ calls, call.kind? = d ∧ call.name = n := by
  simp [availableNames, and_assoc]

theorem availableNames_congr (h : calls.Perm calls') :
    n ∈ availableNames calls c ↔ n ∈ availableNames calls' c := by
  simp only [mem_availableNames, h.mem_iff]

theorem builtInNames_not_attributes (h : n ∈ ClassEntry.builtInNames c) : n ∉ attributeNames := by
  have hall : ∀ d ∈ none :: Kind.all.map some,
      ∀ n ∈ ClassEntry.builtInNames d, n ∉ attributeNames := by decide
  refine hall c ?_ n h
  rcases c with _ | kind
  · exact .head _
  · cases kind <;> decide

theorem mem_attributeNames_of_ownData {kind : Kind} (h : n ∈ ownData kind) :
    n ∈ attributeNames := by
  have hdata : ownData kind ⊆ attributeNames := by cases kind <;> decide
  exact hdata h

theorem isSome_builtIn?_iff {methods : List Method} :
    (builtIn? methods n).isSome = true ↔ n ∈ methods.map (·.name) := by
  simp only [builtIn?, List.find?_isSome, List.mem_map, decide_eq_true_eq]

theorem isSome_found?_iff : (registry.found? c n).isSome = true ↔
    n ∈ ClassEntry.builtInNames c ∨ (registry.recipe? c n).isSome = true := by
  unfold found?
  rw [Option.isSome_or, Bool.or_eq_true, Option.isSome_map, Option.isSome_map, isSome_builtIn?_iff,
    or_comm]
  cases c <;> rfl

namespace Follows

/-! ### What holds after a run -/

theorem nothing : Follows [] [] where
  listing c := ⟨_, rfl, by simp⟩
  recipe c n := by simp [recipe?, entry, ClassEntry.ofKind?]
  accepted := List.forall_mem_nil _

variable (h : registry.Follows calls)

include h

/-- A class answers with its names. -/
theorem exists_methods (c : Option Kind) : ∃ names, registry.methods c = .ok names ∧
    ∀ n, n ∈ names ↔ n ∈ availableNames calls c := by
  have hmethods : ∀ d, registry.recipe? d methodsName = none := fun d => by
    rw [← Option.not_isSome_iff_eq_none, h.recipe]
    rintro ⟨call, hcall, -, hname⟩
    exact (h.accepted call hcall).2 (hname ▸ by decide)
  choose lists hlists hmem using h.listing
  refine ⟨((lineage c).map lists).flatten, ?_, fun n => ?_⟩
  · rw [methods, if_neg (by simp [hmethods]), Except.mapM_eq_ok fun d _ => hlists d]
    rfl
  · simp only [mem_availableNames, List.mem_flatten, List.mem_map, exists_exists_and_eq_and, hmem]

theorem mem_names : n ∈ registry.names c ↔ n ∈ availableNames calls c := by
  obtain ⟨names, hnames, hmem⟩ := h.exists_methods c
  rw [Registry.names, hnames]
  exact hmem n

/-- What stands for something on a class is what the class has the name of. -/
theorem isSome_capability?_iff :
    (registry.capability? c n).isSome = true ↔ n ∈ availableNames calls c := by
  have hfound : ∀ d, (registry.found? d n).isSome = true ↔
      n ∈ ClassEntry.builtInNames d ∨ ∃ call ∈ calls, call.kind? = d ∧ call.name = n := fun d => by
    rw [isSome_found?_iff, h.recipe]
  rw [mem_availableNames]
  cases c with
  | none => simp [capability?, lineage, hfound]
  | some kind =>
    rw [capability?, Option.isSome_or, Bool.or_eq_true, hfound]
    split
    -- no call was accepted under the names of what the class has beside methods
    · rename_i hdata
      have hattribute := mem_attributeNames_of_ownData (List.contains_iff_mem.1 hdata)
      have hnone : ¬ (n ∈ ClassEntry.builtInNames none ∨
          ∃ call ∈ calls, call.kind? = none ∧ call.name = n) := by
        rintro (hn | ⟨call, hcall, -, rfl⟩)
        · exact builtInNames_not_attributes hn hattribute
        · exact (h.accepted call hcall).2 hattribute
      simp [lineage, hnone]
    · rw [hfound]
      simp [lineage, or_comm]

theorem resolveOn?_eq (c : Option Kind) (name : Value) :
    registry.resolveOn? c name = resolvedAmong (availableNames calls c) name := by
  cases name with
  | text s =>
    have hfinds : ∀ spelling, ((registry.names c).contains spelling &&
        (registry.capability? c spelling).isSome) = decide (spelling ∈ availableNames calls c) :=
      fun spelling => by
        rw [Bool.eq_iff_iff, Bool.and_eq_true, List.contains_iff_mem, h.mem_names,
          h.isSome_capability?_iff, and_self, decide_eq_true_eq]
    simp only [resolveOn?, resolvedAmong, spellings, hfinds, List.find?_cons, List.find?_nil]
    split_ifs <;> simp_all
  | _ => rfl

/-- Names that fit are those of no other attribute. -/
theorem not_attribute_of_fits (hfits : registry.Fits n) : n ∉ attributeNames := by
  rcases hfits with ⟨c, hn⟩ | hnew
  · obtain ⟨d, -, hd | ⟨call, hcall, -, rfl⟩⟩ := mem_availableNames.1 (h.mem_names.1 hn)
    · exact builtInNames_not_attributes hd
    · exact (h.accepted call hcall).2
  · exact fun hn => hnew none (.inl hn)

theorem fits (hn : n ∉ attributeNames) : registry.Fits n := by
  by_cases hlisted : ∃ c, n ∈ registry.names c
  · exact .inl hlisted
  · refine .inr fun c => Or.rec hn fun hsome => hlisted ⟨c, ?_⟩
    rwa [h.mem_names, ← h.isSome_capability?_iff]

/-- One more accepted call keeps this up. -/
theorem register (hfits : registry.Fits call.name)
    (hcall : (registry.register call.kind? (.text call.name) call.recipe).2 = .ok ()) :
    (registry.register call.kind? (.text call.name) call.recipe).1.Follows (calls ++ [call]) := by
  obtain ⟨name, hname⟩ := methodName_of_register hcall
  obtain rfl := Value.text.inj (eq_of_methodName hname)
  rw [register_snd hname, ClassEntry.register_snd_eq_ok_iff] at hcall
  obtain ⟨hne, -⟩ := hcall
  refine ⟨fun c => ?_, fun c n => ?_, ?_⟩
  · obtain ⟨names, hnames, hmem⟩ := h.listing c
    rw [entry_register hname]
    split
    · rename_i heq
      subst heq
      rw [ClassEntry.listing_eq_ok_iff] at hnames
      refine ⟨ClassEntry.insertName names call.name, ?_, fun n => ?_⟩
      · simp [ClassEntry.listing_eq_ok_iff, ClassEntry.register_eq, hne, hnames]
      · simp [ClassEntry.mem_insertName, hmem, or_and_right, exists_or, or_assoc, eq_comm]
    · rename_i hother
      refine ⟨names, hnames, fun n => ?_⟩
      simp [hmem, or_and_right, exists_or, Ne.symm hother]
  · have hold := h.recipe c n
    rw [recipe?_register hname]
    split
    · rename_i heq
      simp [heq]
    · rename_i hother
      simp only [hold, List.mem_append, List.mem_singleton, or_and_right, exists_or,
        exists_eq_left, eq_comm (b := c), eq_comm (b := n), hother, or_false]
  · intro call' hcall'
    rcases List.mem_append.1 hcall' with hcall' | hcall'
    · exact h.accepted call' hcall'
    · obtain rfl := List.mem_singleton.1 hcall'
      exact ⟨hname, h.not_attribute_of_fits hfits⟩

/-- A call under a name that is accepted, and is none of the other attributes, can be made. -/
theorem register_snd_eq_ok (hname : methodName (.text call.name) = .ok call.name)
    (hattribute : call.name ∉ attributeNames) :
    (registry.register call.kind? (.text call.name) call.recipe).2 = .ok () := by
  obtain ⟨names, hnames, -⟩ := h.listing call.kind?
  rw [register_snd hname, ClassEntry.register_snd_eq_ok_iff]
  exact ⟨fun heq => hattribute (heq ▸ by decide), names, ClassEntry.listing_eq_ok_iff.1 hnames⟩

end Follows

theorem ComesFrom.follows (h : registry.ComesFrom calls) : registry.Follows calls := by
  induction h with
  | nothing => exact .nothing
  | call _ hfits hcall ih => exact ih.register hfits hcall

/-- Calls under accepted names can be made in any order. -/
theorem exists_comesFrom (calls : List Registration) (h : ∀ call ∈ calls,
    methodName (.text call.name) = .ok call.name ∧ call.name ∉ attributeNames) :
    ∃ registry, ComesFrom registry calls := by
  induction calls using List.reverseRecOn with
  | nil => exact ⟨[], .nothing⟩
  | append_singleton calls call ih =>
    obtain ⟨registry, hcalls⟩ := ih fun call' hcall' => h call' (List.mem_append_left _ hcall')
    obtain ⟨hname, hattribute⟩ := h call (List.mem_append_right _ (.head _))
    exact ⟨_, .call hcalls (hcalls.follows.fits hattribute)
      (hcalls.follows.register_snd_eq_ok hname hattribute)⟩

/-- After any run of accepted registrations a class has its own names and those of all kinds, built
in or registered there, and a declared name means the first of its spellings among them. In another
order the calls lead to the same names and the same meanings. -/
theorem ComesFrom.names_and_resolution (h : registry.ComesFrom calls) :
    (∀ c, ∃ names, registry.methods c = .ok names ∧
      ∀ n, n ∈ names ↔ n ∈ availableNames calls c) ∧
    (∀ c name, registry.resolveOn? c name = resolvedAmong (availableNames calls c) name) ∧
    ∀ calls', calls.Perm calls' → ∃ registry', ComesFrom registry' calls' ∧ ∀ c,
      (∃ names, registry'.methods c = .ok names ∧ ∀ n, n ∈ names ↔ n ∈ registry.names c) ∧
      ∀ name, registry'.resolveOn? c name = registry.resolveOn? c name := by
  refine ⟨h.follows.exists_methods, h.follows.resolveOn?_eq, fun calls' hperm => ?_⟩
  obtain ⟨registry', h'⟩ := exists_comesFrom calls' fun call hcall =>
    h.follows.accepted call (hperm.mem_iff.2 hcall)
  refine ⟨registry', h', fun c => ⟨?_, fun name => ?_⟩⟩
  · obtain ⟨names, hnames, hmem⟩ := h'.follows.exists_methods c
    refine ⟨names, hnames, fun n => ?_⟩
    rw [hmem, h.follows.mem_names, availableNames_congr hperm]
  · rw [h'.follows.resolveOn?_eq, h.follows.resolveOn?_eq]
    cases name with
    | text s => simp only [resolvedAmong, availableNames_congr hperm]
    | _ => rfl

/-- A method for texts, one for all kinds, and one in the place of a built-in method of numbers. -/
def mixedCalls : List Registration :=
  [⟨some .string, "passcode", ⟨[⟨"length", [.int 4]⟩], false⟩⟩, ⟨none, "atLeast", ⟨[], false⟩⟩,
    ⟨some .number, "min", ⟨[], true⟩⟩]

theorem names_and_resolution_mixedCalls : ∃ registry, ComesFrom registry mixedCalls ∧
    (∃ names, registry.methods (some .string) = .ok names ∧
      ∀ n, n ∈ names ↔ n ∈ availableNames mixedCalls (some .string)) ∧
    registry.resolveOn? (some .number) (.text "passcode") = none ∧
    registry.resolveOn? (some .string) (.text "Passcode") = some "passcode" := by
  obtain ⟨registry, h⟩ := exists_comesFrom mixedCalls <| by
    simp only [mixedCalls, List.forall_mem_cons]
    exact ⟨⟨methodName_text (by decide) (by decide +kernel), by decide⟩,
      ⟨methodName_text (by decide) (by decide +kernel), by decide⟩,
      ⟨methodName_text (by decide) (by decide +kernel), by decide⟩, List.forall_mem_nil _⟩
  obtain ⟨hmethods, hresolve, -⟩ := h.names_and_resolution
  exact ⟨registry, h, hmethods _, (hresolve _ _).trans (by decide),
    (hresolve _ _).trans (by decide)⟩

end Registry

end FieldSchema
