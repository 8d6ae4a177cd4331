import FieldSchema.Proofs.Judged
import FieldSchema.Proofs.Turns

/-!
# Conditions whose branches demand nothing

A condition whose branches are mixed schemas without constraints adds nothing to what a field is
judged by (`Schema.judge_withField_neutral`). It does take the place of the field's schema when the
field is cast: the field is then left as it was given (`Schema.cast_withField_neutral`). So
validation with such a condition comes to what it comes to without exactly where the cast of the
record leaves the field (`Schema.Reachable.validate_withField_neutral_iff`).
-/

namespace FieldSchema

/-- A condition whose branches demand nothing. -/
def Condition.neutral (sibling expected : Value) : Condition :=
  ⟨sibling, expected, .ofKind .mixed, .ofKind .mixed⟩

namespace Schema

variable {o s : Schema} {name sibling expected k v w : Value} {record : Entries Value}
  {path : List Value} {before after : List (Value × Schema)} {all : Bool}

/-! ## Judgement -/

theorem complaints_mixed : (Schema.ofKind .mixed).complaints path v = [] := by
  have hkind : kindComplaints path v .mixed false = [] :=
    kindComplaints_eq_nil_iff.2 (by cases v <;> rfl)
  cases hmap : v.isMap with
  | false => rw [complaints_of_not_isMap hmap]; simp [Schema.ofKind, hkind]
  | true =>
    obtain ⟨record, rfl⟩ := Value.eq_map_of_isMap hmap
    rw [complaints_map]
    simp [Schema.ofKind, hkind, recordComplaints, choiceComplaints, fieldComplaints,
      missingComplaints, requiredNames]

theorem complaintsIn_mixed : (Schema.ofKind .mixed).complaintsIn path record name = [] := by
  have hown : (Schema.ofKind .mixed).ownChoiceComplaints path record name = [] :=
    ownChoiceComplaints_eq
  have hrequired : (Schema.ofKind .mixed).isRequired = false := rfl
  rw [complaintsIn, branchComplaints, hown, hrequired]
  cases record.get? name with
  | none => rfl
  | some v => simp [complaints_mixed]

theorem branch_neutral :
    (Condition.neutral sibling expected).branch record = .ofKind .mixed :=
  ite_self _

theorem ownChoiceComplaints_neutral :
    (s.whenSibling (.neutral sibling expected)).ownChoiceComplaints path record name =
      s.ownChoiceComplaints path record name := by
  have hconditions : (s.whenSibling (.neutral sibling expected)).conditions =
      s.conditions ++ [.neutral sibling expected] := rfl
  rw [ownChoiceComplaints_eq, ownChoiceComplaints_eq, hconditions, List.flatMap_append,
    List.flatMap_singleton, branch_neutral, complaintsIn_mixed, List.append_nil]

/-- The conditions of a schema do not matter for the values it describes itself. -/
theorem complaints_whenSibling (s : Schema) (c : Condition) :
    (s.whenSibling c).complaints path v = s.complaints path v := by
  cases s
  rfl

theorem recordComplaints_neutral (choicesFirst : Bool) :
    recordComplaints path record choicesFirst
        (before ++ (k, s.whenSibling (.neutral sibling expected)) :: after) =
      recordComplaints path record choicesFirst (before ++ (k, s) :: after) := by
  have hchoices : choiceComplaints path record
        (before ++ (k, s.whenSibling (.neutral sibling expected)) :: after) =
      choiceComplaints path record (before ++ (k, s) :: after) := by
    simp only [choiceComplaints_eq, List.flatMap_append, List.flatMap_cons,
      ownChoiceComplaints_neutral]
  have hfields : fieldComplaints path record
        (before ++ (k, s.whenSibling (.neutral sibling expected)) :: after) =
      fieldComplaints path record (before ++ (k, s) :: after) := by
    simp only [fieldComplaints_eq, List.flatMap_append, List.flatMap_cons, complaints_whenSibling]
  have hnames : requiredNames (before ++ (k, s.whenSibling (.neutral sibling expected)) :: after) =
      requiredNames (before ++ (k, s) :: after) := by
    simp only [requiredNames, List.filter_append, List.filter_cons, whenSibling]
    split <;> simp
  rw [recordComplaints, recordComplaints, hchoices, hfields, hnames]

/-- A field that is found under a name stands under a key that is the same, in one place. -/
theorem IsSound.exists_field (h : o.IsSound) (hfield : Entries.get? o.fields name = some s) :
    o.kind = .object ∧ ∃ before k after, o.fields = before ++ (k, s) :: after ∧
      name.isKey = true ∧ name.same k = true ∧ k.same k = true ∧
      ∀ s', (o.withField name s').fields = before ++ (k, s') :: after := by
  obtain ⟨before, k, after, hfields, hk, hput⟩ := Entries.exists_split_of_get? hfield
  have hmem : (k, s) ∈ o.fields := by simp [hfields]
  have hkey : k.isKey = true := h.areKeys.isKey _ (List.mem_map_of_mem hmem)
  have hname := (Value.isKey_congr hk (.inr hkey)).1
  refine ⟨?_, before, k, after, hfields, hname, hk,
    Value.same_trans hkey (Value.same_symm hname hk) hk, hput⟩
  by_contra hne
  simp [h.fields_eq_nil hne] at hmem

/-- A record complains of the same with a condition on one of its fields that demands nothing. -/
theorem complaints_withField_neutral (h : o.IsSound)
    (hfield : Entries.get? o.fields name = some s) :
    (o.withField name (s.whenSibling (.neutral sibling expected))).complaints path v =
      o.complaints path v := by
  obtain ⟨-, before, k, after, hfields, -, -, -, hput⟩ := h.exists_field hfield
  cases hmap : v.isMap with
  | false =>
    rw [complaints_of_not_isMap hmap, complaints_of_not_isMap hmap]
    rfl
  | true =>
    obtain ⟨record, rfl⟩ := Value.eq_map_of_isMap hmap
    rw [complaints_map, complaints_map, hput, recordComplaints_neutral, ← hfields]
    rfl

theorem Reachable.withField_neutral (h : o.Reachable)
    (hfield : Entries.get? o.fields name = some s) (hsibling : sibling.isKey = true)
    (expected : Value) :
    (o.withField name (s.whenSibling (.neutral sibling expected))).Reachable := by
  obtain ⟨hobject, before, k, after, hfields, hname, -⟩ := h.isSound.exists_field hfield
  have hmem : (k, s) ∈ o.fields := by simp [hfields]
  have hs : s.Reachable := (h.everywhere.field hmem).self
  have hs' : (s.whenSibling (.neutral sibling expected)).Reachable :=
    .whenSibling hs hsibling (.ofKind .mixed) (.ofKind .mixed)
  show (o.withFields [(name, s.whenSibling (.neutral sibling expected))]).Reachable
  exact .withFields h hobject (List.forall_mem_singleton.2 hname) (List.forall_mem_singleton.2 hs')

/-- Cast values are judged as without the condition. -/
theorem judge_withField_neutral (h : o.Reachable)
    (hfield : Entries.get? o.fields name = some s) (hsibling : sibling.isKey = true) :
    (o.withField name (s.whenSibling (.neutral sibling expected))).judge w all = o.judge w all := by
  have h' := h.withField_neutral hfield hsibling expected
  have hfailures : (o.withField name (s.whenSibling (.neutral sibling expected))).failures w all =
      o.failures w all := by
    rw [failures_eq h'.everywhere_isSound, failures_eq h.everywhere_isSound,
      complaints_withField_neutral h.isSound hfield]
  rw [judge, judge, hfailures]
  rfl

/-! ## Casting -/

/-- The field with such a condition is left as it is when its turn comes. -/
theorem turn_neutral (record : Entries Value) (k : Value) :
    turn record (k, s.whenSibling (.neutral sibling expected)) = record := by
  have hselect : (s.whenSibling (.neutral sibling expected)).select record = .ofKind .mixed := by
    have hconditions : (s.whenSibling (.neutral sibling expected)).conditions =
        s.conditions ++ [.neutral sibling expected] := rfl
    rw [select_of_append hconditions]
    exact ite_self _
  unfold turn
  simp only [hselect]
  cases hget : record.get? k with
  | none => rfl
  | some v =>
    have hcast : (Schema.ofKind .mixed).cast v = v := by cases v <;> rfl
    simp only [fill, hcast]
    exact Entries.put_of_get? hget

theorem turns_neutral (record : Entries Value) (before after : List (Value × Schema)) :
    (inTurn (before ++ (k, s.whenSibling (.neutral sibling expected)) :: after)).foldl turn
        record = (inTurn (before ++ after)).foldl turn record := by
  obtain ⟨earlier, later, hinTurn, hothers, -⟩ :=
    exists_inTurn_eq before after (k, s.whenSibling (.neutral sibling expected))
  rw [hinTurn, ← hothers, List.foldl_append, List.foldl_cons, turn_neutral, List.foldl_append]

/-- The turns of all fields come to those of the others exactly if they leave the field. -/
theorem turns_eq_iff (h : AreKeys ((before ++ (k, s) :: after).map (·.1)))
    (hself : k.same k = true) (record : Entries Value) :
    (inTurn (before ++ after)).foldl turn record =
        (inTurn (before ++ (k, s) :: after)).foldl turn record ↔
      Entries.get? ((inTurn (before ++ (k, s) :: after)).foldl turn record) k =
        record.get? k := by
  have hturns := areKeys_inTurn h
  obtain ⟨earlier, later, hinTurn, hothers, -⟩ := exists_inTurn_eq before after (k, s)
  rw [hinTurn] at hturns ⊢
  rw [← hothers]
  have hkeys : ∀ e ∈ earlier ++ (k, s) :: later, e.1.isKey = true := fun e he =>
    hturns.isKey _ (List.mem_map_of_mem he)
  have hothers' := hturns.not_same_of_others hself
  have hkeys' : ∀ e ∈ earlier ++ later, e.1.isKey = true := fun e he =>
    hkeys e (by rcases List.mem_append.1 he with he | he <;> simp [he])
  have hleft : Entries.get? ((earlier ++ later).foldl turn record) k = record.get? k :=
    get?_turns_of_not_same hkeys' hothers'
  constructor
  · intro heq
    rw [← heq, hleft]
  · rw [get?_turns_self record hturns hself]
    intro hfill
    have hfound : Entries.get? (earlier.foldl turn record) k = record.get? k :=
      get?_turns_of_not_same (fun e he => hkeys' e (List.mem_append_left _ he))
        fun e he => hothers' e (List.mem_append_left _ he)
    have hturn : turn (earlier.foldl turn record) (k, s) = earlier.foldl turn record := by
      rw [turn_eq_self_iff (hkeys (k, s) (by simp)), hfound, hfill]
    rw [List.foldl_append, List.foldl_append, List.foldl_cons, hturn]

/-- That casting a value leaves one field of it as it was given. -/
def LeavesField (o : Schema) (name v : Value) : Prop :=
  ∀ given cast : Entries Value, v = .map given → o.cast v = .map cast →
    cast.get? name = given.get? name

theorem leavesField_map (hobject : o.kind = .object) : o.LeavesField name (.map record) ↔
    Entries.get? ((inTurn o.fields).foldl turn record) name = record.get? name := by
  constructor
  · intro hleaves
    exact hleaves _ _ rfl (cast_record hobject record)
  · rintro hget given cast ⟨⟩ hcast
    rw [cast_record hobject, Value.map.injEq] at hcast
    exact hcast ▸ hget

theorem leavesField_of_not_isMap (h : v.isMap = false) : o.LeavesField name v := by
  rintro given cast rfl
  exact absurd h (by simp [Value.isMap])

/-- A value is cast as without the condition exactly if that leaves the field as it was given. -/
theorem cast_withField_neutral (h : o.IsSound) (hfield : Entries.get? o.fields name = some s)
    (sibling expected : Value) :
    (o.withField name (s.whenSibling (.neutral sibling expected))).cast v = o.cast v ↔
      o.LeavesField name v := by
  obtain ⟨hobject, before, k, after, hfields, hname, hk, hself, hput⟩ := h.exists_field hfield
  have hkeys := h.areKeys
  rw [hfields] at hkeys
  have hkind : ∀ s', (o.withField name s').kind = .object := fun _ => hobject
  cases v with
  | map record =>
    rw [leavesField_map hobject, cast_record hobject, cast_record (hkind _), hput, hfields,
      turns_neutral, Value.map.injEq, turns_eq_iff hkeys hself, Entries.get?_congr hname hk,
      Entries.get?_congr hname hk]
  | null =>
    refine iff_of_true ?_ (leavesField_of_not_isMap rfl)
    have hfields' : ∀ s', (before ++ (k, s') :: after).isEmpty = false := fun s' => by simp
    rw [cast, cast, absent, absent, hput, hfields, hfields', hfields']
    rfl
  | _ => exact iff_of_true rfl (leavesField_of_not_isMap rfl)

/-! ## Validation -/

/-- A condition on a field whose branches demand nothing does not change what validation comes to
where the cast of the record leaves the field as it was given, and only there unless both refuse. -/
theorem Reachable.validate_withField_neutral_iff (h : o.Reachable)
    (hfield : Entries.get? o.fields name = some s) (hsibling : sibling.isKey = true)
    (expected v : Value) (all : Bool) :
    (o.LeavesField name v →
      (o.withField name (s.whenSibling (.neutral sibling expected))).validate v all =
        o.validate v all) ∧
    ((∃ w, o.validate v all = .ok w ∨
        (o.withField name (s.whenSibling (.neutral sibling expected))).validate v all = .ok w) →
      (o.withField name (s.whenSibling (.neutral sibling expected))).validate v all =
        o.validate v all → o.LeavesField name v) := by
  rw [validate_eq_judge, validate_eq_judge, judge_withField_neutral h hfield hsibling,
    ← cast_withField_neutral h.isSound hfield sibling expected]
  refine ⟨fun hcast => by rw [hcast], ?_⟩
  rintro ⟨w, hw⟩ heq
  rw [heq, or_self] at hw
  rw [hw] at heq
  rw [← eq_of_judge hw, ← eq_of_judge heq]

/-- A record of one text. -/
def labelled : Schema := (Schema.ofKind .object).withFields [(.text "n", .ofKind .string)]

theorem reachable_labelled : labelled.Reachable := by
  refine .withFields (.ofKind .object) rfl (by simp [Value.isKey]) ?_
  exact List.forall_mem_singleton.2 (.ofKind .string)

/-- A text is left as it was given, and so is validated alike. -/
theorem validate_labelled_neutral :
    labelled.LeavesField (.text "n") (.map [(.text "n", .text "x")]) ∧
      (labelled.withField (.text "n") ((Schema.ofKind .string).whenSibling
          (.neutral (.text "f") (.int 1)))).validate (.map [(.text "n", .text "x")]) false =
        labelled.validate (.map [(.text "n", .text "x")]) false := by
  have hleaves : labelled.LeavesField (.text "n") (.map [(.text "n", .text "x")]) :=
    (leavesField_map rfl).2 rfl
  exact ⟨hleaves, (Reachable.validate_withField_neutral_iff reachable_labelled
    (s := .ofKind .string) rfl rfl (.int 1) _ false).1 hleaves⟩

/-- A number is cast to a text only without the condition, and then is no text. -/
theorem validate_labelled_neutral_ne :
    labelled.Reachable ∧
      labelled.validate (.map [(.text "n", .int 5)]) false =
        .ok (.map [(.text "n", .text "5")]) ∧
      ∃ failures, (labelled.withField (.text "n") ((Schema.ofKind .string).whenSibling
          (.neutral (.text "f") (.int 1)))).validate (.map [(.text "n", .int 5)]) false =
        .error (.invalid failures) :=
  ⟨reachable_labelled, rfl, _, rfl⟩

end Schema

end FieldSchema
