import FieldSchema.Proofs.Outcomes
import FieldSchema.Proofs.Rearranged
import FieldSchema.Proofs.Stability

/-!
# Defaults and supplied values

What stands in for an absent value is put in its place as it was declared, while a value that is
supplied is cast. So a default does as if it had been supplied exactly if its own cast leaves it as
it is, or if it is refused both ways (`Schema.Reachable.validate_absent_iff`): for a value that is
absent as a whole, and for a field of a record.
-/

namespace FieldSchema.Schema

variable {o s : Schema} {d u u' v name : Value} {record : Entries Value} {e : Value × Schema}
  {fields : List (Value × Schema)} {all : Bool} {sameValue : Value → Value → Prop}

/-! ## A turn that comes first -/

/-- A field without conditions can have its turn before all others. -/
theorem exists_turns_perm (he : e ∈ fields) (hc : e.2.isConditional = false)
    (hkeys : AreKeys (fields.map (·.1))) : ∃ rest : List (Value × Schema),
      (∀ e' ∈ rest, e'.1.isKey = true) ∧ ∀ record : Entries Value, AreKeys (record.map (·.1)) →
        ((inTurn fields).foldl turn record).Perm (rest.foldl turn (turn record e)) := by
  have hmem : e ∈ fields.filter (!·.2.isConditional) := List.mem_filter.2 ⟨he, by simp [hc]⟩
  obtain ⟨before, after, hplain⟩ := List.append_of_mem hmem
  have hfirst : (fields.filter (!·.2.isConditional)).Perm (e :: (before ++ after)) := by
    rw [hplain]
    exact List.perm_middle
  have hisKey : ∀ e' ∈ fields, e'.1.isKey = true := fun e' he' =>
    hkeys.isKey _ (List.mem_map_of_mem he')
  refine ⟨before ++ after ++ fields.filter (·.2.isConditional), fun e' he' => ?_,
    fun record h => ?_⟩
  · rcases List.mem_append.1 he' with he' | he'
    · exact hisKey e' (List.mem_filter.1 (hfirst.mem_iff.2 (.tail _ he'))).1
    · exact hisKey e' (List.mem_filter.1 he').1
  · -- no field among those without conditions asks for another
    have hplain := turns_perm hfirst (hkeys.sublist (List.filter_sublist.map _))
      (fun e he _ _ k hk => absurd hk (not_dependsOn (by simpa using (List.mem_filter.1 he).2) k))
      (.refl record) h
    rw [inTurn, List.foldl_append, List.foldl_append]
    refine foldl_turn_perm (fun e' he' => hisKey e' (List.mem_filter.1 he').1) hplain ?_
    exact areKeys_turns (fun e' he' => hisKey e' (List.mem_filter.1 he').1) h

/-! ## Records without a field -/

/-- A record without a field is cast to the same as with the field's default exactly if that is cast
to itself. -/
theorem IsSound.rearranges_cast_put_iff (h : o.IsSound) (he : (name, s) ∈ o.fields)
    (hconditions : s.conditions = []) (hd : s.default? = some d) (hself : name.same name = true)
    (hkeys : AreKeys (record.map (·.1))) (habsent : record.get? name = none) :
    (s.cast d = d ↔ ((inTurn o.fields).foldl turn record).Perm
      ((inTurn o.fields).foldl turn (record.put name d))) := by
  have hc : s.isConditional = false := by simp [isConditional, hconditions]
  have hkey : name.isKey = true := h.areKeys.isKey _ (List.mem_map_of_mem he)
  have hput : Entries.get? (record.put name d) name = some d := by
    rw [Entries.get?_put hkey, if_pos hself]
  constructor
  · intro hcast
    obtain ⟨rest, hrest, hturns⟩ := exists_turns_perm he hc h.areKeys
    have hleft : turn record (name, s) = record.put name d := by
      simp only [turn_eq, select_eq_self hc, habsent, fill, hd, Option.elim_some]
    have hright : turn (record.put name d) (name, s) = record.put name d := by
      simp only [turn_eq, select_eq_self hc, hput, fill, hcast, Option.elim_some]
      exact Entries.put_of_get? hput
    have hwithout := hturns record hkeys
    have hwith := hturns (record.put name d) (hkeys.put hkey)
    rw [hleft] at hwithout
    rw [hright] at hwith
    exact hwithout.trans hwith.symm
  · intro hperm
    have hget := Entries.get?_perm (h.areKeys_cast hkeys) hperm name
    have hwithout := get?_castFields_of_not_conditional record h.areKeys he hc hself
    have hwith := get?_castFields_of_not_conditional (record.put name d) h.areKeys he hc hself
    rw [castFields_castFields, habsent] at hwithout
    rw [castFields_castFields, hput] at hwith
    rw [hwithout, hwith, fill, fill, hd, Option.some.injEq] at hget
    exact hget.symm

/-! ## Outcomes -/

/-- Two validations that are answered come to the same exactly if they come to the same value, or to
none that is described. -/
theorem sameOutcome_validate_iff (h : s.Everywhere IsSound) (hu : (s.cast u).isNull = false)
    (hu' : (s.cast u').isNull = false)
    (hadmits : sameValue (s.cast u) (s.cast u') → s.admits (s.cast u) = s.admits (s.cast u')) :
    SameOutcome sameValue (fun _ _ => True) (s.validate u all) (s.validate u' all) ↔
      (s.Answers u all ∧ s.Answers u' all) ∧ (sameValue (s.cast u) (s.cast u') ∨
        s.admits (s.cast u) = false ∧ s.admits (s.cast u') = false) := by
  have ha : s.Answers u all ↔ _ := answers_iff_of_not_null h hu
  have ha' : s.Answers u' all ↔ _ := answers_iff_of_not_null h hu'
  constructor
  · intro hsame
    have hanswers := answers_of_sameOutcome hsame
    refine ⟨hanswers, ?_⟩
    rw [validate_eq_judge, validate_eq_judge, judge_eq h hu (ha.1 hanswers.1),
      judge_eq h hu' (ha'.1 hanswers.2)] at hsame
    split_ifs at hsame with hleft hright hright <;> cases hsame
    · exact .inl ‹_›
    · exact .inr ⟨by simpa using hleft, by simpa using hright⟩
  · rintro ⟨⟨hr, hr'⟩, hvalue⟩
    rw [validate_eq_judge, validate_eq_judge, judge_eq h hu (ha.1 hr), judge_eq h hu' (ha'.1 hr')]
    rcases hvalue with hvalue | ⟨hleft, hright⟩
    · rw [hadmits hvalue]
      split
      · exact .returned hvalue
      · exact .refused trivial
    · simp only [hleft, hright, Bool.false_eq_true, if_false]
      exact .refused trivial

/-- What stands in for an absent value does as if it had been supplied exactly if it is complete, or
described neither as it is nor as it is cast. So does the default of a field without conditions, for
every record that has the field and for every mapping without it. -/
theorem Reachable.validate_absent_iff (h : s.Reachable) (hd : s.absent ≠ .null) (all : Bool) :
    (SameOutcome Eq (fun _ _ => True) (s.validate .null all) (s.validate s.absent all) ↔
      (s.Answers .null all ∧ s.Answers s.absent all) ∧ (s.IsComplete s.absent ∨
        s.admits s.absent = false ∧ s.admits (s.cast s.absent) = false)) ∧
    ∀ {o : Schema} {name : Value} {record : Entries Value}, o.Reachable → (name, s) ∈ o.fields →
      s.conditions = [] → s.hasDefault = true → name.same name = true →
      AreKeys (record.map (·.1)) → record.get? name = none →
      (SameOutcome Value.Rearranges (fun _ _ => True) (o.validate (.map record) all)
          (o.validate (.map (record.put name s.absent)) all) ↔
        (o.Answers (.map record) all ∧ o.Answers (.map (record.put name s.absent)) all) ∧
          (s.IsComplete s.absent ∨ o.admits (o.cast (.map record)) = false ∧
            o.admits (o.cast (.map (record.put name s.absent))) = false)) := by
  have hsound := h.everywhere_isSound
  have hcomplete : s.cast s.absent = s.absent ↔ s.IsComplete s.absent := cast_eq_self_iff hsound
  have hnull : s.absent.isNull = false := isNull_eq_false hd
  constructor
  · have hcast : s.cast .null = s.absent := rfl
    rw [sameOutcome_validate_iff hsound (hcast ▸ hnull) (isNull_cast hnull) (congrArg s.admits),
      hcast, eq_comm, hcomplete]
  · intro o name record ho he hconditions hdefault hself hkeys habsent
    have hdefault : s.default? = some s.absent := by
      obtain ⟨d, hd⟩ := Option.isSome_iff_exists.1 hdefault
      rw [absent, hd]
    have hkind : o.kind = .object := by
      by_contra hne
      simp [ho.isSound.fields_eq_nil hne] at he
    have hperm := ho.isSound.rearranges_cast_put_iff he hconditions hdefault hself hkeys habsent
    have hrearranges : Value.Rearranges (o.cast (.map record))
        (o.cast (.map (record.put name s.absent))) ↔ s.IsComplete s.absent := by
      rw [← hcomplete, hperm, cast_record hkind, cast_record hkind]
      refine ⟨fun hsame => ?_, .record⟩
      generalize hr : (inTurn o.fields).foldl turn record = r at hsame ⊢
      generalize hr' : (inTurn o.fields).foldl turn (record.put name s.absent) = r' at hsame ⊢
      cases hsame with
      | refl => exact .refl _
      | record hsame => exact hsame
    rw [sameOutcome_validate_iff ho.everywhere_isSound (isNull_cast rfl) (isNull_cast rfl),
      hrearranges]
    rw [hrearranges, ← hcomplete, hperm, cast_record hkind, cast_record hkind]
    exact fun hsame => admits_map_perm ho.everywhere_isSound hsame (ho.isSound.areKeys_cast hkeys)

/-- The default of the greeting is a text, and so is left as it is. -/
theorem validate_absent_greeting :
    (Schema.ofKind .string |>.withDefault (.text "x")).absent ≠ .null ∧
      SameOutcome Value.Rearranges (fun _ _ => True) (greeting.validate (.map []) true)
        (greeting.validate (.map [(.text "a", .text "x")]) true) := by
  have hfield : (Schema.ofKind .string |>.withDefault (.text "x")).Reachable :=
    .withDefault (.ofKind .string) _
  have hd : (Schema.ofKind .string |>.withDefault (.text "x")).absent ≠ .null :=
    show Value.text "x" ≠ .null by nofun
  have hkeys : AreKeys (([] : Entries Value).map (·.1)) := .nil
  have hiff := (hfield.validate_absent_iff hd true).2 reachable_greeting (.head _) rfl rfl rfl
    hkeys rfl
  refine ⟨hd, hiff.2 ⟨⟨.inl ⟨_, rfl⟩, .inl ⟨_, rfl⟩⟩, .inl ?_⟩⟩
  exact .plain rfl (fun _ => rfl) rfl

/-- A record with a text whose default is a number. -/
def coded : Schema :=
  (Schema.ofKind .object).withFields [(.text "n", (Schema.ofKind .string).withDefault (.int 5))]

theorem reachable_coded : coded.Reachable := by
  refine .withFields (.ofKind .object) rfl (by simp [Value.isKey]) ?_
  simpa using .withDefault (.ofKind .string) (.int 5)

theorem validate_coded_ne :
    coded.Reachable ∧ coded.absent = .map [] ∧ coded.validate .null true = .ok (.map []) ∧
      coded.validate (.map []) true = .error (.invalid [⟨"n", .text "type",
        "n must be a \x60string\x60 type", .int 5, .text "string"⟩]) ∧
      coded.validate (.map [(.text "n", .int 5)]) true = .ok (.map [(.text "n", .text "5")]) :=
  ⟨reachable_coded, rfl, rfl, rfl, rfl⟩

end FieldSchema.Schema
