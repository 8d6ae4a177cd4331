import FieldSchema.Proofs.Changes
import FieldSchema.Proofs.FieldOrder

/-!
# The order of tests

The order of a schema's tests shows in nothing but the order of what they complain of. A record with
such a field is cast to the same (`Schema.Shuffles.cast_field`), and the same is complained of in it
(`Schema.Shuffles.alike_field`). So if what the tests say can be reported, validation comes to the
same in both orders: to a value or to failures (`Schema.Shuffles.sameOutcome_field`), or to the
misuse that the first complaint makes that cannot be reported (`Schema.Shuffles.sameMisuse_field`).
-/

namespace FieldSchema

namespace Complaint

variable {cs cs' ds ds' : List Complaint}

/-- The same complaints in another order, of which the same one is the first that cannot be
reported, among all of them and among what is wanted of them. -/
structure Alike (cs cs' : List Complaint) : Prop where
  perm : cs.Perm cs'
  unreportable : ∀ all, (wanted all cs).find? (!·.isReportable) =
    (wanted all cs').find? (!·.isReportable)

namespace Alike

theorem refl (cs : List Complaint) : Alike cs cs := ⟨.refl cs, fun _ => rfl⟩

theorem of_isReportable (hperm : cs.Perm cs') (hr : ∀ c ∈ cs, c.isReportable = true) :
    Alike cs cs' where
  perm := hperm
  unreportable all := by
    have hnone : ∀ ds : List Complaint, (∀ c ∈ ds, c ∈ cs) →
        (wanted all ds).find? (!·.isReportable) = none := fun ds hds =>
      List.find?_eq_none.2 fun c hc => by simp [hr c (hds c (mem_of_mem_wanted hc))]
    rw [hnone cs fun _ hc => hc, hnone cs' fun _ hc => hperm.mem_iff.2 hc]

/-- The first complaint of two lists is that of the first one, unless it is empty in every order. -/
theorem append (h : Alike cs cs') (h' : Alike ds ds') : Alike (cs ++ ds) (cs' ++ ds') where
  perm := h.perm.append h'.perm
  unreportable
    | true => by
      have hall : cs.find? (!·.isReportable) = cs'.find? (!·.isReportable) := h.unreportable true
      have hall' : ds.find? (!·.isReportable) = ds'.find? (!·.isReportable) := h'.unreportable true
      show (cs ++ ds).find? _ = (cs' ++ ds').find? _
      rw [List.find?_append, List.find?_append, hall, hall']
    | false => by
      cases cs with
      | nil =>
        rw [← h.perm.nil_eq]
        exact h'.unreportable false
      | cons c cs =>
        cases cs' with
        | nil => exact absurd h.perm.symm.nil_eq nofun
        | cons c' cs' => exact h.unreportable false

/-- What is wanted of such complaints can be reported in both orders or in neither. -/
theorem isReportable_iff (h : Alike cs cs') (all : Bool) :
    (∀ c ∈ wanted all cs, c.isReportable = true) ↔
      ∀ c ∈ wanted all cs', c.isReportable = true := by
  have hnone : ∀ ds : List Complaint, (∀ c ∈ ds, c.isReportable = true) ↔
      ds.find? (!·.isReportable) = none := fun ds => by simp [List.find?_eq_none]
  rw [hnone, hnone, h.unreportable all]

/-- Where something wanted cannot be reported, the attempt ends in the same misuse in both orders.
-/
theorem exists_mapM_failure_eq_error (h : Alike cs cs') {all : Bool}
    (hr : ¬ ∀ c ∈ wanted all cs, c.isReportable = true) : ∃ m,
      (wanted all cs).mapM failure = .error m ∧ (wanted all cs').mapM failure = .error m := by
  have hsome : ((wanted all cs).find? (!·.isReportable)).isSome = true := by
    simpa [List.find?_isSome] using hr
  obtain ⟨c, hc⟩ := Option.isSome_iff_exists.1 hsome
  obtain ⟨m, hm⟩ := exists_failure_eq_error (by simpa using List.find?_some hc)
  exact ⟨m, mapM_failure_eq_error hm hc, mapM_failure_eq_error hm (h.unreportable all ▸ hc)⟩

end Alike

end Complaint

namespace Schema

variable {s s' : Schema} {record : Entries Value} {path : List Value} {name v : Value} {all : Bool}

/-! ## Records of one field -/

theorem inTurn_singleton (e : Value × Schema) : inTurn [e] = [e] := by
  cases h : e.2.isConditional <;> simp [inTurn, h]

/-- Something is left of everything, where there are fields. -/
theorem isNull_cast_recordOfFields (e : Value × Schema) (v : Value) :
    ((recordOfFields [e]).cast v).isNull = false := by
  by_cases hv : v = .null
  · rw [hv, cast_null_recordOfFields rfl]
    rfl
  · exact isNull_cast (isNull_eq_false hv)

namespace Shuffles

theorem cast_eq (h : s.Shuffles s') (v : Value) : s'.cast v = s.cast v := by
  obtain ⟨tests, -, rfl⟩ := h
  cases s
  cases v <;> rfl

/-- A schema's tests do not matter to what a field has after its turn. -/
theorem fill_select (h : s.Shuffles s') (record : Entries Value) (given : Option Value) :
    (s'.select record).fill given = (s.select record).fill given := by
  have hdefault : s'.default? = s.default? := by
    obtain ⟨tests, -, rfl⟩ := h
    rfl
  have hconditions : s'.conditions = s.conditions := by
    obtain ⟨tests, -, rfl⟩ := h
    rfl
  rcases List.eq_nil_or_concat s.conditions with hnil | ⟨conditions, c, hc⟩
  · have hself : s.select record = s := select_eq_self (by simp [isConditional, hnil])
    have hself' : s'.select record = s' :=
      select_eq_self (by simp [isConditional, hconditions, hnil])
    rw [hself, hself']
    cases given with
    | none => exact hdefault
    | some v => exact congrArg some (h.cast_eq v)
  · rw [List.concat_eq_append] at hc
    rw [select_of_append hc, select_of_append (hconditions.trans hc)]

theorem cast_field (h : s.Shuffles s') (name v : Value) :
    (recordOfFields [(name, s')]).cast v = (recordOfFields [(name, s)]).cast v := by
  rcases cast_cases (recordOfFields [(name, s)]) v with rfl | ⟨record, rfl, -⟩ | ⟨hnull, hplain⟩
  · rw [cast_null_recordOfFields rfl, cast_null_recordOfFields rfl]
  · rw [cast_recordOfFields, cast_recordOfFields, inTurn_singleton, inTurn_singleton,
      List.foldl_cons, List.foldl_cons, turn_eq, turn_eq, h.fill_select]
  · have hmap := hplain rfl
    rw [cast_recordOfFields_of_not_isMap hnull hmap, cast_recordOfFields_of_not_isMap hnull hmap]

/-! ## Complaints -/

theorem ownChoiceComplaints_eq (h : s.Shuffles s') : s'.ownChoiceComplaints path record name =
    s.ownChoiceComplaints path record name := by
  obtain ⟨tests, -, rfl⟩ := h
  rw [Schema.ownChoiceComplaints_eq, Schema.ownChoiceComplaints_eq]

theorem alike_complaints (h : s.Shuffles s') (hmessages : ∀ t ∈ s.tests, t.message.isText = true)
    (path : List Value) (v : Value) :
    Complaint.Alike (s.complaints path v) (s'.complaints path v) := by
  obtain ⟨tests, hperm, rfl⟩ := h
  have htests : Complaint.Alike (s.tests.flatMap (·.complaints path v))
      (tests.flatMap (·.complaints path v)) := by
    refine .of_isReportable (hperm.flatMap_right _) fun c hc => ?_
    obtain ⟨t, ht, hc⟩ := List.mem_flatMap.1 hc
    obtain ⟨d, -, rfl⟩ := List.mem_map.1 hc
    exact hmessages t ht
  cases hmap : v.isMap with
  | false =>
    rw [complaints_of_not_isMap hmap, complaints_of_not_isMap hmap]
    exact (Complaint.Alike.refl _).append htests
  | true =>
    obtain ⟨record, rfl⟩ := Value.eq_map_of_isMap hmap
    have hempty : tests.isEmpty = s.tests.isEmpty := by
      rw [Bool.eq_iff_iff, List.isEmpty_iff_length_eq_zero, List.isEmpty_iff_length_eq_zero,
        hperm.length_eq]
    rw [complaints_map, complaints_map, hempty]
    exact ((Complaint.Alike.refl _).append htests).append (.refl _)

theorem alike_field (h : s.Shuffles s') (hmessages : ∀ t ∈ s.tests, t.message.isText = true)
    (path : List Value) (name v : Value) :
    Complaint.Alike ((recordOfFields [(name, s)]).complaints path v)
      ((recordOfFields [(name, s')]).complaints path v) := by
  cases hmap : v.isMap with
  | false =>
    rw [complaints_of_not_isMap hmap, complaints_of_not_isMap hmap]
    exact .refl _
  | true =>
    obtain ⟨record, rfl⟩ := Value.eq_map_of_isMap hmap
    have hpresent : Complaint.Alike (fieldComplaints path record [(name, s)])
        (fieldComplaints path record [(name, s')]) := by
      rw [fieldComplaints_eq, fieldComplaints_eq, List.flatMap_singleton, List.flatMap_singleton]
      show Complaint.Alike (((Entries.get? record name).map _).getD [])
        (((Entries.get? record name).map _).getD [])
      cases Entries.get? record name with
      | none => exact .refl _
      | some v => exact h.alike_complaints hmessages (path ++ [name]) v
    have hchoices : choiceComplaints path record [(name, s')] =
        choiceComplaints path record [(name, s)] := by
      rw [choiceComplaints_eq, choiceComplaints_eq, List.flatMap_singleton,
        List.flatMap_singleton, h.ownChoiceComplaints_eq]
    have hrequired : requiredNames [(name, s')] = requiredNames [(name, s)] := by
      obtain ⟨tests, -, rfl⟩ := h
      cases hr : s.isRequired <;> simp [requiredNames, hr]
    rw [complaints_recordOfFields, complaints_recordOfFields, recordComplaints, recordComplaints,
      hchoices, hrequired]
    exact (hpresent.append (.refl _)).append (.refl _)

/-! ## Outcomes -/

/-- A field whose tests stand in another order is answered for the same values, and comes to the
same. -/
theorem sameOutcome_field (h : s.Shuffles s') (hmessages : ∀ t ∈ s.tests, t.message.isText = true)
    (hs : (recordOfFields [(name, s)]).Everywhere IsSound)
    (hs' : (recordOfFields [(name, s')]).Everywhere IsSound) (v : Value) (all : Bool) :
    ((recordOfFields [(name, s)]).Answers v all ↔ (recordOfFields [(name, s')]).Answers v all) ∧
      ((recordOfFields [(name, s)]).Answers v all → SameOutcome Eq (Reordered all)
        ((recordOfFields [(name, s)]).validate v all)
        ((recordOfFields [(name, s')]).validate v all)) := by
  have hnull : ∀ s, ((recordOfFields [(name, s)]).cast v).isNull = false := fun s =>
    isNull_cast_recordOfFields (name, s) v
  have halike := h.alike_field hmessages [] name ((recordOfFields [(name, s)]).cast v)
  rw [answers_iff_of_not_null hs (hnull s), answers_iff_of_not_null hs' (hnull s'),
    h.cast_field name v]
  refine ⟨halike.isReportable_iff all, fun hr => ?_⟩
  rw [validate_eq_judge, validate_eq_judge, h.cast_field name v]
  exact sameOutcome_judge hs hs' (hnull s) (hnull s) rfl halike.perm hr
    ((halike.isReportable_iff all).1 hr)

/-- Where such a field is not answered, both orders end in the same misuse. -/
theorem sameMisuse_field (h : s.Shuffles s') (hmessages : ∀ t ∈ s.tests, t.message.isText = true)
    (hs : (recordOfFields [(name, s)]).Everywhere IsSound)
    (hs' : (recordOfFields [(name, s')]).Everywhere IsSound)
    (hno : ¬ (recordOfFields [(name, s)]).Answers v all) :
    ∃ m, (recordOfFields [(name, s)]).validate v all = .error (.misuse m) ∧
      (recordOfFields [(name, s')]).validate v all = .error (.misuse m) := by
  have hnull : ∀ s, ((recordOfFields [(name, s)]).cast v).isNull = false := fun s =>
    isNull_cast_recordOfFields (name, s) v
  rw [answers_iff_of_not_null hs (hnull s)] at hno
  obtain ⟨m, hm, hm'⟩ := (h.alike_field hmessages [] name
    ((recordOfFields [(name, s)]).cast v)).exists_mapM_failure_eq_error hno
  refine ⟨m, ?_, ?_⟩
  · rw [validate_eq_judge, judge_of_not_null hs (hnull s), hm]
  · rw [validate_eq_judge, h.cast_field name v, judge_of_not_null hs' (hnull s), hm']

end Shuffles

end Schema

end FieldSchema
