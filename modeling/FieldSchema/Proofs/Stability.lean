import FieldSchema.Proofs.Coercion
import FieldSchema.Proofs.Judged
import FieldSchema.Proofs.Turns

/-!
# Validating what validation returns

A value that was validated is cast once more when it is validated again. It comes back as it is
exactly if it is complete (`Schema.IsComplete`, `Schema.Reachable.validate_again_iff`): no record
in it lacks a field that has a default, and no null stands where something stands in for it. A
schema whose defaults are complete, and whose conditions ask for no field with a later turn, casts
everything to something complete (`Schema.cast_cast`). Other schemas need not: a default is put in
its place as it was declared.
-/

namespace FieldSchema.Schema

variable {s : Schema} {v w : Value} {record : Entries Value} {e : Value × Schema}
  {fields turns : List (Value × Schema)}

/-! ## Turns that change nothing -/

theorem length_le_turn (record : Entries Value) (e : Value × Schema) :
    record.length ≤ (turn record e).length := by
  unfold turn
  split
  · rw [Entries.length_put]
    split <;> omega
  · exact Nat.le_refl _

theorem length_le_turns : ∀ (turns : List (Value × Schema)) (record : Entries Value),
    record.length ≤ (turns.foldl turn record).length
  | [], _ => Nat.le_refl _
  | e :: turns, record =>
    Nat.le_trans (length_le_turn record e) (length_le_turns turns (turn record e))

theorem turn_eq_self_of_turns (h : AreKeys ((e :: turns).map (·.1)))
    (hturns : turns.foldl turn (turn record e) = record) : turn record e = record := by
  have hkeys : ∀ e' ∈ e :: turns, e'.1.isKey = true := fun e' he' =>
    h.isKey _ (List.mem_map_of_mem he')
  have hkey := hkeys e List.mem_cons_self
  have hlater : ∀ e' ∈ turns, e.1.same e'.1 = false := fun e' he' =>
    (List.pairwise_cons.1 h.distinct).1 _ (List.mem_map_of_mem he')
  have hget : (turn record e).get? e.1 = record.get? e.1 := by
    rw [← get?_turns_of_not_same (fun e' he' => hkeys e' (List.mem_cons_of_mem _ he')) hlater,
      hturns]
  cases hself : e.1.same e.1 with
  | true => rwa [turn_eq_self_iff hkey, ← get?_turn_self hkey hself]
  | false =>
    -- a name that is not found again could only be added once more
    have hnone : record.get? e.1 = none := by
      cases hg : record.get? e.1 with
      | none => rfl
      | some u => exact absurd (Entries.same_self_of_get? hkey hg) (by simp [hself])
    have hlength := length_le_turns turns (turn record e)
    rw [hturns] at hlength
    unfold turn at hlength ⊢
    split at hlength
    · rw [Entries.length_put, if_neg (by simp [Entries.has, hnone])] at hlength
      omega
    · rfl

theorem turns_eq_self : ∀ {turns : List (Value × Schema)},
    (∀ e ∈ turns, turn record e = record) → turns.foldl turn record = record
  | [], _ => rfl
  | e :: turns, h => by
    rw [List.foldl_cons, h e List.mem_cons_self]
    exact turns_eq_self fun e' he' => h e' (List.mem_cons_of_mem _ he')

/-- All turns together change nothing exactly if none of them changes anything. -/
theorem turns_eq_self_iff (h : AreKeys (turns.map (·.1))) :
    turns.foldl turn record = record ↔ ∀ e ∈ turns, turn record e = record := by
  refine ⟨fun hturns => ?_, turns_eq_self⟩
  induction turns with
  | nil => simp
  | cons e turns ih =>
    have htail : AreKeys (turns.map (·.1)) :=
      ⟨fun k hk => h.isKey k (List.mem_cons_of_mem _ hk), (List.pairwise_cons.1 h.distinct).2⟩
    have hfirst := turn_eq_self_of_turns h hturns
    rw [List.foldl_cons, hfirst] at hturns
    exact List.forall_mem_cons.2 ⟨hfirst, ih htail hturns⟩

/-! ## Complete values -/

/-- That nothing is left to fill in or to coerce in a value: null stands only where nothing stands
in for it, and a record has for each of its fields a complete value, or none where the selected
schema has no default. -/
inductive IsComplete : Schema → Value → Prop
  | null {s : Schema} (h : s.absent = .null) : IsComplete s .null
  | plain {s : Schema} {v : Value} (hnull : v.isNull = false)
      (hrecord : s.kind = .object → v.isMap = false) (h : s.kind.coerce v = v) : IsComplete s v
  | record {s : Schema} {record : Entries Value} (hkind : s.kind = .object)
      (present : ∀ e ∈ s.fields, ∀ v, record.get? e.1 = some v →
        IsComplete (e.2.select record) v)
      (missing : ∀ e ∈ s.fields, record.get? e.1 = none →
        (e.2.select record).default? = none) : IsComplete s (.map record)

theorem cast_plain (hnull : v.isNull = false) (hrecord : s.kind = .object → v.isMap = false) :
    s.cast v = s.kind.coerce v := by
  cases v with
  | null => simp [Value.isNull] at hnull
  | map record =>
    have hkind : s.kind ≠ .object := fun hkind => by
      simp [Value.isMap] at hrecord
      exact hrecord hkind
    rw [cast, if_neg hkind]
  | _ => rfl

/-- A value is null, a record where a record is described, or cast by coercion alone. -/
theorem cast_cases (s : Schema) (v : Value) : v = .null ∨
    (∃ record, v = .map record ∧ s.kind = .object) ∨
      v.isNull = false ∧ (s.kind = .object → v.isMap = false) := by
  cases v with
  | null => exact .inl rfl
  | map record =>
    by_cases hkind : s.kind = .object
    · exact .inr (.inl ⟨record, rfl, hkind⟩)
    · exact .inr (.inr ⟨rfl, fun h => absurd h hkind⟩)
  | _ => exact .inr (.inr ⟨rfl, fun _ => rfl⟩)

theorem isNull_cast (hv : v.isNull = false) : (s.cast v).isNull = false := by
  rcases cast_cases s v with rfl | ⟨record, rfl, hkind⟩ | ⟨hnull, hrecord⟩
  · simp [Value.isNull] at hv
  · rw [cast_record hkind]
    rfl
  · rw [cast_plain hnull hrecord]
    exact Kind.isNull_coerce _ hnull

theorem cast_record_eq_self (hkind : s.kind = .object) (hfill : ∀ e ∈ s.fields,
    (e.2.select record).fill (record.get? e.1) = record.get? e.1) :
    s.cast (.map record) = .map record := by
  rw [cast_record hkind, turns_eq_self fun e he => turn_eq_self (hfill e (mem_inTurn.1 he))]

/-- Casting leaves a record as it is exactly if every field has what it would be given. -/
theorem cast_record_eq_self_iff (h : s.IsSound) (hkind : s.kind = .object) :
    s.cast (.map record) = .map record ↔ ∀ e ∈ s.fields,
      (e.2.select record).fill (record.get? e.1) = record.get? e.1 := by
  refine ⟨fun hcast e he => ?_, cast_record_eq_self hkind⟩
  rw [cast_record hkind, Value.map.injEq, turns_eq_self_iff (areKeys_inTurn h.areKeys)] at hcast
  exact (turn_eq_self_iff (h.areKeys.isKey _ (List.mem_map_of_mem he))).1
    (hcast e (mem_inTurn.2 he))

/-- Casting leaves a complete value as it is: each turn finds the record as it was given. -/
theorem cast_eq_of_isComplete (hcomplete : s.IsComplete v) : s.cast v = v := by
  induction hcomplete with
  | null habsent => exact habsent
  | plain hnull hrecord hcoerce => rw [cast_plain hnull hrecord, hcoerce]
  | @record s record hkind _ missing ih =>
    refine cast_record_eq_self hkind fun e he => ?_
    cases hget : record.get? e.1 with
    | some v => rw [fill, ih e he v hget]
    | none => rw [fill, missing e he hget]

theorem isComplete_of_cast_eq (s : Schema) :
    s.Everywhere IsSound → ∀ v, s.cast v = v → s.IsComplete v := by
  induction s using induct_select with
  | step s ih =>
    intro h v hv
    rcases cast_cases s v with rfl | ⟨record, rfl, hkind⟩ | ⟨hnull, hrecord⟩
    · exact .null hv
    · rw [cast_record_eq_self_iff h.self hkind] at hv
      refine .record hkind (fun e he v hget => ?_) fun e he hget => ?_
      · have hfill := hv e he
        rw [hget, fill, Option.some.injEq] at hfill
        exact ih e he record ((h.field he).select record) v hfill
      · simpa [hget, fill] using hv e he
    · exact .plain hnull hrecord (by rwa [cast_plain hnull hrecord] at hv)

/-- Casting leaves a value as it is exactly if the value is complete. -/
theorem cast_eq_self_iff (h : s.Everywhere IsSound) : s.cast v = v ↔ s.IsComplete v :=
  ⟨isComplete_of_cast_eq s h v, cast_eq_of_isComplete⟩

/-! ## Schemas that cast to complete values -/

/-- That what stands in for an absent value is complete, that names can be found again, and that no
condition of a field asks for one whose turn is not over. -/
structure IsSteady (s : Schema) : Prop where
  absent : s.cast s.absent = s.absent
  names : ∀ e ∈ s.fields, e.1.same e.1 = true
  turns : ∀ e ∈ s.fields, ∀ k, e.2.DependsOn k → isWaiting s.fields e.1 k = false

theorem selectBy_turnLookup (hturns : ∀ k, e.2.DependsOn k → isWaiting fields e.1 k = false)
    (given cast : Entries Value) :
    e.2.selectBy (turnLookup fields e.1 given cast) = e.2.select cast := by
  rw [select_eq_selectBy]
  refine selectBy_congr e.2 fun k hk => ?_
  rw [turnLookup, hturns k hk]
  rfl

/-- In a steady schema each field ends up with what the cast record demands of what is given. -/
theorem IsSteady.get?_turns (hsteady : s.IsSteady) (h : s.IsSound) (he : e ∈ s.fields)
    (record : Entries Value) :
    Entries.get? ((inTurn s.fields).foldl turn record) e.1 =
      (e.2.select ((inTurn s.fields).foldl turn record)).fill (record.get? e.1) := by
  obtain ⟨name, field⟩ := e
  have hself := hsteady.names _ he
  cases hc : field.isConditional with
  | false =>
    have hget := get?_castFields_of_not_conditional record h.areKeys he hc hself
    rw [castFields_castFields] at hget
    simp only [select_eq_self hc]
    exact hget
  | true =>
    have hget := get?_castFields record h.areKeys he hc hself
    rwa [selectBy_turnLookup (hsteady.turns _ he), castFields_castFields] at hget

/-- A second cast changes nothing, where schemas are steady at every depth. -/
theorem cast_cast (s : Schema) : s.Everywhere IsSound → s.Everywhere IsSteady →
    ∀ v, s.cast (s.cast v) = s.cast v := by
  induction s using induct_select with
  | step s ih =>
    intro h hsteady v
    rcases cast_cases s v with rfl | ⟨record, rfl, hkind⟩ | ⟨hnull, hrecord⟩
    · exact hsteady.self.absent
    · rw [cast_record hkind]
      refine cast_record_eq_self hkind fun e he => ?_
      have hget := hsteady.self.get?_turns h.self he record
      generalize (inTurn s.fields).foldl turn record = r at hget ⊢
      have hselected := (h.field he).select r
      have hsteady' := (hsteady.field he).select r
      rw [hget]
      cases Entries.get? record e.1 with
      | some v => rw [fill, fill, ih e he r hselected hsteady' v]
      | none =>
        cases hdefault : (e.2.select r).default? with
        | none => rw [fill, hdefault, fill, hdefault]
        | some d =>
          -- the default was put in as it stands, and stands in for an absent value
          have habsent : (e.2.select r).absent = d := by rw [absent, hdefault]
          rw [fill, hdefault, fill, ← habsent, hsteady'.self.absent]
    · have hcoerced : s.cast v = s.kind.coerce v := cast_plain hnull hrecord
      have hrecord' : s.kind = .object → (s.kind.coerce v).isMap = false := by
        intro hkind
        have hid : s.kind.coerce v = v := by rw [hkind]; rfl
        rw [hid]
        exact hrecord hkind
      rw [hcoerced, cast_plain (Kind.isNull_coerce _ hnull) hrecord', Kind.coerce_coerce]

/-! ## Validating again -/

/-- What validation returns is returned again, as it is, exactly if it is complete. So it always is
where the schema is steady at every depth. -/
theorem Reachable.validate_again_iff (h : s.Reachable) {all : Bool}
    (hv : s.validate v all = .ok w) (all' : Bool) :
    (s.validate w all' = .ok w ↔ s.IsComplete w) ∧
      (s.Everywhere IsSteady → s.validate w all' = .ok w) := by
  have hsound := h.everywhere_isSound
  rw [validate_eq_judge, judge_eq_ok_iff hsound] at hv
  obtain ⟨hw, hjudged⟩ := hv
  rw [← hw] at hjudged
  have hagain : s.validate w all' = .ok w ↔ s.cast w = w := by
    rw [validate_eq_judge, judge_eq_ok_iff hsound]
    refine ⟨fun hagain => hagain.1.symm, fun hcast => ?_⟩
    rw [hcast]
    exact ⟨rfl, hjudged⟩
  refine ⟨hagain.trans (cast_eq_self_iff hsound), fun hsteady => hagain.2 ?_⟩
  rw [hw, cast_cast s hsound hsteady]

theorem isSteady_ofKind (kind : Kind) : (Schema.ofKind kind).Everywhere IsSteady := by
  refine .leaf ⟨?_, List.forall_mem_nil _, List.forall_mem_nil _⟩ rfl rfl
  cases kind <;> rfl

theorem isSteady_parcel : parcel.Everywhere IsSteady := by
  have hsize : ((Schema.ofKind .string).required .null).Everywhere IsSteady :=
    .leaf ⟨rfl, List.forall_mem_nil _, List.forall_mem_nil _⟩ rfl rfl
  have hheavy : ((Schema.ofKind .number).withRule (.minimum (.int 10)) .null).Everywhere
      IsSteady := .leaf ⟨rfl, List.forall_mem_nil _, List.forall_mem_nil _⟩ rfl rfl
  have hweight : ((Schema.ofKind .mixed).whenSibling ⟨.text "size", .text "big",
      (Schema.ofKind .number).withRule (.minimum (.int 10)) .null, .ofKind .number⟩).Everywhere
        IsSteady := by
    refine .intro ⟨rfl, List.forall_mem_nil _, List.forall_mem_nil _⟩ (List.forall_mem_nil _) ?_ ?_
    · exact List.forall_mem_singleton.2 hheavy
    · exact List.forall_mem_singleton.2 (isSteady_ofKind .number)
  have hleaf : ∀ {s : Schema} {k : Value}, s.conditions = [] → ¬ s.DependsOn k := by
    intro s k hs hk
    cases hk <;> simp_all
  have hfields : parcel.fields = [(.text "size", _), (.text "weight", _)] := rfl
  refine .intro ⟨rfl, by decide, ?_⟩ ?_ (List.forall_mem_nil _) (List.forall_mem_nil _)
  · rw [hfields, List.forall_mem_cons, List.forall_mem_singleton]
    refine ⟨fun k hk => absurd hk (hleaf rfl), fun k hk => ?_⟩
    -- the weight depends on the size, which has no conditions
    cases hk with
    | here hc =>
      obtain rfl := List.mem_singleton.1 hc
      rfl
    | chosen hc hk =>
      obtain rfl := List.mem_singleton.1 hc
      exact absurd hk (hleaf rfl)
    | other hc hk =>
      obtain rfl := List.mem_singleton.1 hc
      exact absurd hk (hleaf rfl)
  · rw [hfields, List.forall_mem_cons, List.forall_mem_singleton]
    exact ⟨hsize, hweight⟩

theorem validate_again_parcel :
    parcel.validate (.map [(.text "size", .int 7), (.text "weight", .int 3)]) false =
        .ok (.map [(.text "size", .text "7"), (.text "weight", .int 3)]) ∧
      (parcel.validate (.map [(.text "size", .text "7"), (.text "weight", .int 3)]) true =
          .ok (.map [(.text "size", .text "7"), (.text "weight", .int 3)]) ↔
        parcel.IsComplete (.map [(.text "size", .text "7"), (.text "weight", .int 3)])) ∧
      parcel.validate (.map [(.text "size", .text "7"), (.text "weight", .int 3)]) true =
        .ok (.map [(.text "size", .text "7"), (.text "weight", .int 3)]) := by
  have hv : parcel.validate (.map [(.text "size", .int 7), (.text "weight", .int 3)]) false =
      .ok (.map [(.text "size", .text "7"), (.text "weight", .int 3)]) := rfl
  have hagain := reachable_parcel.validate_again_iff hv true
  exact ⟨hv, hagain.1, hagain.2 isSteady_parcel⟩

/-- A record whose one field has a default. -/
def greeting : Schema :=
  (Schema.ofKind .object).withFields
    [(.text "a", (Schema.ofKind .string).withDefault (.text "x"))]

theorem reachable_greeting : greeting.Reachable := by
  refine .withFields (.ofKind .object) rfl (by simp [Value.isKey]) ?_
  simpa using .withDefault (.ofKind .string) (.text "x")

theorem validate_again_greeting_ne :
    greeting.Reachable ∧ greeting.validate .null false = .ok (.map []) ∧
      greeting.validate (.map []) false = .ok (.map [(.text "a", .text "x")]) :=
  ⟨reachable_greeting, rfl, rfl⟩

end FieldSchema.Schema
