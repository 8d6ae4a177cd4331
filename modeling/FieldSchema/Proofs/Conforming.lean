import FieldSchema.Proofs.Stability

/-!
# Values of the type asked for

A value has the type of a schema if it is of the schema's kind (`Schema.isType_eq_describes`).
Casting is there for the others: outside records it leaves a value as it is, or makes one of the
type from one that is not (`Schema.cast_scalar`). A record is left as it is, with its entries in
their order, where every field conforms to the schema that the record selects for it, however the
conditions of the fields refer to one another (`Schema.cast_eq_of_conforms`).
-/

namespace FieldSchema.Schema

variable {s : Schema} {v : Value}

theorem isType_eq_describes (s : Schema) (v : Value) : s.isType v = s.kind.describes v := by
  unfold isType
  cases s.kind with
  | mixed => rfl
  | _ => cases v <;> rfl

/-! ## Scalars -/

/-- Outside records, casting alters nothing but values that are not of the type, and makes values of
the type from them. So what was cast once is not altered again. -/
theorem cast_scalar (hkind : s.kind ≠ .object) (hv : v.isNull = false) :
    (s.cast v = v ∨ s.isType v = false ∧ s.isType (s.cast v) = true) ∧
      s.cast (s.cast v) = s.cast v ∧ (s.isType v = true → s.cast v = v) := by
  have hcast : ∀ w : Value, w.isNull = false → s.cast w = s.kind.coerce w := fun w hw =>
    cast_plain hw fun h => absurd h hkind
  simp only [isType_eq_describes]
  rw [hcast v hv, hcast _ (Kind.isNull_coerce _ hv)]
  exact ⟨s.kind.coerce_eq_or_describes v, s.kind.coerce_coerce v, Kind.coerce_of_describes⟩

theorem cast_scalar_word :
    (Schema.ofKind .boolean).cast (.text " Yes ") = .bool true ∧
      (Schema.ofKind .boolean).isType (.text " Yes ") = false ∧
      (Schema.ofKind .boolean).isType (.bool true) = true ∧
      (Schema.ofKind .boolean).cast (.bool true) = .bool true := by
  have hread : Value.readBool? " Yes " = some true := by decide +kernel
  have hword : (Schema.ofKind .boolean).cast (.text " Yes ") = .bool true := by
    simp only [cast, ofKind, Kind.coerce, Value.toBoolean, hread]
  obtain ⟨hcast, hagain, -⟩ :=
    cast_scalar (s := .ofKind .boolean) (v := .text " Yes ") (by decide) rfl
  rw [hword] at hcast hagain
  obtain ⟨hbefore, hafter⟩ := hcast.resolve_left (by simp)
  exact ⟨hword, hbefore, hafter, hagain⟩

/-! ## Conforming values -/

/-- That a value is all that a schema could ask of it before it is cast: it is not null and has the
type, and if it is a record, each of its fields conforms to the schema that the record selects for
it, and no field is absent for which that schema has a default. -/
inductive Conforms : Schema → Value → Prop
  | scalar {s : Schema} {v : Value} (hkind : s.kind ≠ .object) (hnull : v.isNull = false)
      (htype : s.isType v = true) : Conforms s v
  | record {s : Schema} {record : Entries Value} (hkind : s.kind = .object)
      (htype : s.isType (.map record) = true)
      (present : ∀ e ∈ s.fields, ∀ v, record.get? e.1 = some v → Conforms (e.2.select record) v)
      (missing : ∀ e ∈ s.fields, record.get? e.1 = none →
        (e.2.select record).hasDefault = false) : Conforms s (.map record)

/-- Nothing is left to do for what conforms. -/
theorem Conforms.isComplete (h : s.Conforms v) : s.IsComplete v := by
  induction h with
  | scalar hkind hnull htype =>
    rw [isType_eq_describes] at htype
    exact .plain hnull (fun h => absurd h hkind) (Kind.coerce_of_describes htype)
  | record hkind _ _ missing ih =>
    exact .record hkind ih fun e he hget => by simpa [hasDefault] using missing e he hget

/-- Casting leaves what conforms as it is: a record keeps its entries in their order, and each of
its fields is cast by the schema that the record as given selects. -/
theorem cast_eq_of_conforms (h : s.Conforms v) : s.cast v = v := cast_eq_of_isComplete h.isComplete

/-- Two fields that depend on each other, and a record with a default. -/
def braided : Schema :=
  (Schema.ofKind .object).withFields
    [(.text "a", tangledField (.text "b") (.int 1)), (.text "b", tangledField (.text "a") (.int 5)),
      (.text "c", (Schema.ofKind .object).withFields
        [(.text "d", (Schema.ofKind .number).withDefault (.int 0))])]

def braidedRecord : Entries Value :=
  [(.text "c", .map [(.text "e", .null), (.text "d", .int 3)]), (.text "b", .int 1),
    (.text "a", .text "x")]

theorem cast_braided : braided.Conforms (.map braidedRecord) ∧
    braided.cast (.map braidedRecord) = .map braidedRecord := by
  have hconforms : braided.Conforms (.map braidedRecord) := by
    refine .record rfl rfl ?_ ?_
    · rw [show braided.fields = [(_, _), (_, _), (_, _)] from rfl, List.forall_mem_cons,
        List.forall_mem_cons, List.forall_mem_singleton]
      refine ⟨?_, ?_, ?_⟩
      · rintro _ ⟨⟩
        exact .scalar (by decide) rfl rfl
      · rintro _ ⟨⟩
        exact .scalar (by decide) rfl rfl
      · rintro _ ⟨⟩
        refine .record rfl rfl ?_ ?_
        · exact List.forall_mem_singleton.2 fun _ hget => by
            cases hget
            exact .scalar (by decide) rfl rfl
        · exact List.forall_mem_singleton.2 nofun
    · decide
  exact ⟨hconforms, cast_eq_of_conforms hconforms⟩

end FieldSchema.Schema
