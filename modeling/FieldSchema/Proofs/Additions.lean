import FieldSchema.Proofs.CastRuns
import FieldSchema.Proofs.Rearranged
import Mathlib.Data.List.Forall2

/-!
# What casting adds to a record

The entries of a record keep their places and their keys when it is cast, and only what stands under
the name of a field can change (`Schema.Keeps`). Behind them come the defaults of fields that were
not given, in the order of the fields' turns (`Schema.additions`): each is that of the schema which
the record selects as it is at the field's turn (`Schema.cast_eq_additions`). So it is wherever
casting returns, and it does unless it is stopped on the way (`Context.cast_frame`).
-/

namespace FieldSchema

namespace Schema

variable {s : Schema} {record given kept added : Entries Value} {e : Value × Schema} {v : Value}
  {fields turns : List (Value × Schema)}

/-! ## Entries that keep their places -/

/-- That entries have the keys of those given, one by one, and what stands under them unless a field
has that name. -/
def Keeps (fields : List (Value × Schema)) (given kept : Entries Value) : Prop :=
  List.Forall₂ (fun g k => k.1 = g.1 ∧ ((∀ e ∈ fields, e.1.same g.1 = false) → k.2 = g.2))
    given kept

namespace Keeps

theorem refl (fields : List (Value × Schema)) (given : Entries Value) : Keeps fields given given :=
  List.forall₂_same.2 fun _ _ => ⟨rfl, fun _ => rfl⟩

theorem keys (h : Keeps fields given kept) : kept.map (·.1) = given.map (·.1) := by
  induction h with
  | nil => rfl
  | cons hhead _ ih => rw [List.map_cons, List.map_cons, hhead.1, ih]

theorem has_eq (h : Keeps fields given kept) (key : Value) : kept.has key = given.has key := by
  rw [Entries.has_eq_any, h.keys, ← Entries.has_eq_any]

/-- What stands under the name of a field can be replaced. -/
theorem put (h : Keeps fields given kept) (he : e ∈ fields) (hhas : kept.has e.1 = true)
    (v : Value) : Keeps fields given (kept.put e.1 v) := by
  induction h with
  | nil => simp [Entries.has, Entries.get?] at hhas
  | @cons g k given kept hhead htail ih =>
    rw [Entries.put_cons]
    split
    · rename_i hs
      refine .cons ⟨hhead.1, fun hothers => ?_⟩ htail
      rw [hhead.1] at hs
      exact absurd hs (by simp [hothers e he])
    · rename_i hs
      exact .cons hhead (ih (by simpa [Entries.has, Entries.get?_cons, hs] using hhas))

end Keeps

/-! ## Defaults behind them -/

/-- What a field adds at its turn to a record that is so far as it is then: the default of the
selected schema, if nothing was given for the field. -/
def addition? (given : Entries Value) (e : Value × Schema) (soFar : Entries Value) :
    Option (Value × Value) :=
  if given.has e.1 then none else (e.2.select soFar).default?.map (e.1, ·)

/-- What fields add in their turns, each to the record that the turns before it have left. -/
def additions (given : Entries Value) (turns : List (Value × Schema)) (soFar : Entries Value) :
    Entries Value :=
  (turns.zip (turns.scanl turn soFar)).filterMap fun p => addition? given p.1 p.2

theorem additions_cons (e : Value × Schema) (turns : List (Value × Schema)) :
    additions given (e :: turns) record =
      (addition? given e record).toList ++ additions given turns (turn record e) := by
  rw [additions, List.scanl_cons, List.zip_cons_cons, List.filterMap_cons]
  simp only []
  cases addition? given e record <;> rfl

/-- A turn changes what is kept in its place, or adds the default behind all that was added. -/
theorem exists_turn_eq (he : e ∈ fields) (hkept : Keeps fields given kept)
    (hadded : added.has e.1 = false) :
    ∃ kept', Keeps fields given kept' ∧
      turn (kept ++ added) e = kept' ++ (added ++ (addition? given e (kept ++ added)).toList) := by
  have hget : (kept ++ added).get? e.1 = kept.get? e.1 := by
    have hnone : added.get? e.1 = none := by simpa [Entries.has] using hadded
    rw [Entries.get?_append, hnone, Option.or_none]
  rw [turn_eq, hget, addition?, ← hkept.has_eq]
  cases hv : kept.get? e.1 with
  | some v =>
    have hhas : kept.has e.1 = true := by simp [Entries.has, hv]
    rw [fill, Option.elim_some, Entries.put_append, if_pos hhas, if_pos hhas]
    exact ⟨_, hkept.put he hhas _, by rw [Option.toList_none, List.append_nil]⟩
  | none =>
    have hhas : kept.has e.1 = false := by simp [Entries.has, hv]
    refine ⟨kept, hkept, ?_⟩
    rw [fill, hhas, if_neg Bool.false_ne_true]
    cases (e.2.select (kept ++ added)).default? with
    | none => rw [Option.elim_none, Option.map_none, Option.toList_none, List.append_nil]
    | some d =>
      rw [Option.elim_some, Entries.put_append, hhas, if_neg Bool.false_ne_true,
        Entries.put_of_has_eq_false d hadded]
      rfl

theorem has_addition?_eq_false {name : Value} (hadded : added.has name = false)
    (hne : name.same e.1 = false) (soFar : Entries Value) :
    Entries.has (added ++ (addition? given e soFar).toList) name = false := by
  rw [Entries.has_eq_any] at hadded
  rw [Entries.has_eq_any, List.map_append, List.any_append, hadded, Bool.false_or, addition?]
  split
  · rfl
  · cases (e.2.select soFar).default? with
    | none => rfl
    | some d => simpa using hne

/-- The turns of fields with different names keep what was given and add their defaults in order. -/
theorem exists_turns_eq : ∀ {turns : List (Value × Schema)} {kept added : Entries Value},
    (∀ e ∈ turns, e ∈ fields) → AreKeys (turns.map (·.1)) → Keeps fields given kept →
    (∀ e ∈ turns, added.has e.1 = false) → ∃ kept', Keeps fields given kept' ∧
      turns.foldl turn (kept ++ added) =
        kept' ++ (added ++ additions given turns (kept ++ added))
  | [], kept, added, _, _, hkept, _ => ⟨kept, hkept, by simp [additions]⟩
  | e :: turns, kept, added, hturns, hkeys, hkept, hadded => by
    obtain ⟨kept₁, hkept₁, hturn⟩ := exists_turn_eq (hturns e (.head _)) hkept (hadded e (.head _))
    have hlater : ∀ e' ∈ turns,
        Entries.has (added ++ (addition? given e (kept ++ added)).toList) e'.1 = false :=
      fun e' he' => has_addition?_eq_false (hadded e' (.tail _ he'))
        (hkeys.not_same_head (List.mem_map_of_mem he')) _
    obtain ⟨kept₂, hkept₂, hrun⟩ := exists_turns_eq (fun e' he' => hturns e' (.tail _ he'))
      (hkeys.sublist (List.sublist_cons_self ..)) hkept₁ hlater
    refine ⟨kept₂, hkept₂, ?_⟩
    rw [List.foldl_cons, hturn, hrun, additions_cons, hturn, List.append_assoc added]

/-! ## Casting -/

/-- A record is cast to what was given, in its order and changed only under the names of fields, and
behind it the defaults of the fields that were not given: first those of fields without conditions,
then those of conditional fields, in the order of declaration. No key is there twice. -/
theorem cast_eq_additions (hkind : s.kind = .object) (hfields : AreKeys (s.fields.map (·.1)))
    (record : Entries Value) : ∃ kept : Entries Value,
      s.cast (.map record) = .map (kept ++ additions record (inTurn s.fields) record) ∧
        Keeps s.fields record kept ∧ (AreKeys (record.map (·.1)) →
          AreKeys ((kept ++ additions record (inTurn s.fields) record).map (·.1))) := by
  have hturns := areKeys_inTurn hfields
  have hnothing : ∀ e ∈ inTurn s.fields, Entries.has ([] : Entries Value) e.1 = false :=
    fun _ _ => rfl
  obtain ⟨kept, hkept, hrun⟩ := exists_turns_eq (fun e he => mem_inTurn.1 he) hturns
    (.refl s.fields record) hnothing
  rw [List.append_nil, List.nil_append] at hrun
  refine ⟨kept, ?_, hkept, fun hrecord => ?_⟩
  · rw [cast_record hkind, hrun]
  · rw [← hrun]
    exact areKeys_turns (fun e he => hturns.isKey _ (List.mem_map_of_mem he)) hrecord

end Schema

namespace Context

variable {context : Context} {s : Schema}

open Schema

/-- Where nothing is registered in the place of operations, a record that does not stop casting is
cast to what was given, in its order and changed only under the names of fields, and behind it the
defaults of the fields that were not given, in the order of their turns. No key is there twice. Any
other record is not cast: a whole number in it has too many digits for a text, or a condition asks
for what cannot be a key. -/
theorem cast_frame (hnothing : context.replacements = .nothing) (hkind : s.kind = .object)
    (hfields : AreKeys (s.fields.map (·.1))) (record : Entries Value) :
    (¬ s.StopsAt (.map record) → ∃ kept : Entries Value,
        context.cast s (.map record) =
            .ok (.map (kept ++ additions record (inTurn s.fields) record)) ∧
          Keeps s.fields record kept ∧ (AreKeys (record.map (·.1)) →
            AreKeys ((kept ++ additions record (inTurn s.fields) record).map (·.1)))) ∧
      (s.StopsAt (.map record) → IsStopped (context.cast s (.map record))) := by
  have hcast := Replacements.runsTo_cast s (.map record)
  rw [cast, hnothing]
  refine ⟨fun hno => ?_, hcast.stopped⟩
  obtain ⟨kept, heq, hkept⟩ := cast_eq_additions hkind hfields record
  exact ⟨kept, by rw [hcast.returns hno, heq], hkept⟩

/-- A weight whose schema depends on a size, which is declared after it and has a default. -/
def stocked : Schema :=
  (Schema.ofKind .object).withFields
    [(.text "weight", (Schema.ofKind .mixed).whenSibling ⟨.text "size", .text "big",
        (Schema.ofKind .number).withDefault (.int 10), .ofKind .number⟩),
      (.text "size", (Schema.ofKind .string).withDefault (.text "big")),
      (.text "count", .ofKind .number)]

def stockedGiven : Entries Value := [(.text "note", .null), (.text "count", .text "3")]

def stockedAdded : Entries Value := [(.text "size", .text "big"), (.text "weight", .int 10)]

/-- The size is added first, and the default of the weight is the one for that size. -/
theorem cast_frame_stocked : empty.replacements = .nothing ∧ stocked.kind = .object ∧
    AreKeys (stocked.fields.map (·.1)) ∧ ∃ kept : Entries Value,
      empty.cast stocked (.map stockedGiven) = .ok (.map (kept ++ stockedAdded)) ∧
        Keeps stocked.fields stockedGiven kept ∧ AreKeys ((kept ++ stockedAdded).map (·.1)) := by
  have hfields : AreKeys (stocked.fields.map (·.1)) := ⟨by decide, by decide⟩
  obtain ⟨hreturns, hstops⟩ :=
    cast_frame (replacements_eq_nothing isPlain_empty.registry) rfl hfields stockedGiven
  have hno : ¬ stocked.StopsAt (.map stockedGiven) := fun h => by
    rcases hstops h with h | ⟨_, h⟩ <;> cases h
  obtain ⟨kept, hcast, hkept, hkeys⟩ := hreturns hno
  exact ⟨replacements_eq_nothing rfl, rfl, hfields, kept, hcast, hkept,
    hkeys ⟨by decide, by decide⟩⟩

/-- Records with a text. -/
def remarked : Schema := (Schema.ofKind .object).withFields [(.text "remark", .ofKind .string)]

/-- Records with a text that depends on a list. -/
def misplaced : Schema :=
  (Schema.ofKind .object).withFields [(.text "remark", (Schema.ofKind .string).whenSibling
    ⟨.list [.text "a"], .int 1, .ofKind .string, .ofKind .string⟩)]

/-- A whole number with one digit too many is not cast to a text, and a list is no sibling. -/
theorem cast_remarked :
    empty.cast remarked (.map [(.text "remark", .int (10 ^ maxDigits : Nat))]) =
        .error (.misuse .tooManyDigits) ∧
      empty.cast misplaced (.map []) = .error (.misuse (.notHashable (.list [.text "a"]))) := by
  refine ⟨?_, rfl⟩
  have hdigits : (Value.int (10 ^ maxDigits : Nat)).hasTooManyDigits = true :=
    Value.hasTooManyDigits_int_iff.2 (Int.natAbs_natCast _).ge
  generalize ((10 ^ maxDigits : Nat) : Int) = n at hdigits
  let again := Replacements.nothing.castAtDepth 499
  have hvalue : Replacements.castBy again (.ofKind .string) (.int n) =
      .error (.misuse .tooManyDigits) := by
    rw [Replacements.castBy_plain rfl fun _ => rfl]
    exact congrArg (Except.mapError Fault.misuse) (if_pos hdigits)
  have hturn : Replacements.takeTurn again [(.text "remark", .int n)]
      (.text "remark", .ofKind .string) = .error (.misuse .tooManyDigits) := by
    show Entries.put [(Value.text "remark", Value.int n)] (.text "remark") <$>
      Replacements.nothing.castIn again _ (.ofKind .string) (.int n) = _
    rw [Replacements.castIn_nothing, select_eq_self rfl, hvalue]
    rfl
  rw [cast, replacements_eq_nothing rfl, Replacements.cast_eq_castBy]
  show Value.map <$> List.foldlM (Replacements.takeTurn again) _
    [(Value.text "remark", .ofKind .string)] = _
  rw [List.foldlM_cons, hturn]
  rfl

end Context

end FieldSchema
