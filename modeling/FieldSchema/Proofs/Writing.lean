import FieldSchema.Json.Reading
import FieldSchema.Json.Written
import FieldSchema.Proofs.Characters
import FieldSchema.Proofs.Results
import FieldSchema.Proofs.Turns
import Mathlib.Algebra.Group.Nat.Defs

/-!
# Values that can be written

A value can be written exactly if the keys in it are texts, truth values, numbers or null, and no
whole number in it has too many digits (`Json.isOk_written`). So what is read can be written
(`Json.isWritable_of_read`), and also what it is cast to, if the schema has names and defaults that
can be written (`Schema.isWritable_cast`).
-/

namespace FieldSchema

/-- Whether a number has a written form: a whole one must not have too many digits. -/
def Number.isWritable : Number → Bool
  | .int n => (Nat.toDigits 10 n.natAbs).length ≤ maxDigits
  | .float _ => true

namespace Value

/-- Whether a value has a written form as a key. -/
def isWritableKey : Value → Bool
  | .null | .bool _ | .text _ => true
  | .number n => n.isWritable
  | _ => false

mutual

/-- Whether a value has a written form, with all that it holds. -/
def isWritable : Value → Bool
  | .number n => n.isWritable
  | .list items | .tuple items => areWritable items
  | .map entries => haveWritable entries
  | _ => true
  termination_by structural v => v

def areWritable : List Value → Bool
  | [] => true
  | v :: vs => isWritable v && areWritable vs
  termination_by structural vs => vs

def haveWritable : List (Value × Value) → Bool
  | [] => true
  | (key, v) :: entries => isWritableKey key && (isWritable v && haveWritable entries)
  termination_by structural entries => entries

end

theorem haveWritable_iff {entries : Entries Value} : haveWritable entries = true ↔
    ∀ e ∈ entries, e.1.isWritableKey = true ∧ e.2.isWritable = true := by
  induction entries with
  | nil => simp [haveWritable]
  | cons e entries ih =>
    rw [haveWritable, Bool.and_eq_true, Bool.and_eq_true, ih, List.forall_mem_cons, and_assoc]

end Value

/-! ## Writing -/

namespace Json

theorem isOk_numberWritten (n : Number) : (numberWritten n).isOk = n.isWritable := by
  cases n with
  | int n =>
    rw [numberWritten, Number.isWritable]
    split_ifs with h
    · exact (decide_eq_false (Nat.not_le.2 h)).symm
    · exact (decide_eq_true (Nat.not_lt.1 h)).symm
  | float x =>
    unfold numberWritten
    split <;> first | rfl | contradiction

theorem isOk_keyWritten (key : Value) : (keyWritten key).isOk = key.isWritableKey := by
  cases key with
  | number n => rw [keyWritten, Except.isOk_map, isOk_numberWritten, Value.isWritableKey]
  | _ => rfl

mutual

theorem isOk_writtenAt : ∀ (level : Nat) (v : Value), (writtenAt level v).isOk = v.isWritable
  | _, .number n => by rw [writtenAt, isOk_numberWritten, Value.isWritable]
  | _, .list items => by
    rw [writtenAt, Except.isOk_map, isOk_itemsWritten _ items, Value.isWritable]
  | _, .tuple items => by
    rw [writtenAt, Except.isOk_map, isOk_itemsWritten _ items, Value.isWritable]
  | _, .map entries => by
    rw [writtenAt, Except.isOk_map, isOk_entriesWritten _ entries, Value.isWritable]
  | _, .null | _, .bool _ | _, .text _ | _, .date _ | _, .dateTime _ | _, .pattern _
  | _, .schema .. => rfl
  termination_by structural _ v => v

theorem isOk_itemsWritten : ∀ (level : Nat) (vs : List Value),
    (itemsWritten level vs).isOk = Value.areWritable vs
  | _, [] => rfl
  | level, v :: vs => by
    rw [itemsWritten, Value.areWritable, ← isOk_writtenAt level v, ← isOk_itemsWritten level vs]
    refine Except.isOk_bind fun s => ?_
    exact (Except.isOk_bind (b := true) fun rest => rfl).trans (Bool.and_true _)
  termination_by structural _ vs => vs

theorem isOk_entriesWritten : ∀ (level : Nat) (entries : Entries Value),
    (entriesWritten level entries).isOk = Value.haveWritable entries
  | _, [] => rfl
  | level, (key, v) :: entries => by
    rw [entriesWritten, Value.haveWritable, ← isOk_keyWritten, ← isOk_writtenAt level v,
      ← isOk_entriesWritten level entries]
    refine Except.isOk_bind fun k => Except.isOk_bind fun s => ?_
    exact (Except.isOk_bind (b := true) fun rest => rfl).trans (Bool.and_true _)
  termination_by structural _ entries => entries

end

/-- Writing succeeds exactly on what can be written. -/
theorem isOk_written (v : Value) : (written v).isOk = v.isWritable := isOk_writtenAt 0 v

end Json

/-! ## Reading -/

theorem digitsValue_lt {digits : List Char} (h : ∀ c ∈ digits, c.isDigit = true) :
    digitsValue 10 digits < 10 ^ digits.length := by
  -- the digits before them count as many powers higher
  have hfold : ∀ (digits : List Char) (n : Nat), (∀ c ∈ digits, c.isDigit = true) →
      digits.foldl (fun n c => 10 * n + digitValue c) n < (n + 1) * 10 ^ digits.length := by
    intro digits
    induction digits with
    | nil => simp
    | cons c digits ih =>
      intro n hdigits
      have hc := Text.digitValue_lt_ten (hdigits c (.head _))
      calc (c :: digits).foldl (fun n c => 10 * n + digitValue c) n
          < (10 * n + digitValue c + 1) * 10 ^ digits.length :=
            ih _ fun d hd => hdigits d (.tail _ hd)
        _ ≤ (n + 1) * 10 * 10 ^ digits.length := Nat.mul_le_mul_right _ (by omega)
        _ = (n + 1) * 10 ^ (c :: digits).length := by
          rw [List.length_cons, Nat.pow_succ', Nat.mul_assoc]
  simpa [digitsValue] using hfold digits 0 h

/-- A whole number that is read off digits can be written if there are not too many. -/
theorem Number.isWritable_signed {digits : List Char} (h : ∀ c ∈ digits, c.isDigit = true)
    (hlength : digits.length ≤ maxDigits) (negative : Bool) :
    (Number.int (signed negative (digitsValue 10 digits))).isWritable = true := by
  have habs : (signed negative (digitsValue 10 digits)).natAbs = digitsValue 10 digits := by
    cases negative <;> simp [signed]
  rw [Number.isWritable, habs, decide_eq_true_eq,
    Nat.length_toDigits_le_iff (by decide) (by decide)]
  exact Nat.lt_of_lt_of_le (digitsValue_lt h) (Nat.pow_le_pow_right (by decide) hlength)

theorem Value.haveWritable_put {entries : Entries Value} {key v : Value}
    (h : haveWritable entries = true) (hkey : key.isWritableKey = true)
    (hv : v.isWritable = true) : haveWritable (entries.put key v) = true := by
  rw [haveWritable_iff] at h ⊢
  intro e he
  constructor
  · have hmem : e.1 ∈ (entries.put key v).map (·.1) := List.mem_map_of_mem he
    have hkeys : ∀ k ∈ entries.map (·.1), k.isWritableKey = true :=
      List.forall_mem_map.2 fun e he => (h e he).1
    rw [Entries.keys_put] at hmem
    split_ifs at hmem
    · exact hkeys _ hmem
    · rcases List.mem_append.1 hmem with hmem | hmem
      · exact hkeys _ hmem
      · rwa [List.mem_singleton.1 hmem]
  · rcases Entries.mem_put entries he with he | he
    · exact (h e he).2
    · rwa [he]

theorem Value.haveWritable_putAll : ∀ {more entries : Entries Value},
    haveWritable entries = true → haveWritable more = true →
    haveWritable (entries.putAll more) = true
  | [], _, h, _ => h
  | (key, v) :: more, entries, h, hmore => by
    rw [haveWritable, Bool.and_eq_true, Bool.and_eq_true] at hmore
    show haveWritable ((entries.put key v).putAll more) = true
    exact haveWritable_putAll (haveWritable_put h hmore.1 hmore.2.1) hmore.2.2

namespace Json

variable {cs rest : List Char} {v : Value}

theorem isDigit_of_takeWhole? {whole : List Char} (h : takeWhole? cs = some (whole, rest)) :
    ∀ c ∈ whole, c.isDigit = true := by
  unfold takeWhole? at h
  split at h
  · cases h
    exact List.forall_mem_singleton.2 rfl
  · rw [takeDigits] at h
    split at h
    rename_i hdigits
    split_ifs at h
    cases h
    cases hdigits
    exact List.all_eq_true.1 List.all_takeWhile

theorem isWritable_of_readNumber (h : readNumber cs = .ok (v, rest)) : v.isWritable = true := by
  simp only [readNumber] at h
  split at h
  · cases h
  · rename_i hwhole
    split_ifs at h with _ hlength
    · cases h
      exact Number.isWritable_signed (isDigit_of_takeWhole? hwhole) (Nat.not_lt.1 hlength) _
    · split at h <;> cases h
      rfl

theorem isWritable_of_readWord? (h : readWord? cs = some (v, rest)) : v.isWritable = true := by
  have hwords : ∀ w ∈ words, w.2.isWritable = true := by decide
  unfold readWord? at h
  split at h
  · rename_i hfound
    cases h
    exact hwords _ (List.mem_of_find?_eq_some hfound)
  · cases h

mutual

theorem isWritable_of_readValue : ∀ {fuel : Nat} {cs : List Char} {v : Value} {rest : List Char},
    readValue fuel cs = .ok (v, rest) → v.isWritable = true
  | 0, _, _, _, h => by cases h
  | fuel + 1, cs, v, rest, h => by
    rw [readValue] at h
    -- a text, a list, a mapping, or a word or number
    split at h
    · split at h <;> cases h
      rfl
    · split at h
      · cases h
        rfl
      · obtain ⟨⟨items, rest⟩, hitems, h⟩ := Except.exists_of_bind_eq_ok h
        cases h
        exact areWritable_of_readItems hitems
    · split at h
      · cases h
        rfl
      · obtain ⟨⟨entries, rest⟩, hentries, h⟩ := Except.exists_of_bind_eq_ok h
        cases h
        exact Value.haveWritable_putAll rfl (haveWritable_of_readEntries hentries)
    · split at h
      · rename_i hword
        cases h
        exact isWritable_of_readWord? hword
      · exact isWritable_of_readNumber h
  termination_by structural fuel => fuel

theorem areWritable_of_readItems : ∀ {fuel : Nat} {cs : List Char} {items : List Value}
    {rest : List Char}, readItems fuel cs = .ok (items, rest) → Value.areWritable items = true
  | 0, _, _, _, h => by cases h
  | fuel + 1, cs, items, rest, h => by
    rw [readItems] at h
    obtain ⟨⟨v, rest⟩, hv, h⟩ := Except.exists_of_bind_eq_ok h
    have hfirst := isWritable_of_readValue hv
    simp only at h
    split at h
    · obtain ⟨⟨vs, rest⟩, hvs, h⟩ := Except.exists_of_bind_eq_ok h
      cases h
      rw [Value.areWritable, hfirst, areWritable_of_readItems hvs]
      rfl
    · cases h
      rw [Value.areWritable, hfirst]
      rfl
    · cases h
  termination_by structural fuel => fuel

theorem haveWritable_of_readEntries : ∀ {fuel : Nat} {cs : List Char} {entries : Entries Value}
    {rest : List Char}, readEntries fuel cs = .ok (entries, rest) →
    Value.haveWritable entries = true
  | 0, _, _, _, h => by cases h
  | fuel + 1, cs, entries, rest, h => by
    rw [readEntries] at h
    split at h
    · split at h
      · simp only [pure_bind] at h
        split at h
        · obtain ⟨⟨v, rest⟩, hv, h⟩ := Except.exists_of_bind_eq_ok h
          have hfirst := isWritable_of_readValue hv
          simp only at h
          split at h
          · obtain ⟨⟨more, rest⟩, hmore, h⟩ := Except.exists_of_bind_eq_ok h
            cases h
            rw [Value.haveWritable, hfirst, haveWritable_of_readEntries hmore]
            rfl
          · cases h
            rw [Value.haveWritable, hfirst]
            rfl
          · cases h
        · cases h
      · cases h
    · cases h
  termination_by structural fuel => fuel

end

/-- What is read can be written. -/
theorem isWritable_of_read (h : read cs = .ok v) : v.isWritable = true := by
  obtain ⟨⟨w, rest⟩, hread, h⟩ := Except.exists_of_bind_eq_ok h
  simp only at h
  split_ifs at h
  cases h
  exact isWritable_of_readValue hread

end Json

/-! ## Casting -/

/-- A text is read as a whole number only if that has not too many digits. -/
theorem Value.isWritable_toNumber {v : Value} (h : v.isWritable = true) :
    v.toNumber.isWritable = true := by
  cases v with
  | text s =>
    rw [toNumber]
    cases hread : readNumber? s with
    | none => rfl
    | some n =>
      simp only [readNumber?] at hread
      split_ifs at hread
      split at hread
      · rename_i n hint
        cases hread
        simp only [readInt?] at hint
        split_ifs at hint with hdigits
        cases hint
        exact Number.isWritable_signed (List.all_eq_true.1 hdigits.2.1) hdigits.2.2 _
      · split at hread
        · split_ifs at hread
          cases hread
          rfl
        · cases hread
  | _ => exact h

theorem Kind.isWritable_coerce (kind : Kind) {v : Value} (h : v.isWritable = true) :
    (kind.coerce v).isWritable = true := by
  cases kind with
  | array | mixed | object => exact h
  | number => exact v.isWritable_toNumber h
  | string =>
    cases v with
    | number n => rfl
    | _ => exact h
  | boolean =>
    cases v with
    | text s =>
      rw [coerce, Value.toBoolean]
      cases Value.readBool? s <;> rfl
    | number n =>
      cases n with
      | float x => rfl
      | int n =>
        rw [coerce, Value.toBoolean]
        split_ifs <;> first | rfl | exact h
    | _ => exact h
  | date =>
    cases v with
    | text s =>
      rw [coerce, Value.readDate]
      cases DateTime.read? s.toList <;> rfl
    | _ => exact h

namespace Schema

variable {s : Schema} {record : Entries Value} {v : Value}

/-- That the names of the fields of a schema and its default can be written. -/
structure IsWritable (s : Schema) : Prop where
  names : ∀ e ∈ s.fields, e.1.isWritableKey = true
  default : ∀ d, s.default? = some d → d.isWritable = true

theorem IsWritable.absent (h : s.IsWritable) : s.absent.isWritable = true := by
  unfold Schema.absent
  split
  · rename_i d hd
    exact h.default d hd
  · split_ifs <;> rfl

/-- A turn leaves what can be written, if that holds of what the field has afterwards. -/
theorem haveWritable_turn {e : Value × Schema} (hname : e.1.isWritableKey = true)
    (hcast : ∀ v, v.isWritable = true → ((e.2.select record).cast v).isWritable = true)
    (hdefault : ∀ d, (e.2.select record).default? = some d → d.isWritable = true)
    (hrecord : Value.haveWritable record = true) :
    Value.haveWritable (turn record e) = true := by
  unfold turn
  cases hget : record.get? e.1 with
  | some v =>
    have hv : v.isWritable = true := by
      obtain ⟨e', he', -, rfl⟩ := Entries.exists_mem_of_get? hget
      exact (Value.haveWritable_iff.1 hrecord e' he').2
    exact Value.haveWritable_put hrecord hname (hcast v hv)
  | none =>
    rw [fill]
    cases hd : (e.2.select record).default? with
    | some d => exact Value.haveWritable_put hrecord hname (hdefault d hd)
    | none => exact hrecord

theorem haveWritable_turns {turns : List (Value × Schema)}
    (hnames : ∀ e ∈ turns, e.1.isWritableKey = true)
    (h : ∀ e ∈ turns, ∀ record v, v.isWritable = true →
      ((e.2.select record).cast v).isWritable = true)
    (hdefaults : ∀ e ∈ turns, ∀ record d, (e.2.select record).default? = some d →
      d.isWritable = true) (hrecord : Value.haveWritable record = true) :
    Value.haveWritable (turns.foldl turn record) = true :=
  List.foldlRecOn (motive := fun record => Value.haveWritable record = true) turns turn hrecord
    fun _ hrecord e he => haveWritable_turn (hnames e he) (h e he _) (hdefaults e he _) hrecord

/-- What a value is cast to can be written, if the value can and so can all that the schema has to
put in. -/
theorem isWritable_cast (s : Schema) : ∀ {v : Value}, s.Everywhere IsWritable →
    v.isWritable = true → (s.cast v).isWritable = true := by
  induction s using induct_select with
  | step s ih =>
    intro v h hv
    have hcoerce : (s.kind.coerce v).isWritable = true := s.kind.isWritable_coerce hv
    cases v with
    | null => exact h.self.absent
    | map record =>
      by_cases hkind : s.kind = .object
      · rw [cast_record hkind]
        have hselected : ∀ e ∈ inTurn s.fields, ∀ record,
            (e.2.select record).Everywhere IsWritable := fun e he record =>
          (h.field (mem_inTurn.1 he)).select record
        exact haveWritable_turns (fun e he => h.self.names e (mem_inTurn.1 he))
          (fun e he record v hv => ih e (mem_inTurn.1 he) record (hselected e he record) hv)
          (fun e he record => (hselected e he record).self.default) hv
      · rw [cast, if_neg hkind]
        exact hcoerce
    | _ => exact hcoerce

end Schema

end FieldSchema
