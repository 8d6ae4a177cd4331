import FieldSchema.Proofs.Compiled
import FieldSchema.Schema.Selection

/-!
# The two equalities of conditions

A condition is met by one equality when a branch is selected and by another in a compiled document.
Both are `Value.loose`, which takes a truth value for its number and a list for a tuple of its
items, apart from clashes: `Value.same` keeps lists and tuples apart, `Value.alike` truth values
and numbers (`Value.same_eq`, `Value.alike_eq`). So the two agree except where a clash of one sort
stands inside the values and none of the other (`Condition.holds_iff_accepts_iff`).
-/

namespace FieldSchema

namespace Value

mutual

/-- Equality of values that takes truth values for numbers and lists for tuples. -/
def loose : Value → Value → Bool
  | .list as, .list bs => looseItems as bs
  | .list as, .tuple bs => looseItems as bs
  | .tuple as, .list bs => looseItems as bs
  | .tuple as, .tuple bs => looseItems as bs
  | .map as, .map bs => as.length == bs.length && looseEntries as bs
  | v, w => same v w
  termination_by structural v => v

def looseItems : List Value → List Value → Bool
  | [], [] => true
  | a :: as, b :: bs => loose a b && looseItems as bs
  | _, _ => false
  termination_by structural vs => vs

def looseEntries : List (Value × Value) → List (Value × Value) → Bool
  | [], _ => true
  | (k, v) :: as, bs =>
    (match bs.find? fun e => same k e.1 with
      | some e => loose v e.2
      | none => false) && looseEntries as bs
  termination_by structural es => es

end

/-- One is a list and the other a tuple. -/
def sequencesClash : Value → Value → Bool
  | .list _, .tuple _ => true
  | .tuple _, .list _ => true
  | _, _ => false

/-- One is a truth value and the other is none. -/
def truthClashes (v w : Value) : Bool := v.isBool != w.isBool

section

variable (clash : Value → Value → Bool)

mutual

/-- Whether two values clash, or two that stand at one place inside them. -/
def clashes : Value → Value → Bool
  | .list as, w => clash (.list as) w || match w with
    | .list bs => clashesItems as bs
    | .tuple bs => clashesItems as bs
    | _ => false
  | .tuple as, w => clash (.tuple as) w || match w with
    | .list bs => clashesItems as bs
    | .tuple bs => clashesItems as bs
    | _ => false
  | .map as, w => clash (.map as) w || match w with
    | .map bs => clashesEntries as bs
    | _ => false
  | v, w => clash v w
  termination_by structural v => v

def clashesItems : List Value → List Value → Bool
  | a :: as, b :: bs => clashes a b || clashesItems as bs
  | _, _ => false
  termination_by structural vs => vs

def clashesEntries : List (Value × Value) → List (Value × Value) → Bool
  | [], _ => false
  | (k, v) :: as, bs =>
    (match bs.find? fun e => same k e.1 with
      | some e => clashes v e.2
      | none => false) || clashesEntries as bs
  termination_by structural es => es

end

end

mutual

/-- Keys and siblings are equal if they are loosely and no list meets a tuple. -/
theorem same_eq : ∀ v w : Value, v.same w = (v.loose w && !v.clashes sequencesClash w)
  | .list as, w => by
    cases w with
    | list bs => simpa [same, loose, clashes, sequencesClash] using sameItems_eq as bs
    | _ => simp [same, loose, clashes, sequencesClash]
  | .tuple as, w => by
    cases w with
    | tuple bs => simpa [same, loose, clashes, sequencesClash] using sameItems_eq as bs
    | _ => simp [same, loose, clashes, sequencesClash]
  | .map as, w => by
    cases w with
    | map bs =>
      simp only [same, loose, clashes, sequencesClash, Bool.false_or, sameEntries_eq as bs]
      rw [Bool.and_assoc]
    | _ => simp [same, loose, clashes, sequencesClash]
  | .null, w | .bool _, w | .number _, w | .text _, w | .date _, w | .dateTime _, w
  | .pattern _, w | .schema _ _, w => by
    cases w <;> simp [loose, clashes, sequencesClash]
  termination_by structural v => v

theorem sameItems_eq : ∀ vs ws : List Value,
    sameItems vs ws = (looseItems vs ws && !clashesItems sequencesClash vs ws)
  | [], ws => by cases ws <;> simp [sameItems, looseItems, clashesItems]
  | v :: vs, ws => by
    cases ws with
    | nil => simp [sameItems, looseItems]
    | cons w ws =>
      simp only [sameItems, looseItems, clashesItems, same_eq v w, sameItems_eq vs ws]
      cases v.loose w <;> cases v.clashes sequencesClash w <;> simp
  termination_by structural vs => vs

theorem sameEntries_eq : ∀ es fs : List (Value × Value),
    sameEntries es fs = (looseEntries es fs && !clashesEntries sequencesClash es fs)
  | [], fs => rfl
  | (k, v) :: es, fs => by
    simp only [sameEntries, looseEntries, clashesEntries, sameEntries_eq es fs]
    cases fs.find? fun e => same k e.1 with
    | none => simp
    | some e =>
      simp only [same_eq v e.2]
      cases v.loose e.2 <;> cases v.clashes sequencesClash e.2 <;> simp
  termination_by structural es => es

end

mutual

/-- Constants are equal if they are loosely and no truth value meets another value. -/
theorem alike_eq : ∀ v w : Value, v.alike w = (v.loose w && !v.clashes truthClashes w)
  | .list as, w => by
    cases w with
    | list bs => simpa [alike, loose, clashes, truthClashes, isBool] using alikeItems_eq as bs
    | tuple bs => simpa [alike, loose, clashes, truthClashes, isBool] using alikeItems_eq as bs
    | _ => simp [alike, same, loose, clashes, truthClashes, isBool]
  | .tuple as, w => by
    cases w with
    | list bs => simpa [alike, loose, clashes, truthClashes, isBool] using alikeItems_eq as bs
    | tuple bs => simpa [alike, loose, clashes, truthClashes, isBool] using alikeItems_eq as bs
    | _ => simp [alike, same, loose, clashes, truthClashes, isBool]
  | .map as, w => by
    cases w with
    | map bs =>
      simp only [alike, loose, clashes, truthClashes, isBool, bne_self_eq_false, Bool.false_or,
        alikeEntries_eq as bs]
      rw [Bool.and_assoc]
    | _ => simp [alike, same, loose, clashes, truthClashes, isBool]
  -- a truth value is loosely equal to a number, and clashes with it
  | .bool a, w => by
    cases w with
    | bool b => cases a <;> cases b <;> rfl
    | _ => simp [alike, clashes, truthClashes, isBool]
  | .null, w | .number _, w | .text _, w | .date _, w | .dateTime _, w | .pattern _, w
  | .schema _ _, w => by
    cases w <;> simp [alike, loose, clashes, truthClashes, isBool]
  termination_by structural v => v

theorem alikeItems_eq : ∀ vs ws : List Value,
    alikeItems vs ws = (looseItems vs ws && !clashesItems truthClashes vs ws)
  | [], ws => by cases ws <;> simp [alikeItems, looseItems, clashesItems]
  | v :: vs, ws => by
    cases ws with
    | nil => simp [alikeItems, looseItems]
    | cons w ws =>
      simp only [alikeItems, looseItems, clashesItems, alike_eq v w, alikeItems_eq vs ws]
      cases v.loose w <;> cases v.clashes truthClashes w <;> simp
  termination_by structural vs => vs

theorem alikeEntries_eq : ∀ es fs : List (Value × Value),
    alikeEntries es fs = (looseEntries es fs && !clashesEntries truthClashes es fs)
  | [], fs => rfl
  | (k, v) :: es, fs => by
    simp only [alikeEntries, looseEntries, clashesEntries, alikeEntries_eq es fs]
    cases fs.find? fun e => same k e.1 with
    | none => simp
    | some e =>
      simp only [alike_eq v e.2]
      cases v.loose e.2 <;> cases v.clashes truthClashes e.2 <;> simp
  termination_by structural es => es

end

/-- A value meets another if they are loosely equal, not one a truth value and the other none, and
no list meets a tuple inside them. -/
theorem meets_eq (v w : Value) :
    v.meets w = (v.loose w && !(truthClashes v w || v.clashes sequencesClash w)) := by
  rw [meets, same_eq, truthClashes]
  cases v.isBool <;> cases w.isBool <;> simp

/-- Whether a value is no list, no tuple and no mapping. -/
def isScalar : Value → Bool
  | .list _ => false
  | .tuple _ => false
  | .map _ => false
  | _ => true

theorem meets_eq_alike_of_isScalar {v w : Value} (hw : w.isScalar = true) :
    v.meets w = v.alike w := by
  have hclash : v.clashes sequencesClash w = false ∧
      v.clashes truthClashes w = truthClashes v w := by
    cases w <;> simp [isScalar] at hw <;> cases v <;> exact ⟨rfl, by simp [clashes]⟩
  rw [meets_eq, alike_eq, hclash.1, hclash.2, Bool.or_false]

end Value

namespace Condition

variable {c : Condition} {record : Entries Value} {path : List Value}

theorem accepts_matchDocument_iff (hkeys : ∀ e ∈ record, e.1.isKey = true) :
    (Document.check path (.map record) (Schema.matchDocument c.sibling c.expected)).accepts =
      .ok true ↔ c.isMetIn record = true := by
  cases hk : c.sibling.isKey with
  | true =>
    rw [Schema.accepts_matchDocument hk, Except.ok.injEq]
  | false =>
    have hget : record.get? c.sibling = none :=
      Entries.get?_eq_none_iff.2 fun e he => Value.not_same_of_isKey hk (hkeys e he)
    have hcheck : Document.check path (.map record)
        (Schema.matchDocument c.sibling c.expected) = .stopped (.notHashable c.sibling) := by
      show Document.checkProperties Document.passedOver path record
          [(c.sibling, .map [(.text "const", c.expected)])] ++
        (Document.checkRequired path (.map record) (Schema.matchDocument c.sibling c.expected)
          (.list [c.sibling]) record [c.sibling] ++ .none) = _
      simp only [Document.checkProperties, hget, Document.checkRequired, hk]
      rfl
    rw [hcheck, isMetIn, hget]
    exact ⟨fun h => (by cases h), fun h => (by cases h)⟩

/-- The selection of a branch and the compiled document agree on a condition exactly if its sibling
is absent, not loosely equal to the expected value, or clashes with it in both ways or in neither.
-/
theorem holds_iff_accepts_iff (hkeys : ∀ e ∈ record, e.1.isKey = true) :
    (c.holds record = true ↔
      (Document.check path (.map record) (Schema.matchDocument c.sibling c.expected)).accepts =
        .ok true) ↔
    ∀ v, record.get? c.sibling = some v → v.loose c.expected = true →
      (Value.truthClashes v c.expected = true ∨
          v.clashes Value.sequencesClash c.expected = true ↔
        v.clashes Value.truthClashes c.expected = true) := by
  rw [accepts_matchDocument_iff hkeys, holds, isMetIn]
  cases record.get? c.sibling with
  | none => simp
  | some v =>
    simp only [Option.any_some, Value.meets_eq, Value.alike_eq, Option.some.injEq, forall_eq']
    cases v.loose c.expected <;> cases v.truthClashes c.expected <;>
      cases v.clashes Value.sequencesClash c.expected <;>
      cases v.clashes Value.truthClashes c.expected <;> simp

/-- A condition on a list that holds a number. -/
def onListOfOne : Condition := ⟨.text "a", .list [.int 1], .ofKind .number, .ofKind .string⟩

theorem holds_iff_accepts_iff_at_truth_in_list :
    (onListOfOne.holds [(.text "a", .list [.bool true])] = true ↔
      (Document.check [] (.map [(.text "a", .list [.bool true])])
        (Schema.matchDocument onListOfOne.sibling onListOfOne.expected)).accepts = .ok true) ↔
    ∀ v, Entries.get? [(.text "a", .list [.bool true])] onListOfOne.sibling = some v →
      v.loose onListOfOne.expected = true →
        (Value.truthClashes v onListOfOne.expected = true ∨
            v.clashes Value.sequencesClash onListOfOne.expected = true ↔
          v.clashes Value.truthClashes onListOfOne.expected = true) :=
  holds_iff_accepts_iff (by decide)

theorem not_accepts_truth_in_list :
    onListOfOne.holds [(.text "a", .list [.bool true])] = true ∧
      (Document.check [] (.map [(.text "a", .list [.bool true])])
        (Schema.matchDocument onListOfOne.sibling onListOfOne.expected)).accepts = .ok false :=
  ⟨by decide, rfl⟩

/-- Where no sequence and no mapping is expected, the two agree. -/
theorem holds_iff_accepts_of_isScalar (hkeys : ∀ e ∈ record, e.1.isKey = true)
    (hs : c.expected.isScalar = true) : c.holds record = true ↔
      (Document.check path (.map record) (Schema.matchDocument c.sibling c.expected)).accepts =
        .ok true := by
  rw [accepts_matchDocument_iff hkeys, holds, isMetIn]
  cases record.get? c.sibling with
  | none => simp
  | some v => simp [Value.meets_eq_alike_of_isScalar hs]

end Condition

end FieldSchema
