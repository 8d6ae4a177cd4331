import FieldSchema.Proofs.Answers
import FieldSchema.Proofs.CallSequences
import FieldSchema.Proofs.Stability

/-!
# Bounds of numbers

Numbers but not-a-number stand in a line, so that one which is not below a limit is at least as
large (`Number.le_eq_not_lt`). A schema of numbers keeps of the bounds that are declared for it the
last of each method (`Context.mem_tests_bounded_iff`), and so returns what is cast to a number
within these, and nothing else, but for not-a-number: it passes all bounds, and is refused only
where a whole number is asked for (`Context.validate_bounds`).
-/

namespace FieldSchema

/-! ## The order of numbers -/

theorem Place.compare_swap (p q : Place) : (p.compare q).swap = q.compare p := by
  cases p <;> cases q <;> simp [Place.compare, Int.compare_swap]

namespace Number

variable {a b : Number}

def nan : Number := .float .nan

theorem isSome_place? (h : a ≠ nan) : ∃ p, a.place? = some p := by
  rcases a with n | ⟨_ | negative | ⟨negative, m, e⟩⟩
  · exact ⟨_, rfl⟩
  · exact absurd rfl h
  · exact ⟨_, rfl⟩
  · exact ⟨_, rfl⟩

theorem exists_compare (ha : a ≠ nan) (hb : b ≠ nan) :
    ∃ o, a.compare b = some o ∧ b.compare a = some o.swap := by
  obtain ⟨p, hp⟩ := isSome_place? ha
  obtain ⟨q, hq⟩ := isSome_place? hb
  by_cases hint : (∃ m, a = .int m) ∧ ∃ n, b = .int n
  · obtain ⟨⟨m, rfl⟩, n, rfl⟩ := hint
    exact ⟨Ord.compare m n, rfl, by rw [Int.compare_swap]; rfl⟩
  · refine ⟨p.compare q, ?_, ?_⟩
    · rw [compare_eq_bind fun m n hm hn => hint ⟨⟨m, hm⟩, n, hn⟩, hp, hq]
      rfl
    · rw [compare_eq_bind fun m n hm hn => hint ⟨⟨n, hn⟩, m, hm⟩, hp, hq, Place.compare_swap]
      rfl

/-- Of two numbers one is below the other or at least as large. -/
theorem le_eq_not_lt (ha : a ≠ nan) (hb : b ≠ nan) : a.le b = !b.lt a := by
  obtain ⟨o, hab, hba⟩ := exists_compare ha hb
  cases o <;> simp [le, lt, same, hab, hba]

theorem lt_eq_not_le (ha : a ≠ nan) (hb : b ≠ nan) : a.lt b = !b.le a := by
  rw [le_eq_not_lt hb ha, Bool.not_not]

theorem compare_nan (a : Number) : nan.compare a = none ∧ a.compare nan = none := by
  rcases a with n | ⟨_ | negative | ⟨negative, m, e⟩⟩ <;> exact ⟨rfl, rfl⟩

theorem lt_nan (a : Number) : nan.lt a = false ∧ a.lt nan = false := by
  simp [lt, compare_nan a]

theorem le_nan (a : Number) : nan.le a = false ∧ a.le nan = false := by
  simp [le, same, lt_nan a, compare_nan a]

end Number

/-! ## Bounds -/

/-- What a method of number schemas demands: to be at least, at most, above or below a limit, above
or below zero, or whole. -/
inductive NumberBound where
  | least (limit : Number)
  | most (limit : Number)
  | above (limit : Number)
  | below (limit : Number)
  | positive
  | negative
  | whole
  deriving DecidableEq

namespace NumberBound

def method : NumberBound → Method
  | least _ => .min
  | most _ => .max
  | above _ => .moreThan
  | below _ => .lessThan
  | positive => .positive
  | negative => .negative
  | whole => .integer

def limit? : NumberBound → Option Number
  | least limit | most limit | above limit | below limit => some limit
  | _ => none

def rule : NumberBound → Rule
  | least limit => .minimum limit
  | most limit => .maximum limit
  | above limit => .moreThan limit
  | below limit => .lessThan limit
  | positive => .positive
  | negative => .negative
  | whole => .integer

/-- Whether a number is within a bound. Not-a-number is on no side of a limit. -/
def holds : NumberBound → Number → Bool
  | least limit, n => limit.le n
  | most limit, n => n.le limit
  | above limit, n => limit.lt n
  | below limit, n => n.lt limit
  | positive, n => Number.zero.lt n
  | negative, n => n.lt .zero
  | whole, n => n.isWhole

/-- That a bound is declared and its method is not used again later. -/
def IsLastOf (b : NumberBound) (bounds : List NumberBound) : Prop :=
  ∃ before after, bounds = before ++ b :: after ∧ ∀ b' ∈ after, b'.method ≠ b.method

/-- That a number is within the bounds that are declared, of each method within the last one. -/
def AreKeptBy (bounds : List NumberBound) (n : Number) : Prop :=
  ∀ b : NumberBound, b.IsLastOf bounds → b.holds n = true

variable {b : NumberBound} {bounds : List NumberBound}

theorem name_rule (b : NumberBound) : b.rule.name = b.method.name := by
  cases b <;> rfl

theorem not_isLastOf_nil (b : NumberBound) : ¬ b.IsLastOf [] := by
  rintro ⟨before, after, h, -⟩
  simp at h

theorem isLastOf_concat {last : NumberBound} : b.IsLastOf (bounds ++ [last]) ↔
    b = last ∨ b.IsLastOf bounds ∧ last.method ≠ b.method := by
  constructor
  · rintro ⟨before, after, h, hafter⟩
    rcases after.eq_nil_or_concat' with rfl | ⟨after, b', rfl⟩
    · obtain ⟨-, h⟩ := List.append_inj' h rfl
      exact .inl (List.singleton_inj.1 h).symm
    · rw [← List.cons_append, ← List.append_assoc] at h
      obtain ⟨rfl, hlast⟩ := List.append_inj' h rfl
      obtain rfl := List.singleton_inj.1 hlast
      simp only [List.mem_append, List.mem_singleton] at hafter
      exact .inr ⟨⟨before, after, rfl, fun b' hb' => hafter b' (.inl hb')⟩, hafter _ (.inr rfl)⟩
  · rintro (rfl | ⟨⟨before, after, rfl, hafter⟩, hlast⟩)
    · exact ⟨bounds, [], rfl, by simp⟩
    · refine ⟨before, after ++ [last], by simp, ?_⟩
      simp only [List.mem_append, List.mem_singleton]
      rintro b' (hb' | rfl)
      · exact hafter b' hb'
      · exact hlast

theorem exists_isLastOf {m : Method} (h : ∃ b ∈ bounds, b.method = m) :
    ∃ b : NumberBound, b.IsLastOf bounds ∧ b.method = m := by
  induction bounds using List.reverseRecOn with
  | nil => simp at h
  | append_singleton bounds last ih =>
    by_cases hm : last.method = m
    · exact ⟨last, isLastOf_concat.2 (.inl rfl), hm⟩
    · obtain ⟨b, hb, hbm⟩ := h
      rcases List.mem_append.1 hb with hb | hb
      · obtain ⟨b', hlast, hb'⟩ := ih ⟨b, hb, hbm⟩
        exact ⟨b', isLastOf_concat.2 (.inr ⟨hlast, hb' ▸ hm⟩), hb'⟩
      · rw [List.mem_singleton.1 hb] at hbm
        exact absurd hbm hm

theorem mem_of_isLastOf (h : b.IsLastOf bounds) : b ∈ bounds := by
  obtain ⟨before, after, rfl, -⟩ := h
  simp

/-- The rule of a bound admits the numbers within it, as long as all are in the line. -/
theorem admits_rule {n : Number} (hlimit : b.limit? ≠ some .nan) (hn : n ≠ .nan) :
    b.rule.admits (.number n) = b.holds n := by
  have hzero : Number.zero ≠ .nan := by decide
  cases b with
  | least limit =>
    have hl : limit ≠ .nan := fun h => hlimit (congrArg some h)
    simp [rule, Rule.admits, Rule.demands, Demand.isMetBy, holds, Number.le_eq_not_lt hl hn]
  | most limit =>
    have hl : limit ≠ .nan := fun h => hlimit (congrArg some h)
    simp [rule, Rule.admits, Rule.demands, Demand.isMetBy, holds, Number.le_eq_not_lt hn hl]
  | above limit =>
    have hl : limit ≠ .nan := fun h => hlimit (congrArg some h)
    simp [rule, Rule.admits, Rule.demands, Demand.isMetBy, holds, Number.lt_eq_not_le hl hn]
  | below limit =>
    have hl : limit ≠ .nan := fun h => hlimit (congrArg some h)
    simp [rule, Rule.admits, Rule.demands, Demand.isMetBy, holds, Number.lt_eq_not_le hn hl]
  | positive =>
    simp [rule, Rule.admits, Rule.demands, Demand.isMetBy, holds, Number.lt_eq_not_le hzero hn]
    rfl
  | negative =>
    simp [rule, Rule.admits, Rule.demands, Demand.isMetBy, holds, Number.lt_eq_not_le hn hzero]
    rfl
  | whole => simp [rule, Rule.admits, Rule.demands, Demand.isMetBy, holds]

/-- Not-a-number passes every bound but the one for whole numbers, and is within none. -/
theorem admits_rule_nan (b : NumberBound) :
    b.rule.admits (.number .nan) = decide (b ≠ whole) ∧ b.holds .nan = false := by
  cases b <;> refine ⟨?_, ?_⟩ <;> first
    | rfl
    | simp [rule, Rule.admits, Rule.demands, Demand.isMetBy, holds, Number.lt_nan, Number.le_nan]

/-- What the rules of the last bounds admit is within the bounds, apart from not-a-number. -/
theorem forall_admits_iff {n : Number} (hlimits : ∀ b ∈ bounds, b.limit? ≠ some .nan)
    (hn : n ≠ .nan) : (∀ b : NumberBound, b.IsLastOf bounds → b.rule.admits (.number n) = true) ↔
      AreKeptBy bounds n := by
  have hrule : ∀ b : NumberBound, b.IsLastOf bounds → b.rule.admits (.number n) = b.holds n :=
    fun b hb => admits_rule (hlimits b (mem_of_isLastOf hb)) hn
  exact ⟨fun h b hb => hrule b hb ▸ h b hb, fun h b hb => (hrule b hb).trans (h b hb)⟩

theorem forall_admits_nan_iff :
    (∀ b : NumberBound, b.IsLastOf bounds → b.rule.admits (.number .nan) = true) ↔
      ∀ b ∈ bounds, b ≠ whole := by
  simp only [(admits_rule_nan _).1, decide_eq_true_eq]
  constructor
  · rintro h b hb rfl
    obtain ⟨b, hlast, hmethod⟩ := exists_isLastOf ⟨_, hb, rfl⟩
    refine h b hlast ?_
    cases b <;> first | rfl | cases hmethod
  · exact fun h b hb => h b (mem_of_isLastOf hb)

theorem areKeptBy_nan_iff : AreKeptBy bounds .nan ↔ bounds = [] := by
  constructor
  · intro h
    by_contra hne
    obtain ⟨b, hb⟩ := List.exists_mem_of_ne_nil bounds hne
    obtain ⟨b', hlast, -⟩ := exists_isLastOf ⟨b, hb, rfl⟩
    have hholds := h b' hlast
    rw [(admits_rule_nan b').2] at hholds
    cases hholds
  · rintro rfl b hb
    exact absurd hb (not_isLastOf_nil b)

end NumberBound

/-! ## Schemas of bounded numbers -/

/-- A call that declares a bound, perhaps with a message. -/
structure BoundCall where
  bound : NumberBound
  message? : Option String

namespace BoundCall

def message (c : BoundCall) : Value := (c.message?.map .text).getD .null

def call (c : BoundCall) : MethodCall where
  method := c.bound.method.name
  arguments := ⟨c.bound.limit?.toList.map .number ++ c.message?.toList.map .text, []⟩

def test (c : BoundCall) : Test := .of c.bound.rule c.message

theorem name_test (c : BoundCall) : c.test.name = c.bound.method.name := c.bound.name_rule

theorem isText_message_test (c : BoundCall) : c.test.message.isText = true := by
  rcases c with ⟨b, _ | message⟩
  · rfl
  · simp only [test, Test.of]
    split <;> rfl

end BoundCall

namespace Context

variable {s : Schema} {c : BoundCall} {calls : List BoundCall}

theorem capability?_bound (b : NumberBound) :
    Registry.capability? [] (some .number) b.method.name = some (.builtIn b.method) := by
  cases b <;> rfl

theorem invoke_bound (hs : s.kind = .number) (c : BoundCall) :
    empty.invoke s c.call.method c.call.arguments = .ok (s.withTest c.test) := by
  have hcapability := capability?_bound c.bound
  rw [← hs] at hcapability
  have hinvoke := @invoke_eq_apply empty _ rfl _ _ hcapability c.call.arguments
  rw [BoundCall.call] at hinvoke ⊢
  rw [hinvoke, hs]
  rcases c with ⟨b, message?⟩
  rcases s with ⟨kind, _⟩
  obtain rfl : kind = .number := hs
  cases b <;> cases message? <;> rfl

end Context

namespace Schema

variable {s : Schema} {c : BoundCall} {calls : List BoundCall} {v : Value} {all : Bool}

/-- The schema of numbers that calls lead to. -/
def bounded (calls : List BoundCall) : Schema :=
  calls.foldl (fun s c => s.withTest c.test) (.ofKind .number)

theorem bounded_concat (calls : List BoundCall) (c : BoundCall) :
    bounded (calls ++ [c]) = (bounded calls).withTest c.test := by
  simp [bounded]

theorem kind_bounded (calls : List BoundCall) : (bounded calls).kind = .number := by
  induction calls using List.reverseRecOn with
  | nil => rfl
  | append_singleton calls c ih => rw [bounded_concat, withTest, ih]

theorem Reachable.withTest_bound (h : s.Reachable) (hs : s.kind = .number) (c : BoundCall) :
    (s.withTest c.test).Reachable := by
  rcases c with ⟨b, message?⟩
  have hmem : b.method ∈ Method.common ++ Method.own s.kind := by
    rw [hs]
    cases b <;> simp [NumberBound.method, Method.own]
  cases b with
  | least limit | most limit | above limit | below limit =>
    exact .rule h hmem
      (show Context.rule? _ s.kind (.number limit) = some (.ok _) by rw [hs]; rfl) _
  | positive | negative | whole => exact .fixedRule h hmem rfl _

theorem reachable_bounded (calls : List BoundCall) : (bounded calls).Reachable := by
  induction calls using List.reverseRecOn with
  | nil => exact .ofKind .number
  | append_singleton calls c ih =>
    rw [bounded_concat]
    exact ih.withTest_bound (kind_bounded calls) c

/-- What calls leave apart from the tests. -/
theorem plain_bounded (calls : List BoundCall) :
    (bounded calls).fields = [] ∧ (bounded calls).conditions = [] ∧
      (bounded calls).isNullable = false ∧
      ∀ t ∈ (bounded calls).tests, t.message.isText = true := by
  induction calls using List.reverseRecOn with
  | nil => simp [bounded, ofKind]
  | append_singleton calls c ih =>
    obtain ⟨hfields, hconditions, hnullable, htexts⟩ := ih
    rw [bounded_concat, withTest]
    refine ⟨hfields, hconditions, hnullable, fun t ht => ?_⟩
    rcases List.mem_append.1 ht with ht | ht
    · exact htexts t (List.mem_filter.1 ht).1
    · rw [List.mem_singleton.1 ht]
      exact c.isText_message_test

theorem isTextual_bounded (calls : List BoundCall) : (bounded calls).Everywhere IsTextual := by
  obtain ⟨hfields, hconditions, -, htexts⟩ := plain_bounded calls
  exact .leaf ⟨htexts, by simp [hfields]⟩ hfields hconditions

/-- The tests that are left are those of the bounds that are declared last. -/
theorem exists_test_bounded_iff {rule : Rule} : (∃ t ∈ (bounded calls).tests, t.rule = rule) ↔
    ∃ b : NumberBound, b.IsLastOf (calls.map (·.bound)) ∧ b.rule = rule := by
  induction calls using List.reverseRecOn generalizing rule with
  | nil => simp [bounded, ofKind, NumberBound.not_isLastOf_nil]
  | append_singleton calls c ih =>
    have hname : ∀ t : Test, ∀ b : NumberBound, b.rule = t.rule →
        (t.name = c.test.name ↔ c.bound.method = b.method) := by
      intro t b hb
      rw [Test.name, ← hb, b.name_rule, c.name_test]
      exact ⟨fun h => (Method.name_injective h).symm, fun h => h ▸ rfl⟩
    rw [bounded_concat, withTest]
    simp only [List.map_append, List.map_singleton, NumberBound.isLastOf_concat, List.mem_append,
      List.mem_filter, List.mem_singleton, decide_not, Bool.not_eq_true', decide_eq_false_iff_not]
    constructor
    · rintro ⟨t, ⟨ht, hne⟩ | rfl, rfl⟩
      · obtain ⟨b, hlast, hb⟩ := ih.1 ⟨t, ht, rfl⟩
        exact ⟨b, .inr ⟨hlast, fun h => hne ((hname t b hb).2 h)⟩, hb⟩
      · exact ⟨c.bound, .inl rfl, rfl⟩
    · rintro ⟨b, rfl | ⟨hlast, hne⟩, rfl⟩
      · exact ⟨c.test, .inr rfl, rfl⟩
      · obtain ⟨t, ht, hrule⟩ := ih.2 ⟨b, hlast, rfl⟩
        exact ⟨t, .inl ⟨ht, fun h => hne ((hname t b hrule.symm).1 h)⟩, hrule⟩

theorem admits_bounded_iff : (bounded calls).admits v = true ↔
    (∃ n, v = .number n) ∧
      ∀ b : NumberBound, b.IsLastOf (calls.map (·.bound)) → b.rule.admits v = true := by
  obtain ⟨-, -, hnullable, -⟩ := plain_bounded calls
  have htests : (∀ t ∈ (bounded calls).tests, t.rule.admits v = true) ↔
      ∀ b : NumberBound, b.IsLastOf (calls.map (·.bound)) → b.rule.admits v = true := by
    constructor
    · intro h b hb
      obtain ⟨t, ht, hrule⟩ := exists_test_bounded_iff.2 ⟨b, hb, rfl⟩
      exact hrule ▸ h t ht
    · intro h t ht
      obtain ⟨b, hb, hrule⟩ := exists_test_bounded_iff.1 ⟨t, ht, rfl⟩
      exact hrule ▸ h b hb
  rw [admits_eq, kind_bounded, hnullable, ← htests]
  cases v <;> simp [Kind.describes]

/-- What a schema of bounded numbers returns of a value that is not null: what it is cast to, if
that is a number that all bounds admit. -/
theorem validate_bounded_iff (hv : v ≠ .null) :
    (bounded calls).validate v all = .ok ((bounded calls).cast v) ↔
      ∃ n, (bounded calls).cast v = .number n ∧
        ∀ b : NumberBound, b.IsLastOf (calls.map (·.bound)) → b.rule.admits (.number n) = true := by
  have hnull : ((bounded calls).cast v).isNull = false := isNull_cast (isNull_eq_false hv)
  rw [validate_eq_judge, judge_eq_ok_iff (reachable_bounded calls).everywhere_isSound, hnull,
    if_neg Bool.false_ne_true, admits_bounded_iff]
  constructor
  · rintro ⟨-, ⟨n, hn⟩, h⟩
    exact ⟨n, hn, hn ▸ h⟩
  · rintro ⟨n, hn, h⟩
    exact ⟨rfl, ⟨n, hn⟩, hn ▸ h⟩

end Schema

namespace Context

variable {s : Schema} {calls : List BoundCall}

theorem callAll_bounded : ∀ (calls : List BoundCall) {s : Schema}, s.kind = .number →
    empty.callAll s (calls.map (·.call)) = .ok (calls.foldl (fun s c => s.withTest c.test) s)
  | [], _, _ => rfl
  | c :: calls, s, hs => by
    have hrest := callAll_bounded calls (s := s.withTest c.test) hs
    simp only [callAll, List.map_cons, List.foldlM_cons, invoke_bound hs c] at hrest ⊢
    exact hrest

/-- A schema of numbers with bounds: it returns what a value is cast to exactly if that is a number
within the bounds, of each method within the one that is declared last, and refuses the value with
failures otherwise. Only not-a-number is returned although it is within no bound, and that where
bounds are declared, but not that the number is whole. -/
theorem validate_bounds (calls : List BoundCall)
    (hlimits : ∀ c ∈ calls, c.bound.limit? ≠ some .nan) :
    ∃ s, empty.callAll (.ofKind .number) (calls.map (·.call)) = .ok s ∧
      ∀ v all, v ≠ .null → s.Answers v all ∧ (∀ w, s.validate v all = .ok w → w = s.cast v) ∧
        ((s.validate v all = .ok (s.cast v) ↔
            ∃ n, s.cast v = .number n ∧ NumberBound.AreKeptBy (calls.map (·.bound)) n) ↔
          ¬ (s.cast v = .number .nan ∧ calls ≠ [] ∧ ∀ c ∈ calls, c.bound ≠ .whole)) := by
  refine ⟨.bounded calls, callAll_bounded calls rfl, fun v all hv => ⟨?_, ?_, ?_⟩⟩
  · exact Schema.answers_of_isTextual (Schema.reachable_bounded calls)
      (Schema.isTextual_bounded calls)
  · intro w hw
    rw [Schema.validate_eq_judge] at hw
    exact Schema.eq_of_judge hw
  · rw [Schema.validate_bounded_iff hv]
    by_cases hnan : (Schema.bounded calls).cast v = .number .nan
    · simp only [hnan, Value.number.injEq, exists_eq_left', NumberBound.forall_admits_nan_iff,
        NumberBound.areKeptBy_nan_iff, List.map_eq_nil_iff, List.forall_mem_map, true_and]
      constructor
      · rintro h ⟨hne, hwhole⟩
        exact hne (h.1 hwhole)
      · intro h
        refine ⟨fun hwhole => by_contra fun hne => h ⟨hne, hwhole⟩, ?_⟩
        rintro rfl
        simp
    · refine iff_of_true (exists_congr fun n => and_congr_right fun hn => ?_) fun h => hnan h.1
      exact NumberBound.forall_admits_iff (by simpa using hlimits) fun h => hnan (h ▸ hn)

/-- A limit of two and a half that replaces one of five, a limit above, and no fractions. -/
def narrowCalls : List BoundCall :=
  [⟨.least (.int 5), none⟩, ⟨.below (.int 10), some "too much"⟩,
    ⟨.least (.float (.finite false 5 (-1))), none⟩, ⟨.whole, none⟩]

theorem validate_bounds_narrow : (∀ c ∈ narrowCalls, c.bound.limit? ≠ some .nan) ∧
    ∃ s, empty.callAll (.ofKind .number) (narrowCalls.map (·.call)) = .ok s ∧
      ∀ v all, v ≠ .null → s.Answers v all ∧ (∀ w, s.validate v all = .ok w → w = s.cast v) ∧
        ((s.validate v all = .ok (s.cast v) ↔ ∃ n, s.cast v = .number n ∧
            NumberBound.AreKeptBy (narrowCalls.map (·.bound)) n) ↔
          ¬ (s.cast v = .number .nan ∧ narrowCalls ≠ [] ∧ ∀ c ∈ narrowCalls, c.bound ≠ .whole)) :=
  have hlimits : ∀ c ∈ narrowCalls, c.bound.limit? ≠ some .nan := by decide
  ⟨hlimits, validate_bounds narrowCalls hlimits⟩

/-- Not-a-number is returned where numbers of at least zero are asked for. -/
theorem validate_least_nan : ∃ s,
    empty.callAll (.ofKind .number) [(BoundCall.mk (.least (.int 0)) none).call] = .ok s ∧
      s.validate (.number .nan) false = .ok (.number .nan) ∧
      s.cast (.number .nan) = .number .nan ∧
      ¬ NumberBound.AreKeptBy [.least (.int 0)] .nan :=
  ⟨_, rfl, rfl, rfl, fun h => by simpa using NumberBound.areKeptBy_nan_iff.1 h⟩

end Context

end FieldSchema
