import FieldSchema.Document.Check
import FieldSchema.Proofs.Reachable
import FieldSchema.Proofs.WrittenDates
import FieldSchema.Schema.Rule

/-!
# Demands

A rule demands one thing of a value for each of its keywords. `Demand.isMetBy` says what each of
them means for the value itself, and `Rule.admits` that a value meets all of them. The keyword of a
demand objects where the demand is not met, and only there, and it never stops
(`Demand.objection?_spec`).
-/

namespace FieldSchema

/-- One thing that a rule demands of a value. -/
inductive Demand where
  | notNull
  | among (values : List Value)
  | notAmong (values : List Value)
  | leastLength (limit : Number)
  | mostLength (limit : Number)
  | leastItems (limit : Number)
  | mostItems (limit : Number)
  | least (limit : Number)
  | most (limit : Number)
  | above (limit : Number)
  | below (limit : Number)
  | whole
  | truth (b : Bool)
  | matching (source : String)
  | notBefore (limit : DateLimit)
  | notAfter (limit : DateLimit)

/-- The moment that the written form of a bound reads as. -/
def DateLimit.reading : DateLimit → DateTime
  | .day d => .ofDate d
  | .moment t => t.settled
  | .written _ t => t.settled

namespace Demand

/-- The keyword of a demand. -/
def keyword : Demand → Keyword
  | .notNull | .notAmong _ => .not
  | .among _ => .enum
  | .leastLength _ => .minLength
  | .mostLength _ => .maxLength
  | .leastItems _ => .minItems
  | .mostItems _ => .maxItems
  | .least _ => .minimum
  | .most _ => .maximum
  | .above _ => .exclusiveMinimum
  | .below _ => .exclusiveMaximum
  | .whole => .type
  | .truth _ => .const
  | .matching _ => .pattern
  | .notBefore _ => .minDate
  | .notAfter _ => .maxDate

/-- The argument of a demand's keyword. -/
def argument : Demand → Value
  | .notNull => .map [(.text "type", .text "null")]
  | .notAmong values => .map [(.text "enum", .list values)]
  | .among values => .list values
  | .leastLength limit | .mostLength limit | .leastItems limit | .mostItems limit | .least limit
  | .most limit | .above limit | .below limit => .number limit
  | .whole => .text "integer"
  | .truth b => .bool b
  | .matching source => .text source
  | .notBefore limit | .notAfter limit => .text limit.text

/-- Whether a value meets a demand. A demand on texts, sequences, numbers or dates says nothing of
other values, and no comparison with not-a-number is against a demand. -/
def isMetBy : Demand → Value → Bool
  | .notNull, v => !v.isNull
  | .among values, v => values.any (·.alike v)
  | .notAmong values, v => !values.any (·.alike v)
  | .leastLength limit, .text s => !(Number.int s.length).lt limit
  | .mostLength limit, .text s => !limit.lt (.int s.length)
  | .leastItems limit, .list items => !(Number.int items.length).lt limit
  | .mostItems limit, .list items => !limit.lt (.int items.length)
  | .least limit, .number n => !n.lt limit
  | .most limit, .number n => !limit.lt n
  | .above limit, .number n => !n.le limit
  | .below limit, .number n => !limit.le n
  | .whole, v => match v with
    | .number n => n.isWhole
    | _ => false
  | .truth b, v => match v with
    | .bool a => a == b
    | _ => false
  | .matching source, .text s => match Pattern.read source.toList with
    | .ok p => p.search s.toList.toArray
    | .error _ => false
  | .notBefore limit, .date d => limit.reading.notAfter (.ofDate d)
  | .notBefore limit, .dateTime t => limit.reading.notAfter t
  | .notAfter limit, .date d => (DateTime.ofDate d).notAfter limit.reading
  | .notAfter limit, .dateTime t => t.notAfter limit.reading
  | _, _ => true

end Demand

namespace Rule

/-- What a rule demands. -/
def demands : Rule → List Demand
  | .required nonEmpty => .notNull :: if nonEmpty then [.leastLength (.int 1)] else []
  | .oneOf values => [.among values]
  | .notOneOf values => [.notAmong values]
  | .minLength limit => [.leastLength limit]
  | .maxLength limit => [.mostLength limit]
  | .exactLength limit => [.leastLength limit, .mostLength limit]
  | .minItems limit => [.leastItems limit]
  | .maxItems limit => [.mostItems limit]
  | .exactItems limit => [.leastItems limit, .mostItems limit]
  | .matching source => [.matching source]
  | .email => [.matching emailPattern]
  | .url => [.matching urlPattern]
  | .uuid => [.matching uuidPattern]
  | .minimum limit => [.least limit]
  | .maximum limit => [.most limit]
  | .moreThan limit => [.above limit]
  | .lessThan limit => [.below limit]
  | .positive => [.above (.int 0)]
  | .negative => [.below (.int 0)]
  | .integer => [.whole]
  | .isTrue => [.truth true]
  | .isFalse => [.truth false]
  | .notBefore limit => [.notBefore limit]
  | .notAfter limit => [.notAfter limit]

/-- Whether a value is as a rule demands. -/
def admits (r : Rule) (v : Value) : Bool := r.demands.all (·.isMetBy v)

theorem keywords_eq_demands (r : Rule) :
    r.keywords = r.demands.map fun d => (d.keyword.name, d.argument) := by
  cases r with
  | required nonEmpty => cases nonEmpty <;> rfl
  | _ => rfl

end Rule

/-! ## Objections -/

theorem Keyword.ofKey?_name (k : Keyword) : ofKey? (.text k.name) = some k := by
  cases k <;> rfl

/-- Whether the pattern of a demand, if it has one, can be read. -/
def Demand.IsReadable : Demand → Prop
  | .matching source => ∃ p, Pattern.read source.toList = .ok p
  | _ => True

/-- An objection is raised exactly where something does not hold. -/
def IsObjectionTo (holds : Bool) (objection? : Except Misuse (Option String)) : Prop :=
  if holds then objection? = .ok none else ∃ objection, objection? = .ok (some objection)

theorem isObjectionTo_of_ite (holds : Bool) (objection : String) :
    IsObjectionTo holds (if holds then .ok none else .ok (some objection)) := by
  cases holds
  · exact ⟨objection, rfl⟩
  · rfl

theorem isObjectionTo_of_ite_not (breaks : Bool) (objection : String) :
    IsObjectionTo (!breaks) (if breaks then .ok (some objection) else .ok none) := by
  cases breaks
  · rfl
  · exact ⟨objection, rfl⟩

namespace Keyword

variable {v : Value} {limit : Number} {n : Nat}

theorem shortObjection_spec :
    IsObjectionTo (!(Number.int n).lt limit) (shortObjection v (.number limit) n) :=
  isObjectionTo_of_ite_not _ _

theorem longObjection_spec :
    IsObjectionTo (!limit.lt (.int n)) (longObjection v (.number limit) n) :=
  isObjectionTo_of_ite_not _ _

theorem boundObjection_spec (e : Excess) {words : String} {n : Number} :
    IsObjectionTo (!e.holds n limit) (boundObjection e words (.number n) (.number limit)) :=
  isObjectionTo_of_ite_not _ _

theorem boundMoment_text (limit : DateLimit) :
    boundMoment (.text limit.text) = .ok limit.reading := by
  have hread : ∀ {cs : List Char} {t : DateTime}, DateTime.read cs = .ok t →
      boundMoment (.text (String.ofList cs)) = .ok t := by
    intro cs t h
    simp [boundMoment, Value.toDateTime, Value.readDate, DateTime.read?, h, Except.toOption]
  cases limit with
  | day d => exact hread (DateTime.read_written_date d)
  | moment t => exact hread (DateTime.read_written t)
  | written _ t => exact hread (DateTime.read_written t)

variable (allowed : DateTime → DateTime → Bool) {words : String}

theorem dateObjection_spec_date (d : Date) (limit : DateLimit) :
    IsObjectionTo (allowed (.ofDate d) limit.reading)
      (dateObjection allowed words (.date d) (.text limit.text)) := by
  rw [dateObjection, boundMoment_text]
  exact isObjectionTo_of_ite _ _

theorem dateObjection_spec_dateTime (t : DateTime) (limit : DateLimit) :
    IsObjectionTo (allowed t limit.reading)
      (dateObjection allowed words (.dateTime t) (.text limit.text)) := by
  rw [dateObjection, boundMoment_text]
  exact isObjectionTo_of_ite _ _

theorem patternObjection_spec {source s : String} {p : Pattern.Compiled}
    (hp : Pattern.read source.toList = .ok p) :
    IsObjectionTo (p.search s.toList.toArray) (patternObjection s (.text source)) := by
  have hobjection : patternObjection s (.text source) =
      if p.search s.toList.toArray then .ok none
      else .ok (some ((Value.text s).shown ++ " does not match " ++
        (Value.text source).shown)) := by
    simp only [patternObjection, patternSource, bind, Except.bind, hp]
    rfl
  rw [hobjection]
  exact isObjectionTo_of_ite _ _

theorem typeObjection_spec {v argument : Value} {names : List Value} {b : Bool}
    (hn : typeNames argument = .ok names) (hv : v.isOfTypes names = .ok b) :
    IsObjectionTo b (objection? .type argument v) := by
  have hobjection : objection? .type argument v = if b then .ok none
      else .ok (some (v.shown ++ " is not of type " ++
        ", ".intercalate (Value.shownItems names))) := by
    simp only [objection?, bind, Except.bind, hn, hv]
    rfl
  rw [hobjection]
  exact isObjectionTo_of_ite _ _

theorem constObjection_spec (v argument : Value) :
    IsObjectionTo (v.alike argument) (objection? .const argument v) := by
  cases h : v.alike argument <;> simp [IsObjectionTo, objection?, h]

end Keyword

/-- A demand that is enforced by a keyword of its own is objected to where it is not met. -/
theorem Demand.objection?_spec {d : Demand} (hd : d.IsReadable) (hnot : d.keyword ≠ .not)
    (v : Value) : IsObjectionTo (d.isMetBy v) (d.keyword.objection? d.argument v) := by
  cases d with
  | notNull | notAmong _ => exact absurd rfl hnot
  | among values => exact isObjectionTo_of_ite _ _
  | leastLength limit =>
    cases v with
    | text s => exact Keyword.shortObjection_spec
    | _ => rfl
  | mostLength limit =>
    cases v with
    | text s => exact Keyword.longObjection_spec
    | _ => rfl
  | leastItems limit =>
    cases v with
    | list items => exact Keyword.shortObjection_spec
    | _ => rfl
  | mostItems limit =>
    cases v with
    | list items => exact Keyword.longObjection_spec
    | _ => rfl
  | least limit =>
    cases v with
    | number n => exact Keyword.boundObjection_spec Keyword.below
    | _ => rfl
  | most limit =>
    cases v with
    | number n => exact Keyword.boundObjection_spec Keyword.above
    | _ => rfl
  | above limit =>
    cases v with
    | number n => exact Keyword.boundObjection_spec Keyword.atOrBelow
    | _ => rfl
  | below limit =>
    cases v with
    | number n => exact Keyword.boundObjection_spec Keyword.atOrAbove
    | _ => rfl
  | whole =>
    have hv : v.isOfTypes [.text "integer"] = .ok (isMetBy .whole v) := by
      cases v with
      | number n => cases hn : n.isWhole <;>
          simp [Value.isOfTypes, Value.isOfType, Value.hasType?, isMetBy, hn]
      | _ => rfl
    exact Keyword.typeObjection_spec rfl hv
  | truth b =>
    have halike : v.alike (.bool b) = isMetBy (.truth b) v := by
      cases v <;> simp [Value.alike, isMetBy]
    rw [← halike]
    exact Keyword.constObjection_spec v (.bool b)
  | matching source =>
    obtain ⟨p, hp⟩ := hd
    cases v with
    | text s =>
      simp only [isMetBy, hp]
      exact Keyword.patternObjection_spec hp
    | _ => rfl
  | notBefore limit =>
    cases v with
    | date d => exact Keyword.dateObjection_spec_date (fun t limit => limit.notAfter t) d limit
    | dateTime t =>
      exact Keyword.dateObjection_spec_dateTime (fun t limit => limit.notAfter t) t limit
    | _ => rfl
  | notAfter limit =>
    cases v with
    | date d => exact Keyword.dateObjection_spec_date DateTime.notAfter d limit
    | dateTime t => exact Keyword.dateObjection_spec_dateTime DateTime.notAfter t limit
    | _ => rfl

/-! ## Patterns of rules -/

theorem Demand.isReadable_of_isOk {source : String} (h : (Pattern.read source.toList).isOk = true) :
    (matching source).IsReadable := by
  rw [IsReadable]
  generalize Pattern.read source.toList = r at h ⊢
  cases r with
  | error fault => cases h
  | ok p => exact ⟨p, rfl⟩

theorem Rule.isReadable_demands {r : Rule} (h : r.IsReadable) : ∀ d ∈ r.demands, d.IsReadable := by
  cases r with
  | matching source =>
    intro d hd
    rw [List.mem_singleton.1 hd]
    exact h
  | email =>
    have hread : (Pattern.read emailPattern.toList).isOk = true := by decide +kernel
    simpa [demands] using Demand.isReadable_of_isOk hread
  | url =>
    have hread : (Pattern.read urlPattern.toList).isOk = true := by decide +kernel
    simpa [demands] using Demand.isReadable_of_isOk hread
  | uuid =>
    have hread : (Pattern.read uuidPattern.toList).isOk = true := by decide +kernel
    simpa [demands] using Demand.isReadable_of_isOk hread
  | required nonEmpty => cases nonEmpty <;> simp [demands, Demand.IsReadable]
  | _ => simp [demands, Demand.IsReadable]

end FieldSchema
