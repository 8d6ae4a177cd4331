import FieldSchema.Value.Shown

/-!
# Rules

A rule is what one constraint demands of a value. It has the name of its constraint, the parameters
that a description lists, the keywords that enforce it in a compiled document, and a message for
values that break it, in which `path` between braces stands for the field.
-/

namespace FieldSchema

/-- The bound of a date: a date, a date and time, or the text of one together with its reading. -/
inductive DateLimit where
  | day (d : Date)
  | moment (t : DateTime)
  | written (s : String) (t : DateTime)

namespace DateLimit

def given : DateLimit → Value
  | .day d => .date d
  | .moment t => .dateTime t
  | .written s _ => .text s

def text : DateLimit → String
  | .day d => String.ofList d.written
  | .moment t => String.ofList t.written
  | .written _ t => String.ofList t.written

end DateLimit

def pathMark : String := "\x7bpath\x7d"

/-- What a constraint demands. -/
inductive Rule where
  | required (nonEmpty : Bool)
  | oneOf (values : List Value)
  | notOneOf (values : List Value)
  | minLength (limit : Number)
  | maxLength (limit : Number)
  | exactLength (limit : Number)
  | minItems (limit : Number)
  | maxItems (limit : Number)
  | exactItems (limit : Number)
  | matching (pattern : String)
  | email
  | url
  | uuid
  | minimum (limit : Number)
  | maximum (limit : Number)
  | moreThan (limit : Number)
  | lessThan (limit : Number)
  | positive
  | negative
  | integer
  | isTrue
  | isFalse
  | notBefore (limit : DateLimit)
  | notAfter (limit : DateLimit)

namespace Rule

/-- The pattern of an email address: no blanks, one at-sign, a dot after it. -/
def emailPattern : String := "^[^\\s@]+@[^\\s@]+\\.[^\\s@]+$"

def urlPattern : String := "^(https?|ftp)://[^\\s/$.?#][^\\s]*$"

def uuidPattern : String :=
  "^[0-9a-fA-F]\x7b8\x7d-[0-9a-fA-F]\x7b4\x7d-[0-9a-fA-F]\x7b4\x7d-[0-9a-fA-F]\x7b4\x7d-" ++
    "[0-9a-fA-F]\x7b12\x7d$"

def name : Rule → String
  | .required _ => "required"
  | .oneOf _ => "one_of"
  | .notOneOf _ => "not_one_of"
  | .minLength _ | .minItems _ | .minimum _ | .notBefore _ => "min"
  | .maxLength _ | .maxItems _ | .maximum _ | .notAfter _ => "max"
  | .exactLength _ | .exactItems _ => "length"
  | .matching _ => "matches"
  | .email => "email"
  | .url => "url"
  | .uuid => "uuid"
  | .moreThan _ => "more_than"
  | .lessThan _ => "less_than"
  | .positive => "positive"
  | .negative => "negative"
  | .integer => "integer"
  | .isTrue => "is_true"
  | .isFalse => "is_false"

/-- The parameter that a description lists, if the rule has one. -/
def parameter? : Rule → Option (String × Value)
  | .oneOf values | .notOneOf values => some ("values", .list values)
  | .matching pattern => some ("regex", .text pattern)
  | .email => some ("regex", .text emailPattern)
  | .url => some ("regex", .text urlPattern)
  | .uuid => some ("regex", .text uuidPattern)
  | .minLength limit | .minItems limit | .minimum limit => some ("min", .number limit)
  | .maxLength limit | .maxItems limit | .maximum limit => some ("max", .number limit)
  | .exactLength limit | .exactItems limit => some ("length", .number limit)
  | .moreThan limit => some ("more_than", .number limit)
  | .lessThan limit => some ("less_than", .number limit)
  | .notBefore limit => some ("min", limit.given)
  | .notAfter limit => some ("max", limit.given)
  | .required _ | .positive | .negative | .integer | .isTrue | .isFalse => none

def parameters (r : Rule) : Value :=
  match r.parameter? with
  | some (name, value) => .map [(.text name, value)]
  | none => .null

def keywords : Rule → List (String × Value)
  | .required nonEmpty =>
    ("not", .map [(.text "type", .text "null")]) :: if nonEmpty then [("minLength", .int 1)] else []
  | .oneOf values => [("enum", .list values)]
  | .notOneOf values => [("not", .map [(.text "enum", .list values)])]
  | .minLength limit => [("minLength", .number limit)]
  | .maxLength limit => [("maxLength", .number limit)]
  | .exactLength limit => [("minLength", .number limit), ("maxLength", .number limit)]
  | .minItems limit => [("minItems", .number limit)]
  | .maxItems limit => [("maxItems", .number limit)]
  | .exactItems limit => [("minItems", .number limit), ("maxItems", .number limit)]
  | .matching pattern => [("pattern", .text pattern)]
  | .email => [("pattern", .text emailPattern)]
  | .url => [("pattern", .text urlPattern)]
  | .uuid => [("pattern", .text uuidPattern)]
  | .minimum limit => [("minimum", .number limit)]
  | .maximum limit => [("maximum", .number limit)]
  | .moreThan limit => [("exclusiveMinimum", .number limit)]
  | .lessThan limit => [("exclusiveMaximum", .number limit)]
  | .positive => [("exclusiveMinimum", .int 0)]
  | .negative => [("exclusiveMaximum", .int 0)]
  | .integer => [("type", .text "integer")]
  | .isTrue => [("const", .bool true)]
  | .isFalse => [("const", .bool false)]
  | .notBefore limit => [("minDate", .text limit.text)]
  | .notAfter limit => [("maxDate", .text limit.text)]

def demand : Rule → String
  | .required _ => "is a required field"
  | .oneOf values =>
    "must be one of the following values: " ++ ", ".intercalate (Value.shownItems values)
  | .notOneOf values =>
    "must not be one of the following values: " ++ ", ".intercalate (Value.shownItems values)
  | .minLength limit => "must be at least " ++ limit.text ++ " characters"
  | .maxLength limit => "must be at most " ++ limit.text ++ " characters"
  | .exactLength limit => "must be exactly " ++ limit.text ++ " characters"
  | .minItems limit => "field must have at least " ++ limit.text ++ " items"
  | .maxItems limit => "field must have less than or equal to " ++ limit.text ++ " items"
  | .exactItems limit => "must have " ++ limit.text ++ " items"
  | .matching pattern => "must match the following: \"" ++ pattern ++ "\""
  | .email => "must be a valid email"
  | .url => "must be a valid URL"
  | .uuid => "must be a valid UUID"
  | .minimum limit => "must be greater than or equal to " ++ limit.text
  | .maximum limit => "must be less than or equal to " ++ limit.text
  | .moreThan limit => "must be greater than " ++ limit.text
  | .lessThan limit => "must be less than " ++ limit.text
  | .positive => "must be a positive number"
  | .negative => "must be a negative number"
  | .integer => "must be an integer"
  | .isTrue => "field must be true"
  | .isFalse => "field must be false"
  | .notBefore limit => "field must be later than " ++ limit.text
  | .notAfter limit => "field must be earlier than " ++ limit.text

def defaultMessage (r : Rule) : String := pathMark ++ " " ++ r.demand

end Rule

/-- A rule with the message to be reported. -/
structure Test where
  rule : Rule
  message : Value

namespace Test

def name (t : Test) : String := t.rule.name

/-- A rule with a message given for it; one that counts as not given leaves the rule's own. -/
def of (rule : Rule) (message : Value) : Test :=
  ⟨rule, if message.isTruthy then message else .text rule.defaultMessage⟩

def fragment (t : Test) : Value :=
  .map ((t.rule.keywords ++ [("$comment", .text t.name), ("errorMessage", t.message)]).map
    fun (keyword, argument) => (.text keyword, argument))

def described (t : Test) : Value :=
  .map [(.text "name", .text t.name), (.text "params", t.rule.parameters)]

end Test

end FieldSchema
