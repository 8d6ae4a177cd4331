/-!
# Paths

Paths are named without the parts that lead nowhere: repeated slashes and single dots.
-/

namespace FieldSchema.Command

def pathParts (path : String) : List String :=
  (path.splitOn "/").filter fun part => part ≠ "" && part ≠ "."

/-- How a path starts: at the root if with one slash or more than two, two are kept. -/
def pathRoot (path : String) : String :=
  match path.toList with
  | '/' :: '/' :: '/' :: _ => "/"
  | '/' :: '/' :: _ => "//"
  | '/' :: _ => "/"
  | _ => ""

def normalPath (path : String) : String :=
  let name := pathRoot path ++ "/".intercalate (pathParts path)
  if name = "" then "." else name

end FieldSchema.Command
