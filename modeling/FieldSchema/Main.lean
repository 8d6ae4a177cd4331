import FieldSchema.Command.Run

/-!
# The command

Looks at the files that a command line names, runs the request on them, and prints the outcome.

Some bounds are left out of what is run. Messages show whole numbers of every size (`Value.shown`),
and data can be nested to any depth. Texts hold no halves of surrogate pairs (`Markup.joinHalves`),
no value holds itself (`Markup.Node`), patterns know no characters by name
(`Pattern.Reader.namedCode`), and keywords of other origin are passed over (`Document.passedOver`).
-/

namespace FieldSchema.Command

def Request.paths : Request → List String
  | .check file _ | .describe file _ => [normalPath file]
  | .validate file input? _ _ =>
    normalPath file ::
      match input?.map String.toList with
      | some ('@' :: name) => [normalPath (String.ofList name)]
      | _ => []
  | _ => []

/-- What stands at a path now. What is there and cannot be read is taken for a directory. -/
def lookAt (path : String) : IO FileState := do
  try
    let s ← IO.FS.readFile path
    pure (.text s)
  catch
    | .noFileOrDirectory .. => pure .absent
    | _ => pure .directory

/-- What is printed for a command line that is not used as it should be. -/
def usage : String := "Usage: schemaforge check|validate|describe FILE"

def Outcome.print (outcome : Outcome) : IO UInt32 := do
  (← IO.getStdout).putStr outcome.output
  (← IO.getStderr).putStr outcome.errors
  match outcome.escape? with
  | some escape => (← IO.getStderr).putStrLn escape.message
  | none => pure ()
  pure outcome.status.toUInt32

end FieldSchema.Command

open FieldSchema.Command in
def main (arguments : List String) : IO UInt32 := do
  match Request.ofArguments? arguments with
  | none =>
    (← IO.getStderr).putStrLn usage
    pure 2
  | some request =>
    let looked ← request.paths.mapM fun path => do pure (path, ← lookAt path)
    (run (fun path => (looked.lookup path).getD .absent) request).print
