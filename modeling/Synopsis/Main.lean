import Synopsis.Tool

/-!
# The program

Reads the document from a file or from the standard input and gives the tool's
answer. The exit code is 0 on success, 1 on failure and 2 for a command line that
makes no request.
-/

namespace Synopsis

def reasonOf : IO.Error → String
  | .noFileOrDirectory .. => "No such file or directory (os error 2)"
  | .permissionDenied .. => "Permission denied (os error 13)"
  | .inappropriateType .. => "Is a directory (os error 21)"
  | e => toString e

def readDocument (path : String) : IO (Except String String) := do
  try
    if path = "-" then return .ok (← (← IO.getStdin).readToEnd)
    else return .ok (← IO.FS.readFile path)
  catch e => return .error (reasonOf e)

end Synopsis

def main (args : List String) : IO UInt32 := do
  match Synopsis.Tool.request? args with
  | none =>
    IO.eprintln "usage: match --doc <path> [options] [-- args..] | inspect --doc <path> [options]"
    return 2
  | some request =>
    let answer := request.answer (← Synopsis.readDocument request.doc)
    IO.print answer.out
    IO.eprint answer.err
    return if answer.success then 0 else 1
