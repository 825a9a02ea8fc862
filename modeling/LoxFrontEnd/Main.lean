import LoxFrontEnd.Command.Run

/-!
# The command

Arguments, files and streams of the running program.
-/

namespace LoxFrontEnd.Command

/-- A failure to open or to read, as the system tells it. -/
def systemError? : IO.Error → Option SystemError
  | .noFileOrDirectory _ code details
  | .permissionDenied _ code details
  | .inappropriateType _ code details
  | .invalidArgument _ code details
  | .resourceExhausted _ code details
  | .noSuchThing _ code details
  | .hardwareFault code details
  | .otherError code details => some ⟨code.toNat, details⟩
  | _ => none

def entryAt (name : FileName) : IO Entry := do
  try
    return .file (← IO.FS.readBinFile name.text).toList
  catch e =>
    match systemError? e with
    | some e => return .refused e
    | none => throw e

def report (path : String) (o : Outcome) : IO UInt32 := do
  IO.print o.stdout
  IO.eprint o.stderr
  match o.ending with
  | .exited status => return status.code.toUInt32
  | .interrupted e =>
    IO.eprintln (e.message path)
    return 1

/-- Answer the lines of standard input as they come. -/
partial def converse (verbose : Bool) : IO UInt32 := do
  IO.print prompt
  (← IO.getStdout).flush
  let chunk ← (← IO.getStdin).getLine
  if chunk.isEmpty then
    IO.println ""
    return ExitStatus.ok.code.toUInt32
  let answers := (exchanges verbose {} (inputLines chunk)).map Exchange.printed
  for answer in answers.dropLast do
    IO.eprint answer.stderr
    IO.print (answer.stdout ++ prompt)
  for answer in answers.getLast? do
    IO.eprint answer.stderr
    IO.print answer.stdout
  converse verbose

/-- Do what an invocation asks for, with the files and the streams of the system. -/
def execute (invocation : Invocation) : IO UInt32 :=
  match invocation with
  | .run verbose none => converse verbose
  | .run verbose (some path) => do
    if path.isEmpty then converse verbose
    else
      let found ← (FileName.of? path).toList.mapM fun name => return (name, ← entryAt name)
      report path (perform found "" invocation)
  | _ => report "" (perform [] "" invocation)

end LoxFrontEnd.Command

def main (arguments : List String) : IO UInt32 :=
  LoxFrontEnd.Command.execute (LoxFrontEnd.Invocation.parse arguments)
