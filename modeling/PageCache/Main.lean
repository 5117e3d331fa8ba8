import PageCache.Run

/-! The command line: a run with the files, the variables and the arguments of the process. -/
namespace PageCache.Main

/-- The number and the description that the system gave an error. -/
def detailsOf : IO.Error → UInt32 × String
  | .alreadyExists _ code details | .invalidArgument _ code details
  | .permissionDenied _ code details | .resourceExhausted _ code details
  | .inappropriateType _ code details | .noSuchThing _ code details
  | .interrupted _ code details | .noFileOrDirectory _ code details
  | .otherError code details | .resourceBusy code details | .resourceVanished code details
  | .unsupportedOperation code details | .hardwareFault code details
  | .unsatisfiedConstraints code details | .illegalOperation code details
  | .protocolError code details | .timeExpired code details => (code, details)
  | .unexpectedEof => (0, "unexpected end of file")
  | .userError message => (0, message)

/-- The error by its number, which the system may give with a minus sign. -/
def ioErrorOf (e : IO.Error) : IoError :=
  let (code, details) := detailsOf e
  match if code < 0x80000000 then code else 0 - code with
  | 2 => .notFound
  | 17 => .alreadyExists
  | 20 => .notDirectory
  | 21 => .isDirectory
  | 36 => .nameTooLong
  | number => .other s!"{details.capitalize} (os error {number})"

def guarded {α : Type} (path : Text) (act : String → IO α) : IO (Except IoError α) := do
  if path.elem '\x00' then return .error .nulInName
  try return .ok (← act (String.ofList path))
  catch e => return .error (ioErrorOf e)

def leadsSomewhere (path : Text) : IO Bool := do
  return (← guarded path fun p => IO.FS.realPath p).isOk

instance : Files IO where
  read path := guarded path fun p => IO.FS.readBinFile p
  write path content := guarded path fun p => IO.FS.writeBinFile p content
  makeDirectory path := guarded path fun p => IO.FS.createDir p
  isDirectory path := leadsSomewhere (path ++ "/.")
  leadsSomewhere := leadsSomewhere

/-- The variables of the process, each ended by a null character. -/
def processVars : IO (List (Text × Text)) := do
  let bytes ← IO.FS.readBinFile "/proc/self/environ"
  return ((Utf8.decodeLossy bytes).splitOn '\x00').filterMap fun entry =>
    entry.splitFirst? "="

def environment : IO Environment := do
  return {
    vars := ← processVars
    workingDirectory := (← IO.currentDir).toString.toList }

end PageCache.Main

open PageCache in
def main (args : List String) : IO UInt32 := do
  let result : RunResult ← Run.run (← Main.environment) (args.map String.toList)
  for entry in result.log do
    IO.eprintln (String.ofList entry.toText)
  IO.print (String.ofList result.output)
  return result.exitCode.toUInt32
