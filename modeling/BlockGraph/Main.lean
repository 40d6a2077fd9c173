import BlockGraph.Command

/-!
# The program

The commands run on the files of the machine. What a command has written goes to the two outputs:
the text for the reader of the data to the one, the log, the notes and a failure to the other.
-/

namespace BlockGraph

/-- The error of a call on files. -/
def OsError.ofCode (text : String) (code : UInt32) : OsError :=
  match code.toNat with
  | 2 => .notFound
  | 17 => .alreadyThere
  | 20 => .notDirectory
  | 21 => .isDirectory
  | 36 => .nameTooLong
  | _ => .other text

/-- The error of a call on files, which tells the number of the cause. -/
def OsError.ofFailure (e : IO.Error) : OsError :=
  match e with
  | .noFileOrDirectory .. => .notFound
  | .alreadyExists _ code _ | .inappropriateType _ code _ | .invalidArgument _ code _
  | .permissionDenied _ code _ | .resourceExhausted _ code _ | .otherError code _ =>
    .ofCode (toString e) code
  | e => .other (toString e)

/-- A call on files with its failure as a value. -/
def attemptFile {α : Type} (action : IO α) : IO (Except OsError α) := do
  match ← action.toBaseIO with
  | .ok a => return .ok a
  | .error e => return .error (.ofFailure e)

instance : FileSystem IO where
  openFile path := attemptFile do
    let handle ← IO.FS.Handle.mk path .read
    attemptFile ((·.toList) <$> handle.readBinToEnd)
  realPath path := attemptFile ((·.toString) <$> IO.FS.realPath path)
  makeDirs path := attemptFile (IO.FS.createDirAll path)
  writeFile path text := attemptFile (IO.FS.writeFile path text)
  appendFile path text := attemptFile do
    let handle ← IO.FS.Handle.mk path .append
    handle.putStr text

/-- Writes what a command has written. -/
def Report.print (r : Report) : IO Unit := do
  IO.print r.stdout
  for note in r.notes do
    IO.eprint note.render
  if let some e := r.failure then
    IO.eprintln (e.report Fault.message)

end BlockGraph

open BlockGraph in
/-- Carries out a command line. -/
def main (args : List String) : IO UInt32 := do
  match Command.read args with
  | .ok command =>
    let report ← Command.run command
    report.print
    return report.exitCode
  | .error .version =>
    IO.print Command.versionText
    return UsageError.version.exitCode
  | .error e =>
    IO.eprintln s!"error: {e.name}"
    return e.exitCode
