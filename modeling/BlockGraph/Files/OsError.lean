/-!
# Errors of the operating system

What a call on files can fail with, and its wording.
-/

namespace BlockGraph

/-- Why a call on a file failed. -/
inductive OsError where
  | notFound
  | alreadyThere
  | notDirectory
  | isDirectory
  | nameTooLong
  /-- The name holds a NUL character, which no call takes. -/
  | nulInName
  | other (text : String)
  deriving DecidableEq, Repr

def OsError.message : OsError → String
  | .notFound => "No such file or directory (os error 2)"
  | .alreadyThere => "File exists (os error 17)"
  | .notDirectory => "Not a directory (os error 20)"
  | .isDirectory => "Is a directory (os error 21)"
  | .nameTooLong => "File name too long (os error 36)"
  | .nulInName => "file name contained an unexpected NUL byte"
  | .other text => text

end BlockGraph
