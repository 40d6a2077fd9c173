/-!
# Paths

Paths as texts: names between slashes, absolute when they begin with one.
-/

namespace BlockGraph.Path

/-- Whether the path begins at the root. -/
def isAbsolute (path : String) : Bool := path.toList.head? == some '/'

/-- Whether the path ends in a slash, so that it can only name a directory. -/
def endsInSlash (path : String) : Bool := path.toList.getLast? == some '/'

/-- A path seen from a directory; an absolute one stays. -/
def join (dir path : String) : String :=
  if isAbsolute path then path
  else if dir = "" || endsInSlash dir then dir ++ path
  else dir ++ "/" ++ path

/-- The parts of a text between slashes; there is one more of them than there are slashes. -/
def splitSlashes (cs : List Char) : List (List Char) :=
  cs.foldr
    (fun c parts => match c, parts with
      | '/', parts => [] :: parts
      | c, part :: parts => (c :: part) :: parts
      | c, [] => [[c]])
    [[]]

/-- The names of a path, in order; a name may be `.` or `..`. -/
def names (path : String) : List String :=
  ((splitSlashes path.toList).filter (!·.isEmpty)).map String.ofList

def directory (path : String) : String :=
  match (splitSlashes path.toList).dropLast with
  | [] => "."
  | [[]] => "/"
  | parts => String.intercalate "/" (parts.map String.ofList)

/-- The marker that a source may carry in front of its path. -/
def fileMarker : String := "file://"

/-- A source's path and the marker in front of it, if it has one. -/
def splitFileMarker (source : String) : String × String :=
  let marker := fileMarker.toList
  if marker.isPrefixOf source.toList then
    (fileMarker, String.ofList (source.toList.drop marker.length))
  else ("", source)

end BlockGraph.Path
