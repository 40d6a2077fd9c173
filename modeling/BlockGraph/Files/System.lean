import BlockGraph.Feed.Recording

/-!
# Calls on files

What the commands need of a file system. The commands are written for any monad that has these
calls, so that they run on real files as well as on a `Disk`.
-/

namespace BlockGraph

/-- A monad with calls on files. -/
class FileSystem (m : Type → Type) where
  /-- Opens a file to read it. A directory can be opened, but not read. -/
  openFile : (path : String) → m (Except OsError Contents)
  /-- The absolute path of something that is there, without `.` and `..`. -/
  realPath : (path : String) → m (Except OsError String)
  /-- Makes a directory and those above it, where they are not there yet. -/
  makeDirs : (path : String) → m (Except OsError Unit)
  /-- Writes a text into a file, in the place of what it held. -/
  writeFile : (path text : String) → m (Except OsError Unit)
  /-- Writes a text behind what a file holds. -/
  appendFile : (path text : String) → m (Except OsError Unit)

end BlockGraph
