import PortWarden.Config.Document

/-!
# Directories

The directory that a program runs in, with the files that lie in it, and what reading a path there
gives. Of the directories around it no files are known, other than the null device.
-/

namespace PortWarden.CommandLine

/-- The directory that a program runs in. -/
structure Directory where
  /-- The files by their names. -/
  files : List (String × ByteArray) := []

namespace Directory

/-- What the parts of a path give that starts in a directory around this one. -/
def readOutside (parts : List String) : Config.FileContent :=
  if parts.all fun part => part == "" || part == "." || part == ".." then .error .isADirectory
  else .error .noSuchFile

/-- What the parts of a path give that starts in this directory. A file ends the path. -/
def readInside (d : Directory) : List String → Config.FileContent
  | [] => .error .isADirectory
  | part :: rest =>
    if part = "" ∨ part = "." then d.readInside rest
    else if part = ".." then readOutside rest
    else
      match d.files.lookup part, rest with
      | none, _ => .error .noSuchFile
      | some content, [] => .ok content
      | some _, _ :: _ => .error .notADirectory

/-- What reading a path gives, which is taken from the root if it starts with a slash. -/
def read (d : Directory) (path : String) : Config.FileContent :=
  match path.splitOn "/" with
  | ["", "dev", "null"] => .ok ByteArray.empty
  | "" :: rest => readOutside rest
  | parts => d.readInside parts

end Directory

end PortWarden.CommandLine
