import HandleScript.Text.Path

/-!
# Files

The files and directories that a script can reach. A path is followed part by part from
the working directory or the root: `..` leads to the directory around a directory, and an
empty part and `.` stay. A path that leads through a file, to a directory or to nothing
cannot be read, and neither can bytes that are no text.
-/

namespace HandleScript

/-- A place on the disk by the names that lead to it: from the root if the first one is
`/`, and else from the working directory, where each `..` at the beginning leads out of a
directory. -/
abbrev Place := List String

namespace Place

/-- The directory around a place. The root has none around it. -/
def parent (place : Place) : Place :=
  if place = ["/"] then place
  else if place.all (· = "..") then place ++ [".."]
  else place.dropLast

/-- Where a part of a path leads from a directory. -/
def enter (place : Place) (part : String) : Place :=
  if part = "" || part = "." then place
  else if part = ".." then place.parent
  else place ++ [part]

/-- Whether there is a directory whatever the disk holds: at the root, at the working
directory and around it. -/
def isGiven (place : Place) : Bool :=
  place = ["/"] || place.all (· = "..")

/-- Where a path starts: at the root, or at the working directory. -/
def origin (path : String) : Place :=
  match path.toList with
  | '/' :: _ => ["/"]
  | _ => []

end Place

/-- What can stand at a place. -/
inductive DiskEntry where
  | file (contents : ByteArray)
  | directory

/-- What the disk holds beside the directories that are always there. Of two entries for
one place the first counts. -/
structure Files where
  entries : List (Place × DiskEntry)
deriving Inhabited

/-- Why a file cannot be read. -/
inductive ReadFailure where
  | missing
  | isDirectory
  | notDirectory
  | nameTooLong
  | notText
  | badName
deriving DecidableEq, Repr

/-- The system's words for a failure to read. -/
def ReadFailure.message : ReadFailure → String
  | missing => "No such file or directory (os error 2)"
  | isDirectory => "Is a directory (os error 21)"
  | notDirectory => "Not a directory (os error 20)"
  | nameTooLong => "File name too long (os error 36)"
  | notText => "stream did not contain valid UTF-8"
  | badName => "file name contained an unexpected NUL byte"

namespace Files

/-- No files. -/
def empty : Files := ⟨[]⟩

/-- What stands at a place. -/
def entry? (files : Files) (place : Place) : Option DiskEntry :=
  if place.isGiven then some .directory else files.entries.lookup place

/-! ## Making files -/

/-- Makes a directory at a place where nothing is. -/
def addDirectory (files : Files) (place : Place) : Files :=
  match files.entry? place with
  | some _ => files
  | none => ⟨(place, .directory) :: files.entries⟩

/-- Puts a file at a place, over any other file there. -/
def addFile (files : Files) (place : Place) (contents : ByteArray) : Files :=
  match files.entry? place with
  | some .directory => files
  | _ => ⟨(place, .file contents) :: files.entries⟩

/-- Follows the parts of a path from a place, makes the directories that are missing on
the way, and gives the place where it ends. -/
def addDirectories (files : Files) (place : Place) : List String → Files × Place
  | [] => (files, place)
  | part :: rest =>
    let next := place.enter part
    (files.addDirectory next).addDirectories next rest

/-- Makes a directory under a path, with the directories that the path leads through. -/
def insertDirectory (files : Files) (path : String) : Files :=
  (files.addDirectories (Place.origin path) (Text.pathParts path)).1

/-- Makes a file under a path, with the directories that the path leads through. -/
def insert (files : Files) (path : String) (contents : ByteArray) : Files :=
  let parts := Text.pathParts path
  let (files, directory) := files.addDirectories (Place.origin path) parts.dropLast
  files.addFile (directory.enter (parts.getLastD "")) contents

/-! ## Reading files -/

/-- The greatest number of bytes of a name. -/
def nameLimit : Nat := 255

/-- The number of bytes that a path does not reach. -/
def pathLimit : Nat := 4096

/-- Goes on from a place, where a directory has to be, by one part of a path. -/
def step (files : Files) (place : Place) (part : String) : Except ReadFailure Place :=
  match files.entry? place with
  | none => .error .missing
  | some (.file _) => .error .notDirectory
  | some .directory =>
    if nameLimit < part.utf8ByteSize then .error .nameTooLong else .ok (place.enter part)

/-- The place to which a path leads. -/
def locate (files : Files) (path : String) : Except ReadFailure Place :=
  if path.toList.any fun c => c.toNat = 0 then .error .badName
  else if path = "" then .error .missing
  else if pathLimit ≤ path.utf8ByteSize then .error .nameTooLong
  else (Text.pathParts path).foldlM files.step (Place.origin path)

/-- The text of the file under a path. -/
def read (files : Files) (path : String) : Except ReadFailure String := do
  match files.entry? (← files.locate path) with
  | none => .error .missing
  | some .directory => .error .isDirectory
  | some (.file contents) =>
    match String.fromUTF8? contents with
    | some text => .ok text
    | none => .error .notText

end Files

end HandleScript
