import MmixAsm.Command.Path

/-
  Disks: files by their places.

  A disk is a snapshot of one tree of files, with the place
  in which the command works.  Besides the files put there it
  has the directories that every system has below its root,
  and the null device, which takes all and gives nothing.

  Key definitions include:
    * `MmixAsm.FileFault`
    * `MmixAsm.Disk`
    * `MmixAsm.Disk.ofFiles`
    * `MmixAsm.Disk.locate`
    * `MmixAsm.Disk.read`
    * `MmixAsm.Disk.write`
    * `MmixAsm.Disk.workFiles`
-/

------------------------------------------------------------
-- Faults
------------------------------------------------------------

namespace MmixAsm

/- Why a file cannot be read or written. -/
inductive FileFault where
  | notFound
  | notDirectory
  | isDirectory
  | nameTooLong
  | nullInName
  | notText
  | other (description : String)
deriving DecidableEq

/- The wording of a fault. -/
def FileFault.text :
    FileFault → String
| .notFound => "No such file or directory (os error 2)"
| .notDirectory => "Not a directory (os error 20)"
| .isDirectory => "Is a directory (os error 21)"
| .nameTooLong => "File name too long (os error 36)"
| .nullInName => "file name contained an unexpected NUL byte"
| .notText => "stream did not contain valid UTF-8"
| .other description => description

/- What is wrong with a path, wherever it leads. -/
def pathFault? (path : String) : Option FileFault :=
  if path.toList.contains (Char.ofNat 0) then
    some .nullInName
  else if path = "" then
    some .notFound
  else if longestPath < path.utf8ByteSize then
    some .nameTooLong
  else
    none

end MmixAsm

------------------------------------------------------------
-- Disks
------------------------------------------------------------

namespace MmixAsm

/- A tree of files and the place in which one works. -/
structure Disk where
  work : Place
  directories : List Place
  files : List (Place × ByteArray)

/- What stands at a place of a disk. -/
inductive DiskNode where
  | file (content : ByteArray)
  | device
  | directory
  | absent

/- The directories below the root of every disk. -/
def systemDirectories : List Place :=
  ["bin", "boot", "dev", "etc", "home", "lib", "media", "mnt",
    "opt", "proc", "root", "run", "sbin", "srv", "sys", "tmp",
    "usr", "var"].map ([·])

/- The place of the null device. -/
def nullDevice : Place :=
  ["dev", "null"]

/- The place in which a command works on a fresh disk. -/
def freshWork : Place :=
  ["tmp", "work"]

namespace Disk

/- The disk with no files. -/
def fresh : Disk where
  work := freshWork
  directories := freshWork.upwards ++ systemDirectories
  files := []

/- What stands at a place. -/
def node
    (disk : Disk)
    (place : Place) : DiskNode :=
  match disk.files.lookup place with
  | some content => .file content
  | none =>
      if place = nullDevice then .device
      else if disk.directories.contains place then .directory
      else .absent

/- Put a file at a place. -/
def put
    (disk : Disk)
    (place : Place)
    (content : ByteArray) : Disk where
  work := disk.work
  directories := disk.directories
  files := (place, content)
    :: disk.files.filter (fun entry => entry.1 != place)

/- Make a directory, unless it is there. -/
def makeDirectory
    (disk : Disk)
    (place : Place) : Disk where
  work := disk.work
  directories := disk.directories.insert place
  files := disk.files

/-
  Put a file where the parts of a path lead from a place, and
  make the directories on the way.
-/
def create
    (disk : Disk)
    (place : Place)
    (content : ByteArray) :
    List String → Disk
| [] => disk
| [name] => disk.put (place.step name) content
| part :: rest =>
    (disk.makeDirectory (place.step part)).create
      (place.step part) content rest

/-
  The disk with the given files, by their paths from the
  place in which one works.  Of two files with one path the
  later stays.
-/
def ofFiles (files : List (String × ByteArray)) : Disk :=
  files.foldl
    (fun disk file =>
      disk.create disk.work file.2 (pathParts file.1))
    fresh

/- The files below the working place, by their paths. -/
def workFiles (disk : Disk) : List (String × ByteArray) :=
  disk.files.filterMap fun entry =>
    (disk.work.isPrefixOf? entry.1).map fun parts =>
      (String.intercalate "/" parts, entry.2)

end Disk

end MmixAsm

------------------------------------------------------------
-- Reading and Writing
------------------------------------------------------------

namespace MmixAsm

namespace Disk

/-
  Follow the parts of a path from a place.  A step is only
  possible from a directory, also one that stays there.
-/
def locate
    (disk : Disk)
    (place : Place) :
    List String → Except FileFault Place
| [] => .ok place
| part :: rest =>
    match disk.node place with
    | .file _ => .error .notDirectory
    | .device => .error .notDirectory
    | .absent => .error .notFound
    | .directory =>
        if longestName < part.utf8ByteSize then
          .error .nameTooLong
        else
          disk.locate (place.step part) rest

/- The place at which a path starts. -/
def start
    (disk : Disk)
    (parts : List String) : Place :=
  if parts.head? = some "" then [] else disk.work

/- The place that a path to be read leads to. -/
def follow
    (disk : Disk)
    (path : String) : Except FileFault Place :=
  let parts := pathParts path
  match pathFault? path with
  | some fault => .error fault
  | none => disk.locate (disk.start parts) parts

/- Read the text of a file. -/
def read
    (disk : Disk)
    (path : String) : Except FileFault String :=
  match disk.follow path with
  | .error fault => .error fault
  | .ok place =>
      match disk.node place with
      | .absent => .error .notFound
      | .directory => .error .isDirectory
      | .device => .ok ""
      | .file content =>
          match String.fromUTF8? content with
          | some text => .ok text
          | none => .error .notText

/-
  The place that a path to be written leads to.  A path that
  ends in a slash asks for a directory, whatever is there, so
  that only the way to its last name has to exist.
-/
def target
    (disk : Disk)
    (path : String) : Except FileFault Place :=
  let parts := pathParts path
  if parts.getLast? = some "" then
    let named := (parts.reverse.dropWhile (· == "")).reverse
    match pathFault? path with
    | some fault => .error fault
    | none =>
        match disk.locate (disk.start parts)
            (named.dropLast ++ ["."]) with
        | .error fault => .error fault
        | .ok _ => .error .isDirectory
  else
    disk.follow path

/- Write a text, into a new file or over an old one. -/
def write
    (disk : Disk)
    (path : String)
    (text : String) : Except FileFault Disk :=
  match disk.target path with
  | .error fault => .error fault
  | .ok place =>
      match disk.node place with
      | .directory => .error .isDirectory
      | .device => .ok disk
      | _ => .ok (disk.put place text.toUTF8)

end Disk

end MmixAsm
