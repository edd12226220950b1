import ChipEight.Files

/-!
A disk, and the names that lead to its files. A name is a path of parts between
slashes, walked from the working folder, or from the root if a slash stands in
front. An empty part or a dot stays where it is and two dots go one folder up,
so a name that ends in a slash leads to a folder or nowhere. A file is the end
of a path. Parts and names have a greatest length in bytes.
-/

namespace ChipEight

/-- Folders and files by their paths from the root, the last part first, so
that the folder around a path is its tail. The working folder is among the
folders, and so are all folders around it. -/
structure Disk where
  work : List String
  folders : List (List String)
  files : List (List String × List UInt8)

namespace Disk

/-- What a path leads to. -/
inductive Place where
  | folder (path : List String)
  | file (bytes : List UInt8)
  deriving DecidableEq, Repr

/-- Why a path leads nowhere: nothing is there, a part of it or the whole is
too long, or it goes on behind a file. -/
inductive Obstacle where
  | missing | tooLong | throughFile
  deriving DecidableEq, Repr

def Obstacle.fault (name : String) : Obstacle → Fault
  | missing => .fileMissing name
  | tooLong => .fileNameTooLong name
  | throughFile => .fileIsNoDirectory name

/-- What stands at a path, the first file counting. -/
def place? (d : Disk) (path : List String) : Option Place :=
  match d.files.lookup path with
  | some bytes => some (.file bytes)
  | none =>
    if path.isSuffixOf d.work || d.folders.contains path then some (.folder path) else none

def partLimit : Nat := 255

def nameLimit : Nat := 4096

def walk (d : Disk) : Place → List String → Except Obstacle Place
  | place, [] => .ok place
  | .file _, _ :: _ => .error .throughFile
  | .folder path, part :: rest =>
    if part = "." then d.walk (.folder path) rest
    else if part = ".." then d.walk (.folder path.tail) rest
    else if partLimit < part.utf8ByteSize then .error .tooLong
    else
      match d.place? (part :: path) with
      | some place => d.walk place rest
      | none => .error .missing

/-- The parts of a name, an empty one taken for a dot. -/
def parts (name : String) : List String :=
  (name.splitOn "/").map fun part => if part = "" then "." else part

def start (d : Disk) (name : String) : Place :=
  .folder (if name.toList.head? = some '/' then [] else d.work)

/-- Where a name leads; the empty name leads nowhere. -/
def find (d : Disk) (name : String) : Except Obstacle Place :=
  if name = "" then .error .missing
  else if nameLimit ≤ name.utf8ByteSize then .error .tooLong
  else d.walk (d.start name) (parts name)

def toFiles (d : Disk) : Files where
  read name :=
    if name.toList.contains '\x00' then .error .zeroInFileName
    else
      match d.find name with
      | .ok (.file bytes) => .ok bytes
      | .ok (.folder _) => .error (.fileIsDirectory name)
      | .error obstacle => .error (obstacle.fault name)

/-- The disk with one more file in the working folder, before all others of
its name. -/
def save (d : Disk) (name : String) (bytes : List UInt8) : Disk :=
  { d with files := (((parts name).filter (· != ".")).reverse ++ d.work, bytes) :: d.files }

end Disk

end ChipEight
