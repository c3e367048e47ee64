import AccelPipe.Files.Basic

/-! A working directory that is held in memory. It has files and no directories of its own; the
directories around it are known by name, and but for the null device they hold nothing. A path is
followed part by part, and the first part that cannot be followed decides what is wrong with it. -/
namespace AccelPipe

structure Directory where
  /-- Contents by name, both as bytes. -/
  files : List (Bytes × Bytes)

namespace Directory

/-- The directories that a path can pass through. -/
inductive Station where
  | working
  | root
  | devices
  | elsewhere
deriving DecidableEq

/-- Where a path leads. -/
inductive Place where
  | directory (station : Station)
  | file (content : Bytes)
  /-- Reads as empty and keeps nothing. -/
  | nullDevice
  /-- A name that a directory does not have. -/
  | missing

/-- Names of directories directly below the root. -/
def rootNames : List Bytes :=
  ["bin", "boot", "etc", "home", "lib", "media", "mnt", "opt", "proc", "root", "run", "sbin",
   "srv", "sys", "tmp", "usr", "var"].map Text.toBytes

/-- The greatest size of a name and of a path, in bytes. -/
def maxNameSize : Nat := 255

def maxPathSize : Nat := 4095

variable (d : Directory)

/-- One part of a path. Between two slashes there may be nothing; that means no step. -/
def enter (station : Station) (part : Bytes) : Except FileReason Place :=
  if part = [] ∨ part = Text.toBytes "." then .ok (.directory station)
  else if part = Text.toBytes ".." then
    .ok (.directory (if station = .root then .root else .elsewhere))
  else if maxNameSize < part.length then .error .nameTooLong
  else match station with
    | .working =>
      match d.files.lookup part with
      | some content => .ok (.file content)
      | none => .ok .missing
    | .root =>
      if part = Text.toBytes "dev" then .ok (.directory .devices)
      else if rootNames.contains part then .ok (.directory .elsewhere)
      else .ok .missing
    | .devices => if part = Text.toBytes "null" then .ok .nullDevice else .ok .missing
    | .elsewhere => .ok .missing

def follow (place : Place) : List Bytes → Except FileReason Place
  | [] => .ok place
  | part :: rest =>
    match place with
    | .directory station => d.enter station part >>= fun next => follow next rest
    | .file _ | .nullDevice => .error .notDirectory
    | .missing => .error .absent

/-- The byte between the parts of a path. -/
def slash : UInt8 := 0x2f

/-- The place where a path starts, and its parts. -/
def startOf (path : Bytes) : Except FileReason (Place × List Bytes) :=
  if path.isEmpty then .error .absent
  else if maxPathSize < path.length then .error .nameTooLong
  else .ok (.directory (if path.head? = some slash then .root else .working), path.splitOn slash)

def contentAt (path : String) : Except FileReason Bytes := do
  let (start, parts) ← startOf (Text.toBytes path)
  match ← d.follow start parts with
  | .directory _ => throw .directory
  | .file content => return content
  | .nullDevice => return []
  | .missing => throw .absent

/-- The file behind a path. -/
def read (path : String) : Except FileFault Bytes :=
  (d.contentAt path).mapError fun reason => ⟨reason, path⟩

/-- The parts of a path up to its last name, and that name; it is absent if the path ends with a
slash and thus means a directory. -/
def lastName (parts : List Bytes) : List Bytes × Option Bytes :=
  match parts.reverse with
  | [] => ([], none)
  | [] :: rest => (((rest.dropWhile (·.isEmpty)).drop 1).reverse, none)
  | name :: rest => (rest.reverse, some name)

/-- The directory after a file has been written. A file outside of it leaves it as it is. -/
def withContentAt (path : String) (content : Bytes) : Except FileReason Directory := do
  let (start, parts) ← startOf (Text.toBytes path)
  let (front, name) := lastName parts
  match ← d.follow start front, name with
  | .directory _, none => throw .directory
  | .directory station, some name =>
    match ← d.enter station name with
    | .directory _ => throw .directory
    | .nullDevice => return d
    | _ => return if station = .working then ⟨(name, content) :: d.files⟩ else d
  | .file _, _ | .nullDevice, _ => throw .notDirectory
  | .missing, _ => throw .absent

def write (path : String) (content : Bytes) : Except FileFault Directory :=
  (d.withContentAt path content).mapError fun reason => ⟨reason, path⟩

end Directory

end AccelPipe
