import DocComment.Text.Basic

/-!
# Disks

A disk says what there is at each location: a file with its bytes, a directory, or nothing. A location is
the list of names that lead to it, the last name first. Paths are texts; they are followed name by name,
and every name but the last must lead to a directory. Names and paths have a greatest length.
-/

namespace DocComment

/-- What there is at a location. -/
inductive DiskEntry where
  | file (bytes : List UInt8)
  | directory
  deriving DecidableEq

/-- The names that lead to a place on a disk, the last first. -/
abbrev Location := List String

/-- What there is at each location. -/
abbrev Disk := Location → Option DiskEntry

/-- Why a disk does not do what it is asked. -/
inductive DiskError where
  | notFound
  | fileExists
  | notDirectory
  | isDirectory
  | nameTooLong
  deriving DecidableEq

def DiskError.message : DiskError → String
  | .notFound => "No such file or directory (os error 2)"
  | .fileExists => "File exists (os error 17)"
  | .notDirectory => "Not a directory (os error 20)"
  | .isDirectory => "Is a directory (os error 21)"
  | .nameTooLong => "File name too long (os error 36)"

/-! ## Paths -/

namespace Path

/-- A path with a name behind it. A slash comes between, unless the path is empty or ends in one. -/
def join (path name : String) : String :=
  if path.toList.isEmpty || path.toList.getLast? == some '/' then path ++ name else path ++ "/" ++ name

/-- The names of a path, the last first. A path that begins with a slash begins at the root, which goes by
the name of the slash; empty names and those of the directory itself lead nowhere else. -/
def names (path : String) : List String :=
  let root := if path.toList.head? == some '/' then ["/"] else []
  let names := (Text.parts '/' path.toList).map String.ofList
  (root ++ names.filter fun n => n != "" && n != ".").reverse

/-- A path without slashes and names of the directory itself at its end, which lead nowhere else. Its first part
stays, as does the slash at which all paths begin. -/
def trimmed (path : String) : String :=
  match Text.parts '/' path.toList with
  | [] => path
  | first :: rest =>
    let kept := (rest.reverse.dropWhile fun part => part.isEmpty || part == ['.']).reverse
    if first.isEmpty && kept.isEmpty && !rest.isEmpty then "/"
    else String.ofList (['/'].intercalate (first :: kept))

def nameLimit : Nat := 255

def limit : Nat := 4095

/-- A path with more bytes than a path may have. -/
def isTooLong (path : String) : Bool := limit < path.utf8ByteSize

end Path

namespace Disk

/-- The disk with something put at a location. -/
def put (d : Disk) (here : Location) (e : DiskEntry) : Disk :=
  fun there => if there = here then some e else d there

/-- Follows names, the last first, from where all names begin. -/
def follow (d : Disk) : List String → Except DiskError Location
  | [] => .ok []
  | name :: before =>
    match d.follow before with
    | .error e => .error e
    | .ok here =>
      match d here with
      | some .directory =>
        if Path.nameLimit < name.utf8ByteSize then .error .nameTooLong
        else .ok (if name = ".." then here.tail else name :: here)
      | some (.file _) => .error .notDirectory
      | none => .error .notFound

def followPath (d : Disk) (path : String) : Except DiskError Location :=
  if Path.isTooLong path then .error .nameTooLong else d.follow (Path.names path)

/-- The bytes of the file at a path. -/
def read (d : Disk) (path : String) : Except DiskError (List UInt8) :=
  match d.followPath path with
  | .error e => .error e
  | .ok here =>
    match d here with
    | some (.file bytes) => .ok bytes
    | some .directory => .error .isDirectory
    | none => .error .notFound

/-- Writes a file at a path, over the one that is there. -/
def write (d : Disk) (path : String) (bytes : List UInt8) : Except DiskError Disk :=
  match d.followPath path with
  | .error e => .error e
  | .ok here =>
    match d here with
    | some .directory => .error .isDirectory
    | _ => .ok (d.put here (.file bytes))

/-- Makes a directory where names lead. -/
def makeDirectory (d : Disk) (names : List String) : Except DiskError Disk :=
  match d.follow names with
  | .error e => .error e
  | .ok here =>
    match d here with
    | some _ => .error .fileExists
    | none => .ok (d.put here .directory)

/-- Names lead to a directory. -/
def isDirectory (d : Disk) (names : List String) : Bool :=
  match d.follow names with
  | .error _ => false
  | .ok here => d here == some .directory

/-- Makes a directory unless it is there already. -/
def ensureDirectory (d : Disk) (names : List String) : Disk × Option DiskError :=
  match d.makeDirectory names with
  | .ok d => (d, none)
  | .error e => (d, if d.isDirectory names then none else some e)

/-- Makes a directory and those that lead to it, as far as they are missing. -/
def makeDirectories (d : Disk) : List String → Disk × Option DiskError
  | [] => (d, none)
  | name :: before =>
    match d.makeDirectory (name :: before) with
    | .ok d => (d, none)
    | .error .notFound =>
      match d.makeDirectories before with
      | (d, none) => d.ensureDirectory (name :: before)
      | (d, some e) => (d, some e)
    | .error e => (d, if d.isDirectory (name :: before) then none else some e)

/-- Makes a directory at a path and those that lead to it. -/
def makePath (d : Disk) (path : String) : Disk × Option DiskError :=
  if Path.isTooLong path then (d, some .nameTooLong) else d.makeDirectories (Path.names path)

end Disk

end DocComment
