import ChainGenesis.Files.Path

/-!
# A file system as a value

The commands of this program read a few files, make directories and write artifacts. What
they do is a function of the files that are there, so the file system is a value: a list of
places, each with a file or a directory, and a working directory from which relative paths
start. An operation that fails says how; one that fails half way says what it had done.

Not everything that can go wrong with a change follows from what is there: the disk can be
full, or be taken away while a file is written. Such mishaps are part of the value, in the
order of the changes that meet with them.

A path is followed name by name, and every place on the way must be a directory. `..` leads
to the directory above, and an empty segment or a point stays where it is, but asks for a
directory all the same.
-/

namespace ChainGenesis

/-- How a file operation fails. -/
inductive IoFault where
  | notFound
  | isDirectory
  | notDirectory
  | alreadyExists
  | invalidInput
  /-- Whatever else a system can have against a change, such as a lack of space. -/
  | other (kind : String)
  deriving DecidableEq

/-- What is at a place: a file with its bytes, or a directory. -/
inductive Node where
  | file (content : ByteArray)
  | directory

/-- A place, as the names that lead to it from the root. -/
abbrev Location := List String

/-- What goes wrong with a change that nothing at its place forbids. -/
structure Mishap where
  fault : IoFault
  /-- How many bytes of a file are stored all the same. Without a number the file is not opened,
  and what was there stays. -/
  stored : Option Nat

structure FileSystem where
  nodes : List (Location × Node)
  workingDirectory : Location
  /-- What the changes to come meet with, one after the other. Nothing goes wrong with those
  behind the end of the list. -/
  mishaps : List (Option Mishap) := []

namespace FileSystem

/-- A file system that has nothing in it but a working directory. -/
def empty (workingDirectory : Location) : FileSystem :=
  { nodes := (List.range workingDirectory.length).map fun n =>
      (workingDirectory.take (n + 1), .directory)
    workingDirectory }

/-- The working directory as an absolute path. -/
def workingPath (fs : FileSystem) : String :=
  fs.workingDirectory.foldl FilePath.join "/"

/-- What is at a place. The root is always a directory. -/
def node? (fs : FileSystem) (place : Location) : Option Node :=
  if place = [] then some .directory else fs.nodes.lookup place

/-- Puts a file or directory at a place. -/
def put (fs : FileSystem) (place : Location) (node : Node) : FileSystem :=
  { fs with nodes := (place, node) :: fs.nodes.filter fun entry => entry.1 ≠ place }

/-- Takes away a place and everything below it. -/
def remove (fs : FileSystem) (place : Location) : FileSystem :=
  { fs with nodes := fs.nodes.filter fun entry => !place.isPrefixOf entry.1 }

theorem lookup_filter_ne {nodes : List (Location × Node)} {place other : Location}
    (h : other ≠ place) :
    (nodes.filter fun entry => entry.1 ≠ place).lookup other = nodes.lookup other := by
  induction nodes with
  | nil => rfl
  | cons entry rest ih =>
    by_cases hf : entry.1 = place
    · have hne : (other == entry.1) = false := by simpa using fun heq => h (heq.trans hf)
      rw [List.filter_cons_of_neg (by simp [hf]), List.lookup_cons, hne]
      exact ih
    · rw [List.filter_cons_of_pos (by simp [hf]), List.lookup_cons, List.lookup_cons, ih]

/-- What was put at a place is there, and every other place is as it was. -/
theorem node?_put (fs : FileSystem) {place : Location} (other : Location) (node : Node)
    (h : place ≠ []) :
    (fs.put place node).node? other = if other = place then some node else fs.node? other := by
  unfold node? put
  by_cases ho : other = []
  · subst ho
    simp [Ne.symm h]
  · by_cases heq : other = place
    · subst heq
      simp [ho]
    · have hbeq : (other == place) = false := by simpa using heq
      rw [if_neg ho, if_neg heq, if_neg ho, List.lookup_cons, hbeq]
      exact lookup_filter_ne heq

/-! ## Following a path -/

/-- One segment further from a place, which must be a directory. -/
def enter (fs : FileSystem) (place : Location) (segment : List Char) :
    Except IoFault Location :=
  match fs.node? place with
  | none => .error .notFound
  | some (.file _) => .error .notDirectory
  | some .directory =>
    if !FilePath.isName segment then .ok place
    else if segment = ['.', '.'] then .ok place.dropLast
    else .ok (place ++ [String.ofList segment])

/-- The place at the end of some segments. -/
def follow (fs : FileSystem) (place : Location) : List (List Char) → Except IoFault Location
  | [] => .ok place
  | segment :: rest =>
    match fs.enter place segment with
    | .ok next => fs.follow next rest
    | .error fault => .error fault

/-- Where a path starts. -/
def start (fs : FileSystem) (path : String) : Location :=
  if FilePath.isAbsolute path then [] else fs.workingDirectory

/-- A path must not hold the null character, and the empty path leads nowhere. -/
def checkPath (path : String) : Except IoFault Unit :=
  if path.toList.contains '\x00' then .error .invalidInput
  else if path.isEmpty then .error .notFound
  else .ok ()

/-- The place a path leads to. There need not be anything there. -/
def locate (fs : FileSystem) (path : String) : Except IoFault Location := do
  checkPath path
  fs.follow (fs.start path) (FilePath.split path.toList)

/-- The directory in which the last segment of a path stands, that segment, and whether a
slash follows it. A path of slashes alone has no last segment. -/
def locateLast (fs : FileSystem) (path : String) :
    Except IoFault (Location × List Char × Bool) := do
  checkPath path
  let segments := FilePath.split path.toList
  let trimmed := (segments.reverse.dropWhile List.isEmpty).reverse
  let directory ← fs.follow (fs.start path) trimmed.dropLast
  let last := trimmed.getLast?.getD []
  -- entering the last segment asks whether its place is in a directory
  let _ ← fs.enter directory last
  return (directory, last, trimmed.length < segments.length)

/-! ## Operations -/

/-- The bytes of the file at a path. -/
def read (fs : FileSystem) (path : String) : Except IoFault ByteArray :=
  match fs.locate path with
  | .error fault => .error fault
  | .ok place =>
    match fs.node? place with
    | some (.file content) => .ok content
    | some .directory => .error .isDirectory
    | none => .error .notFound

/-- Whether a path leads to a file. -/
def isFile (fs : FileSystem) (path : String) : Bool :=
  match fs.locate path with
  | .error _ => false
  | .ok place =>
    match fs.node? place with
    | some (.file _) => true
    | _ => false

/-- Whether a path leads to a directory. -/
def isDirectory (fs : FileSystem) (path : String) : Bool :=
  match fs.locate path with
  | .error _ => false
  | .ok place =>
    match fs.node? place with
    | some .directory => true
    | _ => false

/-- Whether a segment names an entry of a directory, and is not a way to stay or go up. -/
def isEntryName (segment : List Char) : Bool :=
  FilePath.isName segment && segment ≠ ['.', '.']

/-- What goes wrong with the next change, if anything does. -/
def mishap? (fs : FileSystem) : Option Mishap := fs.mishaps.head?.join

/-- The file system when the next change has been tried. -/
def later (fs : FileSystem) : FileSystem := { fs with mishaps := fs.mishaps.tail }

/-- The place of the file that is to be written at a path. -/
def placeForFile (fs : FileSystem) (path : String) : Except IoFault Location := do
  let (directory, last, slash) ← fs.locateLast path
  if slash || !isEntryName last then throw .isDirectory
  let place := directory ++ [String.ofList last]
  match fs.node? place with
  | some .directory => throw .isDirectory
  | _ => return place

/-- Writes a file, in the place of the one that may be there. The old content is gone as soon as
the file is opened, so a mishap after that leaves the beginning of the new one. -/
def write (fs : FileSystem) (path : String) (content : ByteArray) :
    FileSystem × Except IoFault Unit :=
  match fs.placeForFile path with
  | .error fault => (fs, .error fault)
  | .ok place =>
    match fs.mishap? with
    | none => (fs.later.put place (.file content), .ok ())
    | some ⟨fault, none⟩ => (fs.later, .error fault)
    | some ⟨fault, some stored⟩ =>
      (fs.later.put place (.file (content.extract 0 stored)), .error fault)

/-- The place of the directory that is to be made at a path. -/
def placeForDirectory (fs : FileSystem) (path : String) : Except IoFault Location := do
  let (directory, last, _) ← fs.locateLast path
  if !isEntryName last then throw .alreadyExists
  let place := directory ++ [String.ofList last]
  match fs.node? place with
  | some _ => throw .alreadyExists
  | none => return place

/-- Makes one directory. -/
def makeDirectory (fs : FileSystem) (path : String) : FileSystem × Except IoFault Unit :=
  match fs.placeForDirectory path with
  | .error fault => (fs, .error fault)
  | .ok place =>
    match fs.mishap? with
    | none => (fs.later.put place .directory, .ok ())
    | some mishap => (fs.later, .error mishap.fault)

/-- A path and the directories above it, from the innermost, up to where it starts. -/
def lineage : Nat → String → List String
  | 0, _ => []
  | steps + 1, path =>
    if path.isEmpty then []
    else
      match FilePath.parent? path with
      | none => [path]
      | some parent => path :: lineage steps parent

/--
Makes the directories of a lineage. It starts from the innermost and goes up for as long as
the directory above is missing; a directory that is there already is as good as one that
was made.
-/
def makeLineage (fs : FileSystem) : List String → FileSystem × Except IoFault Unit
  | [] => (fs, .ok ())
  | path :: above =>
    match fs.makeDirectory path with
    | (fs, .ok ()) => (fs, .ok ())
    | (fs, .error .notFound) =>
      match fs.makeLineage above with
      | (fs, .error fault) => (fs, .error fault)
      | (fs, .ok ()) =>
        match fs.makeDirectory path with
        | (fs, .ok ()) => (fs, .ok ())
        | (fs, .error fault) => (fs, if fs.isDirectory path then .ok () else .error fault)
    | (fs, .error fault) => (fs, if fs.isDirectory path then .ok () else .error fault)

/-- Makes a directory and all those above it that are missing. -/
def makeDirectories (fs : FileSystem) (path : String) : FileSystem × Except IoFault Unit :=
  fs.makeLineage (lineage (path.length + 1) path)

end FileSystem

end ChainGenesis
