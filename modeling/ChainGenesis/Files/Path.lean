/-!
# Paths as text

A path is the text it was given as. Between its slashes it has segments, of which the empty
ones and the single points say nothing: `a//b/./c` has the names `a`, `b`, `c`. Taking the
directory of a path or joining a name to it leaves the rest of the text as it was written;
only `absolute` rewrites it. Nothing here looks at a disk, so `..` stays where it is.
-/

namespace ChainGenesis.FilePath

/-- The segments of a path, of which there is always one. -/
def split : List Char → List (List Char)
  | [] => [[]]
  | c :: rest =>
    if c = '/' then [] :: split rest
    else
      match split rest with
      | [] => [[c]]
      | first :: others => (c :: first) :: others

/-- The path with the given segments. -/
def unsplit : List (List Char) → List Char
  | [] => []
  | [segment] => segment
  | segment :: rest => segment ++ '/' :: unsplit rest

theorem split_ne_nil (path : List Char) : split path ≠ [] := by
  cases path with
  | nil => simp [split]
  | cons c rest =>
    unfold split
    split
    · simp
    · split <;> simp

theorem unsplit_cons_cons (segment next : List Char) (rest : List (List Char)) :
    unsplit (segment :: next :: rest) = segment ++ '/' :: unsplit (next :: rest) := rfl

/-- Splitting a path loses nothing. -/
theorem unsplit_split (path : List Char) : unsplit (split path) = path := by
  induction path with
  | nil => rfl
  | cons c rest ih =>
    obtain ⟨first, others, hs⟩ := List.exists_cons_of_ne_nil (split_ne_nil rest)
    rw [hs] at ih
    unfold split
    rw [hs]
    split
    · rename_i h
      rw [unsplit_cons_cons, ih, h, List.nil_append]
    · cases others with
      | nil => simpa [unsplit] using ih
      | cons second others => simpa [unsplit_cons_cons] using ih

/-- Whether a segment is a name, which `..` is too. -/
def isName (segment : List Char) : Bool := segment ≠ [] && segment ≠ ['.']

/-- The names of a path. -/
def names (path : String) : List (List Char) := (split path.toList).filter isName

def isAbsolute (path : String) : Bool := path.toList.head? = some '/'

def endsWithSlash (path : String) : Bool := path.toList.getLast? = some '/'

/-- A list of segments up to its last name. -/
def upToLastName (segments : List (List Char)) : List (List Char) :=
  (segments.reverse.dropWhile fun segment => !isName segment).reverse

/-- The directory of a path: the text before its last name, empty for a name alone. The
root and the empty path have none. A point at the front of a path counts as a name. -/
def parent? (path : String) : Option String :=
  match split path.toList with
  | [] => none
  | first :: rest =>
    match upToLastName rest with
    | [] => if first.isEmpty then none else some ""
    | names =>
      match first, upToLastName names.dropLast with
      | [], [] => some "/"
      | first, rest => some (String.ofList (unsplit (first :: rest)))

/-- A name below a directory; an absolute name stands alone. -/
def join (directory name : String) : String :=
  if isAbsolute name then name
  else if directory.isEmpty || endsWithSlash directory then directory ++ name
  else directory ++ "/" ++ name

/-- The path of another file in the directory of a file. -/
def sibling (path name : String) : String := join ((parent? path).getD "") name

/-- What an absolute path begins with: a pair of slashes is kept, since it may have a
meaning of its own, and a longer run is one slash. -/
def rootText (path : String) : String :=
  match path.toList with
  | '/' :: '/' :: '/' :: _ => "/"
  | '/' :: '/' :: _ => "//"
  | _ => "/"

/-- The names of a path joined below a directory, a slash at the end of the path kept. -/
def rejoin (directory path : String) : String :=
  let joined := (names path).foldl (fun text name => join text (String.ofList name)) directory
  if endsWithSlash path && !endsWithSlash joined then joined ++ "/" else joined

/-- The absolute form of a path seen from a working directory, without empty segments and
points. The empty path has none. -/
def absolute? (workingDirectory path : String) : Option String :=
  if path.isEmpty then none
  else if isAbsolute path then some (rejoin (rootText path) path)
  else some (rejoin workingDirectory path)

example : parent? "a/b//" = some "a" ∧ parent? "out/./x" = some "out" ∧ parent? "/x" = some "/"
    ∧ parent? "/" = none ∧ parent? "." = some "" := by decide
example : absolute? "/work" "./a//b/../c" = some "/work/a/b/../c" := by decide
example : absolute? "/work" "///x//y" = some "/x/y" ∧ absolute? "/work" "//x" = some "//x" := by
  decide

end ChainGenesis.FilePath
