import ChainGenesis.Files.FileSystem
import ChainGenesis.Json.Reader
import ChainGenesis.Json.Record

/-!
# Loading JSON files

A file that is to be loaded can be missing or unreadable, or it can fail to be the JSON that
was asked for. Either way the error names the file. Its message ends with the words that the
system or the JSON reader has for the cause, which are not this program's.
-/

namespace ChainGenesis

/-- Why a file could not be read, written or understood. -/
inductive FileError where
  /-- The file system refused. -/
  | io (path : String) (fault : IoFault)
  /-- The content is not the JSON that was asked for. -/
  | parse (path : String) (fault : Fault)
  deriving DecidableEq

/-- What is said of causes by those who find them. -/
structure Wording where
  /-- What the system says when a file operation fails. -/
  system : IoFault → String
  /-- What the JSON reader says of the file at a path or, without a path, of what is piped in. -/
  reader : Option String → Fault → String

/-- Plain words for every cause. -/
def Wording.plain : Wording where
  system
    | .notFound => "no such file or directory"
    | .isDirectory => "is a directory"
    | .notDirectory => "not a directory"
    | .alreadyExists => "file exists"
    | .invalidInput => "invalid path"
    | .other kind => kind
  reader _
    | .truncated => "unexpected end of input"
    | .malformed => "malformed JSON"
    | .mistyped => "unexpected type of value"

def FileError.message (words : Wording) : FileError → String
  | .io path fault => "I/O error on " ++ path ++ ": " ++ words.system fault
  | .parse path fault => "parse " ++ path ++ ": " ++ words.reader (some path) fault

namespace FileSystem

/-- Loads a file with a reader of written trees. -/
def load {α : Type} (fs : FileSystem) (read : Written → Except Fault α) (path : String) :
    Except FileError α :=
  match fs.read path with
  | .error fault => .error (.io path fault)
  | .ok bytes =>
    match Written.decode read (Symbol.ofBytes bytes) with
    | .error fault => .error (.parse path fault)
    | .ok value => .ok value

/-- Loads a document of any shape. -/
def loadDocument (fs : FileSystem) (path : String) : Except FileError Document :=
  fs.load (Document.ofWritten Document.maxDepth) path

end FileSystem

end ChainGenesis
