/-!
# Files

A tree of files and directories as far as settings are read from it and outputs are written to it.

* `FileFault`: why a file could not be used;
* `FileTree`: the nodes by their paths, and the working directory;
* `FileTree.resolve`: the place that a path leads to;
* `FileTree.readText`, `FileTree.occupied`, `FileTree.append`: the three uses.
-/

namespace ReleaseFlow

/-- Why a file could not be used. -/
inductive FileFault where
  | notFound
  | isDirectory
  | notADirectory
  | nameTooLong
  | nullInName
  | notText
  | other (text : String)
  deriving DecidableEq, Repr

def FileFault.message : FileFault → String
  | notFound => "No such file or directory (os error 2)"
  | isDirectory => "Is a directory (os error 21)"
  | notADirectory => "Not a directory (os error 20)"
  | nameTooLong => "File name too long (os error 36)"
  | nullInName => "file name contained an unexpected NUL byte"
  | notText => "stream did not contain valid UTF-8"
  | other text => text

/-- The content of a file: text, or bytes that are no text. -/
inductive Content where
  | text (text : String)
  | binary (bytes : ByteArray)

/-- The content with a text after it. Text after bytes that are none makes no text of them. -/
def Content.append : Content → String → Content
  | text s, t => text (s ++ t)
  | binary bytes, t => binary (bytes ++ t.toUTF8)

/-- A file or a directory. -/
inductive Node where
  | file (content : Content)
  | directory

/-- The names from the root down to a place. -/
abbrev Place := List String

/-- Files and directories by their places, and the working directory. The root is always there. -/
structure FileTree where
  nodes : List (Place × Node) := []
  home : Place := []

namespace FileTree

def node? (t : FileTree) (place : Place) : Option Node :=
  if place = [] then some .directory else t.nodes.lookup place

def put (place : Place) (node : Node) (t : FileTree) : FileTree :=
  if (t.nodes.lookup place).isSome then
    { t with nodes := t.nodes.map fun e => if e.1 = place then (place, node) else e }
  else { t with nodes := t.nodes ++ [(place, node)] }

/-- Puts a node at a place, and directories above it where nothing is. -/
def putDeep (place : Place) (node : Node) (t : FileTree) : FileTree :=
  let above := (List.range place.length).map fun n => place.take n
  let t := above.foldl
    (fun t p => if (t.node? p).isNone then t.put p .directory else t) t
  t.put place node

/-- Follows names from a place. Every name needs a directory to be looked up in. -/
def follow (t : FileTree) : List String → Place → Except FileFault Place
  | [], place => .ok place
  | name :: names, place =>
    match t.node? place with
    | none => .error .notFound
    | some (.file _) => .error .notADirectory
    | some .directory =>
      if name = "" || name = "." then follow t names place
      else if name = ".." then follow t names place.dropLast
      else if 255 < name.utf8ByteSize then .error .nameTooLong
      else follow t names (place ++ [name])

/-- The fault of a text that cannot be a path. -/
def pathFault? (path : String) : Option FileFault :=
  if path.toList.contains '\x00' then some .nullInName
  else if path = "" then some .notFound
  else if 4096 ≤ path.utf8ByteSize then some .nameTooLong
  else none

/-- The place that a path leads to; all but its last name must be directories. -/
def resolve (t : FileTree) (path : String) : Except FileFault Place :=
  match pathFault? path with
  | some fault => .error fault
  | none =>
    match List.splitOn '/' path.toList with
    | [] :: names => t.follow (names.map String.ofList) []
    | names => t.follow (names.map String.ofList) t.home

def readText (t : FileTree) (path : String) : Except FileFault String :=
  match t.resolve path with
  | .error fault => .error fault
  | .ok place =>
    match t.node? place with
    | none => .error .notFound
    | some .directory => .error .isDirectory
    | some (.file (.text text)) => .ok text
    | some (.file (.binary _)) => .error .notText

/-- Something lies at the path. -/
def occupied (t : FileTree) (path : String) : Bool :=
  match t.resolve path with
  | .error _ => false
  | .ok place => (t.node? place).isSome

/-- The place that a path for writing leads to. A slash at its end asks for a directory, once the
directory above is found. -/
def resolveForWriting (t : FileTree) (path : String) : Except FileFault Place :=
  match path.toList.reverse with
  | '/' :: cs =>
    match pathFault? path, (cs.dropWhile (· == '/')).dropWhile (· != '/') with
    | some fault, _ => .error fault
    | none, [] => .error .isDirectory
    | none, above => (t.resolve (String.ofList above.reverse)).bind fun _ => .error .isDirectory
  | _ => t.resolve path

/-- Appends text to a file, which is made when nothing is there. -/
def append (t : FileTree) (path text : String) : Except FileFault FileTree :=
  match t.resolveForWriting path with
  | .error fault => .error fault
  | .ok place =>
    match t.node? place with
    | none => .ok (t.put place (.file (.text text)))
    | some .directory => .error .isDirectory
    | some (.file content) => .ok (t.put place (.file (content.append text)))

end FileTree

end ReleaseFlow
