import PageCache.Files

/-! File trees as values. Places are lists of names from the root; paths lead from a working
directory to places, and every step but the last has to end at a directory. -/
namespace PageCache

inductive Node where
  | directory
  | file (content : ByteArray)

instance : DecidableEq Node
  | .directory, .directory => isTrue rfl
  | .directory, .file _ => isFalse nofun
  | .file _, .directory => isFalse nofun
  | .file a, .file b =>
    match ByteArray.instDecidableEq a b with
    | isTrue h => isTrue (congrArg Node.file h)
    | isFalse h => isFalse fun e => h (Node.file.inj e)

/-- The nodes of a file system by their places; the root is a directory. -/
structure FileTree where
  workingDirectory : List Text := []
  entries : List (List Text × Node) := []
  deriving DecidableEq

namespace FileTree

/-- The longest name and the longest path in bytes. -/
def nameLimit : Nat := 255

def pathLimit : Nat := 4095

def node? (t : FileTree) (place : List Text) : Option Node :=
  if place.isEmpty then some .directory else t.entries.lookup place

def put (t : FileTree) (place : List Text) (n : Node) : FileTree :=
  if (t.entries.lookup place).isSome then
    { t with entries := t.entries.map fun e => if e.1 = place then (place, n) else e }
  else { t with entries := t.entries ++ [(place, n)] }

def step (t : FileTree) (place : List Text) (name : Text) : Except IoError (List Text) :=
  match t.node? place with
  | none => .error .notFound
  | some (.file _) => .error .notDirectory
  | some .directory =>
    if name == Path.up then .ok place.dropLast
    else if name.utf8Length > nameLimit then .error .nameTooLong
    else if (t.node? (place ++ [name])).isSome then .ok (place ++ [name])
    else .error .notFound

def follow (t : FileTree) : List Text → List Text → Except IoError (List Text)
  | place, [] => .ok place
  | place, name :: names => do follow t (← t.step place name) names

/-- A path taken apart: where it starts, its names, and whether it has to end at a directory. -/
structure Route where
  start : List Text
  names : List Text
  directoryOnly : Bool

def route (t : FileTree) (path : Text) : Except IoError Route :=
  if path.elem '\x00' then .error .nulInName
  else if path.isEmpty then .error .notFound
  else if path.utf8Length > pathLimit then .error .nameTooLong
  else
    let pieces := path.splitOn '/'
    .ok
      { start := if Path.isAbsolute path then [] else t.workingDirectory
        names := pieces.filter (!Path.isIdle ·)
        directoryOnly := Path.isIdle (pieces.getLast?.getD []) }

def resolve (t : FileTree) (path : Text) : Except IoError (List Text × Node) := do
  let r ← t.route path
  let place ← t.follow r.start r.names
  match t.node? place with
  | none => .error .notFound
  | some (.file content) =>
    if r.directoryOnly then .error .notDirectory else .ok (place, .file content)
  | some .directory => .ok (place, .directory)

def read (t : FileTree) (path : Text) : Except IoError ByteArray :=
  match t.resolve path with
  | .error e => .error e
  | .ok (_, .directory) => .error .isDirectory
  | .ok (_, .file content) => .ok content

/-- The directory in which the last name of a path stands, and that name, if it is a name of its
own. -/
def lastName (t : FileTree) (r : Route) : Except IoError (List Text × Option Text) := do
  match r.names.getLast? with
  | none => .ok (← t.follow r.start [], none)
  | some name =>
    let place ← t.follow r.start r.names.dropLast
    if name == Path.up then .ok (← t.step place name, none)
    else
      match t.step place name with
      | .error .notFound =>
        if (t.node? place).isSome then .ok (place, some name) else .error .notFound
      | .error e => .error e
      | .ok _ => .ok (place, some name)

def writable (t : FileTree) (path : Text) : Except IoError (List Text) := do
  let r ← t.route path
  match ← t.lastName r with
  | (_, none) => .error .isDirectory
  | (place, some name) =>
    if r.directoryOnly then .error .isDirectory
    else if t.node? (place ++ [name]) = some .directory then .error .isDirectory
    else .ok (place ++ [name])

def write (t : FileTree) (path : Text) (content : ByteArray) : Except IoError Unit × FileTree :=
  match t.writable path with
  | .error e => (.error e, t)
  | .ok place => (.ok (), t.put place (.file content))

def isDirectory (t : FileTree) (path : Text) : Bool :=
  match t.resolve path with
  | .ok (_, .directory) => true
  | _ => false

def makeDirectory (t : FileTree) (path : Text) : Except IoError Unit × FileTree :=
  match t.route path >>= t.lastName with
  | .error e => (.error e, t)
  | .ok (_, none) => (.error .alreadyExists, t)
  | .ok (place, some name) =>
    if (t.node? (place ++ [name])).isSome then (.error .alreadyExists, t)
    else (.ok (), t.put (place ++ [name]) .directory)

def leadsSomewhere (t : FileTree) (path : Text) : Bool := (t.resolve path).isOk

instance : Files (StateM FileTree) where
  read path := do return (← get).read path
  write path content := modifyGet fun t => t.write path content
  makeDirectory path := modifyGet fun t => t.makeDirectory path
  isDirectory path := do return (← get).isDirectory path
  leadsSomewhere path := do return (← get).leadsSomewhere path

end FileTree
end PageCache
