import PageCache.Json.Value
import PageCache.Toml.Lexeme

/-! Configuration values from several sources in one tree. Tables merge key by key and everything
else is replaced; each value knows the source it comes from. -/
namespace PageCache

inductive ConfigScalar where
  | null
  | bool (b : Bool)
  | int (n : Int)
  | float (x : Binary64)
  | text (t : Text)
  deriving Repr

/-- A configuration value and its source; a table that sources share has none. -/
inductive ConfigTree where
  | scalar (source : Option Text) (s : ConfigScalar)
  | list (source : Option Text) (items : List ConfigTree)
  | table (source : Option Text) (entries : List (Text × ConfigTree))
  deriving Repr

/-- A step of a path into a tree. A negative index counts from the end of a list. -/
inductive ConfigStep where
  | key (k : Text)
  | index (i : Int)
  deriving DecidableEq, Repr

namespace ConfigTree

def empty : ConfigTree := table none []

def null : ConfigTree := scalar none .null

def isNull : ConfigTree → Bool
  | scalar _ .null => true
  | _ => false

mutual

def ofJson (source : Text) : Json → ConfigTree
  | .null => scalar source .null
  | .bool b => scalar source (.bool b)
  | .int n => scalar source (ofInt n)
  | .float x => scalar source (.float x)
  | .str t => scalar source (.text t)
  | .arr items => list source (ofJsonItems source items)
  | .obj members => table source (ofJsonMembers source members)
where
  /-- Whole numbers beyond 63 bits are kept as floating-point numbers. -/
  ofInt (n : Int) : ConfigScalar :=
    if n ≤ Int64.maxValue.toInt then .int n else .float (Binary64.ofRatio false n.toNat 1)

def ofJsonItems (source : Text) : List Json → List ConfigTree
  | [] => []
  | v :: vs => ofJson source v :: ofJsonItems source vs

def ofJsonMembers (source : Text) : List (Text × Json) → List (Text × ConfigTree)
  | [] => []
  | (k, v) :: rest => (k, ofJson source v) :: ofJsonMembers source rest

end

mutual

def ofToml (source : Text) : Toml → ConfigTree
  | .str t | .date t => scalar source (.text t)
  | .int n => scalar source (.int n)
  | .float x => scalar source (.float x)
  | .bool b => scalar source (.bool b)
  | .arr items => list source (ofTomlItems source items)
  | .table entries => table source (ofTomlEntries source entries)

def ofTomlItems (source : Text) : List Toml → List ConfigTree
  | [] => []
  | v :: vs => ofToml source v :: ofTomlItems source vs

def ofTomlEntries (source : Text) : List (Text × Toml) → List (Text × ConfigTree)
  | [] => []
  | (k, v) :: rest => (k, ofToml source v) :: ofTomlEntries source rest

end

def putEntry (entries : List (Text × ConfigTree)) (key : Text) (v : ConfigTree) :
    List (Text × ConfigTree) :=
  match entries with
  | [] => [(key, v)]
  | (k, old) :: rest => if k = key then (k, v) :: rest else (k, old) :: putEntry rest key v

/-- The list with nulls added, at the end or the beginning, so that the index exists; and the index
counted from the beginning. -/
def reach (items : List ConfigTree) (i : Int) : List ConfigTree × Nat :=
  if 0 ≤ i then (items ++ List.replicate (i.toNat + 1 - items.length) null, i.toNat)
  else
    let back := (-i).toNat
    (List.replicate (back - items.length) null ++ items, items.length - back)

/-- Changes the value at a path. Whatever stands in the way of the path is replaced. -/
def update (change : ConfigTree → ConfigTree) : List ConfigStep → ConfigTree → ConfigTree
  | [], t => change t
  | .key k :: path, t =>
    let (source, entries) := match t with
      | table source entries => (source, entries)
      | _ => (none, [])
    table source (putEntry entries k (update change path ((entries.lookup k).getD null)))
  | .index i :: path, t =>
    let (source, items) := match t with
      | list source items => (source, items)
      | _ => (none, [])
    let (items, place) := reach items i
    list source (items.modify place (update change path))

mutual

/-- The value that results when another one is put over it. -/
def merge (current : ConfigTree) : ConfigTree → ConfigTree
  | table _ entries => mergeEntries (if current.isNull then empty else current) entries
  | incoming => incoming

/-- Puts entries over a value, which becomes a table if there is any entry. -/
def mergeEntries (current : ConfigTree) : List (Text × ConfigTree) → ConfigTree
  | [] => current
  | (k, v) :: rest =>
    let child := match current with
      | table _ entries => (entries.lookup k).getD null
      | _ => null
    mergeEntries (update (fun _ => merge child v) [.key k] current) rest

end

end ConfigTree

namespace ConfigStep

def isNameChar (c : Char) : Bool := c.isAlphanum || c == '_' || c == '-'

def index? (cs : Text) : Option (Int × Text) :=
  let isGap (c : Char) : Bool := c == ' ' || c == '\t'
  let cs := cs.dropWhile isGap
  let negative := cs.head? == some '-'
  let cs := if negative then cs.drop 1 else cs
  let digits := cs.takeWhile Char.isDigit
  let n : Int := Digits.toNat 10 digits
  match (cs.drop digits.length).dropWhile isGap with
  | ']' :: rest =>
    if digits.isEmpty || n > Int64.maxValue.toInt then none else some (if negative then -n else n, rest)
  | _ => none

def more? : Nat → Text → Option (List ConfigStep)
  | 0, _ => none
  | fuel + 1, cs =>
    match cs with
    | [] => some []
    | '.' :: rest =>
      let name := rest.takeWhile isNameChar
      if name.isEmpty then none else (more? fuel (rest.drop name.length)).map (.key name :: ·)
    | '[' :: rest => do
      let (i, rest) ← index? rest
      return .index i :: (← more? fuel rest)
    | _ => none

/-- The path that a key of a source stands for: names separated by dots and indexes in brackets. A
key of another form is a single name. -/
def ofKey (key : Text) : List ConfigStep :=
  let name := key.takeWhile isNameChar
  let steps := if name.isEmpty then none else more? (key.length + 1) (key.drop name.length)
  match steps with
  | some steps => .key name :: steps
  | none => [.key key]

end ConfigStep

def ConfigTree.add (t : ConfigTree) (entries : List (Text × ConfigTree)) : ConfigTree :=
  entries.foldl (fun t e => t.update (fun current => current.merge e.2) (ConfigStep.ofKey e.1)) t

end PageCache
