import PageCache.Config.Tree
import PageCache.Json.Value
import PageCache.Unicode.Property

/-! Reading configuration values as truth values, numbers, texts, lists and sections. Values convert
where their meaning is plain: `on` is true, 1 is the text `1`, and so on. -/
namespace PageCache

inductive ConfigError where
  /-- A value of the wrong kind, at a key of a source. -/
  | wrongType (found expected key : Text) (source : Option Text)
  /-- A value in place of a list or a section. -/
  | wrongShape (found expected key : Text)
  /-- A file that cannot be read as its format. -/
  | malformed (source : Text)
  /-- A file that is missing or of no known format. -/
  | unavailable (description : Text)
  deriving DecidableEq, Repr

namespace ConfigError

def message : ConfigError → Text
  | wrongType found expected key source =>
    "invalid type: " ++ found ++ ", expected " ++ expected ++ " for key `" ++ key ++ "`" ++
      (match source with
      | some s => " in " ++ s
      | none => [])
  | wrongShape found expected key =>
    "invalid type: " ++ found ++ ", expected " ++ expected ++ " for key `" ++ key ++ "`"
  | malformed source => "malformed configuration file in " ++ source
  | unavailable description => description

/-- A step before the key of an error. -/
def underStep (step : Text) : ConfigError → ConfigError
  | wrongType found expected key source => wrongType found expected (extend key) source
  | wrongShape found expected key => wrongShape found expected (extend key)
  | e => e
where
  /-- The step and the key below it. -/
  extend (key : Text) : Text :=
    if key.isEmpty || key.head? == some '[' then step ++ key else step ++ "." ++ key

end ConfigError

namespace ConfigScalar

def boolText (b : Bool) : Text := if b then "true" else "false"

def description : ConfigScalar → Text
  | null => "unit value"
  | bool b => "boolean `" ++ boolText b ++ "`"
  | int n => "64-bit integer `" ++ Json.intText n ++ "`"
  | float x => "floating point `" ++ x.toText ++ "`"
  | text t => "string " ++ t.quoted

def shapeDescription : ConfigScalar → Text
  | int n => "integer `" ++ Json.intText n ++ "`"
  | float x => "floating point `" ++ x.toPointText ++ "`"
  | s => s.description

end ConfigScalar

namespace ConfigTree

/-- Reads a value; the key of an error is relative to it. -/
abbrev Reader (α : Type) := ConfigTree → Except ConfigError α

def source? : ConfigTree → Option Text
  | scalar source _ | list source _ | table source _ => source

def wrongType {α : Type} (v : ConfigTree) (expected : Text) : Except ConfigError α :=
  let found : Text := match v with
    | scalar _ s => s.description
    | list .. => "sequence"
    | table .. => "map"
  .error (.wrongType found expected [] v.source?)

def wrongShape {α : Type} (v : ConfigTree) (expected : Text) : Except ConfigError α :=
  let found : Text := match v with
    | scalar _ s => s.shapeDescription
    | list .. => "sequence"
    | table .. => "map"
  .error (.wrongShape found expected [])

def truth? (word : Text) : Option Bool :=
  if ["true", "on", "yes"].contains (String.ofList word) then some true
  else if ["false", "off", "no"].contains (String.ofList word) then some false
  else none

def flag : Reader Bool
  | scalar _ (.bool b) => .ok b
  | scalar _ (.int n) => .ok (n != 0)
  | scalar _ (.float x) => .ok (!x.isZero)
  | scalar source (.text t) =>
    let word := t.lower
    if word = ['1'] then .ok true
    else if word = ['0'] then .ok false
    else
      match truth? word with
      | some b => .ok b
      | none => wrongType (scalar source (.text word)) "a boolean"
  | v => wrongType v "a boolean"

def naturalLimit : Nat := UInt64.size - 1

/-- The number that decimal digits, after a plus sign if there is one, stand for. -/
def digits? (t : Text) : Option Nat :=
  let ds := match t with
    | '+' :: ds => ds
    | ds => ds
  let n := Digits.toNat 10 ds
  if ds.isEmpty || !ds.all Char.isDigit || n > naturalLimit then none else some n

def natural : Reader UInt64
  | scalar source (.int n) =>
    if n < 0 then wrongType (scalar source (.int n)) "an unsigned 64 bit or less integer"
    else .ok (.ofNat n.toNat)
  | scalar _ (.float x) => .ok (.ofNat (x.toNatUpTo naturalLimit))
  | scalar _ (.bool b) => .ok (if b then 1 else 0)
  | scalar source (.text t) =>
    match truth? t.lower with
    | some b => .ok (if b then 1 else 0)
    | none =>
      match digits? t with
      | some n => .ok (.ofNat n)
      | none => wrongType (scalar source (.text t)) "an integer"
  | v => wrongType v "an integer"

def text : Reader Text
  | scalar _ (.text t) => .ok t
  | scalar _ (.bool b) => .ok (ConfigScalar.boolText b)
  | scalar _ (.int n) => .ok (Json.intText n)
  | scalar _ (.float x) => .ok x.toText
  | v => wrongType v "a string"

def optional {α : Type} (read : Reader α) : Reader (Option α)
  | scalar _ .null => .ok none
  | v => (read v).map some

def under {α : Type} (step : Text) (read : Reader α) : Reader α := fun v =>
  (read v).mapError (·.underStep step)

def indexText (i : Nat) : Text := "[" ++ Text.ofNat i ++ "]"

def itemsFrom {α : Type} (read : Reader α) : Nat → List ConfigTree → Except ConfigError (List α)
  | _, [] => .ok []
  | i, v :: vs => do
    let a ← under (indexText i) read v
    let rest ← itemsFrom read (i + 1) vs
    .ok (a :: rest)

def listOf {α : Type} (read : Reader α) : Reader (List α)
  | list _ items => itemsFrom read 0 items
  | v => wrongShape v "a sequence"

/-- The values of a section by their names, each with the step that leads to it. -/
abbrev Section := List (Text × Text × ConfigTree)

/-- A section is a table, or a list with the values in the order of the names. -/
def sectionOf (name : Text) (names : List Text) : Reader Section
  | table _ entries => .ok (entries.map fun e => (e.1, e.1, e.2))
  | list _ items => .ok (names.zip ((List.range items.length).map indexText |>.zip items))
  | v => wrongShape v ("struct " ++ name)

namespace Section

def get? {α : Type} (s : Section) (name : Text) (read : Reader α) : Except ConfigError (Option α) :=
  match s.lookup name with
  | some (step, v) => under step (optional read) v
  | none => .ok none

def getD {α : Type} (s : Section) (name : Text) (read : Reader α) (default : α) :
    Except ConfigError α :=
  match s.lookup name with
  | some (step, v) => under step read v
  | none => .ok default

end Section

end ConfigTree
end PageCache
