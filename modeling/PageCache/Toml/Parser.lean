import PageCache.Toml.Lexeme

/-! Reading TOML documents. A table may be opened once by a header, after tables below it were
opened; a key is given one value; and dotted keys extend only tables that no header opened. -/
namespace PageCache.Toml

inductive TableOrigin where
  /-- By the header of a table below it. -/
  | implied
  | header
  | dotted
  deriving DecidableEq, Repr

inductive Entry where
  | value (v : Toml)
  | table (origin : TableOrigin) (entries : List (Text × Entry))
  /-- The tables of an array in reverse. -/
  | tables (items : List (List (Text × Entry)))

abbrev Entries := List (Text × Entry)

namespace Entries

def put (es : Entries) (key : Text) (e : Entry) : Entries :=
  match es with
  | [] => [(key, e)]
  | (k, old) :: rest => if k = key then (k, e) :: rest else (k, old) :: put rest key e

/-- Changes the table that a header's path leads to, through the last tables of arrays. Missing
tables are implied. -/
def within (change : Entries → Option Entries) (es : Entries) : List Text → Option Entries
  | [] => change es
  | key :: path =>
    match es.lookup key with
    | none => do some (put es key (.table .implied (← within change [] path)))
    | some (.table origin inner) => do
      some (put es key (.table origin (← within change inner path)))
    | some (.tables (last :: others)) => do
      some (put es key (.tables ((← within change last path) :: others)))
    | some _ => none

def openTable (es : Entries) (key : Text) : Option Entries :=
  match es.lookup key with
  | none => some (put es key (.table .header []))
  | some (.table .implied inner) => some (put es key (.table .header inner))
  | some _ => none

def addTable (es : Entries) (key : Text) : Option Entries :=
  match es.lookup key with
  | none => some (put es key (.tables [[]]))
  | some (.tables items) => some (put es key (.tables ([] :: items)))
  | some _ => none

def assign (v : Toml) (es : Entries) : List Text → Option Entries
  | [] => none
  | [key] => if (es.lookup key).isSome then none else some (put es key (.value v))
  | key :: path =>
    match es.lookup key with
    | none => do some (put es key (.table .dotted (← assign v [] path)))
    | some (.table .header _) => none
    | some (.table origin inner) => do some (put es key (.table origin (← assign v inner path)))
    | some _ => none

end Entries

mutual

def Entry.toToml : Entry → Toml
  | .value v => v
  | .table _ es => .table (entriesToToml es)
  | .tables items => .arr (tablesToToml items).reverse

def entriesToToml : List (Text × Entry) → List (Text × Toml)
  | [] => []
  | (k, e) :: rest => (k, e.toToml) :: entriesToToml rest

def tablesToToml : List (List (Text × Entry)) → List Toml
  | [] => []
  | es :: rest => .table (entriesToToml es) :: tablesToToml rest

end

mutual

def value? : Nat → Text → Option (Toml × Text)
  | 0, _ => none
  | fuel + 1, cs =>
    match cs with
    | '[' :: rest => items? fuel [] (skipAll rest)
    | '\x7b' :: rest => members? fuel [] (skipAll rest)
    | '"' :: _ | '\'' :: _ => (string? cs).map fun s => (.str s.1, s.2)
    | _ => scalar? cs

def items? : Nat → List Toml → Text → Option (Toml × Text)
  | 0, _, _ => none
  | fuel + 1, done, cs =>
    match cs with
    | ']' :: rest => some (.arr done.reverse, rest)
    | _ => do
      let (v, rest) ← value? fuel cs
      match skipAll rest with
      | ',' :: rest => items? fuel (v :: done) (skipAll rest)
      | ']' :: rest => some (.arr (v :: done).reverse, rest)
      | _ => none

def members? : Nat → Entries → Text → Option (Toml × Text)
  | 0, _, _ => none
  | fuel + 1, done, cs =>
    match cs with
    | '\x7d' :: rest => some (.table (entriesToToml done), rest)
    | _ => do
      let (path, rest) ← key? cs
      let '=' :: rest := skipBlanks rest | none
      let (v, rest) ← value? fuel (skipBlanks rest)
      let done ← done.assign v path
      match skipAll rest with
      | ',' :: rest => members? fuel done (skipAll rest)
      | '\x7d' :: rest => some (.table (entriesToToml done), rest)
      | _ => none

end

/-- The rest after the end of a line, or nothing at the end of the document. -/
def lineEnd? (cs : Text) : Option Text :=
  match skipComment (skipBlanks cs) with
  | [] => some []
  | cs => newline? cs

/-- The path of a header and whether it opens an array of tables, after its first bracket. -/
def header? (cs : Text) : Option (List Text × Bool × Text) :=
  match cs with
  | '[' :: cs => do
    let (path, rest) ← key? cs
    let ']' :: ']' :: rest := skipBlanks rest | none
    some (path, true, rest)
  | cs => do
    let (path, rest) ← key? cs
    let ']' :: rest := skipBlanks rest | none
    some (path, false, rest)

def lines? : Nat → Entries → List Text → Text → Option Entries
  | 0, _, _, _ => none
  | fuel + 1, es, current, cs =>
    match skipAll cs with
    | [] => some es
    | '[' :: cs => do
      let (path, isArray, rest) ← header? cs
      let key ← path.getLast?
      let change := fun es => if isArray then Entries.addTable es key else Entries.openTable es key
      let es ← es.within change path.dropLast
      lines? fuel es path (← lineEnd? rest)
    | cs => do
      let (path, rest) ← key? cs
      let '=' :: rest := skipBlanks rest | none
      let (v, rest) ← value? (rest.length + 1) (skipBlanks rest)
      let es ← es.within (fun es => es.assign v path) current
      lines? fuel es current (← lineEnd? rest)

def parse? (cs : Text) : Option (List (Text × Toml)) :=
  (lines? (cs.length + 1) [] [] cs).map entriesToToml

end PageCache.Toml
