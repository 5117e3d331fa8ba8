import PageCache.Text

/-! Writing TOML: strings in the plainest form that holds them, arrays with one item a line, and
lines of keys and values. -/
namespace PageCache.Toml.Printer

/-- A control character that no form but an escape can hold; tabs and line breaks are none. -/
def isControl (c : Char) : Bool := (c.toNat < 0x20 && c != '\t' && c != '\n') || c == '\x7f'

/-- The length of the longest run of a character; `current` of them come before. -/
def longestRun (c : Char) : Nat → Text → Nat
  | _, [] => 0
  | current, d :: t => if d == c then max (current + 1) (longestRun c (current + 1) t)
    else longestRun c 0 t

/-- The escape of a character, if it needs one in a string in double quotes. -/
def escape? (c : Char) : Option Text :=
  match c with
  | '\x08' => some "\\b"
  | '\t' => some "\\t"
  | '\x0c' => some "\\f"
  | '\r' => some "\\r"
  | '\\' => some "\\\\"
  | c =>
    if c.toNat < 0x20 || c == '\x7f' then
      some ("\\u00" ++ [(Nat.digitChar (c.toNat / 16)).toUpper,
        (Nat.digitChar (c.toNat % 16)).toUpper])
    else none

def lineContent (t : Text) : Text :=
  t.flatMap fun c =>
    if c == '"' then ("\\\"" : Text) else if c == '\n' then ("\\n" : Text) else (escape? c).getD [c]

/-- The content of a string over several lines: at most two quotes in a row stand without an
escape. -/
def multilineContent : Nat → Text → Text
  | _, [] => []
  | quotes, c :: t =>
    if c == '"' then
      if quotes < 2 then c :: multilineContent (quotes + 1) t
      else "\\\"" ++ multilineContent 0 t
    else if c == '\n' then c :: multilineContent 0 t
    else (escape? c).getD [c] ++ multilineContent 0 t

/-- A string between two delimiters; one that holds a line break starts on a new line. -/
def between (delimiter content : Text) (breaks : Bool) : Text :=
  delimiter ++ (if breaks then ['\n'] else []) ++ content ++ delimiter

def string (t : Text) : Text :=
  let controls := t.any isControl
  let breaks := t.elem '\n'
  let backslashes := t.elem '\\'
  if !controls && !backslashes && !t.elem '"' && !breaks then
    between ['"'] (lineContent t) false
  else if !controls && !t.elem '\'' && !breaks then between ['\''] t false
  else if !controls && !backslashes && longestRun '"' 0 t ≤ 2 then
    between "\"\"\"" (multilineContent 0 t) breaks
  else if !controls && longestRun '\'' 0 t ≤ 2 then between "'''" t breaks
  else if breaks then between "\"\"\"" (multilineContent 0 t) true
  else between ['"'] (lineContent t) false

/-- An array; two items or more stand on lines of their own. -/
def array (items : List Text) : Text :=
  match items with
  | [] => "[]"
  | [item] => "[" ++ item ++ "]"
  | items => "[\n" ++ items.flatMap (fun item => "    " ++ item ++ ",\n" : Text → Text) ++ "]"

def bool (b : Bool) : Text := if b then "true" else "false"

def line (key value : Text) : Text := key ++ " = " ++ value ++ "\n"

def textArray (ts : List Text) : Text := array (ts.map string)

def textLine? (key : Text) (value : Option Text) : Text :=
  match value with
  | some t => line key (string t)
  | none => []

end PageCache.Toml.Printer
