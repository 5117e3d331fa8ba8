import PageCache.Number.Binary64

/-! JSON values and their text, on one line or over several lines indented by two blanks. The members of
an object keep their order. -/
namespace PageCache

/-- A JSON value; whole numbers and floating-point numbers are kept apart. -/
inductive Json where
  | null
  | bool (b : Bool)
  | int (n : Int)
  | float (x : Binary64)
  | str (t : Text)
  | arr (items : List Json)
  | obj (members : List (Text × Json))
  deriving Repr

namespace Json

def get? (v : Json) (key : Text) : Option Json :=
  match v with
  | obj members => members.lookup key
  | _ => none

def hexDigit (n : Nat) : Char := if n < 10 then Char.ofNat (48 + n) else Char.ofNat (87 + n)

def escapeChar (c : Char) : Text :=
  match c with
  | '"' => "\\\""
  | '\\' => "\\\\"
  | '\n' => "\\n"
  | '\r' => "\\r"
  | '\t' => "\\t"
  | '\x08' => "\\b"
  | '\x0c' => "\\f"
  | c =>
    if c.toNat < 0x20 then "\\u00" ++ [hexDigit (c.toNat / 16), hexDigit (c.toNat % 16)] else [c]

def quoted (t : Text) : Text := "\"" ++ t.flatMap escapeChar ++ "\""

def intText (n : Int) : Text := if n < 0 then '-' :: Text.ofNat n.natAbs else Text.ofNat n.natAbs

def scalar : Json → Text
  | bool b => if b then "true" else "false"
  | int n => intText n
  | float x => x.toPointText
  | str t => quoted t
  | _ => "null"

mutual

def compact : Json → Text
  | arr items => "[" ++ compactItems items ++ "]"
  | obj members => "\x7b" ++ compactMembers members ++ "\x7d"
  | v => scalar v

def compactItems : List Json → Text
  | [] => []
  | [v] => compact v
  | v :: vs => compact v ++ "," ++ compactItems vs

def compactMembers : List (Text × Json) → Text
  | [] => []
  | [(k, v)] => quoted k ++ ":" ++ compact v
  | (k, v) :: rest => quoted k ++ ":" ++ compact v ++ "," ++ compactMembers rest

end

def newLine (depth : Nat) : Text := '\n' :: List.replicate (2 * depth) ' '

mutual

def prettyAt (depth : Nat) : Json → Text
  | arr [] => "[]"
  | arr items => "[" ++ prettyItems (depth + 1) items ++ newLine depth ++ "]"
  | obj [] => "\x7b\x7d"
  | obj members => "\x7b" ++ prettyMembers (depth + 1) members ++ newLine depth ++ "\x7d"
  | v => scalar v

def prettyItems (depth : Nat) : List Json → Text
  | [] => []
  | [v] => newLine depth ++ prettyAt depth v
  | v :: vs => newLine depth ++ prettyAt depth v ++ "," ++ prettyItems depth vs

def prettyMembers (depth : Nat) : List (Text × Json) → Text
  | [] => []
  | [(k, v)] => newLine depth ++ quoted k ++ ": " ++ prettyAt depth v
  | (k, v) :: rest =>
    newLine depth ++ quoted k ++ ": " ++ prettyAt depth v ++ "," ++ prettyMembers depth rest

end

def pretty (v : Json) : Text := prettyAt 0 v

end Json
end PageCache
