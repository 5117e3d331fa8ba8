import PageCache.Json.Value

/-! Reading JSON. Whole numbers that fit in 64 bits are exact; others, and a negative zero, are
floating-point numbers. Values nest at most 127 deep. -/
namespace PageCache.Json.Parser

def isBlank (c : Char) : Bool := c == ' ' || c == '\n' || c == '\t' || c == '\r'

def skip (cs : Text) : Text := cs.dropWhile isBlank

/-- The code unit written with four hexadecimal digits. -/
def codeUnit? : Text → Option (Nat × Text)
  | a :: b :: c :: d :: rest => do
    let a ← Digits.value? a
    let b ← Digits.value? b
    let c ← Digits.value? c
    let d ← Digits.value? d
    some (4096 * a + 256 * b + 16 * c + d, rest)
  | _ => none

/-- The character after a backslash and a `u`, where two code units may form one character. -/
def unicodeEscape? (cs : Text) : Option (Char × Text) := do
  let (u, rest) ← codeUnit? cs
  if 0xDC00 ≤ u ∧ u < 0xE000 then none
  else if 0xD800 ≤ u ∧ u < 0xDC00 then
    match rest with
    | '\\' :: 'u' :: rest =>
      let (v, rest) ← codeUnit? rest
      if 0xDC00 ≤ v ∧ v < 0xE000 then
        some (Char.ofNat (0x10000 + (u - 0xD800) * 1024 + (v - 0xDC00)), rest)
      else none
    | _ => none
  else some (Char.ofNat u, rest)

/-- The content of a string after its opening quote. -/
def string? : Nat → Text → Text → Option (Text × Text)
  | 0, _, _ => none
  | fuel + 1, acc, cs =>
    match cs with
    | [] => none
    | '"' :: rest => some (acc.reverse, rest)
    | '\\' :: e :: rest =>
      match e with
      | '"' => string? fuel ('"' :: acc) rest
      | '\\' => string? fuel ('\\' :: acc) rest
      | '/' => string? fuel ('/' :: acc) rest
      | 'b' => string? fuel ('\x08' :: acc) rest
      | 'f' => string? fuel ('\x0c' :: acc) rest
      | 'n' => string? fuel ('\n' :: acc) rest
      | 'r' => string? fuel ('\r' :: acc) rest
      | 't' => string? fuel ('\t' :: acc) rest
      | 'u' => do
        let (c, rest) ← unicodeEscape? rest
        string? fuel (c :: acc) rest
      | _ => none
    | c :: rest => if c == '\\' || c.toNat < 0x20 then none else string? fuel (c :: acc) rest

/-- The longest digits whose value fits in 64 bits, as a value, and the rest of the digits. -/
def boundedValue : Nat → Text → Nat × Text
  | n, [] => (n, [])
  | n, c :: cs =>
    let m := 10 * n + (c.toNat - 48)
    if m < UInt64.size then boundedValue m cs else (n, c :: cs)

def powerOfTen (n : Nat) : Binary64 := .ofDecimal false 1 n

/-- A significand times a power of ten, each rounded, with the product rounded again; `none` beyond
the range. -/
def scaled? (negative : Bool) (significand : Nat) (exponent : Int) : Option Binary64 :=
  let s := Binary64.ofRatio negative significand 1
  if exponent ≤ -309 then
    let s := s.div (powerOfTen 308)
    let e := (-exponent).toNat - 308
    some (if e ≤ 308 then s.div (powerOfTen e) else .zero negative)
  else if exponent < 0 then some (s.div (powerOfTen (-exponent).toNat))
  else if exponent ≤ 308 then
    let x := s.mul (powerOfTen exponent.toNat)
    if x.isInfinite then none else some x
  else if significand == 0 then some s
  else none

/-- A number: an integer part without leading zeros, then a fraction and an exponent if given. -/
def number? (cs : Text) : Option (Json × Text) := do
  let negative := cs.head? == some '-'
  let cs := if negative then cs.drop 1 else cs
  let whole := cs.takeWhile Char.isDigit
  let rest := cs.dropWhile Char.isDigit
  if whole.isEmpty || (whole.head? == some '0' && whole.length > 1) then none
  else
    let (fraction, rest, isPoint) ← (match rest with
      | '.' :: r =>
        let ds := r.takeWhile Char.isDigit
        if ds.isEmpty then none else some (ds, r.dropWhile Char.isDigit, true)
      | r => some ([], r, false) : Option (Text × Text × Bool))
    let (power, rest, isExponent) ← (match rest with
      | 'e' :: r | 'E' :: r =>
        let sign := r.head?
        let r := if sign == some '+' || sign == some '-' then r.drop 1 else r
        let ds := r.takeWhile Char.isDigit
        if ds.isEmpty then none
        else
          let n : Int := Digits.toNat 10 ds
          some (if sign == some '-' then -n else n, r.dropWhile Char.isDigit, true)
      | r => some (0, r, false) : Option (Int × Text × Bool))
    let value := Digits.toNat 10 whole
    if !isPoint && !isExponent then
      if !negative && value < UInt64.size then some (.int value, rest)
      else if negative && 0 < value && 2 * value ≤ UInt64.size then some (.int (-value), rest)
      else do
        let (s, dropped) := boundedValue 0 whole
        some (.float (← scaled? negative s dropped.length), rest)
    else do
      let (s, dropped) := boundedValue 0 whole
      let (s, exponent) : Nat × Int :=
        if dropped.isEmpty then
          let (t, unread) := boundedValue s fraction
          (t, (unread.length : Int) - fraction.length)
        else (s, dropped.length)
      some (.float (← scaled? negative s (exponent + power)), rest)

def insert (members : List (Text × Json)) (key : Text) (value : Json) : List (Text × Json) :=
  match members with
  | [] => [(key, value)]
  | (k, v) :: rest => if k = key then (k, value) :: rest else (k, v) :: insert rest key value

mutual

/-- A value after blanks; `depth` more levels may open. -/
def value? : Nat → Nat → Text → Option (Json × Text)
  | 0, _, _ => none
  | fuel + 1, depth, cs =>
    match skip cs with
    | [] => none
    | 'n' :: 'u' :: 'l' :: 'l' :: rest => some (.null, rest)
    | 't' :: 'r' :: 'u' :: 'e' :: rest => some (.bool true, rest)
    | 'f' :: 'a' :: 'l' :: 's' :: 'e' :: rest => some (.bool false, rest)
    | '"' :: rest => do
      let (t, rest) ← string? fuel [] rest
      some (.str t, rest)
    | '[' :: rest =>
      match depth with
      | 0 => none
      | depth + 1 =>
        match skip rest with
        | ']' :: rest => some (.arr [], rest)
        | rest => items? fuel depth [] rest
    | '\x7b' :: rest =>
      match depth with
      | 0 => none
      | depth + 1 =>
        match skip rest with
        | '\x7d' :: rest => some (.obj [], rest)
        | rest => members? fuel depth [] rest
    | rest => number? rest

def items? : Nat → Nat → List Json → Text → Option (Json × Text)
  | 0, _, _, _ => none
  | fuel + 1, depth, acc, cs => do
    let (v, rest) ← value? fuel depth cs
    match skip rest with
    | ',' :: rest => items? fuel depth (v :: acc) rest
    | ']' :: rest => some (.arr (v :: acc).reverse, rest)
    | _ => none

def members? : Nat → Nat → List (Text × Json) → Text → Option (Json × Text)
  | 0, _, _, _ => none
  | fuel + 1, depth, acc, cs =>
    match skip cs with
    | '"' :: rest => do
      let (key, rest) ← string? fuel [] rest
      match skip rest with
      | ':' :: rest =>
        let (v, rest) ← value? fuel depth rest
        match skip rest with
        | ',' :: rest => members? fuel depth (insert acc key v) rest
        | '\x7d' :: rest => some (.obj (insert acc key v), rest)
        | _ => none
      | _ => none
    | _ => none

end

end Parser

/-- Reads a whole text as one value. Of a key that is given twice the last value counts. -/
def parse? (cs : Text) : Option Json :=
  match Parser.value? (2 * cs.length + 1) 127 cs with
  | some (v, rest) => if (Parser.skip rest).isEmpty then some v else none
  | none => none

end PageCache.Json
