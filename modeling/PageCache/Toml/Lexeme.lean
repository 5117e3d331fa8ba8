import PageCache.Number.Binary64

/-! TOML values and their lexemes: comments, keys, strings, numbers, dates and times. A reader takes
the text at hand and returns what it read with the rest. -/
namespace PageCache

/-- A TOML value; dates and times are kept in their normal written form. -/
inductive Toml where
  | str (t : Text)
  | int (n : Int)
  | float (x : Binary64)
  | bool (b : Bool)
  | date (t : Text)
  | arr (items : List Toml)
  | table (entries : List (Text × Toml))
  deriving Repr

namespace Toml

def isBlank (c : Char) : Bool := c == ' ' || c == '\t'

def skipBlanks (cs : Text) : Text := cs.dropWhile isBlank

/-- A character that may stand in comments and strings: no control character but the tab. -/
def isPlain (c : Char) : Bool := c == '\t' || (0x20 ≤ c.toNat && c.toNat != 0x7F)

def newline? : Text → Option Text
  | '\n' :: rest | '\r' :: '\n' :: rest => some rest
  | _ => none

/-- The rest after a comment, or the same text if there is none. -/
def skipComment : Text → Text
  | '#' :: rest => rest.dropWhile isPlain
  | cs => cs

def skipLines : Nat → Text → Text
  | 0, cs => cs
  | fuel + 1, cs =>
    let cs := skipComment (skipBlanks cs)
    match newline? cs with
    | some rest => skipLines fuel rest
    | none => cs

def skipAll (cs : Text) : Text := skipLines cs.length cs

def isBare (c : Char) : Bool := c.isAlphanum || c == '_' || c == '-'

/-- The character with a code of exactly so many hexadecimal digits. -/
def codePoint? (digits : Nat) (cs : Text) : Option (Char × Text) := do
  let ds ← (cs.take digits).mapM Digits.value?
  let n := ds.foldl (fun n d => 16 * n + d) 0
  if ds.length = digits ∧ n.isValidChar then some (Char.ofNat n, cs.drop digits) else none

def escape? : Text → Option (Char × Text)
  | 'b' :: rest => some ('\x08', rest)
  | 't' :: rest => some ('\t', rest)
  | 'n' :: rest => some ('\n', rest)
  | 'f' :: rest => some ('\x0c', rest)
  | 'r' :: rest => some ('\r', rest)
  | 'e' :: rest => some ('\x1b', rest)
  | '"' :: rest => some ('"', rest)
  | '\\' :: rest => some ('\\', rest)
  | 'x' :: rest => codePoint? 2 rest
  | 'u' :: rest => codePoint? 4 rest
  | 'U' :: rest => codePoint? 8 rest
  | _ => none

def basic? : Nat → Text → Text → Option (Text × Text)
  | 0, _, _ => none
  | fuel + 1, done, cs =>
    match cs with
    | '"' :: rest => some (done.reverse, rest)
    | '\\' :: rest => do
      let (c, rest) ← escape? rest
      basic? fuel (c :: done) rest
    | c :: rest => if isPlain c then basic? fuel (c :: done) rest else none
    | [] => none

def literal? (cs : Text) : Option (Text × Text) :=
  let body := cs.takeWhile fun c => isPlain c && c != '\''
  match cs.drop body.length with
  | '\'' :: rest => some (body, rest)
  | _ => none

/-- The first line break after three opening quotes does not belong to the string. -/
def skipFirstNewline (cs : Text) : Text := (newline? cs).getD cs

/-- The rest after a backslash at the end of a line: all blanks and line breaks are skipped. -/
def continuedLine? (cs : Text) : Option Text :=
  (newline? (skipBlanks cs)).map fun rest =>
    rest.dropWhile fun c => isBlank c || c == '\n' || c == '\r'

/-- A string over several lines. Three quotes close it, and up to two more belong to it. -/
def multiline? (quote : Char) (escapes : Bool) : Nat → Text → Text → Option (Text × Text)
  | 0, _, _ => none
  | fuel + 1, done, cs =>
    let run := (cs.takeWhile (· == quote)).length
    if run ≥ 3 then
      let quotes := Nat.min run 5
      some (done.reverse ++ List.replicate (quotes - 3) quote, cs.drop quotes)
    else if run > 0 then
      multiline? quote escapes fuel (List.replicate run quote ++ done) (cs.drop run)
    else
      match newline? cs with
      | some rest => multiline? quote escapes fuel ('\n' :: done) rest
      | none =>
        match cs with
        | [] => none
        | c :: rest =>
          if escapes && c == '\\' then
            match continuedLine? rest with
            | some rest => multiline? quote escapes fuel done rest
            | none => do
              let (c, rest) ← escape? rest
              multiline? quote escapes fuel (c :: done) rest
          else if isPlain c then multiline? quote escapes fuel (c :: done) rest
          else none

def string? (cs : Text) : Option (Text × Text) :=
  match cs with
  | '"' :: '"' :: '"' :: rest => multiline? '"' true (rest.length + 1) [] (skipFirstNewline rest)
  | '\'' :: '\'' :: '\'' :: rest =>
    multiline? '\'' false (rest.length + 1) [] (skipFirstNewline rest)
  | '"' :: rest => basic? (rest.length + 1) [] rest
  | '\'' :: rest => literal? rest
  | _ => none

def simpleKey? (cs : Text) : Option (Text × Text) :=
  match cs with
  | '"' :: rest => basic? (rest.length + 1) [] rest
  | '\'' :: rest => literal? rest
  | _ =>
    let name := cs.takeWhile isBare
    if name.isEmpty then none else some (name, cs.drop name.length)

def keyParts? : Nat → Text → Option (List Text × Text)
  | 0, _ => none
  | fuel + 1, cs => do
    let (part, rest) ← simpleKey? (skipBlanks cs)
    match skipBlanks rest with
    | '.' :: rest =>
      let (parts, rest) ← keyParts? fuel rest
      some (part :: parts, rest)
    | rest => some ([part], rest)

def key? (cs : Text) : Option (List Text × Text) := keyParts? (cs.length + 1) cs

/-- The digits of a number without underscores, which stand between two digits. -/
def plainDigits? (isDigit : Char → Bool) : Bool → Text → Option Text
  | afterDigit, [] => if afterDigit then some [] else none
  | afterDigit, c :: cs =>
    if c == '_' then if afterDigit then plainDigits? isDigit false cs else none
    else if isDigit c then (plainDigits? isDigit true cs).map (c :: ·)
    else none

def decimalDigits? (cs : Text) : Option Text := plainDigits? Char.isDigit false cs

/-- A number without leading zeros. -/
def wholeDigits? (cs : Text) : Option Text := do
  let ds ← decimalDigits? cs
  if ds.length > 1 && ds.head? == some '0' then none else some ds

/-- Splits off a sign: whether it is negative, and whether there is one. -/
def sign : Text → Bool × Bool × Text
  | '-' :: cs => (true, true, cs)
  | '+' :: cs => (false, true, cs)
  | cs => (false, false, cs)

def bounded (n : Int) : Option Toml :=
  if Int64.minValue.toInt ≤ n ∧ n ≤ Int64.maxValue.toInt then some (.int n) else none

def integer? (token : Text) : Option Toml :=
  match token with
  | '0' :: 'x' :: cs => do
    bounded (Digits.toNat 16 (← plainDigits? Digits.isHex false cs))
  | '0' :: 'o' :: cs => do
    bounded (Digits.toNat 8 (← plainDigits? (fun c => '0' ≤ c && c ≤ '7') false cs))
  | '0' :: 'b' :: cs => do
    bounded (Digits.toNat 2 (← plainDigits? (fun c => c == '0' || c == '1') false cs))
  | _ => do
    let (negative, _, cs) := sign token
    let n : Int := Digits.toNat 10 (← wholeDigits? cs)
    bounded (if negative then -n else n)

def exponent? (cs : Text) : Option Int := do
  let (negative, _, cs) := sign cs
  let n : Int := Digits.toNat 10 (← decimalDigits? cs)
  some (if negative then -n else n)

/-- A number with a fraction or an exponent, or a name for one that is not finite. -/
def float? (token : Text) : Option Toml := do
  let (negative, _, cs) := sign token
  if cs = ("inf" : Text) then some (.float (.infinite negative))
  else if cs = ("nan" : Text) then some (.float .nan)
  else
    let mantissa := cs.takeWhile fun c => c != 'e' && c != 'E'
    let power ← match cs.drop mantissa.length with
      | [] => some 0
      | _ :: cs => exponent? cs
    let whole := mantissa.takeWhile (· != '.')
    let ds ← wholeDigits? whole
    let fraction ← match mantissa.drop whole.length with
      | [] => some []
      | _ :: cs => decimalDigits? cs
    if mantissa.length = cs.length ∧ whole.length = mantissa.length then none
    else
      let significand := Digits.toNat 10 (ds ++ fraction)
      match Binary64.ofDecimal negative significand (power - fraction.length) with
      | .finite n m e => some (.float (.finite n m e))
      | _ => none

def fixedDigits? (count : Nat) (cs : Text) : Option (Nat × Text) :=
  let ds := cs.takeWhile Char.isDigit
  if ds.length ≥ count then some (Digits.toNat 10 (ds.take count), cs.drop count) else none

def daysInMonth (year month : Nat) : Nat :=
  if month == 2 then
    if year % 4 == 0 && (year % 100 != 0 || year % 400 == 0) then 29 else 28
  else if month == 4 || month == 6 || month == 9 || month == 11 then 30
  else 31

def day? (cs : Text) : Option (Text × Text) := do
  let (year, rest) ← fixedDigits? 4 cs
  let '-' :: rest := rest | none
  let (month, rest) ← fixedDigits? 2 rest
  let '-' :: rest := rest | none
  let (day, rest) ← fixedDigits? 2 rest
  if 1 ≤ month && month ≤ 12 && 1 ≤ day && day ≤ daysInMonth year month then
    some (cs.take 10, rest)
  else none

/-- Nine digits at most of the fraction of a second, without zeros at the end. -/
def fractionText (ds : Text) : Text :=
  let kept := Text.trimEnd (ds.take 9) (· == '0')
  "." ++ if kept.isEmpty then ['0'] else kept

/-- A time of day and the rest; seconds may be left out. -/
def time? (cs : Text) : Option (Text × Text) := do
  let (hour, rest) ← fixedDigits? 2 cs
  let ':' :: rest := rest | none
  let (minute, rest) ← fixedDigits? 2 rest
  if hour > 23 || minute > 59 then none
  else
    match rest with
    | ':' :: rest =>
      let (second, rest) ← fixedDigits? 2 rest
      if second > 60 then none
      else
        match rest with
        | '.' :: rest =>
          let ds := rest.takeWhile Char.isDigit
          if ds.isEmpty then none
          else some (cs.take 8 ++ fractionText ds, rest.drop ds.length)
        | rest => some (cs.take 8, rest)
    | rest => some (cs.take 5, rest)

/-- The offset of a time zone, which is all that is left. -/
def offset? (cs : Text) : Option Text :=
  match cs with
  | [] => some []
  | ['Z'] | ['z'] => some "Z"
  | s :: rest =>
    if s == '+' || s == '-' then do
      let (hour, tail) ← fixedDigits? 2 rest
      let ':' :: tail := tail | none
      let (minute, tail) ← fixedDigits? 2 tail
      if hour > 23 || minute > 59 || !tail.isEmpty then none
      else some ((if hour == 0 && minute == 0 then '+' else s) :: rest)
    else none

def date? (token : Text) : Option Toml :=
  match day? token with
  | some (day, []) => some (.date day)
  | some (day, separator :: rest) => do
    guard (separator == 'T' || separator == 't' || separator == ' ')
    let (time, rest) ← time? rest
    let offset ← offset? rest
    some (.date (day ++ "T" ++ time ++ offset))
  | none =>
    match time? token with
    | some (time, []) => some (.date time)
    | _ => none

def isTokenChar (c : Char) : Bool := isBare c || c == '+' || c == '.' || c == ':'

/-- The characters of a value that is no string; a blank may stand between a day and a time. -/
def token (cs : Text) : Text × Text :=
  let first := cs.takeWhile isTokenChar
  match day? first, cs.drop first.length with
  | some (_, []), ' ' :: c :: rest =>
    if c.isDigit then
      let second := (c :: rest).takeWhile isTokenChar
      (first ++ ' ' :: second, (c :: rest).drop second.length)
    else (first, ' ' :: c :: rest)
  | _, rest => (first, rest)

def scalar? (cs : Text) : Option (Toml × Text) :=
  let (t, rest) := token cs
  let value :=
    if t = ("true" : Text) then some (.bool true)
    else if t = ("false" : Text) then some (.bool false)
    else integer? t <|> float? t <|> date? t
  value.map fun v => (v, rest)

end Toml
end PageCache
