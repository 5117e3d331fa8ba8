import PageCache.Pattern.Syntax

/-! Reading regular expressions. Flags hold to the end of the group in which they are set, also
across a bar. A text that is no regular expression reads as `none`; so does one that could match
part of a character, and one whose nesting is too deep. -/
namespace PageCache.Pattern

open Unicode (CharProperty CharRun)

structure Flags where
  ignoreCase : Bool
  multiLine : Bool := false
  dotAll : Bool := false
  swapGreed : Bool := false
  unicode : Bool := true
  crlf : Bool := false
  verbose : Bool := false
  deriving DecidableEq, Repr

/-- Part of an expression while its neighbours are read: what it matches, how deep it nests, and
whether a repetition may follow. -/
structure Item where
  expr : Expr
  depth : Nat
  repeatable : Bool := true

namespace Item

/-- The items of a branch, the last one first, as one item. -/
def concat : List Item → Item
  | [] => { expr := .empty, depth := 0 }
  | [i] => i
  | i :: is =>
    { expr := is.foldl (fun e j => .seq j.expr e) i.expr
      depth := is.foldl (fun d j => Nat.max d j.depth) i.depth + 1 }

/-- The branches of an alternation, the last one first, as one item. -/
def alternate : List Item → Item
  | [] => { expr := .empty, depth := 0 }
  | [i] => i
  | i :: is =>
    { expr := is.foldl (fun e j => .alt j.expr e) i.expr
      depth := is.foldl (fun d j => Nat.max d j.depth) i.depth + 1 }

end Item

namespace Parser

/-- Skips blanks and comments; `comment` holds inside a comment. -/
def skipBlanks (comment : Bool) : Text → Text
  | [] => []
  | c :: cs =>
    if comment then skipBlanks (c != '\n') cs
    else if c == '#' then skipBlanks true cs
    else if Text.isSpace c then skipBlanks false cs
    else c :: cs

def skip (flags : Flags) (cs : Text) : Text :=
  if flags.verbose then skipBlanks false cs else cs

inductive Escape where
  /-- A character, and whether it was written as two hexadecimal digits. -/
  | char (c : Char) (byteSized : Bool)
  | cls (a : CharClass)
  | look (l : Look)

def isMeta (c : Char) : Bool := "\\.+*?()|[]\x7b\x7d^$#&-~".toList.contains c

/-- Punctuation that may be escaped without need. -/
def isEscapable (c : Char) : Bool :=
  isMeta c || (c.toNat < 128 && !c.isAlphanum && c != '<' && c != '>')

def charOfNat? (n : Nat) : Option Char :=
  if n.isValidChar then some (Char.ofNat n) else none

def readHexDigits (flags : Flags) : Nat → Text → Text → Option (Text × Text)
  | 0, acc, cs => some (acc.reverse, cs)
  | n + 1, acc, c :: cs =>
    if Digits.isHex c then
      readHexDigits flags n (c :: acc) (skip flags cs)
    else none
  | _ + 1, _, [] => none

def readHexBrace (flags : Flags) : Nat → Text → Text → Option (Text × Text)
  | 0, _, _ => none
  | _ + 1, _, [] => none
  | n + 1, acc, c :: cs =>
    if c == '\x7d' then if acc.isEmpty then none else some (acc.reverse, skip flags cs)
    else if Digits.isHex c then
      readHexBrace flags n (c :: acc) (skip flags cs)
    else none

def readHex (flags : Flags) (count : Nat) (byteSized : Bool) (cs : Text) :
    Option (Escape × Text) :=
  match skip flags cs with
  | [] => none
  | c :: rest =>
    if c == '\x7b' then do
      let (digits, rest) ← readHexBrace flags (rest.length + 1) [] (skip flags rest)
      let char ← charOfNat? (Digits.toNat 16 digits)
      return (.char char false, rest)
    else do
      let (digits, rest) ← readHexDigits flags count [] (c :: rest)
      let char ← charOfNat? (Digits.toNat 16 digits)
      return (.char char byteSized, rest)

/-- The text up to a closing brace and the text after it. -/
def readName (flags : Flags) : Nat → Text → Text → Option (Text × Text)
  | 0, _, _ => none
  | _ + 1, _, [] => none
  | n + 1, acc, c :: cs =>
    if c == '\x7d' then some (acc.reverse, cs)
    else readName flags n (c :: acc) (skip flags cs)

/-- A property as named between braces. A value follows its name after `!=`, `:` or `=`, which
mean the same. -/
def namedProperty? (name : Text) : Option CharProperty :=
  match Text.splitFirst? name "!=" with
  | some (p, v) => Unicode.propertyValue? p v
  | none =>
    match Text.splitFirst? name ":" with
    | some (p, v) => Unicode.propertyValue? p v
    | none =>
      match Text.splitFirst? name "=" with
      | some (p, v) => Unicode.propertyValue? p v
      | none => Unicode.property? name

/-- Closes a class under letter case where the flags ask for it. -/
def caseClosed (flags : Flags) (a : CharClass) : CharClass :=
  if flags.ignoreCase then if flags.unicode then .fold a else .foldAscii a else a

/-- A Unicode property; its complement is taken after the closure under letter case. -/
def readProperty (flags : Flags) (negated : Bool) (cs : Text) : Option (Escape × Text) :=
  if !flags.unicode then none
  else do
    let (p, rest) ←
      match skip flags cs with
      | [] => none
      | c :: rest =>
        if c == '\x7b' then do
          let (name, rest) ← readName flags (rest.length + 1) [] (skip flags rest)
          some (← namedProperty? name, rest)
        else if c == '\\' then none
        else do some (← Unicode.property? [c], skip flags rest)
    let a := caseClosed flags (.property p)
    return (.cls (if negated then .compl a else a), rest)

def asciiDigit : CharClass := .range '0' '9'

def asciiSpace : CharClass := .union (.range '\t' '\r') (.single ' ')

def asciiWord : CharClass :=
  .unions [.range 'a' 'z', .range 'A' 'Z', .range '0' '9', .single '_']

/-- Digits, blanks and word characters; without Unicode their complements could match part of a
character. -/
def shorthand (flags : Flags) (negated : Bool) (full ascii : CharClass) : Option Escape :=
  if flags.unicode then some (.cls (if negated then .compl full else full))
  else if negated then none
  else some (.cls ascii)

/-- The name of a word edge between braces. Blanks may stand between its letters under `x`. -/
def readEdgeName (flags : Flags) : Nat → Text → Text → Option (Text × Text)
  | 0, _, _ => none
  | n + 1, acc, cs =>
    match cs with
    | [] => none
    | c :: r =>
      if c.isAlpha || c == '-' then readEdgeName flags n (c :: acc) (skip flags r)
      else if c == '\x7d' then some (acc.reverse, r)
      else none

/-- A word boundary, perhaps with the name of a kind of edge. -/
def readBoundary (flags : Flags) (cs : Text) : Option (Escape × Text) :=
  let plain := some (Escape.look (.word .boundary flags.unicode), cs)
  match cs with
  | '\x7b' :: r =>
    match skip flags r with
    | [] => none
    | c :: s =>
      if !(c.isAlpha || c == '-') then plain
      else do
        let (name, rest) ← readEdgeName flags (s.length + 2) [] (c :: s)
        let edge ←
          match String.ofList name with
          | "start" => some WordEdge.start
          | "end" => some WordEdge.finish
          | "start-half" => some WordEdge.startHalf
          | "end-half" => some WordEdge.finishHalf
          | _ => none
        return (.look (.word edge flags.unicode), rest)
  | _ => plain

def readEscape (flags : Flags) : Text → Option (Escape × Text)
  | [] => none
  | c :: cs =>
    let char (d : Char) : Option (Escape × Text) := some (.char d false, cs)
    let look (l : Look) : Option (Escape × Text) := some (.look l, cs)
    let cls (negated : Bool) (full ascii : CharClass) : Option (Escape × Text) :=
      (shorthand flags negated full ascii).map (·, cs)
    match c with
    | 'x' => readHex flags 2 true cs
    | 'u' => readHex flags 4 false cs
    | 'U' => readHex flags 8 false cs
    | 'p' => readProperty flags false cs
    | 'P' => readProperty flags true cs
    | 'd' => cls false .digit asciiDigit
    | 'D' => cls true .digit asciiDigit
    | 's' => cls false .space asciiSpace
    | 'S' => cls true .space asciiSpace
    | 'w' => cls false .word asciiWord
    | 'W' => cls true .word asciiWord
    | 'a' => char '\x07'
    | 'f' => char '\x0c'
    | 't' => char '\t'
    | 'n' => char '\n'
    | 'r' => char '\r'
    | 'v' => char '\x0b'
    | 'A' => look .textStart
    | 'z' => look .textEnd
    | 'b' => readBoundary flags cs
    | 'B' => look (.word .noBoundary flags.unicode)
    | '<' => look (.word .start flags.unicode)
    | '>' => look (.word .finish flags.unicode)
    | _ => if isEscapable c then char c else none

/-- Without Unicode, a character written as two hexadecimal digits is a byte, and a byte outside
ASCII is no character. -/
def isWholeChar (flags : Flags) (c : Char) (byteSized : Bool) : Bool :=
  flags.unicode || !byteSized || c.toNat < 128

def asciiClass? (name : Text) : Option CharClass :=
  let upper := CharClass.range 'A' 'Z'
  let lower := CharClass.range 'a' 'z'
  match String.ofList name with
  | "alnum" => some (.unions [asciiDigit, upper, lower])
  | "alpha" => some (.union upper lower)
  | "ascii" => some (.range '\x00' '\x7f')
  | "blank" => some (.union (.single '\t') (.single ' '))
  | "cntrl" => some (.union (.range '\x00' '\x1f') (.single '\x7f'))
  | "digit" => some asciiDigit
  | "graph" => some (.range '!' '~')
  | "lower" => some lower
  | "print" => some (.range ' ' '~')
  | "punct" => some (.unions [.range '!' '/', .range ':' '@', .range '[' '`', .range '\x7b' '~'])
  | "space" => some asciiSpace
  | "upper" => some upper
  | "word" => some asciiWord
  | "xdigit" => some (.unions [asciiDigit, .range 'A' 'F', .range 'a' 'f'])
  | _ => none

/-- An ASCII class such as `:alpha:]` after its opening bracket: its name, whether its complement
is meant, and the text after it. -/
def readAsciiClass (cs : Text) : Option (CharClass × Bool × Text) :=
  match cs with
  | ':' :: r =>
    let negated := r.head? == some '^'
    let r := if negated then r.drop 1 else r
    match r.dropWhile (· != ':') with
    | ':' :: ']' :: rest => (asciiClass? (r.takeWhile (· != ':'))).map fun a => (a, negated, rest)
    | _ => none
  | _ => none

def readMember (flags : Flags) : Text → Option (Escape × Text)
  | [] => none
  | '\\' :: cs => readEscape flags cs
  | c :: cs => some (.char c false, cs)

/-- A character of a class; without Unicode only ASCII is allowed. -/
def memberChar? (flags : Flags) : Escape → Option Char
  | .char c _ => if flags.unicode || c.toNat < 128 then some c else none
  | _ => none

def readRange (flags : Flags) (cs : Text) : Option (CharClass × Text) := do
  let (first, rest) ← readMember flags cs
  let alone : Option (CharClass × Text) :=
    let rest := skip flags rest
    match first with
    | .cls a => some (caseClosed flags a, rest)
    | e => (memberChar? flags e).map fun c => (caseClosed flags (.single c), rest)
  match skip flags rest with
  | [] => none
  | '-' :: r =>
    match skip flags r with
    | ']' :: _ | '-' :: _ => alone
    | [] => none
    | _ =>
      let (last, rest) ← readMember flags (skip flags r)
      let lo ← memberChar? flags first
      let hi ← memberChar? flags last
      if lo ≤ hi then some (caseClosed flags (.range lo hi), rest) else none
  | _ => alone

/-- Set operations between the operands of a bracketed class. -/
inductive SetOp where
  | inter
  | diff
  | symmDiff

def SetOp.apply : SetOp → CharClass → CharClass → CharClass
  | inter => .inter
  | diff => .diff
  | symmDiff => .symmDiff

/-- The members of an operand read so far, the last one first, with the nesting depth of each. -/
abbrev Operand := List (CharClass × Nat)

def Operand.close : Operand → CharClass × Nat
  | [] => (.unions [], 0)
  | [m] => m
  | ms => (.unions (ms.reverse.map (·.1)), (ms.map (·.2)).foldl Nat.max 0 + 1)

/-- The left operand and its operator, applied to a right operand. -/
def combine (left : Option (CharClass × Nat × SetOp)) (right : CharClass × Nat) :
    CharClass × Nat :=
  match left with
  | none => right
  | some (a, d, op) => (op.apply a right.1, Nat.max d right.2 + 1)

/-- The hyphens, or else the bracket, that stand for themselves at the start of a class. -/
def leadingMembers (flags : Flags) : Nat → Operand → Text → Option (Operand × Text)
  | 0, _, _ => none
  | _ + 1, _, [] => none
  | n + 1, ms, c :: cs =>
    if c == '-' then leadingMembers flags n ((.single '-', 0) :: ms) (skip flags cs)
    else if c == ']' && ms.isEmpty then
      match skip flags cs with
      | [] => none
      | rest => some ([(.single ']', 0)], rest)
    else some (ms, c :: cs)

/-- A bracketed class after its opening bracket, with its nesting depth. -/
def readClass (flags : Flags) : Nat → Text → Option (CharClass × Nat × Text)
  | 0, _ => none
  | fuel + 1, cs => do
    let cs := skip flags cs
    let negated := cs.head? == some '^'
    let cs := if negated then skip flags (cs.drop 1) else cs
    let (members, cs) ← leadingMembers flags (cs.length + 1) [] cs
    let ((a, depth), rest) ← members? fuel none members cs
    if negated then if flags.unicode then some (.compl a, depth + 1, rest) else none
    else some (a, depth + 1, rest)
where
  /-- Members and operators up to the closing bracket. -/
  @[simp]
  members? : Nat → Option (CharClass × Nat × SetOp) → Operand → Text →
      Option ((CharClass × Nat) × Text)
    | 0, _, _, _ => none
    | fuel + 1, left, members, cs =>
      let operator (op : SetOp) (rest : Text) :=
        let (a, d) := combine left members.close
        members? fuel (some (a, d, op)) [] rest
      match skip flags cs with
      | [] => none
      | ']' :: rest => some (combine left members.close, rest)
      | '&' :: '&' :: rest => operator .inter rest
      | '-' :: '-' :: rest => operator .diff rest
      | '~' :: '~' :: rest => operator .symmDiff rest
      | '[' :: rest =>
        match readAsciiClass rest with
        | some (a, negated, rest) =>
          if negated && !flags.unicode then none
          else
            let a := caseClosed flags a
            members? fuel left ((if negated then .compl a else a, 0) :: members) rest
        | none => do
          let (a, depth, rest) ← readClass flags fuel rest
          members? fuel left ((a, depth) :: members) rest
      | rest => do
        let (a, rest) ← readRange flags rest
        members? fuel left ((a, 0) :: members) rest

def readDecimal (flags : Flags) (cs : Text) : Option (Nat × Text) :=
  digits (cs.length + 1) none (cs.dropWhile Text.isSpace)
where
  digits : Nat → Option Nat → Text → Option (Nat × Text)
    | 0, _, _ => none
    | fuel + 1, n?, cs =>
      match cs with
      | c :: r =>
        if c.isDigit then digits fuel (some (10 * n?.getD 0 + (c.toNat - '0'.toNat))) (skip flags r)
        else finish n? cs
      | [] => finish n? cs
  finish (n? : Option Nat) (cs : Text) : Option (Nat × Text) :=
    n?.bind fun n => if n < UInt32.size then some (n, skip flags (cs.dropWhile Text.isSpace)) else none

/-- The bounds of a counted repetition after its opening brace. -/
def readBounds (flags : Flags) (cs : Text) : Option (Nat × Option Nat × Text) := do
  let (min, rest) ← readDecimal flags (skip flags cs)
  match rest with
  | '\x7d' :: rest => some (min, some min, rest)
  | ',' :: rest =>
    match skip flags rest with
    | '\x7d' :: rest => some (min, none, rest)
    | rest => do
      let (max, rest) ← readDecimal flags rest
      match rest with
      | '\x7d' :: rest => if min ≤ max then some (min, some max, rest) else none
      | _ => none
  | _ => none

/-- The repetition of the last item, and whether a question mark inverts its greed. -/
def repeatLast (flags : Flags) (items : List Item) (min : Nat) (max : Option Nat) (cs : Text) :
    Option (List Item × Text) :=
  match items with
  | [] => none
  | i :: is =>
    if i.repeatable then
      let lazily := cs.head? == some '?'
      let greedy := flags.swapGreed == lazily
      some ({ expr := .rep i.expr min max greedy, depth := i.depth + 1 } :: is,
        if lazily then cs.drop 1 else cs)
    else none

def setFlag (flags : Flags) (value : Bool) : Char → Option Flags
  | 'i' => some { flags with ignoreCase := value }
  | 'm' => some { flags with multiLine := value }
  | 's' => some { flags with dotAll := value }
  | 'U' => some { flags with swapGreed := value }
  | 'u' => some { flags with unicode := value }
  | 'R' => some { flags with crlf := value }
  | 'x' => some { flags with verbose := value }
  | _ => none

/-- Flags up to a colon or a closing parenthesis; each may be named once. The answer tells whether
they end in a colon. -/
def readFlags (flags : Flags) (seen : Text) : Text → Option (Flags × Bool × Text)
  | [] => none
  | ':' :: rest => if seen.head? == some '-' then none else some (flags, true, rest)
  | ')' :: rest =>
    if seen.isEmpty || seen.head? == some '-' then none else some (flags, false, rest)
  | c :: rest =>
    if seen.contains c then none
    else if c == '-' then readFlags flags (c :: seen) rest
    else
      match setFlag flags (!seen.contains '-') c with
      | some flags => readFlags flags (c :: seen) rest
      | none => none

def isNameStart (c : Char) : Bool := c == '_' || Unicode.isAlphabetic c

def isNameRest (c : Char) : Bool :=
  c == '_' || c == '.' || c == '[' || c == ']' || Unicode.isAlphanumeric c

def readGroupName (cs : Text) : Option (Text × Text) :=
  let name := cs.takeWhile (· != '>')
  match name, cs.dropWhile (· != '>') with
  | c :: r, '>' :: rest =>
    if isNameStart c && r.all isNameRest then some (name, rest) else none
  | _, _ => none

/-- The state of reading: the flags in force, the number of the next group, and the names used. -/
structure State where
  flags : Flags
  nextGroup : Nat := 1
  names : List Text := []

inductive Opening where
  /-- Flags for the rest of the enclosing group. -/
  | flags (flags : Flags)
  | plain (flags : Flags)
  | capture (name : Option Text)

def readOpening (flags : Flags) (cs : Text) : Option (Opening × Text) :=
  match skip flags cs with
  | '?' :: '=' :: _ | '?' :: '!' :: _ | '?' :: '<' :: '=' :: _ | '?' :: '<' :: '!' :: _ => none
  | '?' :: 'P' :: '<' :: rest | '?' :: '<' :: rest =>
    (readGroupName rest).map fun (name, rest) => (.capture (some name), rest)
  | '?' :: rest =>
    (readFlags flags [] rest).map fun (flags, isGroup, rest) =>
      (if isGroup then .plain flags else .flags flags, rest)
  | rest => some (.capture none, rest)

def charItem (flags : Flags) (c : Char) : Item :=
  { expr := .one (caseClosed flags (.single c)), depth := 0 }

/-- What a dot matches; without Unicode it could match part of a character. -/
def dot (flags : Flags) : Option Item :=
  if !flags.unicode then none
  else
    let excluded : CharClass :=
      if flags.dotAll then .unions []
      else if flags.crlf then .union (.single '\r') (.single '\n')
      else .single '\n'
    some { expr := .one (.compl excluded), depth := 0 }

def lineStart (flags : Flags) : Look :=
  if flags.multiLine then if flags.crlf then .crlfStart else .lineStart else .textStart

def lineEnd (flags : Flags) : Look :=
  if flags.multiLine then if flags.crlf then .crlfEnd else .lineEnd else .textEnd

def escapeItem (flags : Flags) : Escape → Option Item
  | .char c byteSized => if isWholeChar flags c byteSized then some (charItem flags c) else none
  | .cls a => some { expr := .one a, depth := 0 }
  | .look l => some { expr := .look l, depth := 0 }

/-- Branches up to a closing parenthesis or the end; `branches` and `items` hold what is read, the
last one first. -/
def readBranches : Nat → State → List Item → List Item → Text → Option (Item × State × Text)
  | 0, _, _, _, _ => none
  | fuel + 1, s, branches, items, cs =>
    let push (i : Item) (rest : Text) := readBranches fuel s branches (i :: items) rest
    let again (min : Nat) (max : Option Nat) (rest : Text) := do
      let (items, rest) ← repeatLast s.flags items min max rest
      readBranches fuel s branches items rest
    match skip s.flags cs with
    | [] => some (Item.alternate (Item.concat items :: branches), s, [])
    | c :: rest =>
      match c with
      | ')' => some (Item.alternate (Item.concat items :: branches), s, c :: rest)
      | '|' => readBranches fuel s (Item.concat items :: branches) [] rest
      | '(' => do
        let (opening, rest) ← readOpening s.flags rest
        match opening with
        | .flags flags =>
          let marker : Item := { expr := .empty, depth := 0, repeatable := false }
          readBranches fuel { s with flags := flags } branches (marker :: items) rest
        | .plain flags =>
          let (i, t, rest) ← readBranches fuel { s with flags := flags } [] [] rest
          let i : Item := { expr := i.expr, depth := i.depth + 1 }
          readBranches fuel { t with flags := s.flags } branches (i :: items) (← close rest)
        | .capture name =>
          let index := s.nextGroup
          if name.any s.names.contains then none
          else
            let inner := { s with nextGroup := index + 1, names := name.toList ++ s.names }
            let (i, t, rest) ← readBranches fuel inner [] [] rest
            let i : Item := { expr := .group index i.expr, depth := i.depth + 1 }
            readBranches fuel { t with flags := s.flags } branches (i :: items) (← close rest)
      | '*' => again 0 none rest
      | '+' => again 1 none rest
      | '?' => again 0 (some 1) rest
      | '\x7b' => do
        let (min, max, rest) ← readBounds s.flags rest
        again min max (skip s.flags rest)
      | '[' => do
        let (a, depth, rest) ← readClass s.flags (rest.length + 1) rest
        push { expr := .one a, depth := depth } rest
      | '.' => do push (← dot s.flags) rest
      | '^' => push { expr := .look (lineStart s.flags), depth := 0 } rest
      | '$' => push { expr := .look (lineEnd s.flags), depth := 0 } rest
      | '\\' => do
        let (e, rest) ← readEscape s.flags rest
        push (← escapeItem s.flags e) rest
      | _ => push (charItem s.flags c) rest
where
  /-- The text after a closing parenthesis. -/
  close : Text → Option Text
    | ')' :: rest => some rest
    | _ => none

end Parser

/-- The deepest nesting of groups, repetitions, branches and classes. -/
def nestLimit : Nat := 250

def weightLimit : Nat := 10 <<< 20

def parse? (ignoreCase : Bool) (cs : Text) : Option Expr :=
  match Parser.readBranches (cs.length + 1) { flags := { ignoreCase } } [] [] cs with
  | some (item, _, []) =>
    if item.depth ≤ nestLimit ∧ item.expr.weight ≤ weightLimit then some item.expr else none
  | _ => none

end PageCache.Pattern
