import PageCache.Unicode.Property
import PageCache.Unicode.CaseFolding

/-! Regular expressions over characters: character classes with set operations and case closure,
assertions on the characters beside a position, and expressions with capture groups. -/
namespace PageCache.Pattern

open Unicode (CharProperty)

/-- A set of characters. `fold` and `foldAscii` close a class under letter case. -/
inductive CharClass where
  | single (c : Char)
  | range (first last : Char)
  | digit
  | space
  | word
  | property (p : CharProperty)
  | fold (a : CharClass)
  | foldAscii (a : CharClass)
  | compl (a : CharClass)
  | union (a b : CharClass)
  | inter (a b : CharClass)
  | diff (a b : CharClass)
  | symmDiff (a b : CharClass)

namespace CharClass

/-- A letter with its other case, any other character alone. -/
def asciiEquivalents (c : Char) : List Char :=
  if c.isLower then [c, c.toUpper] else if c.isUpper then [c, c.toLower] else [c]

def contains : CharClass → Char → Bool
  | single d, c => c == d
  | range first last, c => first ≤ c && c ≤ last
  | digit, c => Unicode.isDigit c
  | space, c => Text.isSpace c
  | word, c => Unicode.isWord c
  | property p, c => p.contains c
  | fold a, c => (Unicode.CaseFolding.equivalents c).any a.contains
  | foldAscii a, c => (asciiEquivalents c).any a.contains
  | compl a, c => !a.contains c
  | union a b, c => a.contains c || b.contains c
  | inter a b, c => a.contains c && b.contains c
  | diff a b, c => a.contains c && !b.contains c
  | symmDiff a b, c => a.contains c != b.contains c

/-- The union of a list of classes; of none, the class without members. -/
def unions : List CharClass → CharClass
  | [] => range 'b' 'a'
  | [a] => a
  | a :: as => union a (unions as)

/-- An estimate of the bytes that a compiled form of the class takes. -/
def weight : CharClass → Nat
  | single c => 32 * c.utf8Size
  | range _ _ => 48
  | digit => 1800
  | space => 300
  | word => 46000
  | property p => 32 + 25 * p.ranges.length
  | fold a => 16 + a.weight
  | foldAscii a => 16 + a.weight
  | compl a => 300 + a.weight
  | union a b | inter a b | diff a b | symmDiff a b => a.weight + b.weight

end CharClass

/-- Conditions on whether the characters before and after a position are word characters. -/
inductive WordEdge where
  | boundary
  | noBoundary
  | start
  | finish
  | startHalf
  | finishHalf
  deriving DecidableEq, Repr

namespace WordEdge

def holds (before after : Bool) : WordEdge → Bool
  | boundary => before != after
  | noBoundary => before == after
  | start => !before && after
  | finish => before && !after
  | startHalf => !before
  | finishHalf => !after

end WordEdge

/-- Assertions that consume nothing. -/
inductive Look where
  | textStart
  | textEnd
  | lineStart
  | lineEnd
  /-- A line start where lines end with a newline, a carriage return, or both in that order. -/
  | crlfStart
  | crlfEnd
  | word (edge : WordEdge) (unicode : Bool)
  deriving DecidableEq, Repr

namespace Look

def isWordBeside (unicode : Bool) : Option Char → Bool
  | none => false
  | some c => if unicode then Unicode.isWord c else c.isAlphanum || c == '_'

/-- Whether the assertion holds between the given neighbours. -/
def holds (before after : Option Char) : Look → Bool
  | textStart => before.isNone
  | textEnd => after.isNone
  | lineStart => before.isNone || before == some '\n'
  | lineEnd => after.isNone || after == some '\n'
  | crlfStart =>
    before.isNone || before == some '\n' || (before == some '\r' && after != some '\n')
  | crlfEnd =>
    after.isNone || after == some '\r' || (after == some '\n' && before != some '\r')
  | word edge unicode => edge.holds (isWordBeside unicode before) (isWordBeside unicode after)

end Look

/-- A regular expression. Alternatives and repetitions prefer their earlier choice; a repetition
prefers one more round if it is greedy and to stop if it is not. -/
inductive Expr where
  | empty
  | one (cls : CharClass)
  | look (l : Look)
  | seq (a b : Expr)
  | alt (a b : Expr)
  | group (index : Nat) (a : Expr)
  | rep (a : Expr) (min : Nat) (max : Option Nat) (greedy : Bool)

namespace Expr

/-- An estimate of the bytes that a compiled form takes, in which repetitions are written out. -/
def weight : Expr → Nat
  | empty => 0
  | one cls => cls.weight
  | look _ => 32
  | seq a b => a.weight + b.weight
  | alt a b => 64 + a.weight + b.weight
  | group _ a => 64 + a.weight
  | rep a min max _ =>
    match max with
    | none => 64 + (Nat.max min 1) * a.weight
    | some m => 32 + Nat.max min m * (32 + a.weight)

/-- One character, read without regard to case where asked. -/
def ofChar (c : Char) : Expr := one (.single c)

/-- The characters of a text one after the other. -/
def literal : Text → Expr
  | [] => empty
  | [c] => ofChar c
  | c :: t => seq (ofChar c) (literal t)

end Expr
end PageCache.Pattern
