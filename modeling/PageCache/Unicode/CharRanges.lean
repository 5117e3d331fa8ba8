import PageCache.Text

/-! Sets of code points as unions of arithmetic runs, with a compact hexadecimal form: `41-5A` is a
run of consecutive code points, `100-136/2` a run of every second one and `AA` a single one. -/
namespace PageCache.Unicode

/-- The code points `first`, `first + step`, … up to `last`. -/
structure CharRun where
  first : Nat
  last : Nat
  step : Nat
  deriving DecidableEq, Repr

abbrev CharRanges := List CharRun

namespace CharRun

def contains (r : CharRun) (n : Nat) : Bool :=
  r.first ≤ n && n ≤ r.last && (n - r.first) % r.step == 0

/-- The part of a run outside another one, which is a run of consecutive code points. -/
def without (r hole : CharRun) : List CharRun :=
  if hole.last < r.first || r.last < hole.first then [r]
  else
    let below : List CharRun :=
      if r.first < hole.first then [{ r with last := hole.first - 1 }] else []
    let next := r.first + (hole.last + r.step - r.first) / r.step * r.step
    below ++ if next ≤ r.last then [{ r with first := next }] else []

end CharRun

namespace CharRanges

def contains (rs : CharRanges) (c : Char) : Bool := rs.any (·.contains c.toNat)

/-- The code points outside the holes, which are runs of consecutive code points. -/
def without (rs holes : CharRanges) : CharRanges :=
  holes.foldl (fun rs hole => rs.flatMap (·.without hole)) rs

def runOfWord (word : List Char) : CharRun :=
  let first := Digits.toNat 16 (word.takeWhile Digits.isHex)
  match word.dropWhile Digits.isHex with
  | '-' :: rest =>
    { first
      last := Digits.toNat 16 (rest.takeWhile Digits.isHex)
      step := if rest.contains '/' then 2 else 1 }
  | _ => ⟨first, first, 1⟩

/-- The runs of a hexadecimal table, whose words are separated by blanks and line ends. -/
def ofHex (table : String) : CharRanges :=
  let pieces := table.toList.splitBy fun a b => a.isWhitespace == b.isWhitespace
  (pieces.filter fun piece => !piece.all Char.isWhitespace).map runOfWord

end CharRanges
end PageCache.Unicode
