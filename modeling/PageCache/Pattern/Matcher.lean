import PageCache.Pattern.Parser

/-! Leftmost-first search. A thread is a position in the text with the groups captured so far. An
expression maps a list of threads, in order of preference, to the list of threads that it can
leave behind, again in order of preference and with one thread for each position; so the work for
a list is bounded by the number of positions. Where only the presence of a match is asked for, the
order of preference does not count, and all positions are followed at once.

The patterns of a configuration are texts that are searched for anywhere in a value. A pattern that
is no regular expression matches nothing. -/
namespace PageCache.Pattern

/-- A position: the number of characters before it, the last of them, and the text after it. -/
structure Cursor where
  pos : Nat
  before : Option Char
  rest : Text

namespace Cursor

def atStart (t : Text) : Cursor := ⟨0, none, t⟩

def next (k : Cursor) (c : Char) (r : Text) : Cursor := ⟨k.pos + 1, some c, r⟩

def suffixes (pos : Nat) (before : Option Char) : Text → List Cursor
  | [] => [⟨pos, before, []⟩]
  | c :: t => ⟨pos, before, c :: t⟩ :: suffixes (pos + 1) (some c) t

def step (cls : CharClass) (ks : List Cursor) : List Cursor :=
  ks.filterMap fun k =>
    match k.rest with
    | [] => none
    | c :: r => if cls.contains c then some (k.next c r) else none

def satisfies (k : Cursor) (l : Look) : Bool := l.holds k.before k.rest.head?

end Cursor

/-- A set of positions, as a number whose binary digits tell which ones belong to it. -/
abbrev Positions := Nat

namespace Positions

def has (s : Positions) (pos : Nat) : Bool := s.testBit pos

def add (s : Positions) (pos : Nat) : Positions := s ||| (1 <<< pos)

end Positions

structure Span where
  start : Cursor
  stop : Nat

def Span.text (s : Span) : Text := s.start.rest.take (s.stop - s.start.pos)

/-- A position and the captured groups, the most recent first. -/
structure Thread where
  cursor : Cursor
  groups : List (Nat × Span)

namespace Thread

def pos (t : Thread) : Nat := t.cursor.pos

/-- The threads whose position has not been seen, each position once, and all positions seen after
that. -/
def unseen (seen : Positions) : List Thread → List Thread × Positions
  | [] => ([], seen)
  | t :: ts =>
    if seen.has t.pos then unseen seen ts
    else
      let (rest, seen) := unseen (seen.add t.pos) ts
      (t :: rest, seen)

/-- The threads that each thread of a list leaves behind in turn, without positions seen before. -/
def gatherFrom (f : Thread → List Thread) (seen : Positions) : List Thread → List Thread
  | [] => []
  | t :: ts =>
    let (new, seen) := unseen seen (f t)
    new ++ gatherFrom f seen ts

def gather (f : Thread → List Thread) (ts : List Thread) : List Thread := gatherFrom f 0 ts

def step (cls : CharClass) (ts : List Thread) : List Thread :=
  ts.filterMap fun t =>
    match t.cursor.rest with
    | [] => none
    | c :: r => if cls.contains c then some ⟨t.cursor.next c r, t.groups⟩ else none

def capture (index : Nat) (start stop : Thread) : Thread :=
  { stop with groups := (index, ⟨start.cursor, stop.pos⟩) :: stop.groups }

end Thread

/-- What is left to do while a repetition is explored. -/
inductive Visit where
  /-- Begin the repetition. -/
  | enter (t : Thread)
  /-- Continue after a round. -/
  | again (t : Thread)
  /-- Leave the repetition. -/
  | leave (t : Thread)

/-- The two choices at a position, in the order of preference. -/
def prefer (greedy : Bool) (rounds : List Visit) (leave : List Visit) : List Visit :=
  if greedy then rounds ++ leave else leave ++ rounds

/-- Explores an unbounded repetition depth first. No position is begun from, or continued from, a
second time: `begun` and `ended` are the sets of positions where a round began and ended. -/
def explore (body : Thread → List Thread) (greedy optional : Bool) :
    Nat → List Visit → (begun ended : Positions) → List Thread
  | 0, _, _, _ => []
  | _ + 1, [], _, _ => []
  | fuel + 1, .leave t :: todo, begun, ended =>
    t :: explore body greedy optional fuel todo begun ended
  | fuel + 1, .enter t :: todo, begun, ended =>
    let leave := if optional then [.leave t] else []
    if begun.has t.pos then explore body greedy optional fuel (leave ++ todo) begun ended
    else
      explore body greedy optional fuel (prefer greedy ((body t).map .again) leave ++ todo)
        (begun.add t.pos) ended
  | fuel + 1, .again t :: todo, begun, ended =>
    if ended.has t.pos then explore body greedy optional fuel todo begun ended
    else if begun.has t.pos then
      t :: explore body greedy optional fuel todo begun (ended.add t.pos)
    else
      explore body greedy optional fuel (prefer greedy ((body t).map .again) [.leave t] ++ todo)
        (begun.add t.pos) (ended.add t.pos)

/-- Explores at most the given number of further rounds depth first. A visit carries the number of
rounds left, or none to leave; `seen` is the set of positions visited for each number. -/
def exploreUpTo (body : Thread → List Thread) (greedy : Bool) (width : Nat) :
    Nat → List (Option Nat × Thread) → (seen : Positions) → List Thread
  | 0, _, _ => []
  | _ + 1, [], _ => []
  | fuel + 1, (none, t) :: todo, seen => t :: exploreUpTo body greedy width fuel todo seen
  | fuel + 1, (some 0, t) :: todo, seen => t :: exploreUpTo body greedy width fuel todo seen
  | fuel + 1, (some (n + 1), t) :: todo, seen =>
    let key := n * width + t.pos
    if seen.has key then exploreUpTo body greedy width fuel todo seen
    else
      let rounds := (body t).map fun u => (some n, u)
      let visits := if greedy then rounds ++ [(none, t)] else (none, t) :: rounds
      exploreUpTo body greedy width fuel (visits ++ todo) (seen.add key)

def rounds (body : Thread → List Thread) : Nat → List Thread → List Thread
  | 0, ts => ts
  | n + 1, ts => rounds body n (Thread.gather body ts)

def positions : List Thread → Nat
  | [] => 0
  | t :: _ => t.pos + t.cursor.rest.length + 1

def repeated (body : Thread → List Thread) (min : Nat) (max : Option Nat) (greedy : Bool)
    (ts : List Thread) : List Thread :=
  let size := positions ts
  match max with
  | none =>
    let start := rounds body (min - 1) ts
    let fuel := 2 * start.length + size * (size + 1) + 1
    (Thread.unseen 0 (explore body greedy (min == 0) fuel (start.map .enter) 0 0)).1
  | some most =>
    let start := rounds body min ts
    let more := most - min
    let fuel := start.length + more * size * (size + 1) + 1
    (Thread.unseen 0
      (exploreUpTo body greedy size fuel (start.map fun t => (some more, t)) 0)).1

/-- The cursors whose position has not been seen, each position once, and all positions seen after
that. -/
def Cursor.unseen (seen : Positions) : List Cursor → List Cursor × Positions
  | [] => ([], seen)
  | k :: ks =>
    if seen.has k.pos then unseen seen ks
    else
      let (rest, seen) := unseen (seen.add k.pos) ks
      (k :: rest, seen)

/-- The cursors after at most the given number of further rounds; only new ones go on. -/
def spread (body : List Cursor → List Cursor) (seen : Positions) : Nat → List Cursor → List Cursor
  | 0, ks => ks
  | n + 1, ks =>
    if ks.isEmpty then []
    else
      let (new, seen) := Cursor.unseen seen (body ks)
      ks ++ spread body seen n new

def spreadBetween (body : List Cursor → List Cursor) (length min : Nat) (max : Option Nat)
    (ks : List Cursor) : List Cursor :=
  let start := min.repeat body ks
  let (start, seen) := Cursor.unseen 0 start
  spread body seen ((max.getD (min + length + 1)) - min) start

namespace Expr

def run : Expr → List Thread → List Thread
  | empty, ts => ts
  | one cls, ts => Thread.step cls ts
  | look l, ts => ts.filter fun t => t.cursor.satisfies l
  | seq a b, ts => run b (run a ts)
  | alt a b, ts => Thread.gather (fun t => run a [t] ++ run b [t]) ts
  | group index a, ts => Thread.gather (fun t => (run a [t]).map fun u => t.capture index u) ts
  | rep a min max greedy, ts => repeated (fun t => run a [t]) min max greedy ts

/-- The groups of the leftmost match that is preferred among those that begin where it begins. -/
def find? (e : Expr) (t : Text) : Option (List (Nat × Text)) :=
  let starts := (Cursor.suffixes 0 none t).map fun k => ⟨k, []⟩
  (e.run starts).head?.map fun thread => thread.groups.map fun g => (g.1, g.2.text)

/-- The cursors that an expression leads to from any of the given ones, in a text of the given
length. -/
def reach (length : Nat) : Expr → List Cursor → List Cursor
  | empty, ks => ks
  | one cls, ks => Cursor.step cls ks
  | look l, ks => ks.filter (·.satisfies l)
  | seq a b, ks => reach length b (reach length a ks)
  | alt a b, ks => (Cursor.unseen 0 (reach length a ks ++ reach length b ks)).1
  | group _ a, ks => reach length a ks
  | rep a min max _, ks => spreadBetween (reach length a) length min max ks

/-- Whether the expression matches somewhere in the text. -/
def isMatch (e : Expr) (t : Text) : Bool :=
  !(e.reach t.length (Cursor.suffixes 0 none t)).isEmpty

end Expr

def isValid (pattern : Text) : Bool := (parse? false pattern).isSome

def found (ignoreCase : Bool) (pattern value : Text) : Bool :=
  match parse? ignoreCase pattern with
  | some e => e.isMatch value
  | none => false

/-- The captured groups of the first match, by number, if there is one. -/
def captures? (ignoreCase : Bool) (pattern value : Text) : Option (List (Nat × Text)) :=
  (parse? ignoreCase pattern).bind fun e => e.find? value

/-- The pattern that matches a text literally. -/
def quote (t : Text) : Text :=
  t.flatMap fun c => if Parser.isMeta c then ['\\', c] else [c]

def alternation (patterns : List Text) : Text := "(" ++ Text.join patterns "|" ++ ")"

end PageCache.Pattern
