import PageCache.Json.Value
import PageCache.Unicode.Property

/-! Log events, the filter that selects them, and their two written forms. -/
namespace PageCache

inductive LogLevel where
  | error
  | warn
  | info
  | debug
  | trace
  deriving DecidableEq, Repr

namespace LogLevel

/-- More verbose levels have greater ranks. -/
def rank : LogLevel → Nat
  | error => 1
  | warn => 2
  | info => 3
  | debug => 4
  | trace => 5

def name : LogLevel → Text
  | error => "ERROR"
  | warn => "WARN"
  | info => "INFO"
  | debug => "DEBUG"
  | trace => "TRACE"

def all : List LogLevel := [error, warn, info, debug, trace]

end LogLevel

/-- The most verbose level that is logged, or none if nothing is. -/
abbrev LogThreshold := Option LogLevel

namespace LogThreshold

def name : LogThreshold → Text
  | some l => l.name.lower
  | none => "off"

def ofRank? (n : Nat) : Option LogThreshold :=
  if n = 0 then some none else (LogLevel.all.find? (·.rank == n)).map some

/-- A level by its name, in any case, or by its number; the empty text stands for errors. -/
def parse? (t : Text) : Option LogThreshold :=
  let digits := match t with
    | '+' :: ds => ds
    | ds => ds
  if !digits.isEmpty && digits.all Char.isDigit then
    ofRank? (Digits.toNat 10 digits)
  else if t.isEmpty then some (some .error)
  else if t.eqIgnoreCase "off" then some none
  else (LogLevel.all.find? fun l => l.name.eqIgnoreCase t).map some

def errorMessage : Text :=
  "error parsing level filter: expected one of \"off\", \"error\", \"warn\", \"info\", " ++
    "\"debug\", \"trace\", or a number 0-5"

def allows (t : LogThreshold) (l : LogLevel) : Bool :=
  match t with
  | some most => l.rank ≤ most.rank
  | none => false

end LogThreshold

/-- The value of a field: a text between quotes or as it is, or a truth value. -/
inductive LogValue where
  | quoted (t : Text)
  | plain (t : Text)
  | bool (b : Bool)
  deriving DecidableEq, Repr

structure LogEvent where
  level : LogLevel
  /-- The part of the program that the event comes from. -/
  origin : Text
  message : Text
  fields : List (Text × LogValue)
  deriving DecidableEq, Repr

namespace LogValue

def toText : LogValue → Text
  | quoted t => t.quoted
  | plain t => t
  | bool b => if b then "true" else "false"

def toJson : LogValue → Json
  | quoted t | plain t => .str t
  | bool b => .bool b

end LogValue

namespace LogEvent

/-- A character of a message: those that control terminals are written as escapes. -/
def messageChar (c : Char) : Text :=
  let n := c.toNat
  if n == 0x1B || n == 0x07 || n == 0x08 || n == 0x0C || n == 0x7F then
    "\\x" ++ [Nat.digitChar (n / 16), Nat.digitChar (n % 16)]
  else if 0x80 ≤ n && n ≤ 0x9F then "\\u\x7b" ++ Text.hex n ++ "\x7d"
  else [c]

def fieldText (f : Text × LogValue) : Text := " " ++ f.1 ++ "=" ++ f.2.toText

def toLine (e : LogEvent) : Text :=
  e.level.name ++ " " ++ e.origin ++ ": " ++ e.message.flatMap messageChar ++
    e.fields.flatMap fieldText

def toJson (e : LogEvent) : Json :=
  .obj
    [("level", .str e.level.name),
      ("fields", .obj (("message", .str e.message) :: e.fields.map fun f => (f.1, f.2.toJson))),
      ("target", .str e.origin)]

end LogEvent

/-- A threshold for the events whose origin begins with a text. -/
structure LogRule where
  origin : Text
  threshold : LogThreshold
  deriving DecidableEq, Repr

/-- Rules of which the one with the longest origin applies. -/
abbrev LogFilter := List LogRule

namespace LogFilter

def isRuleStart (c : Char) : Bool :=
  c == '-' || c == ':' || c == '_' || Unicode.isAlphanumeric c

/-- A rule such as `debug`, `cache` or `cache=warn`. -/
def parseRule (t : Text) : Except Text LogRule :=
  match t.trim with
  | [] => .ok ⟨[], some .trace⟩
  | c :: _ =>
    if !isRuleStart c then .error "invalid filter directive"
    else
      let origin := t.takeWhile (· != '=')
      match t.drop origin.length with
      | [] =>
        match LogThreshold.parse? origin with
        | some threshold => .ok ⟨[], threshold⟩
        | none => .ok ⟨origin, some .trace⟩
      | _ :: level =>
        if level.isEmpty then .ok ⟨origin, some .trace⟩
        else
          match LogThreshold.parse? level with
          | some threshold => .ok ⟨origin, threshold⟩
          | none => .error LogThreshold.errorMessage

/-- The rules between commas, and a complaint for each one that cannot be read. -/
def parse (t : Text) : LogFilter × List Text :=
  let pieces := (t.splitOn ',').filter (!·.isEmpty)
  let read := pieces.map fun p => (p, parseRule p)
  (read.filterMap fun r => r.2.toOption,
    read.filterMap fun r =>
      match r.2 with
      | .ok _ => none
      | .error e => some ("ignoring `" ++ r.1 ++ "`: " ++ e))

/-- The rule that applies to an origin: of the longest ones the last. -/
def ruleFor? (f : LogFilter) (origin : Text) : Option LogRule :=
  (f.filter fun r => origin.startsWith r.origin).foldl (fun best r =>
    match best with
    | some b => if b.origin.length ≤ r.origin.length then some r else some b
    | none => some r) none

def allows (f : LogFilter) (e : LogEvent) : Bool :=
  match f.ruleFor? e.origin with
  | some r => r.threshold.allows e.level
  | none => false

end LogFilter
end PageCache
