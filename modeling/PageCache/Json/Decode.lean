import PageCache.Json.Value
import PageCache.Unicode.Property

/-! Reading records from JSON. A record is an object, whose members are visited in a given order, or
an array of the fields in declared order. The first fault that is met is reported, and missing
members only after all members are visited. -/
namespace PageCache.Json

inductive DecodeError where
  | missingField (name : Text)
  | invalidType (found : Json) (expected : Text)
  | invalidValue (found : Json) (expected : Text)
  | invalidLength (length : Nat) (expected : Text)
  | unknownVariant (name : Text) (known : List Text)
  deriving Repr

/-- A floating-point number in a message: positional up to sixteen digits before the point and five
zeros after it, else with an exponent. -/
def floatText : Binary64 → Text
  | .finite negative m e =>
    let sign : Text := if negative then "-" else ""
    if m == 0 then sign ++ "0.0"
    else
      let (digits, before) := Binary64.shortest m e
      if -5 < before && before ≤ 16 then
        let t := Binary64.positional digits before
        sign ++ (if t.elem '.' then t else t ++ ".0")
      else
        let fraction : Text := if digits.length = 1 then [] else "." ++ digits.drop 1
        sign ++ digits.take 1 ++ fraction ++ "e" ++ intText (before - 1)
  | x => x.toText

def description : Json → Text
  | null => "null"
  | bool b => "boolean `" ++ (if b then "true" else "false" : Text) ++ "`"
  | int n => "integer `" ++ intText n ++ "`"
  | float x => "floating point `" ++ floatText x ++ "`"
  | str t => "string " ++ t.quoted
  | arr _ => "sequence"
  | obj _ => "map"

def named (t : Text) : Text := "`" ++ t ++ "`"

def DecodeError.message : DecodeError → Text
  | missingField name => "missing field " ++ named name
  | invalidType found expected =>
    "invalid type: " ++ found.description ++ ", expected " ++ expected
  | invalidValue found expected =>
    "invalid value: " ++ found.description ++ ", expected " ++ expected
  | invalidLength length expected =>
    "invalid length " ++ Text.ofNat length ++ ", expected " ++ expected
  | unknownVariant name known =>
    "unknown variant " ++ named name ++ ", expected one of " ++ Text.join (known.map named) ", "

namespace Decode

def text : Json → Except DecodeError Text
  | str t => .ok t
  | v => .error (.invalidType v "a string")

def flag : Json → Except DecodeError Bool
  | bool b => .ok b
  | v => .error (.invalidType v "a boolean")

def natural : Json → Except DecodeError UInt64
  | int n =>
    if 0 ≤ n ∧ n < UInt64.size then .ok (.ofNat n.toNat) else .error (.invalidValue (int n) "u64")
  | v => .error (.invalidType v "u64")

def listOf {α : Type} (read : Json → Except DecodeError α) : Json → Except DecodeError (List α)
  | arr items => items.mapM read
  | v => .error (.invalidType v "a sequence")

def optional {α : Type} (read : Json → Except DecodeError α) : Json → Except DecodeError (Option α)
  | null => .ok none
  | v => (read v).map some

/-- One of the given names, alone or as the key of an object whose only member is null. -/
def choice {α : Type} (names : List (Text × α)) (v : Json) : Except DecodeError α :=
  let find (name : Text) : Except DecodeError α :=
    match names.lookup name with
    | some a => .ok a
    | none => .error (.unknownVariant name (names.map (·.1)))
  match v with
  | str name => find name
  | obj [(name, content)] => do
    let a ← find name
    match content with
    | null => .ok a
    | content => .error (.invalidType content "unit")
  | obj members => .error (.invalidValue (obj members) "map with a single key")
  | v => .error (.invalidType v "string or map")

end Decode

abbrev Fields := List (Text × Json)

/-- A field of a record: what its value has to satisfy, and whether it may be left out. -/
structure FieldRule where
  name : Text
  check : Json → Except DecodeError Unit
  optional : Bool

namespace FieldRule

def required {α : Type} (name : Text) (read : Json → Except DecodeError α) : FieldRule :=
  ⟨name, fun v => (read v).map fun _ => (), false⟩

def maybe {α : Type} (name : Text) (read : Json → Except DecodeError α) : FieldRule :=
  ⟨name, fun v => (read v).map fun _ => (), true⟩

end FieldRule

def insertMember (m : Text × Json) : List (Text × Json) → List (Text × Json)
  | [] => [m]
  | n :: rest => if n.1 < m.1 then n :: insertMember m rest else m :: n :: rest

def sortMembers (members : List (Text × Json)) : List (Text × Json) :=
  members.foldr insertMember []

theorem perm_insertMember (m : Text × Json) (members : List (Text × Json)) :
    (insertMember m members).Perm (m :: members) := by
  induction members with
  | nil => exact .refl _
  | cons n rest ih =>
    unfold insertMember
    split
    · exact (ih.cons n).trans (.swap m n rest)
    · exact .refl _

theorem perm_sortMembers (members : List (Text × Json)) : (sortMembers members).Perm members := by
  induction members with
  | nil => exact .refl _
  | cons m rest ih => exact (perm_insertMember m _).trans (ih.cons m)

/-- The order in which the members of an object are visited. -/
structure Visit where
  order : List (Text × Json) → List (Text × Json)
  perm : ∀ members, (order members).Perm members

def Visit.byKey : Visit := ⟨sortMembers, perm_sortMembers⟩

def checkMembers (rules : List FieldRule) : List (Text × Json) → Except DecodeError Unit
  | [] => .ok ()
  | (key, v) :: rest =>
    match rules.find? (·.name == key) with
    | none => checkMembers rules rest
    | some rule => do
      rule.check v
      checkMembers rules rest

/-- Pairs the items of an array with the fields; `count` fields come before. -/
def checkItems (expected : Text) (count : Nat) :
    List FieldRule → List Json → Except DecodeError Fields
  | [], [] => .ok []
  | [], items => .error (.invalidLength (count + items.length) "fewer elements in array")
  | rule :: rules, [] =>
    if rule.optional then checkItems expected (count + 1) rules []
    else .error (.invalidLength count expected)
  | rule :: rules, v :: items => do
    rule.check v
    let rest ← checkItems expected (count + 1) rules items
    .ok ((rule.name, v) :: rest)

def readFields (visit : Visit) (name : Text) (rules : List FieldRule) (v : Json) :
    Except DecodeError Fields :=
  match v with
  | obj members => do
    checkMembers rules (visit.order members)
    match rules.find? fun r => !r.optional && (members.lookup r.name).isNone with
    | some r => .error (.missingField r.name)
    | none => .ok members
  | arr items =>
    checkItems ("struct " ++ name ++ " with " ++ Text.ofNat rules.length ++ " elements") 0 rules
      items
  | v => .error (.invalidType v ("struct " ++ name))

namespace Fields

def get {α : Type} (fields : Fields) (name : Text) (read : Json → Except DecodeError α) :
    Except DecodeError α :=
  match fields.lookup name with
  | some v => read v
  | none => .error (.missingField name)

def get? {α : Type} (fields : Fields) (name : Text) (read : Json → Except DecodeError α) :
    Except DecodeError (Option α) :=
  match fields.lookup name with
  | some v => Decode.optional read v
  | none => .ok none

end Fields
end PageCache.Json
