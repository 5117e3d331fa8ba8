/-! Texts as lists of characters. Whitespace is Unicode White_Space; letter case is ASCII case.
Occurrences of a needle are reported by the text before and the text after them. -/
namespace PageCache

/-- A text is the list of its characters. -/
abbrev Text := List Char

instance : Coe String Text := ⟨String.toList⟩

namespace Text

/-- The 25 characters with the property White_Space. -/
def isSpace (c : Char) : Bool :=
  let n := c.toNat
  (0x09 ≤ n && n ≤ 0x0D) || n == 0x20 || n == 0x85 || n == 0xA0 || n == 0x1680 ||
    (0x2000 ≤ n && n ≤ 0x200A) || n == 0x2028 || n == 0x2029 || n == 0x202F || n == 0x205F ||
    n == 0x3000

def trimStart (t : Text) (p : Char → Bool) : Text := t.dropWhile p

def trimEnd (t : Text) (p : Char → Bool) : Text := (t.reverse.dropWhile p).reverse

/-- Without leading and trailing whitespace. -/
def trim (t : Text) : Text := (t.trimStart isSpace).trimEnd isSpace

def trimEndSlashes (t : Text) : Text := t.trimEnd (· == '/')

def trimSlashes (t : Text) : Text := (t.trimStart (· == '/')).trimEnd (· == '/')

def isBlank (t : Text) : Bool := t.trim.isEmpty

/-- ASCII letters in lower case, all else unchanged. -/
def lower (t : Text) : Text := t.map Char.toLower

def eqIgnoreCase (a b : Text) : Bool := lower a == lower b

def startsWith (t beginning : Text) : Bool := beginning.isPrefixOf t

def endsWith (t ending : Text) : Bool := ending.isSuffixOf t

theorem length_trimStart_le (t : Text) (p : Char → Bool) : (t.trimStart p).length ≤ t.length :=
  (List.dropWhile_sublist p).length_le

theorem length_trimEnd_le (t : Text) (p : Char → Bool) : (t.trimEnd p).length ≤ t.length := by
  simpa [trimEnd] using (List.dropWhile_sublist p (l := t.reverse)).length_le

def stripPrefix? : Text → Text → Option Text
  | t, [] => some t
  | [], _ :: _ => none
  | a :: t, b :: p => if a = b then stripPrefix? t p else none

theorem eq_of_stripPrefix? {t p r : Text} (h : stripPrefix? t p = some r) : t = p ++ r := by
  fun_induction stripPrefix? t p with
  | case1 t => simpa using h
  | case2 => simp at h
  | case3 t b p ih => simp [ih h]
  | case4 => simp at h

def stripSuffix? (t ending : Text) : Option Text :=
  (stripPrefix? t.reverse ending.reverse).map List.reverse

/-- The texts before and after the first occurrence of the needle. -/
def splitFirst? : Text → Text → Option (Text × Text)
  | [], needle => (stripPrefix? [] needle).map fun r => ([], r)
  | c :: t, needle =>
    match stripPrefix? (c :: t) needle with
    | some r => some ([], r)
    | none => (splitFirst? t needle).map fun s => (c :: s.1, s.2)

/-- The texts before and after the last occurrence of the needle. -/
def splitLast? : Text → Text → Option (Text × Text)
  | [], needle => (stripPrefix? [] needle).map fun r => ([], r)
  | c :: t, needle =>
    match splitLast? t needle with
    | some s => some (c :: s.1, s.2)
    | none => (stripPrefix? (c :: t) needle).map fun r => ([], r)

theorem eq_of_splitFirst? {t needle a b : Text} (h : splitFirst? t needle = some (a, b)) :
    t = a ++ needle ++ b := by
  induction t generalizing a b with
  | nil =>
    obtain ⟨r, hr, he⟩ := Option.map_eq_some_iff.1 h
    cases he
    simpa using eq_of_stripPrefix? hr
  | cons c t ih =>
    unfold splitFirst? at h
    split at h
    · next r hr =>
      cases h
      simpa using eq_of_stripPrefix? hr
    · obtain ⟨⟨a', b'⟩, hs, he⟩ := Option.map_eq_some_iff.1 h
      cases he
      simp [ih hs]

theorem eq_of_splitLast? {t needle a b : Text} (h : splitLast? t needle = some (a, b)) :
    t = a ++ needle ++ b := by
  induction t generalizing a b with
  | nil =>
    obtain ⟨r, hr, he⟩ := Option.map_eq_some_iff.1 h
    cases he
    simpa using eq_of_stripPrefix? hr
  | cons c t ih =>
    unfold splitLast? at h
    split at h
    · next s hs =>
      cases h
      simp [ih hs]
    · obtain ⟨r, hr, he⟩ := Option.map_eq_some_iff.1 h
      cases he
      simpa using eq_of_stripPrefix? hr

def includes (t needle : Text) : Bool := (splitFirst? t needle).isSome

def splitOn : Text → Char → List Text
  | [], _ => [[]]
  | c :: t, sep =>
    if c = sep then [] :: splitOn t sep
    else match splitOn t sep with
      | [] => [[c]]
      | l :: ls => (c :: l) :: ls

def isNewline (c : Char) : Bool := c == '\n'

def takeNewline : Text → Text × Text
  | '\n' :: t => (['\n'], t)
  | t => ([], t)

theorem takeNewline_append (t : Text) : t.takeNewline.1 ++ t.takeNewline.2 = t := by
  unfold takeNewline
  split <;> simp

theorem length_trimEnd_of_endsWith {t : Text} (h : t.endsWith "\n\n" = true) :
    (t.trimEnd isNewline).length + 2 ≤ t.length := by
  obtain ⟨u, rfl⟩ := List.isSuffixOf_iff_suffix.1 h
  have := length_trimEnd_le u isNewline
  simpa [trimEnd, isNewline] using this

theorem length_trimStart_of_startsWith {t : Text} (h : t.startsWith "\n" = true) :
    (t.trimStart isNewline).length + 1 ≤ t.length := by
  obtain ⟨u, rfl⟩ := List.isPrefixOf_iff_prefix.1 h
  have := length_trimStart_le u isNewline
  simpa [trimStart, isNewline] using this

/-- One carriage return less at the end, where there is one. -/
def dropCarriageReturn (l : Text) : Text :=
  if l.getLast? = some '\r' then l.dropLast else l

/-- Lines end with a newline, or a carriage return and a newline; a text that ends with a newline
has no further, empty line. -/
def lines (t : Text) : List Text :=
  let pieces := t.splitOn '\n'
  let last := pieces.getLast?.getD []
  pieces.dropLast.map dropCarriageReturn ++ if last.isEmpty then [] else [last]

def join (ts : List Text) (sep : Text) : Text := sep.intercalate ts

/-- The text alone if the condition holds, else no text. -/
def keepIf (t : Text) (condition : Bool) : List Text := if condition then [t] else []

/-- A text between two others, if it is given. -/
def enclosed? (t : Option Text) (before after : Text) : List Text :=
  (t.map fun t => before ++ t ++ after).toList

def utf8Length (t : Text) : Nat := t.foldl (fun n c => n + c.utf8Size) 0

def ofNat (n : Nat) : Text := Nat.toDigits 10 n

end Text

namespace Digits

def value? (c : Char) : Option Nat :=
  if '0' ≤ c ∧ c ≤ '9' then some (c.toNat - '0'.toNat)
  else if 'a' ≤ c ∧ c ≤ 'f' then some (c.toNat - 'a'.toNat + 10)
  else if 'A' ≤ c ∧ c ≤ 'F' then some (c.toNat - 'A'.toNat + 10)
  else none

def isHex (c : Char) : Bool := (value? c).isSome

/-- The number that digits write, where what is no digit counts as a zero. -/
def toNat (base : Nat) (ds : List Char) : Nat :=
  ds.foldl (fun n c => base * n + (value? c).getD 0) 0

end Digits

/-- A word of a directive, with or without quotes around it. -/
structure Word where
  text : Text
  quoted : Bool := false
  /-- The text stands for itself, whatever looks like a variable in it. -/
  verbatim : Bool := false
  deriving DecidableEq, Repr

namespace Word

def bare (t : Text) : Word := { text := t }

def inQuotes (t : Text) : Word := { text := t, quoted := true }

def given (t : Text) : Word := { text := t, verbatim := true }

def render (w : Word) : Text := if w.quoted then "\"" ++ w.text ++ "\"" else w.text

end Word

end PageCache
