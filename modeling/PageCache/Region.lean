import PageCache.Text

/-! Regions between markers in texts that several owners share. An edit touches the span of one
region and the newlines at its two seams. -/
namespace PageCache

structure Region where
  opening : Text
  closing : Text
  deriving DecidableEq, Repr

/-- A text cut around a region: the region runs through one newline after its closing marker. -/
structure Span where
  before : Text
  inside : Text
  after : Text
  deriving DecidableEq, Repr

def Span.text (s : Span) : Text := s.before ++ s.inside ++ s.after

/-- Where a new region goes relative to a marker of another owner. -/
inductive Placement where
  | before
  /-- After the marker and one newline. -/
  | after
  deriving DecidableEq, Repr

structure Anchor where
  marker : Text
  place : Placement
  deriving DecidableEq, Repr

namespace Anchor

def split? (a : Anchor) (text : Text) : Option (Text × Text) :=
  if a.marker.isEmpty then none
  else
    (text.splitFirst? a.marker).map fun (head, tail) =>
      match a.place with
      | .before => (head, a.marker ++ tail)
      | .after => (head ++ a.marker ++ tail.takeNewline.1, tail.takeNewline.2)

end Anchor

namespace Region

/-- The body between its markers, each on a line of its own; newlines at the end of the body are
left out. -/
def wrap (r : Region) (body : Text) : Text :=
  let body := body.trimEnd Text.isNewline
  let inner : Text := if body.isEmpty then [] else body ++ "\n"
  r.opening ++ "\n" ++ inner ++ r.closing ++ "\n"

/-- Looks for the first closing marker in the rest of a text that has an opening marker wholly
before it. -/
def locateFrom (r : Region) (seen rest : Text) : Option Span :=
  if _hc : r.closing = [] then none
  else
    match _h : rest.splitFirst? r.closing with
    | none => none
    | some (a, b) =>
      match (seen ++ a).splitLast? r.opening with
      | some (head, inner) =>
        some ⟨head, r.opening ++ inner ++ r.closing ++ b.takeNewline.1, b.takeNewline.2⟩
      | none => locateFrom r (seen ++ a ++ r.closing) b
  termination_by rest.length
  decreasing_by
    have := List.length_pos_iff.2 _hc
    rw [Text.eq_of_splitFirst? _h]
    simp only [List.length_append]
    omega

/-- The region in a text: the first closing marker with an opening marker before it ends it, and
the nearest such opening marker begins it. -/
def locate? (r : Region) (text : Text) : Option Span :=
  if r.opening.isEmpty || r.closing.isEmpty then none else r.locateFrom [] text

theorem locateFrom_text {r : Region} {seen rest : Text} {s : Span}
    (h : r.locateFrom seen rest = some s) :
    s.text = seen ++ rest ∧ r.opening.length + r.closing.length ≤ s.inside.length := by
  fun_induction locateFrom r seen rest with
  | case1 => simp at h
  | case2 => simp at h
  | case3 seen rest hc a b hsplit head inner hlast =>
    cases h
    have hl := Text.eq_of_splitLast? hlast
    constructor
    · have hs := Text.eq_of_splitFirst? hsplit
      have ht := Text.takeNewline_append b
      simp only [Span.text, List.append_assoc] at hl ⊢
      rw [ht, hs, ← List.append_assoc seen, ← List.append_assoc seen, hl]
      simp
    · simp only [List.length_append]
      omega
  | case4 seen rest hc a b hsplit hlast ih =>
    have := ih h
    rw [this.1, Text.eq_of_splitFirst? hsplit]
    exact ⟨by simp, this.2⟩

theorem text_of_locate? {r : Region} {text : Text} {s : Span} (h : r.locate? text = some s) :
    s.text = text := by
  unfold locate? at h
  split at h
  · simp at h
  · simpa using (locateFrom_text h).1

theorem two_le_of_locate? {r : Region} {text : Text} {s : Span} (h : r.locate? text = some s) :
    2 ≤ s.inside.length := by
  unfold locate? at h
  split at h
  · simp at h
  · next hne =>
    have := (locateFrom_text h).2
    simp only [Bool.or_eq_true, List.isEmpty_iff, not_or] at hne
    have := List.length_pos_iff.2 hne.1
    have := List.length_pos_iff.2 hne.2
    omega

/-- Puts a block between two texts, with at most one blank line on either side of it and none at
the start or the end of the file. -/
def splice (head block tail : Text) : Text :=
  let headText := head.trimEnd Text.isNewline
  let tailText := tail.trimStart Text.isNewline
  let seam : Text :=
    if headText.isEmpty then [] else if head.endsWith "\n\n" then "\n\n" else "\n"
  let rest : Text := if !tailText.isEmpty && tail.startsWith "\n" then "\n" else []
  headText ++ seam ++ block ++ rest ++ tailText

/-- The text around the region, or around the place where it is to be inserted: at the first anchor
that occurs, else at the end. -/
def surroundings (r : Region) (text : Text) (anchors : List Anchor) : Text × Text :=
  match r.locate? text with
  | some s => (s.before, s.after)
  | none => (anchors.findSome? (·.split? text)).getD (text, [])

def upsert (r : Region) (text body : Text) (anchors : List Anchor) : Text :=
  let (head, tail) := r.surroundings text anchors
  splice head (r.wrap body) tail

/-- Joins the texts around a removed block: blank lines at the seam shrink to at most one, and to
none at the start or the end of the file. -/
def closeGap (head tail : Text) : Text :=
  let headText := head.trimEnd Text.isNewline
  let tailText := tail.trimStart Text.isNewline
  if headText.isEmpty then tailText
  else if tailText.isEmpty then headText ++ "\n"
  else
    let blank := head.endsWith "\n\n" || tail.startsWith "\n"
    headText ++ (if blank then "\n\n" else "\n") ++ tailText

theorem length_closeGap_le (head tail : Text) :
    (closeGap head tail).length ≤ head.length + tail.length + 1 := by
  have h1 := Text.length_trimEnd_le head Text.isNewline
  have h2 := Text.length_trimStart_le tail Text.isNewline
  simp only [closeGap]
  split
  · omega
  · split
    · simp only [List.length_append]
      have : ("\n" : Text).length = 1 := rfl
      omega
    · split
      · next hb =>
        have : ("\n\n" : Text).length = 2 := rfl
        simp only [List.length_append, this]
        rcases Bool.or_eq_true _ _ ▸ hb with hb | hb
        · have := Text.length_trimEnd_of_endsWith hb
          omega
        · have := Text.length_trimStart_of_startsWith hb
          omega
      · have : ("\n" : Text).length = 1 := rfl
        simp only [List.length_append, this]
        omega

/-- Taking out a region shortens the text, also where joining adds a newline. -/
theorem length_closeGap_lt {r : Region} {text : Text} {s : Span} (h : r.locate? text = some s) :
    (closeGap s.before s.after).length < text.length := by
  have h1 := congrArg List.length (text_of_locate? h)
  have h2 := two_le_of_locate? h
  have h3 := length_closeGap_le s.before s.after
  simp only [Span.text, List.length_append] at h1
  omega

/-- Removes every occurrence of the region; a text without it stays as it is. -/
def erase (r : Region) (text : Text) : Text :=
  match _h : r.locate? text with
  | none => text
  | some s => erase r (closeGap s.before s.after)
  termination_by text.length
  decreasing_by exact length_closeGap_lt _h

/-- The lines without surrounding blanks, empty ones left out. -/
def normalize (text : Text) : Text :=
  Text.join ((text.lines.map Text.trim).filter (!·.isEmpty)) "\n"

/-- Whether the text carries the region with exactly this body, up to indentation and empty
lines. -/
def isCurrent (r : Region) (text body : Text) : Bool :=
  (normalize text).includes (normalize (r.wrap body))

end Region
end PageCache
