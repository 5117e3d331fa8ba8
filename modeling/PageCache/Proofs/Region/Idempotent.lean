import PageCache.Proofs.Region.Anchors
import PageCache.Proofs.Region.Seams

/-! Putting a block into a text. A block that is put there is found by the next search, between
seams that it leaves as they are, so putting it there again changes nothing. -/
namespace PageCache.Region

open Text

variable {r : Region} {body head tail text : Text} {anchors : List Anchor}

theorem locate?_headPart (hr : r.Proper) (h : r.locate? head = none) :
    r.locate? (headPart head) = none := by
  obtain ⟨p, s, s', rfl, hs, -, hall⟩ := eqBeforeNewlines_headPart head
  rw [hs]
  exact locate?_append_newlines hr (locate?_left h) hall

theorem surroundings_of_located {s : Span} (h : r.locate? text = some s)
    (anchors : List Anchor) : r.surroundings text anchors = (s.before, s.after) := by
  rw [surroundings, h]

theorem surroundings_of_absent (h : r.locate? text = none) (anchors : List Anchor) :
    r.surroundings text anchors = placeOf anchors text := by
  rw [surroundings, h, placeOf]

/-- The region is not found in the text before the place where its block goes. -/
theorem locate?_surroundings (r : Region) (text : Text) (anchors : List Anchor) :
    r.locate? (r.surroundings text anchors).1 = none := by
  match h : r.locate? text with
  | some s =>
    rw [surroundings_of_located h]
    exact locate?_before h
  | none =>
    rw [surroundings_of_absent h]
    rw [← placeOf_append anchors text] at h
    exact locate?_left h

theorem upsert_eq (r : Region) (text body : Text) (anchors : List Anchor) :
    r.upsert text body anchors =
      headPart (r.surroundings text anchors).1 ++
        (r.wrap body ++ tailPart (r.surroundings text anchors).2) := splice_eq _ _ _

theorem locate?_put (hr : r.Proper) (hbody : Avoids [r] body) (hhead : r.locate? head = none)
    (tail : Text) :
    r.locate? (headPart head ++ (r.wrap body ++ tailPart tail)) =
      some ⟨headPart head, r.wrap body, tailPart tail⟩ :=
  locate?_wrap hr hbody (atLineStart_headPart head) (locate?_headPart hr hhead) _

/-- A block that was put into a text is put into the same place again, whatever the anchors are, and
finds its seams closed. -/
theorem upsert_put (hr : r.Proper) (hbody : Avoids [r] body) (hhead : r.locate? head = none)
    (tail : Text) (anchors : List Anchor) :
    r.upsert (headPart head ++ (r.wrap body ++ tailPart tail)) body anchors =
      headPart head ++ (r.wrap body ++ tailPart tail) := by
  rw [upsert_eq, surroundings_of_located (locate?_put hr hbody hhead tail), headPart_headPart,
    tailPart_tailPart]

/-- A block that was put into a text leaves the place as if another had been put there at once. -/
theorem upsert_over (hr : r.Proper) (hbody : Avoids [r] body) (text next : Text)
    (anchors anchors' : List Anchor) :
    r.upsert (r.upsert text body anchors) next anchors' = r.upsert text next anchors := by
  have hput := locate?_put hr hbody (locate?_surroundings r text anchors)
    (r.surroundings text anchors).2
  rw [upsert_eq r text body, upsert_eq, surroundings_of_located hput, headPart_headPart,
    tailPart_tailPart, ← upsert_eq]

/-- Putting a block into a text a second time changes nothing. -/
theorem upsert_idempotent (hr : r.Proper) (hbody : Avoids [r] body) (text : Text)
    (anchors : List Anchor) :
    r.upsert (r.upsert text body anchors) body anchors = r.upsert text body anchors := by
  rw [upsert_eq r text]
  exact upsert_put hr hbody (locate?_surroundings r text anchors) _ anchors

/-- A closing marker before the place and an opening marker after it belong to no block. -/
theorem upsert_idempotent_stray :
    (⟨"BEGIN", "END"⟩ : Region).Proper ∧ Avoids [⟨"BEGIN", "END"⟩] "rule\n\n" ∧
      (⟨"BEGIN", "END"⟩ : Region).upsert
        ((⟨"BEGIN", "END"⟩ : Region).upsert "END x\n\n\n! BEGIN" "rule\n\n" [⟨"!", .before⟩])
        "rule\n\n" [⟨"!", .before⟩] =
      (⟨"BEGIN", "END"⟩ : Region).upsert "END x\n\n\n! BEGIN" "rule\n\n" [⟨"!", .before⟩] := by
  have hr : (⟨"BEGIN", "END"⟩ : Region).Proper :=
    ⟨by decide, by decide, by decide, by decide, by decide⟩
  have hbody : Avoids [⟨"BEGIN", "END"⟩] "rule\n\n" := by decide
  exact ⟨hr, hbody, upsert_idempotent hr hbody _ _⟩

end PageCache.Region
