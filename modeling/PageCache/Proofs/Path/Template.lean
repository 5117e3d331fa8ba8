import PageCache.Proofs.Path.Candidate
import PageCache.Proofs.Text.Occurrence

/-! Paths that are written with a placeholder for the tenant's segment. Filling in the placeholder
afterwards comes to the same as replacing the segment, up to repeated slashes. -/
namespace PageCache

namespace Text

theorem trimEndSlashes_of_getLast?_ne {t : Text} (h : t.getLast? ≠ some '/') :
    t.trimEndSlashes = t := by
  obtain ⟨s, hs, hall⟩ := exists_eq_trimEnd_append t (· == '/')
  rcases List.eq_nil_or_concat' s with rfl | ⟨s, c, rfl⟩
  · rw [trimEndSlashes]
    simpa using hs.symm
  · obtain rfl : c = '/' := by simpa using hall c (by simp)
    rw [hs] at h
    simp at h

theorem trimEndSlashes_concat_slash (t : Text) : trimEndSlashes (t ++ ['/']) = t.trimEndSlashes := by
  simp [trimEndSlashes, trimEnd]

theorem alike_trimEndSlashes (t : Text) : Path.Alike (t.trimEndSlashes ++ ['/']) (t ++ ['/']) := by
  obtain ⟨s, hs, hall⟩ := exists_eq_trimEnd_append t (· == '/')
  have h := (Path.Alike.refl (t.trimEnd (· == '/'))).append
    (Path.alike_slashes_slash fun c hc => by simpa using hall c hc)
  rw [← List.append_assoc, ← hs] at h
  exact h.symm

theorem mem_of_mem_trimEndSlashes {t : Text} {c : Char} (h : c ∈ t.trimEndSlashes) : c ∈ t := by
  obtain ⟨s, hs, -⟩ := exists_eq_trimEnd_append t (· == '/')
  rw [hs]
  exact List.mem_append_left s h

theorem mem_trimEndSlashes_iff {t : Text} {c : Char} (hc : c ≠ '/') :
    c ∈ t.trimEndSlashes ↔ c ∈ t := by
  refine ⟨mem_of_mem_trimEndSlashes, fun h => ?_⟩
  obtain ⟨s, hs, hall⟩ := exists_eq_trimEnd_append t (· == '/')
  rw [hs] at h
  rcases List.mem_append.1 h with h | h
  · exact h
  · exact absurd (by simpa using hall c h) hc

theorem head?_trimEndSlashes {t : Text} (h : t = [] ∨ t.head? = some '/') :
    t.trimEndSlashes = [] ∨ t.trimEndSlashes.head? = some '/' := by
  obtain ⟨s, hs, -⟩ := exists_eq_trimEnd_append t (· == '/')
  cases hb : t.trimEndSlashes with
  | nil => exact .inl rfl
  | cons c b =>
    rw [show t.trimEnd (· == '/') = t.trimEndSlashes from rfl, hb] at hs
    rcases h with rfl | h
    · simp at hs
    · right
      rw [hs] at h
      simpa using h

end Text

namespace Path

/-- The path is empty or begins with a slash. -/
def Rooted (p : Text) : Prop := p = [] ∨ p.head? = some '/'

theorem alike_two_slashes : Alike "//" "/" := rfl

theorem Rooted.alike_slash_append {p : Text} (h : Rooted p) :
    Alike (p ++ ['/']) ('/' :: p ++ ['/']) := by
  rcases h with rfl | h
  · rfl
  · obtain ⟨p, rfl⟩ := List.head?_eq_some_iff.1 h
    exact (alike_two_slashes.append (.refl (p ++ ['/']))).symm

end Path

namespace TenantSegment

/-- What stands around the tenant's segment of a directory once it is replaced. -/
structure Frame (dir : Text) where
  before : Text
  after : Text
  begins : before <+: dir
  slash_begins : before.getLast? = some '/' → before ++ ['/'] <+: dir
  ends : after <:+ dir
  rooted_after : Path.Rooted after
  replace_eq : ∀ body : Text, body ≠ [] → body.getLast? ≠ some '/' →
    replace dir ('/' :: body ++ ['/']) = before ++ '/' :: body ++ after
  alike_replace : ∀ name : Text,
    Path.Alike (replace dir ('/' :: name ++ ['/']) ++ ['/'])
      (before ++ '/' :: name ++ after ++ ['/'])

theorem Frame.rooted_before {dir : Text} (frame : Frame dir) (h : Path.Rooted dir) :
    Path.Rooted frame.before := by
  obtain ⟨rest, hdir⟩ := frame.begins
  cases hb : frame.before with
  | nil => exact .inl rfl
  | cons c b =>
    rw [← hdir, hb] at h
    exact .inr (by simpa [Path.Rooted] using h)

theorem Frame.mem_dir {dir : Text} (frame : Frame dir) (c : Char)
    (h : c ∈ frame.before ∨ c ∈ frame.after) : c ∈ dir :=
  h.elim (fun hc => frame.begins.subset hc) fun hc => frame.ends.subset hc

theorem trimEndSlashes_body {body : Text} (hne : body ≠ []) (hb : body.getLast? ≠ some '/') :
    Text.trimEndSlashes ('/' :: body ++ ['/']) = '/' :: body := by
  rw [Text.trimEndSlashes_concat_slash]
  refine Text.trimEndSlashes_of_getLast?_ne ?_
  rwa [List.getLast?_cons, List.getLast?_eq_some_getLast hne, Option.getD_some,
    ← List.getLast?_eq_some_getLast hne]

def Frame.ofEnd {dir before : Text} (hb : before <+: dir)
    (hslash : before.getLast? = some '/' → before ++ ['/'] <+: dir)
    (h : ∀ x, replace dir x = before ++ x.trimEndSlashes) : Frame dir where
  before := before
  after := []
  begins := hb
  slash_begins := hslash
  ends := List.nil_suffix
  rooted_after := .inl rfl
  replace_eq body hne hlast := by rw [h, trimEndSlashes_body hne hlast, List.append_nil]
  alike_replace name := by
    have htwo : Path.Alike ('/' :: name ++ ['/'] ++ ['/']) ('/' :: name ++ ['/']) := by
      rw [List.append_assoc]
      exact (Path.Alike.refl ('/' :: name)).append Path.alike_two_slashes
    have h' := (Path.Alike.refl before).append
      ((Text.alike_trimEndSlashes ('/' :: name ++ ['/'])).trans htwo)
    rw [h]
    simpa using h'

theorem nonempty_frame (dir : Text) : Nonempty (Frame dir) := by
  cases hs : dir.splitFirst? ('/' :: stem) with
  | none =>
    have hr : ∀ x, replace dir x = dir.trimEndSlashes ++ x.trimEndSlashes := fun x => by
      simp [replace, hs]
    obtain ⟨slashes, hdir, -⟩ := Text.exists_eq_trimEnd_append dir (· == '/')
    exact ⟨Frame.ofEnd ⟨slashes, hdir.symm⟩
      (fun h => absurd h dir.getLast?_trimEndSlashes_ne) hr⟩
  | some parts =>
    obtain ⟨before, rest⟩ := parts
    have hdir := Text.eq_of_splitFirst? hs
    have hbefore : before <+: dir := ⟨'/' :: stem ++ rest, by rw [hdir, List.append_assoc]⟩
    have hslash : before ++ ['/'] <+: dir := ⟨stem ++ rest, by rw [hdir]; simp⟩
    cases ha : rest.splitFirst? ['/'] with
    | none =>
      refine ⟨Frame.ofEnd hbefore (fun _ => hslash) fun x => ?_⟩
      simp [replace, hs, ha]
    | some parts =>
      obtain ⟨name, after⟩ := parts
      have hrest := Text.eq_of_splitFirst? ha
      have hr : ∀ x, replace dir x = before ++ x ++ after := fun x => by simp [replace, hs, ha]
      have hafter : '/' :: after <:+ dir := ⟨before ++ '/' :: stem ++ name, by
        rw [hdir, hrest]
        simp⟩
      exact ⟨{
        before := before
        after := '/' :: after
        begins := hbefore
        slash_begins := fun _ => hslash
        ends := hafter
        rooted_after := .inr rfl
        replace_eq := fun body _ _ => by simp [hr]
        alike_replace := fun name => by simp [hr, Path.Alike] }⟩

theorem Frame.rooted {dir : Text} (frame : Frame dir) (h : Path.Rooted dir) (name : Text) :
    Path.Rooted (frame.before ++ '/' :: name ++ frame.after) := by
  rcases frame.rooted_before h with hb | hb
  · rw [hb]
    exact .inr rfl
  · obtain ⟨b, hb⟩ := List.head?_eq_some_iff.1 hb
    rw [hb]
    exact .inr rfl

end TenantSegment

namespace CacheTarget

/-- Up to repeated slashes, a file below the document root that is written with the directory of a
tenant is the candidate. -/
theorem alike_candidate {c : CacheTarget} (hroot : c.documentRoot ≠ [])
    (hlast : c.documentRoot.getLast? ≠ some '/') {tenant : Option Tenant} {directory : Text}
    (hd : Path.Rooted directory)
    (h : Path.Alike (directory ++ ['/']) (c.directory tenant ++ ['/'])) (uri : Text)
    (tags : VariantTags) :
    Path.Alike (c.documentRoot ++ (directory ++ "/" ++ uri ++ "/" ++ tags.fileName))
      (c.candidate tenant uri tags) := by
  rw [candidate_eq_ofParts hlast]
  refine Path.Alike.trans ?_ (Path.alike_ofParts hroot _ _ _ tags.fileName_ne_nil).symm
  have hdir : Path.Alike (directory ++ ['/']) ('/' :: (c.directory tenant).trimSlashes ++ ['/']) :=
    hd.alike_slash_append.trans
      (((Path.Alike.refl ['/']).append h).trans (Text.alike_trimSlashes _).symm)
  have huri : Path.Alike (['/'] ++ (uri ++ ['/'])) ('/' :: uri.trimSlashes ++ ['/']) :=
    (Text.alike_trimSlashes uri).symm
  have hslash : Path.Alike (directory ++ ['/']) (directory ++ ['/'] ++ ['/']) := by
    rw [List.append_assoc]
    exact (Path.Alike.refl directory).append Path.alike_two_slashes.symm
  have h₁ : Path.Alike (directory ++ ['/'] ++ (uri ++ ['/']))
      (directory ++ ['/'] ++ (['/'] ++ (uri ++ ['/']))) := by
    rw [← List.append_assoc _ ['/'] (uri ++ ['/'])]
    exact hslash.append (.refl (uri ++ ['/']))
  have h₂ : Path.Alike (directory ++ ['/'] ++ (['/'] ++ (uri ++ ['/'])))
      ('/' :: (c.directory tenant).trimSlashes ++ (['/', '/'] ++ (uri.trimSlashes ++ ['/']))) := by
    simpa using hdir.append huri
  have h₃ : Path.Alike
      ('/' :: (c.directory tenant).trimSlashes ++ (['/', '/'] ++ (uri.trimSlashes ++ ['/'])))
      ('/' :: (c.directory tenant).trimSlashes ++ (['/'] ++ (uri.trimSlashes ++ ['/']))) :=
    (Path.Alike.refl _).append (Path.alike_two_slashes.append (.refl _))
  have h₄ := (Path.Alike.refl c.documentRoot).append
    (((h₁.trans h₂).trans h₃).append (.refl tags.fileName))
  simpa using h₄

end CacheTarget
end PageCache
