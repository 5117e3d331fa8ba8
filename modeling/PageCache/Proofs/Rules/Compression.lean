import PageCache.Proofs.Apache.Headers
import PageCache.Proofs.Apache.Words
import PageCache.Proofs.Decision.Vary
import PageCache.Proofs.Nginx.Locations
import PageCache.Proofs.Nginx.Words

/-! Compressed pages in the rules of both servers. The routing rules look for them exactly if the
header rules declare them as compressed, and only then does a request lead to one. -/
namespace PageCache

attribute [local irreducible] Pattern.captures? Pattern.found

namespace Program

variable {p : Policy} {s : Site} {r : Request} {fileExists : Text → Bool} {file : Text}

/-- A request leads to a compressed page if there are compressed pages and it accepts them. -/
theorem gzip_suffix_file_iff (h : ((build p s).evaluate r fileExists).file? = some file) :
    VariantTags.gzipSuffix <:+ file ↔ p.compression = true ∧ r.acceptsGzip = true := by
  obtain ⟨lead, hlead⟩ := exists_candidate_eq p s r.uri (p.tenant? s r)
  have hfile : file = lead ++ (p.tags r).fileName := by rw [eq_candidate_of_file? h, hlead r rfl rfl]
  have hencoding : (p.tags r).encoding = VariantTags.gzipSuffix ↔
      p.compression = true ∧ r.acceptsGzip = true := by
    cases hc : p.compression <;> cases hg : r.acceptsGzip <;>
      simp [Policy.tags, hc, hg, VariantTags.gzipSuffix]
  rw [hfile, ← hencoding]
  constructor
  · intro hsuffix
    -- The endings of file names are told apart without their dots.
    have hgzip : ("gzip" : Text) <:+ lead ++ (p.tags r).fileName :=
      (List.suffix_cons '.' _).trans hsuffix
    exact (VariantTags.gzip_suffix_fileName_iff (p.encoding_tags r)).1
      (List.suffix_of_suffix_length_le hgzip (List.suffix_append _ _)
        (p.tags r).four_le_length_fileName)
  · intro hgzip
    rw [VariantTags.fileName, hgzip, ← List.append_assoc]
    exact List.suffix_append _ _

end Program

/-- The directives do not look at the encodings that a request accepts, and the file that they serve
is a page that is not compressed: behind its extension stands no variable. -/
structure IgnoresEncoding {α : Type} (detects : α → Bool) (served? : α → Option Text)
    (ds : List α) : Prop where
  undetected : ds.any detects = false
  served : ∃ file, ds.filterMap served? = [file] ∧ VariantTags.htmlExtension <:+ file

theorem ignoresEncoding_iff {α : Type} {detects : α → Bool} {served? : α → Option Text}
    {ds : List α} {compression : Bool} {file : Text} (hdetects : ds.any detects = compression)
    (hserved : ds.filterMap served? = [file])
    (hfile : compression = false → VariantTags.htmlExtension <:+ file) :
    IgnoresEncoding detects served? ds ↔ compression = false :=
  ⟨fun h => hdetects.symm.trans h.undetected,
    fun hnone => ⟨hdetects.trans hnone, file, hserved, hfile hnone⟩⟩

namespace Program

theorem lookups_build (p : Policy) (s : Site) :
    (build p s).steps.flatMap Step.lookups = [CacheTarget.ofPolicy p s] := by
  have hred (groups : List Group) (subject : Subject) :
      (redirects groups subject).flatMap Step.lookups = [] := by
    refine List.flatMap_eq_nil_iff.2 fun x hx => ?_
    obtain ⟨pattern, target, rfl⟩ := exists_of_mem_redirects hx
    rfl
  simp only [build_steps, front, detection, lookup, classification, List.flatMap_append,
    List.flatMap_cons, hred, CacheTarget.ofPolicy]
  cases Tenancy.ofPolicy p s <;> cases p.compression <;> rfl

variable {α : Type} {emit : Step → List α} {detects : α → Bool} {served? : α → Option Text}
  {file : CacheTarget → Text}

/-- What only the detection of the encoding writes is there if pages are compressed. -/
theorem any_flatMap_build
    (h : ∀ x, (emit x).any detects = decide (x = .detectEncoding)) (p : Policy) (s : Site) :
    ((build p s).steps.flatMap emit).any detects = p.compression := by
  rw [List.any_flatMap, ← detectsEncoding_build p s, detectsEncoding, List.contains_eq_any_beq]
  refine List.any_congr rfl fun x => ?_
  rw [h, Bool.eq_iff_iff, decide_eq_true_iff, beq_iff_eq, eq_comm]

theorem filterMap_flatMap_build
    (h : ∀ x, (emit x).filterMap served? = x.lookups.map file) (p : Policy) (s : Site) :
    ((build p s).steps.flatMap emit).filterMap served? = [file (.ofPolicy p s)] := by
  rw [List.filterMap_flatMap, List.flatMap_congr fun x _ => h x, ← List.map_flatMap, lookups_build]
  rfl

end Program

namespace Apache

def RuleFlag.notesEncoding : RuleFlag → Bool
  | .env name _ => name = "PGC_ENC"
  | _ => false

/-- The directive looks at the encodings that a request accepts, or notes one of them. -/
def Directive.detectsEncoding : Directive → Bool
  | .cond subject _ _ _ => subject = .bare "%\x7bHTTP:Accept-Encoding\x7d"
  | .rule _ _ flags => flags.any RuleFlag.notesEncoding
  | _ => false

/-- The file that is served, if the directive serves one. -/
def Directive.served? : Directive → Option Text
  | .rule _ (.inQuotes file) [.last] => some file
  | _ => none

section
variable (tenancy : Option Tenancy) (encoding : Text)

theorem any_detectsEncoding_stepDirectives (x : Step) :
    (stepDirectives tenancy encoding x).any Directive.detectsEncoding =
      decide (x = .detectEncoding) := by
  cases x with
  | selfTest => rfl
  | redirect subject pattern target => cases subject <;> rfl
  | detectTenant t => cases t <;> rfl
  | classify slot candidates =>
    rw [stepDirectives, classifyDirectives, List.any_flatMap]
    refine List.any_eq_false.2 fun c _ => ?_
    cases slot <;> exact Bool.false_ne_true
  | detectTls => rfl
  | detectEncoding => rfl
  | eligibility ds =>
    rw [stepDirectives, List.any_flatMap]
    refine List.any_eq_false.2 fun d _ => ?_
    rcases d with _ | _ | (_ | _) | ⟨_, _ | _⟩ | _ | _ <;> exact Bool.false_ne_true
  | serve target => rfl

theorem filterMap_served?_stepDirectives (x : Step) :
    (stepDirectives tenancy encoding x).filterMap Directive.served? =
      x.lookups.map (cacheFile · tenancy encoding) := by
  cases x with
  | detectTenant t => cases t <;> rfl
  | classify slot candidates =>
    rw [stepDirectives, classifyDirectives, List.filterMap_flatMap]
    exact List.flatMap_eq_nil_iff.2 fun c _ => rfl
  | eligibility ds =>
    rw [stepDirectives, List.filterMap_flatMap]
    refine List.flatMap_eq_nil_iff.2 fun d _ => ?_
    rcases d with _ | _ | (_ | _) | ⟨_, _ | _⟩ | _ | _ <;> rfl
  | _ => rfl

end

theorem suffix_cacheFile (target : CacheTarget) (tenancy : Option Tenancy) :
    VariantTags.htmlExtension <:+ cacheFile target tenancy [] := by
  rcases tenancy with _ | _ | _ <;> exact ⟨_, (List.append_nil _).symm⟩

theorem any_detectsEncoding_coreDirectives (p : Policy) (s : Site) :
    (coreDirectives (.build p s)).any Directive.detectsEncoding = p.compression := by
  rw [coreDirectives_build]
  exact Program.any_flatMap_build (any_detectsEncoding_stepDirectives _ _) p s

theorem filterMap_served?_coreDirectives (p : Policy) (s : Site) :
    (coreDirectives (.build p s)).filterMap Directive.served? =
      [cacheFile (.ofPolicy p s) (Tenancy.ofPolicy p s) (encodingOf (.build p s))] := by
  rw [coreDirectives_build]
  exact Program.filterMap_flatMap_build (filterMap_served?_stepDirectives _ _) p s

/-- The directives know of no compressed pages. -/
def IgnoresEncoding (ds : List Directive) : Prop :=
  PageCache.IgnoresEncoding Directive.detectsEncoding Directive.served? ds

theorem ignoresEncoding_coreDirectives_iff (p : Policy) (s : Site) :
    IgnoresEncoding (coreDirectives (.build p s)) ↔ p.compression = false := by
  refine ignoresEncoding_iff (any_detectsEncoding_coreDirectives p s)
    (filterMap_served?_coreDirectives p s) fun hnone => ?_
  have hencoding : encodingOf (.build p s) = [] := by
    rw [encodingOf, Program.detectsEncoding_build, hnone]
    rfl
  rw [hencoding]
  exact suffix_cacheFile _ _

/-- The sections declare files with the suffix of compressed pages as such. -/
def DeclaresGzip (sections : List Section) : Prop :=
  ∃ x ∈ sections, x.module? = some ("mod_mime.c" : Text) ∧
    "AddEncoding gzip " ++ VariantTags.gzipSuffix ∈ x.lines

theorem declaresGzip_cacheSections_iff (plan : HeaderPlan) :
    DeclaresGzip (cacheSections plan) ↔ plan.compression = true := by
  constructor
  · rintro ⟨x, hx, hmodule, -⟩
    by_contra hnone
    -- No other section is one of the module.
    rw [cacheSections, if_neg hnone, List.append_nil, List.mem_append, List.mem_append] at hx
    rcases hx with (hx | hx) | hx
    · rw [List.mem_singleton.1 hx] at hmodule
      cases hmodule
    · obtain ⟨n, -, rfl⟩ := Option.map_eq_some_iff.1 (Option.mem_toList.1 hx)
      exact absurd (Option.some.inj hmodule) (by decide)
    · rw [List.mem_singleton.1 hx] at hmodule
      exact absurd (Option.some.inj hmodule) (by decide)
  · intro h
    have hsections : ∀ x ∈ compressionSections, x ∈ cacheSections plan := fun x hx => by
      rw [cacheSections, if_pos h]
      simp [hx]
    exact ⟨_, hsections _ (.head _), rfl, .tail _ (.head _)⟩

end Apache

namespace Nginx

def Action.notesEncoding : Action → Bool
  | .set target _ => target = "$pgc_enc"
  | _ => false

def Condition.subject? : Condition → Option Text
  | .test subject _ _ | .equal subject _ | .notEqual subject _ => some subject
  | .noFile _ => none

/-- The directive looks at the encodings that a request accepts, or notes one of them. -/
def Directive.detectsEncoding : Directive → Bool
  | .act a => a.notesEncoding
  | .block c body =>
    c.subject? = some ("$http_accept_encoding" : Text) || body.any Action.notesEncoding

/-- The file that is served, if the directive serves one. -/
def Directive.served? : Directive → Option Text
  | .block _ [.rewrite _ (.inQuotes file) .last] => some file
  | _ => none

section
variable (tenancy : Option Tenancy) (encoding : Text)

theorem any_detectsEncoding_stepDirectives (x : Step) :
    (stepDirectives tenancy encoding x).any Directive.detectsEncoding =
      decide (x = .detectEncoding) := by
  cases x with
  | selfTest => rfl
  | redirect subject pattern target => cases subject <;> rfl
  | detectTenant t => cases t <;> rfl
  | classify slot candidates =>
    rw [stepDirectives, classifyDirectives, List.any_cons, List.any_map]
    refine Bool.or_eq_false_iff.2 ⟨by cases slot <;> rfl, List.any_eq_false.2 fun c _ => ?_⟩
    cases slot <;> exact Bool.false_ne_true
  | detectTls => rfl
  | detectEncoding => rfl
  | eligibility ds =>
    rw [stepDirectives, List.any_cons, List.any_flatMap]
    refine Bool.or_eq_false_iff.2 ⟨rfl, List.any_eq_false.2 fun d _ => ?_⟩
    rcases d with _ | _ | (_ | _) | ⟨_, _ | _⟩ | _ | _ <;> exact Bool.false_ne_true
  | serve target => rfl

theorem filterMap_served?_stepDirectives (x : Step) :
    (stepDirectives tenancy encoding x).filterMap Directive.served? =
      x.lookups.map (cacheFile · tenancy encoding) := by
  cases x with
  | detectTenant t => cases t <;> rfl
  | classify slot candidates =>
    rw [stepDirectives, classifyDirectives, List.filterMap_cons_none rfl, List.filterMap_map]
    exact List.filterMap_eq_nil_iff.2 fun c _ => rfl
  | eligibility ds =>
    rw [stepDirectives, List.filterMap_cons_none rfl, List.filterMap_flatMap]
    refine List.flatMap_eq_nil_iff.2 fun d _ => ?_
    rcases d with _ | _ | (_ | _) | ⟨_, _ | _⟩ | _ | _ <;> rfl
  | _ => rfl

end

theorem suffix_cacheFile (target : CacheTarget) (tenancy : Option Tenancy) :
    VariantTags.htmlExtension <:+ cacheFile target tenancy [] := by
  rcases tenancy with _ | _ | _ <;> exact ⟨_, (List.append_nil _).symm⟩

theorem any_detectsEncoding_coreDirectives (p : Policy) (s : Site) :
    (coreDirectives (.build p s)).any Directive.detectsEncoding = p.compression := by
  rw [coreDirectives_build]
  exact Program.any_flatMap_build (any_detectsEncoding_stepDirectives _ _) p s

theorem filterMap_served?_coreDirectives (p : Policy) (s : Site) :
    (coreDirectives (.build p s)).filterMap Directive.served? =
      [cacheFile (.ofPolicy p s) (Tenancy.ofPolicy p s) (encodingOf (.build p s))] := by
  rw [coreDirectives_build]
  exact Program.filterMap_flatMap_build (filterMap_served?_stepDirectives _ _) p s

/-- The directives know of no compressed pages. -/
def IgnoresEncoding (ds : List Directive) : Prop :=
  PageCache.IgnoresEncoding Directive.detectsEncoding Directive.served? ds

theorem ignoresEncoding_coreDirectives_iff (p : Policy) (s : Site) :
    IgnoresEncoding (coreDirectives (.build p s)) ↔ p.compression = false := by
  refine ignoresEncoding_iff (any_detectsEncoding_coreDirectives p s)
    (filterMap_served?_coreDirectives p s) fun hnone => ?_
  have hencoding : encodingOf (.build p s) = [] := by
    rw [encodingOf, Program.detectsEncoding_build, hnone]
    rfl
  rw [hencoding]
  exact suffix_cacheFile _ _

/-- There is a location for compressed pages, and it declares them as such. -/
def DeclaresGzip (ls : List Location) : Prop :=
  ∃ l, locationOf? "gzip" ls = some l ∧ ("add_header Content-Encoding gzip;" : Text) ∈ l.lines

theorem declaresGzip_locations_iff (plan : HeaderPlan) (target : CacheTarget) :
    DeclaresGzip (locations plan target) ↔ plan.compression = true := by
  rw [DeclaresGzip, locationOf?_gzip]
  cases plan.compression with
  | false => simp
  | true => simp [gzipLines]

end Nginx

end PageCache
