import Mathlib
import PageCache.Decision.Evaluate

/-! A program in two parts: the steps in front, which end the run at once or add to the findings,
and the lookup that follows them. What the steps in front do does not depend on the files. -/
namespace PageCache

inductive Slot where
  | tenant
  | tag (slot : TagSlot)
  | tls
  | encoding
  deriving DecidableEq

namespace Step

def slot? : Step → Option Slot
  | detectTenant _ => some .tenant
  | classify slot _ => some (.tag slot)
  | detectTls => some .tls
  | detectEncoding => some .encoding
  | _ => none

/-- The step may stand in front of the lookup. -/
def isFront : Step → Bool
  | eligibility _ => false
  | serve _ => false
  | _ => true

/-- The decision with which a step in front ends the run. -/
def halt? (r : Request) : Step → Option Decision
  | selfTest => if r.isSelfTest then some .selfTest else none
  | redirect subject pattern target =>
    if Pattern.found true pattern (subject.value r) then some (.redirect target) else none
  | _ => none

/-- The findings after a step in front that does not end the run. -/
def find (r : Request) (f : Findings) : Step → Findings
  | detectTenant tenancy => { f with tenant := some (tenancy.tenant r) }
  | classify slot candidates => f.setTag slot (TagCandidate.select candidates (slot.subject.value r))
  | detectTls => if r.isTls then f.setTls else f
  | detectEncoding => if r.acceptsGzip then f.setGzip else f
  | _ => f

theorem run_of_isFront {s : Step} (h : s.isFront = true) (r : Request) (fileExists : Text → Bool)
    (f : Findings) : s.run r fileExists f =
      match s.halt? r with
      | some d => .inl d
      | none => .inr (s.find r f) := by
  cases s with
  | selfTest => cases hs : r.isSelfTest <;> simp [run, halt?, find, hs]
  | redirect subject pattern target =>
    cases hf : Pattern.found true pattern (subject.value r) <;> simp [run, halt?, find, hf]
  | eligibility ds => cases h
  | serve target => cases h
  | _ => rfl

end Step

def Findings.after (r : Request) (f : Findings) (steps : List Step) : Findings :=
  steps.foldl (fun f s => s.find r f) f

theorem Findings.after_append (r : Request) (f : Findings) (a b : List Step) :
    f.after r (a ++ b) = (f.after r a).after r b := List.foldl_append

namespace Program

theorem runSteps_front {r : Request} {fileExists : Text → Bool} {steps : List Step}
    (h : ∀ s ∈ steps, s.isFront = true) (f : Findings) (rest : List Step) :
    runSteps r fileExists f (steps ++ rest) =
      match steps.findSome? (·.halt? r) with
      | some d => d
      | none => runSteps r fileExists (f.after r steps) rest := by
  induction steps generalizing f with
  | nil => rfl
  | cons s steps ih =>
    obtain ⟨hs, hsteps⟩ := List.forall_mem_cons.1 h
    rw [List.cons_append, runSteps, Step.run_of_isFront hs, List.findSome?_cons]
    cases s.halt? r with
    | some d => rfl
    | none => exact ih hsteps _

def detection (p : Policy) (s : Site) : List Step :=
  ((Tenancy.ofPolicy p s).map Step.detectTenant).toList ++
    [classification p.deviceGroups .device, classification p.referrerGroups .referrer,
      .detectTls] ++
    if p.compression then [.detectEncoding] else []

def front (p : Policy) (s : Site) : List Step :=
  .selfTest :: (redirects p.deviceGroups .userAgent ++
    (redirects p.referrerGroups .referrerCookie ++ detection p s))

def lookup (p : Policy) (s : Site) : List Step :=
  [.eligibility (Disqualifier.ofPolicy p), .serve (CacheTarget.ofSite s (Tenancy.ofPolicy p s))]

theorem build_steps (p : Policy) (s : Site) : (build p s).steps = front p s ++ lookup p s := by
  simp [build, front, lookup, detection]

theorem exists_of_mem_redirects {groups : List Group} {subject : Subject} {s : Step}
    (h : s ∈ redirects groups subject) : ∃ pattern target, s = .redirect subject pattern target := by
  obtain ⟨g, -, hg⟩ := List.mem_filterMap.1 h
  split at hg
  · obtain ⟨t, -, rfl⟩ := Option.map_eq_some_iff.1 hg
    exact ⟨_, _, rfl⟩
  · cases hg

theorem isFront_of_mem_redirects {groups : List Group} {subject : Subject} {s : Step}
    (h : s ∈ redirects groups subject) : s.isFront = true := by
  obtain ⟨pattern, target, rfl⟩ := exists_of_mem_redirects h
  rfl

theorem isFront_of_mem_detection {p : Policy} {site : Site} {s : Step}
    (h : s ∈ detection p site) : s.isFront = true := by
  have hall : (detection p site).all Step.isFront = true := by
    unfold detection
    cases Tenancy.ofPolicy p site <;> cases p.compression <;> rfl
  exact List.all_eq_true.1 hall s h

theorem halt?_detection (p : Policy) (s : Site) (r : Request) :
    (detection p s).findSome? (·.halt? r) = none := by
  unfold detection
  cases Tenancy.ofPolicy p s <;> cases p.compression <;> rfl

theorem isFront_of_mem_front {p : Policy} {site : Site} {s : Step} (h : s ∈ front p site) :
    s.isFront = true := by
  rcases List.mem_cons.1 h with rfl | h
  · rfl
  · rcases List.mem_append.1 h with h | h
    · exact isFront_of_mem_redirects h
    · exact (List.mem_append.1 h).elim isFront_of_mem_redirects isFront_of_mem_detection

end Program
end PageCache
