import PageCache.Proofs.Decision.Front

/-! In which order steps may stand. A detection writes one slot of the findings, and what it writes
there depends on nothing that other slots hold; a check reads the request alone. So detections of
different slots may change places, and a detection may change places with a check, anywhere in any
program. -/
namespace PageCache

attribute [local irreducible] Pattern.captures? Pattern.found

def Slot.Value : Slot → Type
  | tenant => Option Tenant
  | _ => Text

namespace Findings

variable {f g : Findings} {slot : TagSlot} {x : Slot}

def value (f : Findings) : (x : Slot) → x.Value
  | .tenant => f.tenant
  | .tag .device => f.tags.device
  | .tag .referrer => f.tags.referrer
  | .tls => f.tags.tls
  | .encoding => f.tags.encoding

theorem ext_value (h : ∀ x, f.value x = g.value x) : f = g := by
  obtain ⟨tenant, device, referrer, tls, encoding⟩ := f
  obtain ⟨tenant', device', referrer', tls', encoding'⟩ := g
  obtain rfl : tenant = tenant' := h .tenant
  obtain rfl : device = device' := h (.tag .device)
  obtain rfl : referrer = referrer' := h (.tag .referrer)
  obtain rfl : tls = tls' := h .tls
  obtain rfl : encoding = encoding' := h .encoding
  rfl

theorem value_setTenant_of_ne (h : x ≠ .tenant) (t : Option Tenant) :
    { f with tenant := t }.value x = f.value x := by
  match x with
  | .tenant => exact absurd rfl h
  | .tag .device | .tag .referrer | .tls | .encoding => rfl

theorem value_setTag_self (tag : Text) : (f.setTag slot tag).value (.tag slot) = tag := by
  cases slot <;> rfl

theorem value_setTag_of_ne (h : x ≠ .tag slot) (tag : Text) :
    (f.setTag slot tag).value x = f.value x := by
  match slot, x with
  | .device, .tag .device | .referrer, .tag .referrer => exact absurd rfl h
  | .device, .tag .referrer | .referrer, .tag .device => rfl
  | .device, .tenant | .device, .tls | .device, .encoding => rfl
  | .referrer, .tenant | .referrer, .tls | .referrer, .encoding => rfl

theorem value_setTls_of_ne (h : x ≠ .tls) : f.setTls.value x = f.value x := by
  match x with
  | .tls => exact absurd rfl h
  | .tenant | .tag .device | .tag .referrer | .encoding => rfl

theorem value_setGzip_of_ne (h : x ≠ .encoding) : f.setGzip.value x = f.value x := by
  match x with
  | .encoding => exact absurd rfl h
  | .tenant | .tag .device | .tag .referrer | .tls => rfl

end Findings

namespace Step

variable {a b s : Step} {r : Request} {fileExists : Text → Bool} {f g : Findings} {x : Slot}

/-- A step leaves every slot alone but the one that it writes. -/
theorem value_find_of_ne (h : s.slot? ≠ some x) : (s.find r f).value x = f.value x := by
  have hx : ∀ y, s.slot? = some y → x ≠ y := fun y hy he => h (he ▸ hy)
  cases s with
  | detectTenant tenancy => exact Findings.value_setTenant_of_ne (hx _ rfl) _
  | classify slot candidates => exact Findings.value_setTag_of_ne (hx _ rfl) _
  | detectTls =>
    change (if r.isTls then f.setTls else f).value x = f.value x
    split
    · exact Findings.value_setTls_of_ne (hx _ rfl)
    · rfl
  | detectEncoding =>
    change (if r.acceptsGzip then f.setGzip else f).value x = f.value x
    split
    · exact Findings.value_setGzip_of_ne (hx _ rfl)
    · rfl
  | _ => rfl

/-- What a step writes depends on its own slot only. -/
theorem value_find_congr (hx : s.slot? = some x) (h : f.value x = g.value x) :
    (s.find r f).value x = (s.find r g).value x := by
  cases s with
  | detectTenant tenancy =>
    obtain rfl := Option.some.inj hx
    rfl
  | classify slot candidates =>
    obtain rfl := Option.some.inj hx
    exact (Findings.value_setTag_self _).trans (Findings.value_setTag_self _).symm
  | detectTls =>
    obtain rfl := Option.some.inj hx
    change (if r.isTls then f.setTls else f).value .tls = (if r.isTls then g.setTls else g).value .tls
    split
    · rfl
    · exact h
  | detectEncoding =>
    obtain rfl := Option.some.inj hx
    change (if r.acceptsGzip then f.setGzip else f).value .encoding =
      (if r.acceptsGzip then g.setGzip else g).value .encoding
    split
    · rfl
    · exact h
  | _ => cases hx

theorem find_comm (h : a.slot? ≠ b.slot?) (f : Findings) :
    b.find r (a.find r f) = a.find r (b.find r f) := by
  refine Findings.ext_value fun x => ?_
  by_cases hb : b.slot? = some x
  · have ha : a.slot? ≠ some x := fun ha => h (ha.trans hb.symm)
    calc (b.find r (a.find r f)).value x
        = (b.find r f).value x := value_find_congr hb (value_find_of_ne ha)
      _ = (a.find r (b.find r f)).value x := (value_find_of_ne ha).symm
  · rw [value_find_of_ne hb]
    by_cases ha : a.slot? = some x
    · exact value_find_congr ha (value_find_of_ne hb).symm
    · rw [value_find_of_ne ha, value_find_of_ne ha, value_find_of_ne hb]

def isDetection : Step → Bool
  | detectTenant _ | classify .. | detectTls | detectEncoding => true
  | _ => false

/-- The step asks something of the request, and the answer may end the run. -/
def isCheck : Step → Bool
  | selfTest | redirect .. | eligibility _ => true
  | _ => false

/-- The decision with which a check ends the run. -/
def refusal? (r : Request) : Step → Option Decision
  | eligibility ds => (ds.find? (·.applies r)).map fun d => .bypass d.label
  | s => s.halt? r

/-- Two steps of which neither can tell whether the other one came before it: detections that write
different slots, or a detection and a check. -/
def Independent (a b : Step) : Prop :=
  (a.isDetection = true ∧ b.isDetection = true ∧ a.slot? ≠ b.slot?) ∨
    (a.isDetection = true ∧ b.isCheck = true) ∨ (a.isCheck = true ∧ b.isDetection = true)

instance (a b : Step) : Decidable (a.Independent b) := inferInstanceAs (Decidable (_ ∨ _))

theorem run_of_isDetection (h : a.isDetection = true) :
    a.run r fileExists f = .inr (a.find r f) := by
  cases a with
  | detectTenant _ => rfl
  | classify _ _ => rfl
  | detectTls => rfl
  | detectEncoding => rfl
  | _ => cases h

/-- A check ends the run or leaves the findings as they are, whatever they are. -/
theorem run_of_isCheck (h : a.isCheck = true) (f : Findings) :
    a.run r fileExists f =
      match a.refusal? r with
      | some d => .inl d
      | none => .inr f := by
  cases a with
  | eligibility ds =>
    cases hd : ds.find? (·.applies r) <;> simp [run, refusal?, hd]
  | selfTest => exact run_of_isFront rfl r fileExists f
  | redirect subject pattern target => exact run_of_isFront rfl r fileExists f
  | _ => cases h

end Step

namespace Program

variable {a b : Step} {r : Request} {fileExists : Text → Bool} {f : Findings}

theorem runSteps_detection (h : a.isDetection = true) (rest : List Step) :
    runSteps r fileExists f (a :: rest) = runSteps r fileExists (a.find r f) rest := by
  rw [runSteps, Step.run_of_isDetection h]

theorem runSteps_check (h : a.isCheck = true) (rest : List Step) :
    runSteps r fileExists f (a :: rest) =
      match a.refusal? r with
      | some d => d
      | none => runSteps r fileExists f rest := by
  rw [runSteps, Step.run_of_isCheck h]
  cases a.refusal? r <;> rfl

theorem runSteps_detection_check (ha : a.isDetection = true) (hb : b.isCheck = true)
    (rest : List Step) :
    runSteps r fileExists f (a :: b :: rest) = runSteps r fileExists f (b :: a :: rest) := by
  rw [runSteps_detection ha, runSteps_check hb, runSteps_check hb, runSteps_detection ha]

theorem runSteps_swap (h : a.Independent b) (f : Findings) (rest : List Step) :
    runSteps r fileExists f (a :: b :: rest) = runSteps r fileExists f (b :: a :: rest) := by
  rcases h with ⟨ha, hb, hne⟩ | ⟨ha, hb⟩ | ⟨ha, hb⟩
  · rw [runSteps_detection ha, runSteps_detection hb, runSteps_detection hb,
      runSteps_detection ha, Step.find_comm hne]
  · exact runSteps_detection_check ha hb rest
  · exact (runSteps_detection_check hb ha rest).symm

/-- Steps that decide alike from all findings decide alike behind any other steps. -/
theorem runSteps_append_congr {x y : List Step}
    (h : ∀ f, runSteps r fileExists f x = runSteps r fileExists f y) (before : List Step)
    (f : Findings) :
    runSteps r fileExists f (before ++ x) = runSteps r fileExists f (before ++ y) := by
  induction before generalizing f with
  | nil => exact h f
  | cons s before ih =>
    rw [List.cons_append, List.cons_append, runSteps, runSteps]
    cases s.run r fileExists f with
    | inl d => rfl
    | inr g => exact ih g

/-- Two independent steps that follow each other may change places in any program. -/
theorem evaluate_swap (h : a.Independent b) (base : Text) (before after : List Step) (r : Request)
    (fileExists : Text → Bool) :
    evaluate ⟨base, before ++ a :: b :: after⟩ r fileExists =
      evaluate ⟨base, before ++ b :: a :: after⟩ r fileExists :=
  runSteps_append_congr (fun f => runSteps_swap h f after) before {}

/-- The tenant is detected before or behind a check, between steps that are repeated. -/
theorem evaluate_swap_tenant :
    let a : Step := .detectTenant .domain
    let b : Step := .eligibility [.unsafeMethod, .queryString]
    let before : List Step := [.selfTest, .classify .device [⟨"(Tablet)", "_tablet"⟩], .detectTls]
    let site : Site := { cacheDir := "/srv/www/cache/pgc-example.com/page" }
    let after : List Step :=
      [.classify .device [⟨"(Mobile)", "_mobile"⟩], .detectTls,
        .serve (CacheTarget.ofSite site (some .domain))]
    let r : Request :=
      { uri := "/post/", host := "www.example.org", userAgent := "Mobile Tablet", https := true }
    let file : Text := "/srv/www/cache/pgc-example.org/page/post/_index_mobile_ssl.html"
    a.Independent b ∧
      evaluate ⟨"/", before ++ a :: b :: after⟩ r (fun _ => true) =
        evaluate ⟨"/", before ++ b :: a :: after⟩ r (fun _ => true) ∧
      evaluate ⟨"/", before ++ b :: a :: after⟩ r (fun _ => true) = .serve file := by
  intro a b before site after r file
  have h : a.Independent b := by decide
  exact ⟨h, evaluate_swap h "/" before after r _, by decide +kernel⟩

end Program
end PageCache
