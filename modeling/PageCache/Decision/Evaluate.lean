import PageCache.Decision.Program

/-! Running a decision program for one request. Detection steps change the state, the other steps
may end the run; a program that does not end the run has no cached page. -/
namespace PageCache

inductive Decision where
  | selfTest
  | redirect (target : Text)
  | bypass (reason : Text)
  /-- No page is cached; the candidate is where it would be. -/
  | miss (candidate : Text)
  | serve (file : Text)
  deriving DecidableEq, Repr

/-- Whether the path asks for the test of rewriting. -/
def Request.isSelfTest (r : Request) : Bool :=
  match r.uri.stripSuffix? Program.selfTestToken with
  | some before => before.isEmpty || before.endsWith "/"
  | none => false

def Disqualifier.applies (d : Disqualifier) (r : Request) : Bool :=
  match d with
  | unsafeMethod => r.method.eqIgnoreCase "POST"
  | queryString => !r.query.isEmpty
  | trailingSlash true => !r.uri.endsWith "/"
  | trailingSlash false => r.uri.isEmpty || r.uri.endsWith "/"
  | rejectedUri pattern accepted =>
    Pattern.found true pattern r.uri && !accepted.any fun a => Pattern.found true a r.uri
  | rejectedCookie pattern => Pattern.found true pattern r.cookie
  | rejectedUserAgent pattern => Pattern.found true pattern r.userAgent

def Tenancy.tenant (t : Tenancy) (r : Request) : Tenant :=
  Tenant.ofRequest r.host r.uri <| match t with
    | domain => none
    | path pattern => some pattern

structure Findings where
  tenant : Option Tenant := none
  tags : VariantTags := {}
  deriving DecidableEq, Repr

namespace Findings

def setTag (f : Findings) (slot : TagSlot) (tag : Text) : Findings :=
  match slot with
  | .device => { f with tags := { f.tags with device := tag } }
  | .referrer => { f with tags := { f.tags with referrer := tag } }

def setTls (f : Findings) : Findings :=
  { f with tags := { f.tags with tls := VariantTags.tlsTag } }

def setGzip (f : Findings) : Findings :=
  { f with tags := { f.tags with encoding := VariantTags.gzipSuffix } }

def candidate (f : Findings) (target : CacheTarget) (r : Request) : Text :=
  target.candidate f.tenant ((f.tenant.map (·.uri)).getD r.uri) f.tags

end Findings

namespace Step

/-- Ends the run with a decision or goes on with the findings. -/
def run (r : Request) (fileExists : Text → Bool) (f : Findings) : Step → Decision ⊕ Findings
  | selfTest => if r.isSelfTest then .inl .selfTest else .inr f
  | redirect subject pattern target =>
    if Pattern.found true pattern (subject.value r) then .inl (.redirect target) else .inr f
  | detectTenant tenancy => .inr { f with tenant := some (tenancy.tenant r) }
  | classify slot candidates =>
    .inr (f.setTag slot (TagCandidate.select candidates (slot.subject.value r)))
  | detectTls => .inr (if r.isTls then f.setTls else f)
  | detectEncoding => .inr (if r.acceptsGzip then f.setGzip else f)
  | eligibility disqualifiers =>
    match disqualifiers.find? (·.applies r) with
    | some d => .inl (.bypass d.label)
    | none => .inr f
  | serve target =>
    let file := f.candidate target r
    .inl (if fileExists file then .serve file else .miss file)

end Step

namespace Program

def runSteps (r : Request) (fileExists : Text → Bool) : Findings → List Step → Decision
  | _, [] => .bypass "no_cache_target"
  | f, s :: steps =>
    match s.run r fileExists f with
    | .inl d => d
    | .inr f => runSteps r fileExists f steps

def evaluate (p : Program) (r : Request) (fileExists : Text → Bool) : Decision :=
  runSteps r fileExists {} p.steps

end Program
end PageCache
