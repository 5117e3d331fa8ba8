import PageCache.Nginx.Rules
import PageCache.Proofs.Decision.Written
import PageCache.Proofs.Text.Pieces

/-! How Nginx runs directives of the rewrite module: from top to bottom, with variables that are set
and the groups of the last match. A rewrite that matches ends the run. -/
namespace PageCache.Nginx

inductive Outcome where
  /-- The rewrite with the pattern has ended the run. -/
  | rewritten (pattern target : Text) (flag : RewriteFlag)
  /-- All directives have been run. -/
  | passed
  /-- A variable was read that had not been set. -/
  | unset (name : Text)
  deriving DecidableEq, Repr

def builtins (ctx : Context) : List (Text × Text) :=
  [("$request_uri", ctx.request.uri), ("$request_method", ctx.request.method),
    ("$query_string", ctx.request.query), ("$http_host", ctx.request.host),
    ("$http_user_agent", ctx.request.userAgent), ("$http_cookie", ctx.request.cookie),
    ("$http_accept_encoding", ctx.request.acceptEncoding),
    ("$scheme", if ctx.request.https then "https" else "http"),
    ("$server_port", Text.ofNat ctx.request.port), ("$document_root", ctx.documentRoot)]

/-- The variables set so far, the most recent first, and the groups of the last match. -/
structure State where
  assigned : List (Text × Text) := []
  groups : List (Nat × Text) := []
  deriving DecidableEq, Repr

/-- The state after a match, whose groups replace those of the last one. -/
def State.bind (σ : State) (ignoreCase : Bool) (pattern v : Text) : State :=
  { σ with groups := (Pattern.captures? ignoreCase pattern v).getD σ.groups }

def isNameChar (c : Char) : Bool := c.isAlphanum || c == '_'

/-- The name after a dollar sign, and the text after the name. A digit is a name by itself. -/
def splitName : Text → Text × Text
  | [] => ([], [])
  | c :: t =>
    if c.isDigit then ([c], t) else ((c :: t).takeWhile isNameChar, (c :: t).dropWhile isNameChar)

def value (ctx : Context) (σ : State) (name : Text) : Except Outcome Text :=
  match name with
  | [c] => if c.isDigit then .ok ((σ.groups.lookup (c.toNat - '0'.toNat)).getD []) else named
  | _ => named
where
  named : Except Outcome Text :=
    match (builtins ctx ++ σ.assigned).lookup ('$' :: name) with
    | some v => .ok v
    | none => .error (.unset ('$' :: name))

/-- The text with values in the place of names after dollar signs. -/
def expand (ctx : Context) (σ : State) (t : Text) : Except Outcome Text :=
  match t.splitOn '$' with
  | [] => .ok []
  | plain :: pieces => do
    let values ← pieces.mapM fun piece => do
      let v ← value ctx σ (splitName piece).1
      return v ++ (splitName piece).2
    return plain ++ values.flatten

def word (ctx : Context) (σ : State) (w : Word) : Except Outcome Text :=
  if w.verbatim then .ok w.text else expand ctx σ w.text

/-- The text would go on with a name in front of it. -/
def goesOn (t : Text) : Bool := t.head?.any isNameChar

/-- Wherever the text stands in front of a text that does not go on with a name, it is replaced by
the value. -/
def Expands (ctx : Context) (σ : State) (t v : Text) : Prop :=
  ∀ rest : Text, goesOn rest = false →
    expand ctx σ (t ++ rest) = (v ++ ·) <$> expand ctx σ rest

section
variable {ctx : Context} {σ : State} {t u v w : Text}

theorem expand_append (ht : '$' ∉ t) (rest : Text) :
    expand ctx σ (t ++ rest) = (t ++ ·) <$> expand ctx σ rest := by
  obtain ⟨piece, pieces, h, -⟩ := Text.exists_splitOn_eq_cons rest '$'
  simp only [expand, h, Text.splitOn_append ht h, map_bind, map_pure, List.append_assoc]

theorem Expands.literal_append (ht : '$' ∉ t) (hu : Expands ctx σ u w) :
    Expands ctx σ (t ++ u) (t ++ w) := fun rest hrest => by
  rw [List.append_assoc, expand_append ht, hu rest hrest, Functor.map_map]
  simp only [List.append_assoc]

theorem Expands.append (ht : Expands ctx σ t v) (hu : Expands ctx σ u w)
    (hnext : goesOn u = false) :
    Expands ctx σ (t ++ u) (v ++ w) := fun rest hrest => by
  have hboth : goesOn (u ++ rest) = false := by
    cases u with
    | nil => exact hrest
    | cons d u => exact hnext
  rw [List.append_assoc, ht _ hboth, hu rest hrest, Functor.map_map]
  simp only [List.append_assoc]

theorem Expands.literal (ht : '$' ∉ t) : Expands ctx σ t t := fun rest _ => expand_append ht rest

theorem Expands.expand_eq (h : Expands ctx σ t v) : expand ctx σ t = .ok v := by
  have hnil := h [] rfl
  rw [List.append_nil] at hnil
  rw [hnil, show expand ctx σ [] = .ok [] from rfl]
  exact congrArg Except.ok (List.append_nil v)

/-- The name of a variable, which is no digit. -/
def isName (name : Text) : Bool :=
  name.all isNameChar && !name.head?.any Char.isDigit && decide (2 ≤ name.length)

theorem splitName_append {name : Text} (hname : isName name = true) {rest : Text}
    (hrest : goesOn rest = false) :
    splitName (name ++ rest) = (name, rest) := by
  simp only [isName, Bool.and_eq_true, List.all_eq_true, Bool.not_eq_true',
    decide_eq_true_eq] at hname
  obtain ⟨⟨hall, hdigit⟩, hlong⟩ := hname
  cases name with
  | nil => simp at hlong
  | cons c name =>
    have hc : c.isDigit = false := by simpa using hdigit
    have htake : rest.takeWhile isNameChar = [] ∧ rest.dropWhile isNameChar = rest := by
      cases rest with
      | nil => simp
      | cons d rest =>
        have hd : isNameChar d = false := hrest
        simp [hd]
    rw [List.cons_append, splitName, hc]
    simp only [Bool.false_eq_true, if_false]
    rw [← List.cons_append, List.takeWhile_append_of_pos hall, List.dropWhile_append_of_pos hall,
      htake.1, htake.2, List.append_nil]

def isVariable : Text → Bool
  | [] => false
  | c :: name => c == '$' && isName name

theorem expands_variable {x : Text} (hx : isVariable x = true)
    (hv : (builtins ctx ++ σ.assigned).lookup x = some v) : Expands ctx σ x v := by
  obtain ⟨name, rfl, hname⟩ : ∃ name, x = '$' :: name ∧ isName name = true := by
    cases x with
    | nil => cases hx
    | cons c name => simpa [isVariable] using hx
  intro rest hrest
  obtain ⟨piece, pieces, h, hpiece⟩ := Text.exists_splitOn_eq_cons rest '$'
  have hsplit : splitName (name ++ piece) = (name, piece) :=
    splitName_append hname (by
      cases piece with
      | nil => rfl
      | cons c piece =>
        rw [goesOn, hpiece c rfl] at hrest
        exact hrest)
  have hdollar : '$' ∉ name := fun hmem => by
    simp only [isName, Bool.and_eq_true, List.all_eq_true] at hname
    exact absurd (hname.1.1 '$' hmem) (by decide)
  have hvalue : value ctx σ name = .ok v := by
    have hlong : 2 ≤ name.length := by simpa using (Bool.and_eq_true_iff.1 hname).2
    unfold value
    split
    · simp at hlong
    · rw [value.named, hv]
  simp only [expand, h, List.cons_append, Text.splitOn_sep_cons, Text.splitOn_append hdollar h,
    List.mapM_cons, hsplit, hvalue]
  cases pieces.mapM fun piece => do
    let v ← value ctx σ (splitName piece).1
    return v ++ (splitName piece).2 with
  | error o => rfl
  | ok values => exact congrArg Except.ok (by simp)

theorem word_of_plain {w : Word} (h : w.verbatim = true ∨ '$' ∉ w.text) :
    word ctx σ w = .ok w.text := by
  cases hw : w.verbatim with
  | true => simp [word, hw]
  | false =>
    rw [word, hw]
    exact (Expands.literal (h.resolve_left (by simp [hw]))).expand_eq

end

/-- Whether the condition holds, and the state after it has been tested. -/
def Condition.test? (ctx : Context) (σ : State) : Condition → Except Outcome (Bool × State)
  | .test subject op pattern => do
    let v ← expand ctx σ subject
    match op with
    | .negated => return (!Pattern.found false pattern.text v, σ)
    | .sensitive => return (Pattern.found false pattern.text v, σ.bind false pattern.text v)
    | .insensitive => return (Pattern.found true pattern.text v, σ.bind true pattern.text v)
  | .equal subject w => do return ((← expand ctx σ subject) == (← word ctx σ w), σ)
  | .notEqual subject w => do return ((← expand ctx σ subject) != (← word ctx σ w), σ)
  | .noFile path => do return (!ctx.fileExists (← expand ctx σ path), σ)

namespace Action

def run (ctx : Context) (σ : State) : Action → Except Outcome State
  | set target w => do return { σ with assigned := (target, ← word ctx σ w) :: σ.assigned }
  | rewrite pattern w flag =>
    if Pattern.found false pattern ctx.request.uri then do
      let target ← word ctx (σ.bind false pattern ctx.request.uri) w
      .error (.rewritten pattern target flag)
    else return σ

end Action

def Directive.run (ctx : Context) (σ : State) : Directive → Except Outcome State
  | act a => a.run ctx σ
  | block c body => do
    let (holds, σ) ← c.test? ctx σ
    if holds then body.foldlM (Action.run ctx) σ else return σ

def outcome : Except Outcome State → Outcome
  | .ok _ => .passed
  | .error o => o

def run (ctx : Context) (ds : List Directive) : Outcome :=
  outcome (ds.foldlM (Directive.run ctx) {})

end PageCache.Nginx
