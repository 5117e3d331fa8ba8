import PageCache.Apache.Rules
import PageCache.Proofs.Decision.Written
import PageCache.Proofs.Pattern.Threads
import PageCache.Proofs.Text.Pieces

/-! How Apache runs rewrite directives: from top to bottom, with conditions that are kept for the next
rule and variables of the environment that are empty at first. A rule that is applied may set
variables, and it ends the run if it is marked as the last one. -/
namespace PageCache.Apache

attribute [local irreducible] Pattern.captures? Pattern.found

inductive Outcome where
  /-- The rule with the pattern has ended the run. -/
  | rewritten (pattern target : Text)
  | redirected (target : Text)
  /-- All directives have been run. -/
  | passed
  deriving DecidableEq, Repr

structure Guard where
  subject : Word
  check : Check
  ignoreCase : Bool
  either : Bool
  deriving DecidableEq, Repr

structure State where
  uri : Text
  env : Text → Text := fun _ => []
  guards : List Guard := []

abbrev Groups := List (ℕ × Text)

/-- What words may refer to: the environment, the groups of the rule and those of the condition that
matched last. -/
structure Scope where
  env : Text → Text
  rule : Groups := []
  condition : Groups := []

def builtins (ctx : Context) : List (Text × Text) :=
  [("REQUEST_URI", ctx.request.uri), ("REQUEST_METHOD", ctx.request.method),
    ("QUERY_STRING", ctx.request.query), ("HTTP_HOST", ctx.request.host),
    ("HTTP_USER_AGENT", ctx.request.userAgent), ("HTTP_COOKIE", ctx.request.cookie),
    ("HTTP:Accept-Encoding", ctx.request.acceptEncoding),
    ("HTTPS", if ctx.request.https then "on" else "off"),
    ("SERVER_PORT", Text.ofNat ctx.request.port), ("DOCUMENT_ROOT", ctx.documentRoot)]

/-- The value of a variable, empty if it is not set. -/
def value (ctx : Context) (env : Text → Text) (name : Text) : Text :=
  match name.stripPrefix? "ENV:" with
  | some name => env name
  | none => ((builtins ctx).lookup name).getD []

def group (groups : Groups) (digit : Char) : Text :=
  (groups.lookup (digit.toNat - '0'.toNat)).getD []

/-- The text after a dollar sign, with a group in place of the digit that it begins with. -/
def dollar (scope : Scope) : Text → Text
  | [] => "$"
  | c :: t => if c.isDigit then group scope.rule c ++ t else '$' :: c :: t

/-- The text with groups of the rule in place of dollar signs and digits. -/
def dollars (scope : Scope) (t : Text) : Text :=
  match t.splitOn '$' with
  | [] => []
  | plain :: pieces => plain ++ pieces.flatMap (dollar scope)

/-- The text after a percent sign, with the value of the group or the variable that it begins
with. -/
def percent (ctx : Context) (scope : Scope) : Text → Text
  | [] => "%"
  | c :: t =>
    if c.isDigit then group scope.condition c ++ dollars scope t
    else match if c = '\x7b' then Text.splitFirst? t "\x7d" else none with
      | some (name, rest) => value ctx scope.env name ++ dollars scope rest
      | none => '%' :: dollars scope (c :: t)

/-- The text with values in place of variables and groups. -/
def expand (ctx : Context) (scope : Scope) (t : Text) : Text :=
  match t.splitOn '%' with
  | [] => []
  | plain :: pieces => dollars scope plain ++ pieces.flatMap (percent ctx scope)

def word (ctx : Context) (scope : Scope) (w : Word) : Text :=
  if w.verbatim then w.text else expand ctx scope w.text

/-- Wherever the text stands, it is replaced by the value. -/
def Expands (ctx : Context) (scope : Scope) (t v : Text) : Prop :=
  ∀ rest : Text, expand ctx scope (t ++ rest) = v ++ expand ctx scope rest

section
variable {ctx : Context} {scope : Scope} {t u v w : Text}

theorem dollars_append (ht : '$' ∉ t) (rest : Text) :
    dollars scope (t ++ rest) = t ++ dollars scope rest := by
  obtain ⟨piece, pieces, h, -⟩ := Text.exists_splitOn_eq_cons rest '$'
  simp only [dollars, h, Text.splitOn_append ht h, List.append_assoc]

theorem Expands.literal (hp : '%' ∉ t) (hd : '$' ∉ t) : Expands ctx scope t t := fun rest => by
  obtain ⟨piece, pieces, h, -⟩ := Text.exists_splitOn_eq_cons rest '%'
  simp only [expand, h, Text.splitOn_append hp h, dollars_append hd, List.append_assoc]

theorem Expands.append (ht : Expands ctx scope t v) (hu : Expands ctx scope u w) :
    Expands ctx scope (t ++ u) (v ++ w) := fun rest => by
  rw [List.append_assoc, ht, hu, List.append_assoc]

theorem Expands.expand_eq (h : Expands ctx scope t v) : expand ctx scope t = v := by
  have hnil := h []
  rwa [List.append_nil, show expand ctx scope [] = [] from rfl, List.append_nil] at hnil

theorem expands_variable {name : Text} (hp : '%' ∉ name) (hc : '\x7d' ∉ name) :
    Expands ctx scope ("%\x7b" ++ name ++ "\x7d") (value ctx scope.env name) := fun rest => by
  obtain ⟨piece, pieces, h, -⟩ := Text.exists_splitOn_eq_cons rest '%'
  have hbraced : '%' ∉ '\x7b' :: name ++ ['\x7d'] := by simp [hp]
  have hsplit : Text.splitOn ("%\x7b" ++ name ++ "\x7d" ++ rest) '%' =
      [] :: ('\x7b' :: name ++ ['\x7d'] ++ piece) :: pieces := by
    rw [← Text.splitOn_append hbraced h, ← Text.splitOn_sep_cons]
    simp
  have hpercent : percent ctx scope ('\x7b' :: name ++ ['\x7d'] ++ piece) =
      value ctx scope.env name ++ dollars scope piece := by
    rw [List.cons_append, List.cons_append, List.append_assoc, percent, if_neg (by decide),
      if_pos rfl, List.singleton_append, show ("\x7d" : Text) = ['\x7d'] from rfl,
      Text.splitFirst?_sep hc]
  have hleft : expand ctx scope ("%\x7b" ++ name ++ "\x7d" ++ rest) =
      [] ++ (percent ctx scope ('\x7b' :: name ++ ['\x7d'] ++ piece) ++
        pieces.flatMap (percent ctx scope)) := by
    rw [expand, hsplit]
    rfl
  have hright : expand ctx scope rest =
      dollars scope piece ++ pieces.flatMap (percent ctx scope) := by
    rw [expand, h]
  rw [hleft, hright, hpercent, List.nil_append, List.append_assoc]

theorem expands_env {name : Text} (hp : '%' ∉ name) (hc : '\x7d' ∉ name) :
    Expands ctx scope (envValue name) (scope.env name) := by
  have hvalue : value ctx scope.env ("ENV:" ++ name) = scope.env name := by
    rw [value, Text.stripPrefix?_eq_some_iff.2 rfl]
  have h := @expands_variable ctx scope ("ENV:" ++ name) (by simpa using hp) (by simpa using hc)
  rw [hvalue] at h
  exact h

theorem word_of_plain {w : Word} (h : w.verbatim = true ∨ '%' ∉ w.text ∧ '$' ∉ w.text) :
    word ctx scope w = w.text := by
  cases hw : w.verbatim with
  | true => simp [word, hw]
  | false =>
    obtain ⟨hp, hd⟩ := h.resolve_left (by simp [hw])
    rw [word, hw]
    exact (Expands.literal hp hd).expand_eq

end

/-- Whether a condition holds; the groups of a pattern that is found replace those before. -/
def Guard.test (ctx : Context) (scope : Scope) (g : Guard) : Bool × Scope :=
  let v := word ctx scope g.subject
  match g.check with
  | .pattern false p =>
    (Pattern.found g.ignoreCase p v,
      { scope with condition := (Pattern.captures? g.ignoreCase p v).getD scope.condition })
  | .pattern true p => (!Pattern.found g.ignoreCase p v, scope)
  | .equal w => (v == word ctx scope w, scope)
  | .notEqual w => (v != word ctx scope w, scope)
  | .isFile => (ctx.fileExists v, scope)

/-- The scope after conditions, if they hold together. A condition is skipped if it may stand in for
one that has held. -/
def satisfy (ctx : Context) : Bool → Scope → List Guard → Option Scope
  | _, scope, [] => some scope
  | true, scope, g :: gs => satisfy ctx g.either scope gs
  | false, scope, g :: gs =>
    let (holds, next) := g.test ctx scope
    if holds then satisfy ctx g.either next gs
    else if g.either then satisfy ctx false next gs
    else none

def assign (ctx : Context) (scope : Scope) (flags : List RuleFlag) : Text → Text :=
  flags.foldl (fun env flag =>
    match flag with
    | .env name w => Function.update env name (word ctx { scope with env := env } w)
    | _ => env) scope.env

/-- What a rule does that is applied. A dash keeps the path. -/
def applyRule (ctx : Context) (uri : Text) (scope : Scope) (pattern : Text) (substitution : Word)
    (flags : List RuleFlag) : Except Outcome State :=
  let target := if substitution = .bare "-" then uri else word ctx scope substitution
  if flags.contains .last then
    .error (if flags.contains .redirect then .redirected target else .rewritten pattern target)
  else .ok { uri := target, env := assign ctx scope flags }

def Directive.run (ctx : Context) (σ : State) : Directive → Except Outcome State
  | engineOn => .ok σ
  | base _ => .ok σ
  | cond subject check ignoreCase either =>
    .ok { σ with guards := σ.guards ++ [⟨subject, check, ignoreCase, either⟩] }
  | rule pattern substitution flags =>
    match Pattern.captures? false pattern σ.uri with
    | none => .ok { σ with guards := [] }
    | some groups =>
      match satisfy ctx false { env := σ.env, rule := groups } σ.guards with
      | none => .ok { σ with guards := [] }
      | some scope => applyRule ctx σ.uri scope pattern substitution flags

def outcome : Except Outcome State → Outcome
  | .ok _ => .passed
  | .error o => o

def run (ctx : Context) (ds : List Directive) : Outcome :=
  outcome (ds.foldlM (Directive.run ctx) { uri := ctx.request.uri })

end PageCache.Apache
