import PageCache.Text

/-! Directives of the Apache rewrite module and their text. Conditions guard the next rule; they
all have to hold, but one that is marked may be replaced by its successor. -/
namespace PageCache.Apache

inductive Check where
  | pattern (negated : Bool) (p : Text)
  | equal (value : Word)
  | notEqual (value : Word)
  | isFile
  deriving DecidableEq, Repr

def Check.render : Check → Text
  | pattern negated p => (if negated then "!" else "") ++ p
  | equal value => "=" ++ value.render
  | notEqual value => "!=" ++ value.render
  | isFile => "-f"

inductive RuleFlag where
  | last
  | redirect
  | env (name : Text) (value : Word)
  deriving DecidableEq, Repr

def RuleFlag.render : RuleFlag → Text
  | last => "L"
  | redirect => "R"
  | env name value => "E=" ++ name ++ ":" ++ value.render

inductive Directive where
  | engineOn
  | base (path : Text)
  /-- `either` lets the next condition hold in place of this one. -/
  | cond (subject : Word) (check : Check) (ignoreCase either : Bool)
  | rule (pattern : Text) (substitution : Word) (flags : List RuleFlag)
  deriving DecidableEq, Repr

def flagsText (flags : List Text) : Text :=
  if flags.isEmpty then [] else " [" ++ Text.join flags "," ++ "]"

def Directive.render : Directive → Text
  | engineOn => "RewriteEngine On"
  | base path => "RewriteBase " ++ path
  | cond subject check ignoreCase either =>
    "RewriteCond " ++ subject.render ++ " " ++ check.render ++
      flagsText (Text.keepIf "NC" ignoreCase ++ Text.keepIf "OR" either)
  | rule pattern substitution flags =>
    "RewriteRule " ++ pattern ++ " " ++ substitution.render ++ flagsText (flags.map RuleFlag.render)

def indented (l : Text) : Text := "    " ++ l ++ "\n"

/-- Lines inside a section that holds if a module is loaded. -/
def ifModule (name : Text) (lines : List Text) : Text :=
  "<IfModule " ++ name ++ ">\n" ++ lines.flatMap indented ++ "</IfModule>\n"

def render (ds : List Directive) : Text := ifModule "mod_rewrite.c" (ds.map Directive.render)

end PageCache.Apache
