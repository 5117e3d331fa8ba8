import PageCache.Text

/-! Directives of the Nginx rewrite module and their text. A block of directives runs when its
condition holds; a rewrite with a flag ends the run. -/
namespace PageCache.Nginx

inductive MatchOp where
  | sensitive
  | insensitive
  | negated
  deriving DecidableEq, Repr

def MatchOp.symbol : MatchOp → Text
  | sensitive => "~"
  | insensitive => "~*"
  | negated => "!~"

inductive Condition where
  | test (subject : Text) (op : MatchOp) (pattern : Word)
  | equal (subject : Text) (value : Word)
  | notEqual (subject : Text) (value : Word)
  | noFile (path : Text)
  deriving DecidableEq, Repr

def Condition.render : Condition → Text
  | test subject op pattern => subject ++ " " ++ op.symbol ++ " " ++ pattern.render
  | equal subject value => subject ++ " = " ++ value.render
  | notEqual subject value => subject ++ " != " ++ value.render
  | noFile path => "!-f " ++ (Word.inQuotes path).render

inductive RewriteFlag where
  | last
  | redirect
  deriving DecidableEq, Repr

def RewriteFlag.name : RewriteFlag → Text
  | last => "last"
  | redirect => "redirect"

inductive Action where
  | set (target : Text) (value : Word)
  | rewrite (pattern : Text) (replacement : Word) (flag : RewriteFlag)
  deriving DecidableEq, Repr

def Action.render : Action → Text
  | set target value => "set " ++ target ++ " " ++ value.render ++ ";"
  | rewrite pattern replacement flag =>
    "rewrite " ++ pattern ++ " " ++ replacement.render ++ " " ++ flag.name ++ ";"

inductive Directive where
  | act (a : Action)
  | block (c : Condition) (body : List Action)
  deriving DecidableEq, Repr

def indent : Text := "    "

def indented (l : Text) : Text := indent ++ l ++ "\n"

def braced (heading : Text) (body : List Text) : Text :=
  heading ++ " \x7b\n" ++ body.flatMap indented ++ "\x7d\n"

namespace Directive

def render : Directive → Text
  | act a => a.render ++ "\n"
  | block c body => braced ("if (" ++ c.render ++ ")") (body.map Action.render)

def set (target : Text) (value : Word) : Directive := act (.set target value)

end Directive

def render (ds : List Directive) : Text := ds.flatMap Directive.render

structure Location where
  pattern : Text
  lines : List Text
  deriving DecidableEq, Repr

def Location.render (l : Location) : Text := braced ("location ~ " ++ l.pattern) l.lines

end PageCache.Nginx
