import PageCache.Text

/-! Paths of files as texts. -/
namespace PageCache.Path

def isAbsolute (p : Text) : Bool := p.head? == some '/'

/-- A path followed by another one: an absolute one replaces it, another one goes after one slash,
and nothing comes before it if the first path is empty. -/
def push (base p : Text) : Text :=
  if isAbsolute p then p
  else if base.isEmpty || base.getLast? == some '/' then base ++ p
  else base ++ "/" ++ p

def isIdle (piece : Text) : Bool := piece.isEmpty || piece == "."

def dropIdleEnd (pieces : List Text) : List Text := (pieces.reverse.dropWhile isIdle).reverse

/-- The path without its last step, which is empty for a single name. The root and the empty path
have none. -/
def parent? (p : Text) : Option Text :=
  match p.splitOn '/' with
  | [] => none
  | first :: rest =>
    match (dropIdleEnd rest).reverse with
    | [] => if first.isEmpty then none else some []
    | _ :: init =>
      match dropIdleEnd init.reverse with
      | [] => some (if first.isEmpty then "/" else first)
      | kept => some (Text.join (first :: kept) "/")

def steps (p : Text) : List Text := (p.splitOn '/').filter (!isIdle ·)

def up : Text := ".."

/-- The steps from one place to another, given the steps to both from the same start. -/
def stepsBetween : List Text → List Text → List Text
  | a :: base, b :: target =>
    if a = b then stepsBetween base target else (a :: base).map (fun _ => up) ++ b :: target
  | base, target => base.map (fun _ => up) ++ target

def relativeTo (base p : Text) : Text :=
  Text.join (stepsBetween (steps base) (steps (push base p))) "/"

/-- The part of the last name after its last dot, which is not its first character. -/
def extension? (p : Text) : Option Text := do
  let name ← (steps p).getLast?
  let (stem, extension) ← name.splitLast? "."
  if stem.isEmpty || name = up then none else some extension

end PageCache.Path
