import PageCache.Text

/-! Command lines of long options, operands and commands. An option takes its value after an equals
sign or from the next argument, which must not look like an option; after two hyphens all arguments
are operands. A value is checked when the next option or operand is met. -/
namespace PageCache.CommandLine

/-- Why arguments are refused, or help is shown instead. -/
inductive UsageError where
  | unknownArgument
  | invalidValue
  | valueValidation
  | missingRequiredArgument
  | argumentConflict
  | invalidCommand
  | tooManyValues
  | missingCommand
  | displayHelp
  | displayVersion
  /-- Nothing was given at all. -/
  | nothingGiven
  deriving DecidableEq, Repr

inductive OptionKind where
  /-- An option with a value, which is refused if the check gives an error. -/
  | value (check : Text → Option UsageError)
  | flag
  /-- An option that ends the reading. -/
  | stop (outcome : UsageError)

/-- What may be given at one level of a command line. -/
structure Grammar where
  /-- The long options without their hyphens. -/
  options : List (Text × OptionKind)
  /-- The options of one letter. -/
  letters : List (Char × UsageError)
  /-- The operands in order, with the checks of their values. -/
  operands : List (Text × (Text → Option UsageError))
  commands : List Text

structure Progress where
  given : List (Text × Text) := []
  /-- An option or operand whose value is not checked yet, or not even met. -/
  pending : Option (Text × Option Text) := none
  /-- Whether the next argument is the value of the pending option. -/
  awaiting : Bool := false
  operandCount : Nat := 0
  deriving DecidableEq, Repr

namespace Grammar

def check (g : Grammar) (name value : Text) : Option UsageError :=
  match g.options.lookup name with
  | some (.value check) => check value
  | some _ => none
  | none =>
    match g.operands.lookup name with
    | some check => check value
    | none => none

/-- Takes a value, unless there is one already or the check refuses it. -/
def accept (g : Grammar) (p : Progress) (name value : Text) : Except UsageError Progress :=
  if (p.given.lookup name).isSome then .error .argumentConflict
  else
    match g.check name value with
    | some e => .error e
    | none => .ok { p with given := p.given ++ [(name, value)] }

def settle (g : Grammar) (p : Progress) : Except UsageError Progress :=
  match p.pending with
  | none => .ok p
  | some (_, none) => .error .invalidValue
  | some (name, some value) => g.accept { p with pending := none } name value

/-- Reads an option without its hyphens. -/
def option (g : Grammar) (p : Progress) (body : Text) : Except UsageError Progress :=
  let name := body.takeWhile (· != '=')
  let attached : Option Text :=
    if name.length < body.length then some (body.drop (name.length + 1)) else none
  match g.options.lookup name, attached with
  | none, _ => .error .unknownArgument
  | some (.value _), some value => do
    let p ← g.accept (← g.settle p) name value
    return { p with awaiting := false }
  | some (.value _), none => do
    return { (← g.settle p) with pending := some (name, none), awaiting := true }
  | some _, some _ => .error .tooManyValues
  | some .flag, none => do
    let p ← g.accept (← g.settle p) name "true"
    return { p with awaiting := false }
  | some (.stop outcome), none => do
    let _ ← g.settle p
    .error outcome

/-- Reads options of one letter, of which only the first matters. -/
def letter (g : Grammar) (p : Progress) (body : Text) : Except UsageError Progress :=
  match body with
  | c :: _ =>
    match g.letters.lookup c with
    | some outcome => do
      let _ ← g.settle p
      .error outcome
    | none => .error .unknownArgument
  | [] => .error .unknownArgument

/-- Reads an operand; `isPlain` tells that it comes after two hyphens. -/
def operand (g : Grammar) (p : Progress) (isPlain : Bool) (arg : Text) :
    Except UsageError Progress :=
  match g.operands[p.operandCount]? with
  | some (name, _) => do
    return { (← g.settle p) with
      pending := some (name, some arg), awaiting := false, operandCount := p.operandCount + 1 }
  | none =>
    if g.commands.isEmpty || (isPlain && g.commands.contains arg) then .error .unknownArgument
    else .error .invalidCommand

/-- Reads arguments up to a command, which is returned with the arguments after it. -/
def read (g : Grammar) (p : Progress) (isPlain : Bool) :
    List Text → Except UsageError (Progress × Option (Text × List Text))
  | [] => .ok (p, none)
  | arg :: args =>
    if isPlain then do read g (← g.operand p true arg) true args
    else if !p.awaiting && g.commands.contains arg then .ok (p, some (arg, args))
    else
      match arg with
      | ['-', '-'] => read g p true args
      | '-' :: '-' :: body => do read g (← g.option p body) false args
      | '-' :: c :: body => do read g (← g.letter p (c :: body)) false args
      | _ =>
        match p.awaiting, p.pending with
        | true, some (name, _) =>
          read g { p with pending := some (name, some arg), awaiting := false } false args
        | _, _ => do read g (← g.operand p false arg) false args

end Grammar
end PageCache.CommandLine
