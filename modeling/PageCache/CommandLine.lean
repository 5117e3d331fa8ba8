import PageCache.CommandLine.Grammar
import PageCache.Rules

/-! The command line: one command with its arguments, and options that override settings. -/
namespace PageCache.CommandLine

/-- Settings given on the command line. -/
structure Overrides where
  server : Option Text := none
  serverSoftware : Option Text := none
  documentRoot : Option Text := none
  cacheDir : Option Text := none
  coreRulesPath : Option Text := none
  cacheRulesPath : Option Text := none
  logLevel : Option Text := none
  logJson : Option Bool := none
  deriving DecidableEq, Repr

inductive Selection where
  | core
  | cache
  | all
  deriving DecidableEq, Repr

def Selection.blocks : Selection → List Block
  | core => [.core]
  | cache => [.cache]
  | all => [.core, .cache]

inductive Command where
  /-- Prints a block. -/
  | render (file : Block)
  | write (files : Selection)
  | remove (files : Selection)
  | check (files : Selection) (json : Bool)
  /-- Prints the policy. -/
  | policy
  /-- Decides a request. -/
  | probe (r : Request)
  deriving DecidableEq, Repr

structure Invocation where
  configFile : Option Text
  overrides : Overrides
  command : Command
  deriving DecidableEq, Repr

def truth? (t : Text) : Option Bool :=
  let word := t.lower
  let yes : List Text := ["y", "yes", "t", "true", "on", "1"]
  let no : List Text := ["n", "no", "f", "false", "off", "0"]
  if yes.contains word then some true else if no.contains word then some false else none

def port? (t : Text) : Option Nat :=
  let digits := match t with
    | '+' :: ds => ds
    | '-' :: ds => if ds.all (· == '0') then ds else []
    | ds => ds
  let n := Digits.toNat 10 digits
  if digits.isEmpty || !digits.all Char.isDigit || n > 65535 then none else some n

def blockNames : List (Text × Block) := [("core", .core), ("cache", .cache)]

def selectionNames : List (Text × Selection) :=
  [("core", .core), ("cache", .cache), ("all", .all)]

def anyText : OptionKind := .value fun _ => none

/-- A check that refuses texts without a meaning. -/
def meaningful {α : Type} (read : Text → Option α) (e : UsageError) (t : Text) :
    Option UsageError :=
  if (read t).isSome then none else some e

def checkPath (t : Text) : Option UsageError := if t.isEmpty then some .invalidValue else none

def oneOf {α : Type} (names : List (Text × α)) (t : Text) : Option UsageError :=
  meaningful (fun t => names.lookup t) .invalidValue t

abbrev Values := List (Text × Text)

def Values.get? (v : Values) (name : Text) : Option Text := v.lookup name

def configFileOption : Text := "config-file"

def sharedOptions : List (Text × OptionKind) :=
  [("help", .stop .displayHelp), (configFileOption, .value checkPath), ("server", anyText),
    ("server-software", anyText), ("document-root", anyText), ("cache-dir", anyText),
    ("core-rules-path", .value checkPath), ("cache-rules-path", .value checkPath),
    ("log-level", anyText), ("log-json", .value (meaningful truth? .valueValidation))]

def helpLetters : List (Char × UsageError) := [('h', .displayHelp)]

def commandGrammar (options : List (Text × OptionKind))
    (operands : List (Text × (Text → Option UsageError))) : Grammar where
  options := sharedOptions ++ options
  letters := helpLetters
  operands := operands
  commands := []

def selectionGrammar (options : List (Text × OptionKind)) : Grammar :=
  commandGrammar options [("selection", oneOf selectionNames)]

def probeGrammar : Grammar :=
  commandGrammar
    [("uri", anyText), ("query", anyText), ("method", anyText), ("host", anyText),
      ("user-agent", anyText), ("cookie", anyText), ("https", .flag),
      ("port", .value (meaningful port? .valueValidation)), ("accept-encoding", anyText)] []

def grammars : List (Text × Grammar) :=
  [("render", commandGrammar [] [("file", oneOf blockNames)]),
    ("write", selectionGrammar []), ("remove", selectionGrammar []),
    ("check", selectionGrammar [("json", .flag)]), ("policy", commandGrammar [] []),
    ("probe", probeGrammar)]

def helpCommand : Text := "help"

def topGrammar : Grammar where
  options :=
    [("help", .stop .displayHelp), ("version", .stop .displayVersion),
      (configFileOption, .value checkPath)]
  letters := helpLetters ++ [('V', .displayVersion)]
  operands := []
  commands := grammars.map (·.1) ++ [helpCommand]

def overridesOf (v : Values) : Overrides where
  server := v.get? "server"
  serverSoftware := v.get? "server-software"
  documentRoot := v.get? "document-root"
  cacheDir := v.get? "cache-dir"
  coreRulesPath := v.get? "core-rules-path"
  cacheRulesPath := v.get? "cache-rules-path"
  logLevel := v.get? "log-level"
  logJson := (v.get? "log-json").bind truth?

def selectionOf (v : Values) : Selection :=
  ((v.get? "selection").bind fun t => selectionNames.lookup t).getD .all

def requestOf (v : Values) (uri : Text) : Request where
  uri := uri
  method := (v.get? "method").getD "GET"
  query := (v.get? "query").getD []
  host := (v.get? "host").getD []
  userAgent := (v.get? "user-agent").getD []
  cookie := (v.get? "cookie").getD []
  acceptEncoding := (v.get? "accept-encoding").getD []
  https := (v.get? "https").isSome
  port := ((v.get? "port").bind port?).getD 80

/-- The command with its values; some commands cannot do without one. -/
def commandOf (name : Text) (v : Values) : Except UsageError Command :=
  if name = ("render" : Text) then
    match (v.get? "file").bind fun t => blockNames.lookup t with
    | some file => .ok (.render file)
    | none => .error .missingRequiredArgument
  else if name = ("write" : Text) then .ok (.write (selectionOf v))
  else if name = ("remove" : Text) then .ok (.remove (selectionOf v))
  else if name = ("check" : Text) then .ok (.check (selectionOf v) (v.get? "json").isSome)
  else if name = ("policy" : Text) then .ok .policy
  else
    match v.get? "uri" with
    | some uri => .ok (.probe (requestOf v uri))
    | none => .error .missingRequiredArgument

/-- Checks the configuration file of the environment where none is given. -/
def checkEnvironment (configFile : Option Text) (v : Values) : Except UsageError Unit :=
  match v.get? configFileOption, configFile with
  | none, some [] => .error .invalidValue
  | _, _ => .ok ()

def help (args : List Text) : UsageError :=
  match args with
  | [] => .displayHelp
  | [name] => if topGrammar.commands.contains name then .displayHelp else .invalidCommand
  | _ => .invalidCommand

/-- Reads the arguments after the name of the program. The configuration file after the command
comes before the one in front of it, and that before the one of the environment. -/
def parse (args : List Text) (configFile : Option Text) : Except UsageError Invocation := do
  let (top, command) ← topGrammar.read {} false args
  match command with
  | none =>
    let top ← topGrammar.settle top
    checkEnvironment configFile top.given
    if top.given.isEmpty && configFile.isNone then .error .nothingGiven
    else .error .missingCommand
  | some (name, args) =>
    match grammars.lookup name with
    | none => .error (help args)
    | some grammar =>
      let (inner, _) ← grammar.read {} false args
      let inner ← grammar.settle inner
      checkEnvironment configFile inner.given
      let command ← commandOf name inner.given
      let top ← topGrammar.settle top
      checkEnvironment configFile top.given
      return {
        configFile :=
          Values.get? inner.given configFileOption <|> Values.get? top.given configFileOption <|>
            configFile
        overrides := overridesOf inner.given
        command }

end PageCache.CommandLine
