import TenantSizing.Controller
import TenantSizing.Text.Digit

namespace TenantSizing

namespace CommandLine

/-- What the program is told to do. An option may be given without any value. -/
structure Settings where
  space : Option String := some "ibm-common-services"
  watched : Option String := some ""
  rulesFile : Option String := none
  dryRun : Bool := false
  inCluster : Bool := false
  verbose : Bool := false
  deriving DecidableEq, Repr

inductive Setting where
  | space
  | watched
  | rulesFile
  | dryRun
  | inCluster
  | verbose
  | help
  deriving DecidableEq, Repr

def Setting.takesValue : Setting → Bool
  | .space | .watched | .rulesFile => true
  | _ => false

def spellings : List (String × Setting) :=
  [("-h", .help), ("--help", .help), ("--namespace", .space), ("-n", .space),
    ("--watch-namespace", .watched), ("--rules-file", .rulesFile), ("--dry-run", .dryRun),
    ("--in-cluster", .inCluster), ("--verbose", .verbose), ("-v", .verbose)]

inductive Refusal where
  /-- Help is asked for. -/
  | help
  | usage
  deriving DecidableEq, Repr

def Refusal.exitCode : Refusal → Nat
  | .help => 0
  | .usage => 2

inductive Word where
  /-- A value, or an argument that nobody asks for. -/
  | value
  /-- Two hyphens alone: what follows is no option. -/
  | divider
  /-- An option, with what the argument holds behind it. -/
  | option (spelling : String) (setting : Setting) (attached : Option String)
  | unknown
  deriving DecidableEq, Repr

def splitEquals (argument : String) : Option (String × String) :=
  let cs := argument.toList
  match cs.dropWhile (· != '=') with
  | [] => none
  | _ :: value => some (String.ofList (cs.takeWhile (· != '=')), String.ofList value)

/-- A negative number looks like an option but is a value. A line feed may end it. -/
def isNegativeNumber (argument : String) : Bool :=
  let isDigit (c : Char) : Bool := (Text.digitValue? c).isSome
  match argument.toList with
  | '-' :: rest =>
    let rest := if rest.getLast? == some '\n' then rest.dropLast else rest
    let whole := rest.takeWhile isDigit
    match rest.dropWhile isDigit with
    | [] => !whole.isEmpty
    | '.' :: fraction => !fraction.isEmpty && fraction.all isDigit
    | _ => false
  | _ => false

/-- The options that a long argument may be short for, or that a short one begins with. -/
def candidates (argument : String) : List Word :=
  if argument.startsWith "--" then
    let (name, attached) :=
      match splitEquals argument with
      | some (name, value) => (name, some value)
      | none => (argument, none)
    (spellings.filter fun entry => entry.1.startsWith name).map
      fun entry => .option entry.1 entry.2 attached
  else
    (spellings.filter fun entry => entry.1 == (argument.take 2).toString).map
      fun entry => .option entry.1 entry.2 (some (argument.drop 2).toString)

/-- Tells what an argument looks like. A long option may be shortened as far as it is told from the
others; an abbreviation of several options is refused. -/
def classify (argument : String) : Except Refusal Word :=
  if !argument.startsWith "-" then .ok .value
  else
    match spellings.lookup argument with
    | some setting => .ok (.option argument setting none)
    | none =>
      if argument == "-" then .ok .value
      else
        let exact := (splitEquals argument).bind fun (name, value) =>
          (spellings.lookup name).map fun setting => Word.option name setting (some value)
        match exact, candidates argument with
        | some word, _ => .ok word
        | none, [word] => .ok word
        | none, _ :: _ :: _ => .error .usage
        | none, [] =>
          if isNegativeNumber argument || argument.contains ' ' then .ok .value else .ok .unknown

/-- Tells what all arguments look like. Behind a divider all are values. -/
def classifyAll : List String → Except Refusal (List (String × Word))
  | [] => .ok []
  | argument :: rest =>
    if argument == "--" then
      .ok ((argument, .divider) :: rest.map fun other => (other, .value))
    else do
      let word ← classify argument
      pure ((argument, word) :: (← classifyAll rest))

/-- Gives an option its value. Two hyphens alone are none. -/
def Settings.assign (settings : Settings) (setting : Setting) (argument : String) : Settings :=
  let value := if argument = "--" then none else some argument
  match setting with
  | .space => { settings with space := value }
  | .watched => { settings with watched := value }
  | .rulesFile => { settings with rulesFile := value }
  | _ => settings

def Settings.switchOn (settings : Settings) (setting : Setting) : Except Refusal Settings :=
  match setting with
  | .dryRun => .ok { settings with dryRun := true }
  | .inCluster => .ok { settings with inCluster := true }
  | .verbose => .ok { settings with verbose := true }
  | .help => .error .help
  | _ => .ok settings

structure Taken where
  switches : List Setting := []
  /-- The setting that takes the next argument as its value. -/
  pending : Option Setting := none
  assigned : Option (Setting × String) := none

/-- Reads what stands behind an option in its argument: the value, or further short options behind
one that takes none. -/
def readLetters (setting : Setting) (switches : List Setting) : List Char → Except Refusal Taken
  | [] =>
    if setting.takesValue then .ok { switches, pending := some setting }
    else .ok { switches := switches ++ [setting] }
  | letter :: rest =>
    if setting.takesValue then
      .ok { switches, assigned := some (setting, String.ofList (letter :: rest)) }
    else
      match spellings.lookup (String.ofList ['-', letter]) with
      | some next => readLetters next (switches ++ [setting]) rest
      | none => .error .usage

/-- Reads an option with what is attached to it. A switch takes no value, not even an empty one. -/
def readOption (spelling : String) (setting : Setting) (attached : Option String) :
    Except Refusal Taken :=
  match attached with
  | none => readLetters setting [] []
  | some attached =>
    if setting.takesValue then .ok { assigned := some (setting, attached) }
    else if spelling.startsWith "--" || attached = "" then .error .usage
    else readLetters setting [] attached.toList

/-- Goes through the arguments in order. Whatever is no option and no value of one is refused, but
only at the end, since help may be asked for before. -/
def apply (settings : Settings) (stray : Bool) : List (String × Word) → Except Refusal Settings
  | [] => if stray then .error .usage else .ok settings
  | (_, .option spelling setting attached) :: rest => do
    let read ← readOption spelling setting attached
    let settings ←
      if read.pending.isNone || (rest.head?.map Prod.snd) == some .value then
        read.switches.foldlM Settings.switchOn settings
      else .error .usage
    let settings :=
      match read.assigned with
      | some (setting, value) => settings.assign setting value
      | none => settings
    match read.pending, rest with
    | some setting, (value, _) :: rest => apply (settings.assign setting value) stray rest
    | _, rest => apply settings stray rest
  | _ :: rest => apply settings true rest

def read (arguments : List String) : Except Refusal Settings := do
  apply {} false (← classifyAll arguments)

end CommandLine

inductive RunEnd where
  | returned
  | interrupted
  | failed (message : String)
  deriving DecidableEq, Repr

/-- What the program meets when it starts. -/
structure Surroundings where
  /-- What there is at a path. -/
  fileAt : String → RulesFile
  /-- Why the access to the cluster cannot be set up, if it cannot. -/
  configFault : Option String
  runEnd : RunEnd

structure Started where
  space : Option String
  watched : Option String
  dryRun : Bool
  rules : Option String
  stopped : Bool
  deriving DecidableEq, Repr

structure Launch where
  /-- The exit code, if the program does not just end. -/
  exitCode : Option Nat
  started : Option Started
  /-- How the access to the cluster is set up: from inside of it or not. -/
  loaded : Option Bool
  verbose : Bool
  deriving DecidableEq, Repr

namespace Launch

/-- Reads the rules file, if one is named. It is checked at once instead of on every reconcile. A
path with a null character is none. -/
def rulesText (surroundings : Surroundings) (path : Option String) :
    Except Failure (Option String) := do
  match path with
  | none => pure none
  | some "" => pure none
  | some path =>
    if path.contains '\x00' then throw .noSuchValue
    let text ← (surroundings.fileAt path).read
    let _ ← RuleSet.read text
    pure (some text)

def start (surroundings : Surroundings) (settings : CommandLine.Settings) (rules : Option String) :
    Report Launch :=
  let controller (stopped : Bool) : Started :=
    { space := settings.space, watched := settings.watched, dryRun := settings.dryRun, rules
      stopped }
  let launch (exitCode : Option Nat) (stopped : Bool) : Launch :=
    { exitCode, started := some (controller stopped), loaded := some settings.inCluster
      verbose := settings.verbose }
  match surroundings.runEnd with
  | .returned => pure (launch none false)
  | .interrupted => do
    .note [.controllerStopped]
    pure (launch (some 0) true)
  | .failed message => do
    .note [.controllerFailed message]
    pure (launch (some 1) false)

/-- Starts the program with settings: the rules file comes first, then the access to the cluster. -/
def withSettings (surroundings : Surroundings) (settings : CommandLine.Settings) :
    Report Launch :=
  let refused (loaded : Option Bool) : Launch :=
    { exitCode := some 1, started := none, loaded, verbose := settings.verbose }
  match rulesText surroundings settings.rulesFile with
  | .error failure =>
    match failure with
    | .malformedRules fault => do
      .note [.badRulesFile fault.message]
      pure (refused none)
    | _ => .fail failure
  | .ok rules =>
    match surroundings.configFault with
    | some message => do
      .note [.configNotLoaded message]
      pure (refused (some settings.inCluster))
    | none => do
      .note [if settings.inCluster then .inClusterLoaded else .kubeconfigLoaded]
      start surroundings settings rules

def run (surroundings : Surroundings) (arguments : List String) : Report Launch :=
  match CommandLine.read arguments with
  | .error refusal =>
    pure { exitCode := some refusal.exitCode, started := none, loaded := none, verbose := false }
  | .ok settings => withSettings surroundings settings

end Launch

end TenantSizing
