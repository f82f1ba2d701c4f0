import ClusterInventory.Connection
import ClusterInventory.Filter
import ClusterInventory.Output

/-! # Command lines

A command line has two levels, that of the program and that of a command. The options of the
program may stand on either level. Within one level an option stands once, unless it collects a
list; where both levels have it, the inner one counts.
-/

namespace ClusterInventory

inductive UsageError where
  | displayHelp
  | displayVersion
  | displayHelpOnMissingArgumentOrSubcommand
  | missingSubcommand
  | invalidSubcommand
  | unknownArgument
  | invalidValue
  | tooManyValues
  | argumentConflict
  deriving DecidableEq, Repr

namespace UsageError

/-- Help and version that were asked for are no failure. -/
def exitCode : UsageError → Nat
  | displayHelp => 0
  | displayVersion => 0
  | _ => 2

end UsageError

structure FetchArguments where
  kinds : List String := []
  filter : Filter := {}
  managedFields : Bool := false
  output : OutputFormat := .yaml
  deriving DecidableEq, Repr

inductive Command where
  | version
  | kinds
  | fetch (arguments : FetchArguments)
  deriving DecidableEq, Repr

structure Invocation where
  kubeConfig : Option String
  context : Option String
  ambient : Bool
  localDev : Bool
  config : Option String
  logDir : Option String
  command : Command
  deriving DecidableEq, Repr

def Invocation.plan (i : Invocation) : ConnectionPlan :=
  if i.ambient then .ambient i.localDev none else .ofKubeconfig i.kubeConfig i.context

namespace CommandLine

/-! ## Options -/

inductive OptionName where
  | kubeConfig
  | context
  | ambient
  | localDev
  | config
  | logDir
  | kind
  | selectKind
  | ignoreKind
  | selectNamespace
  | ignoreNamespace
  | output
  | managedFields
  | help
  | version
  deriving DecidableEq, Repr

inductive ValueForm where
  | flag
  | path
  | text
  | list
  | format
  deriving DecidableEq, Repr

structure OptionRule where
  name : OptionName
  long : String
  short : Option Char
  form : ValueForm
  deriving DecidableEq, Repr

def globalRules : List OptionRule := [
  ⟨.kubeConfig, "kube-config", none, .path⟩, ⟨.context, "context", none, .text⟩,
  ⟨.ambient, "ambient", none, .flag⟩, ⟨.localDev, "local-dev", none, .flag⟩,
  ⟨.config, "config", none, .path⟩, ⟨.logDir, "log-dir", none, .path⟩,
  ⟨.help, "help", some 'h', .flag⟩]

def programRules : List OptionRule := ⟨.version, "version", some 'V', .flag⟩ :: globalRules

def fetchRules : List OptionRule := globalRules ++ [
  ⟨.kind, "kind", some 'k', .list⟩, ⟨.selectKind, "select-kind", none, .list⟩,
  ⟨.ignoreKind, "ignore-kind", none, .list⟩,
  ⟨.selectNamespace, "select-namespace", none, .list⟩,
  ⟨.ignoreNamespace, "ignore-namespace", none, .list⟩,
  ⟨.output, "output", some 'o', .format⟩,
  ⟨.managedFields, "managed-fields", none, .flag⟩]

def commandNames : List String := ["version", "kinds", "fetch"]

def isCommandName (s : String) : Bool := commandNames.contains s || s == "help"

/-! ## One level -/

/-- An option that was met, with its values. -/
structure Occurrence where
  name : OptionName
  values : List String
  fromEnvironment : Bool
  deriving DecidableEq, Repr

/-- The last option is settled only when the next one comes, or at the end of its level. -/
structure Level where
  found : List Occurrence := []
  pending : Option (OptionRule × Option String) := none
  /-- Whether a double dash was met, after which nothing is an option. -/
  trailing : Bool := false
  deriving Repr

namespace Level

def get? (l : Level) (name : OptionName) : Option Occurrence := l.found.find? (·.name == name)

def isAwaiting (l : Level) : Bool := l.pending.any fun p => p.2.isNone

def splitList (acc : List Char) : List Char → List String
  | [] => [String.ofList acc.reverse]
  | c :: r =>
      if c = ',' then String.ofList acc.reverse :: splitList [] r else splitList (c :: acc) r

def values? (form : ValueForm) (text : String) : Option (List String) :=
  match form with
  | .flag => if text = "true" ∨ text = "false" then some [text] else none
  | .path => if text = "" then none else some [text]
  | .text => some [text]
  | .list => some (splitList [] text.toList)
  | .format => if text = "yaml" ∨ text = "json" then some [text] else none

/-- Adds an option with its value. A list grows; any other option is there only once. -/
def settle (l : Level) (rule : OptionRule) (text : Option String) (fromEnvironment : Bool) :
    Except UsageError Level :=
  match text with
  | none => .error .invalidValue
  | some text =>
      match l.get? rule.name, rule.form with
      | some earlier, .list =>
          match values? .list text with
          | some more =>
              .ok { l with found := l.found.map fun o =>
                if o.name = rule.name then { o with values := earlier.values ++ more } else o }
          | none => .error .invalidValue
      | some _, _ => .error .argumentConflict
      | none, form =>
          match values? form text with
          | some values =>
              .ok { l with found := l.found ++ [⟨rule.name, values, fromEnvironment⟩] }
          | none => .error .invalidValue

def settlePending (l : Level) : Except UsageError Level :=
  match l.pending with
  | none => .ok l
  | some (rule, text) => { l with pending := none }.settle rule text false

/-- A flag acts at once. -/
def raise (l : Level) (rule : OptionRule) : Except UsageError Level := do
  let l ← l.settlePending
  match rule.name with
  | .help => .error .displayHelp
  | .version => .error .displayVersion
  | _ => l.settle rule (some "true") false

/-- An option with a value: one that is attached acts at once, else the next argument is it. -/
def give (l : Level) (rule : OptionRule) (attached : Option String) : Except UsageError Level := do
  let l ← l.settlePending
  match attached with
  | some text => l.settle rule (some text) false
  | none => return { l with pending := some (rule, none) }

/-- An option by its long name, perhaps with a value behind an equals sign. -/
def takeLong (l : Level) (rules : List OptionRule) (text : List Char) : Except UsageError Level :=
  let name := String.ofList (text.takeWhile (· ≠ '='))
  let attached := match text.dropWhile (· ≠ '=') with
    | [] => none
    | _ :: r => some (String.ofList r)
  match rules.find? (·.long == name) with
  | none => .error .unknownArgument
  | some rule =>
      match rule.form, attached with
      | .flag, none => l.raise rule
      | .flag, some _ => .error .tooManyValues
      | _, attached => l.give rule attached

/-- Options by their letters; what follows the letter of one with a value is the value. -/
def takeShort (rules : List OptionRule) (l : Level) : List Char → Except UsageError Level
  | [] => .ok l
  | c :: r =>
      match rules.find? (·.short == some c) with
      | none => .error .unknownArgument
      | some rule =>
          if rule.form = .flag then do takeShort rules (← l.raise rule) r
          else
            match r with
            | [] => l.give rule none
            | '=' :: r => l.give rule (some (String.ofList r))
            | r => l.give rule (some (String.ofList r))

def strayError (l : Level) (isProgram : Bool) (argument : String) : UsageError :=
  if isProgram then
    if l.trailing && isCommandName argument then .unknownArgument else .invalidSubcommand
  else .unknownArgument

/-- Help on a command; more names than one lead nowhere. -/
def helpOn : List String → UsageError
  | [] => .displayHelp
  | [name] => if isCommandName name then .displayHelp else .invalidSubcommand
  | _ => .invalidSubcommand

/-- Reads the arguments of a level, up to the name of a command on the level of the program. -/
def read (rules : List OptionRule) (isProgram : Bool) (l : Level) :
    List String → Except UsageError (Level × Option (String × List String))
  | [] => .ok (l, none)
  | argument :: rest =>
      if l.trailing then .error (l.strayError isProgram argument)
      else if isProgram && !l.isAwaiting && isCommandName argument then
        if argument = "help" then .error (helpOn rest) else .ok (l, some (argument, rest))
      else
        match argument.toList with
        | ['-', '-'] => read rules isProgram { l with trailing := true } rest
        | '-' :: '-' :: text => do read rules isProgram (← l.takeLong rules text) rest
        | '-' :: c :: text => do read rules isProgram (← takeShort rules l (c :: text)) rest
        | _ =>
            match l.pending with
            | some (rule, none) =>
                read rules isProgram { l with pending := some (rule, some argument) } rest
            | _ => .error (l.strayError isProgram argument)

def localDevVariable : String := "USE_LOCAL_DEV_MODE"

def localDevRule : OptionRule := ⟨.localDev, "local-dev", none, .flag⟩

/-- Ends a level: the last option is settled, and the environment fills in. -/
def finish (env : Environment) (l : Level) : Except UsageError Level := do
  let l ← l.settlePending
  match l.get? .localDev, env.lookup localDevVariable with
  | none, some text => l.settle localDevRule (some text) true
  | _, _ => return l

/-- The environment must not be asked for together with a kubeconfig or a context. -/
def checkConflicts (l : Level) : Except UsageError Level :=
  if (l.get? .ambient).isSome && ((l.get? .kubeConfig).isSome || (l.get? .context).isSome) then
    .error .argumentConflict
  else .ok l

end Level

/-! ## Both levels -/

/-- Of two occurrences the inner one counts, unless it is only the environment's. -/
def prefer (outer inner : Option Occurrence) : Option Occurrence :=
  match outer, inner with
  | some o, some i => if i.fromEnvironment && !o.fromEnvironment then some o else some i
  | o, none => o
  | none, i => i

def firstValue (o : Option Occurrence) : Option String := o.bind fun o => o.values.head?

def flagValue (o : Option Occurrence) : Bool := firstValue o == some "true"

def listValue (o : Option Occurrence) : List String := (o.map Occurrence.values).getD []

def commandOf (name : String) (l : Level) : Command :=
  if name = "version" then .version
  else if name = "kinds" then .kinds
  else .fetch {
    kinds := listValue (l.get? .kind)
    filter := {
      selectKinds := listValue (l.get? .selectKind)
      ignoreKinds := listValue (l.get? .ignoreKind)
      selectNamespaces := listValue (l.get? .selectNamespace)
      ignoreNamespaces := listValue (l.get? .ignoreNamespace) }
    managedFields := flagValue (l.get? .managedFields)
    output := if firstValue (l.get? .output) = some "json" then .json else .yaml }

def invocationOf (outer inner : Level) (name : String) : Invocation :=
  let value (o : OptionName) : Option Occurrence := prefer (outer.get? o) (inner.get? o)
  { kubeConfig := firstValue (value .kubeConfig)
    context := firstValue (value .context)
    ambient := flagValue (value .ambient)
    localDev := flagValue (value .localDev)
    config := firstValue (value .config)
    logDir := firstValue (value .logDir)
    command := commandOf name inner }

def rulesOf (command : String) : List OptionRule :=
  if command = "fetch" then fetchRules else globalRules

/-- Reads a command line. The level of the command is done before that of the program ends. -/
def parse (env : Environment) (arguments : List String) : Except UsageError Invocation := do
  let (outer, command) ← Level.read programRules true {} arguments
  match command with
  | none =>
      let outer ← outer.finish env
      if outer.found.isEmpty then .error .displayHelpOnMissingArgumentOrSubcommand
      else .error .missingSubcommand
  | some (name, rest) =>
      let (inner, _) ← Level.read (rulesOf name) false {} rest
      let inner ← (← inner.finish env).checkConflicts
      let outer ← (← outer.finish env).checkConflicts
      return invocationOf outer inner name

end CommandLine

end ClusterInventory
