import StoreLint.Rule.Basic

/-!
# Command line arguments

A command line names a command and gives its options.  Arguments are read from left
to right, and the first one that cannot be accepted decides what is wrong.  The values
of an option, and a run of plain arguments, are judged when something else follows
them or the line ends.
-/

namespace StoreLint

/-- What a check is asked for. -/
structure CheckOptions where
  /-- The rules to run; none means all. -/
  rules : List Rule := []
  sourceRoot : Option String := none
  verbose : Bool := false
deriving DecidableEq, Repr, Inhabited

/-- The commands. -/
inductive Command where
  | check (options : CheckOptions)
  | init
  | rules (json : Bool)
deriving DecidableEq, Repr, Inhabited

/-- What help is about. -/
inductive HelpTopic where
  | program
  | check
  | init
  | rules
  | help
deriving DecidableEq, Repr, Inhabited

/-- Why a command line gives no command to run. -/
inductive Usage where
  | displayHelp (topic : HelpTopic)
  | displayVersion
  | invalidSubcommand
  | invalidValue
  | unknownArgument
  | argumentConflict
  | tooManyValues
deriving DecidableEq, Repr, Inhabited

/-- An argument by its form. -/
inductive Argument where
  /-- Two dashes: everything after them is plain. -/
  | escape
  /-- A long option, with the value after an equals sign. -/
  | long (name : List Char) (value : Option (List Char))
  /-- Short options behind one dash. -/
  | short (letters : List Char)
  | plain (text : List Char)
deriving DecidableEq, Repr, Inhabited

def Argument.ofChars (chars : List Char) : Argument :=
  match chars with
  | ['-', '-'] => .escape
  | '-' :: '-' :: rest =>
      let name := rest.takeWhile fun c => c != '='
      match rest.dropWhile fun c => c != '=' with
      | [] => .long name none
      | _ :: value => .long name (some value)
  | '-' :: first :: rest => .short (first :: rest)
  | _ => .plain chars

def Argument.ofString (argument : String) : Argument := .ofChars argument.toList

/-- Arguments of `check` that have been read but not judged. -/
inductive Pending where
  | nothing
  /-- Names of rules. -/
  | names (texts : List String)
  /-- The source root, whose value may still follow. -/
  | root (value : Option String)
deriving DecidableEq, Repr, Inhabited

/-- The options of `check` in progress. -/
structure CheckProgress where
  options : CheckOptions := {}
  pending : Pending := .nothing
deriving DecidableEq, Repr, Inhabited

namespace CheckProgress

def ruleNamed (name : String) : Except Usage Rule :=
  match Rule.checks.find? fun rule => rule.id == name with
  | some rule => .ok rule
  | none => .error .invalidValue

/-- Judges what is pending. -/
def settle (progress : CheckProgress) : Except Usage CheckProgress :=
  match progress.pending with
  | .nothing => .ok progress
  | .names texts => do
      let rules ← texts.mapM ruleNamed
      return { options := { progress.options with rules := progress.options.rules ++ rules } }
  | .root none => .error .invalidValue
  | .root (some value) =>
      if progress.options.sourceRoot.isSome then .error .argumentConflict
      else if value.isEmpty then .error .invalidValue
      else .ok { options := { progress.options with sourceRoot := some value } }

def setVerbose (progress : CheckProgress) : Except Usage CheckProgress := do
  let settled ← progress.settle
  if settled.options.verbose then .error .argumentConflict
  else return { options := { settled.options with verbose := true } }

def showHelp (progress : CheckProgress) : Except Usage CheckProgress := do
  let _ ← progress.settle
  .error (.displayHelp .check)

def addName (progress : CheckProgress) (text : String) : Except Usage CheckProgress :=
  match progress.pending with
  | .names texts => .ok { progress with pending := .names (texts ++ [text]) }
  | _ => do
      let settled ← progress.settle
      return { settled with pending := .names [text] }

/-- Takes a plain argument: the value of an option that waits for one, or the name of a rule. -/
def addPlain (progress : CheckProgress) (text : String) : Except Usage CheckProgress :=
  match progress.pending with
  | .root none => .ok { progress with pending := .root (some text) }
  | _ => progress.addName text

def addLong (progress : CheckProgress) (name : String) (value : Option String) :
    Except Usage CheckProgress :=
  match name, value with
  | "help", none => progress.showHelp
  | "verbose", none => progress.setVerbose
  | "help", some _ | "verbose", some _ => .error .tooManyValues
  | "source-root", none => do
      let settled ← progress.settle
      return { settled with pending := .root none }
  | "source-root", some text => do
      let settled ← progress.settle
      CheckProgress.settle { settled with pending := .root (some text) }
  | _, _ => .error .unknownArgument

def addShort (progress : CheckProgress) (letter : Char) : Except Usage CheckProgress :=
  if letter == 'v' then progress.setVerbose
  else if letter == 'h' then progress.showHelp
  else .error .unknownArgument

def addAll (progress : CheckProgress) : List String → Except Usage CheckProgress
  | [] => progress.settle
  | argument :: arguments => do
      match Argument.ofString argument with
      | .escape =>
          let named ← arguments.foldlM addName progress
          named.settle
      | .long name value =>
          let next ← progress.addLong (String.ofList name) (value.map String.ofList)
          addAll next arguments
      | .short letters =>
          let next ← letters.foldlM addShort progress
          addAll next arguments
      | .plain text =>
          let next ← progress.addPlain (String.ofList text)
          addAll next arguments

end CheckProgress

/-- The arguments of a command that takes at most one flag, and whether it was given. -/
def parseFlag (topic : HelpTopic) (flag : Option String) :
    (given : Bool) → List String → Except Usage Bool
  | given, [] => .ok given
  | given, argument :: arguments =>
      match Argument.ofString argument with
      | .escape => if arguments.isEmpty then .ok given else .error .unknownArgument
      | .long name value =>
          let isHelp := String.ofList name == "help"
          let isFlag := flag == some (String.ofList name)
          if !isHelp && !isFlag then .error .unknownArgument
          else if value.isSome then .error .tooManyValues
          else if isHelp then .error (.displayHelp topic)
          else if given then .error .argumentConflict
          else parseFlag topic flag true arguments
      | .short letters =>
          if letters.head? == some 'h' then .error (.displayHelp topic)
          else .error .unknownArgument
      | .plain _ => .error .unknownArgument

/-- The topic that a name of a command stands for. -/
def HelpTopic.ofName? : String → Option HelpTopic
  | "check" => some .check
  | "init" => some .init
  | "rules" => some .rules
  | "help" => some .help
  | _ => none

/-- What the arguments of `help` ask for.  No command has commands below it. -/
def parseHelp : List String → Usage
  | [] => .displayHelp .program
  | [name] =>
      match HelpTopic.ofName? name with
      | some topic => .displayHelp topic
      | none => .invalidSubcommand
  | _ => .invalidSubcommand

/-- What an argument in front of a command asks for. -/
def parseProgramOption : Argument → Usage
  | .escape => .displayHelp .program
  | .long name value =>
      let isHelp := String.ofList name == "help"
      let isVersion := String.ofList name == "version"
      if !isHelp && !isVersion then .unknownArgument
      else if value.isSome then .tooManyValues
      else if isHelp then .displayHelp .program
      else .displayVersion
  | .short letters =>
      match letters.head? with
      | some 'h' => .displayHelp .program
      | some 'V' => .displayVersion
      | _ => .unknownArgument
  | .plain _ => .invalidSubcommand

/-- The command that a command line names, if it names one. -/
def Command.parse : List String → Except Usage (Option Command)
  | [] => .ok none
  | "check" :: arguments => do
      let progress ← CheckProgress.addAll {} arguments
      return some (.check progress.options)
  | "init" :: arguments => do
      let _ ← parseFlag .init none false arguments
      return some .init
  | "rules" :: arguments => do
      let json ← parseFlag .rules (some "json") false arguments
      return some (.rules json)
  | "help" :: arguments => .error (parseHelp arguments)
  | ["--"] => .ok none
  | "--" :: name :: _ =>
      .error (if (HelpTopic.ofName? name).isSome then .unknownArgument else .invalidSubcommand)
  | argument :: _ => .error (parseProgramOption (Argument.ofString argument))

end StoreLint
