import SqlWorkflow.Settings.Override
import SqlWorkflow.Text.Blank
import SqlWorkflow.Text.Cut

/-!
# Arguments

The program is told what to do by a command, `compile` or `parse`, with options
before and after it. The arguments are read from left to right, and the first
one that is wrong, or that asks for help, ends the reading.
-/

namespace SqlWorkflow.CommandLine

inductive Argument
  | word (text : String)
  /-- An option written `--name` or `--name=value`. -/
  | long (name : String) (value : Option String)
  /-- One or more options of one letter, written `-xyz`. -/
  | short (letters : List Char)
  /-- Two hyphens: all that follows are words. -/
  | separator
  deriving DecidableEq

/-- The text before the first equals sign of an option, and the text after
it. -/
def cutAtEquals (text : List Char) : String × Option String :=
  match text.dropWhile (· ≠ '=') with
  | [] => (String.ofList text, none)
  | _ :: value =>
    (String.ofList (text.takeWhile (· ≠ '=')), some (String.ofList value))

/-- The form of an argument. A single hyphen is a word. -/
def Argument.ofString (text : String) : Argument :=
  match text.toList with
  | ['-', '-'] => .separator
  | '-' :: '-' :: rest => .long (cutAtEquals rest).1 (cutAtEquals rest).2
  | '-' :: first :: rest => .short (first :: rest)
  | _ => .word text

inductive Command
  | compile (directory : String) (override : Settings.Override)
  | parse (file : String)
  deriving DecidableEq

structure Invocation where
  /-- The result is written as a value instead of as a summary. -/
  json : Bool
  command : Command
  deriving DecidableEq

inductive UsageFault
  | noCommand
  | unknownCommand (word : String)
  | unknownOption (option : String)
  | unexpectedValue (option : String)
  | missingValue (option : String)
  | repeated (option : String)
  | unexpectedWord (word : String)
  | notAVariable (text : String)
  | emptyPath
  | missingFile
  deriving DecidableEq

def UsageFault.message : UsageFault → String
  | .noCommand => "a command is required: compile or parse"
  | .unknownCommand word => "unrecognized command '" ++ word ++ "'"
  | .unknownOption option => "unexpected option '" ++ option ++ "'"
  | .unexpectedValue option => "option '" ++ option ++ "' takes no value"
  | .missingValue option => "option '" ++ option ++ "' requires a value"
  | .repeated option =>
    "option '" ++ option ++ "' cannot be used multiple times"
  | .unexpectedWord word => "unexpected argument '" ++ word ++ "'"
  | .notAVariable text => "expected key=value, got '" ++ text ++ "'"
  | .emptyPath => "a path cannot be empty"
  | .missingFile => "the file to parse is required"

inductive Stop
  | fault (fault : UsageFault)
  | help
  | version
  deriving DecidableEq

/-- Reads a letter option; whether the program tells its version depends on the
place. -/
def readLetter (atTop : Bool) (letter : Char) : Except Stop Unit :=
  if letter = 'v' then .ok ()
  else if letter = 'h' then .error .help
  else if letter = 'V' ∧ atTop then .error .version
  else .error (.fault (.unknownOption (String.ofList ['-', letter])))

/-- Reads an option without value. The result tells whether `--json` has been
given, as `json` tells it for the options before this one. -/
def readFlag (atTop json : Bool) (name : String)
    (value : Option String) : Except Stop Bool :=
  let known :=
    ["json", "verbose", "help"] ++ (if atTop then ["version"] else [])
  if name ∉ known then .error (.fault (.unknownOption ("--" ++ name)))
  else if value.isSome then .error (.fault (.unexpectedValue ("--" ++ name)))
  else
    match name with
    | "json" => if json then .error (.fault (.repeated "--json")) else .ok true
    | "verbose" => .ok json
    | "version" => .error .version
    | _ => .error .help

/-! ## Options with values -/

/-- An option that replaces a setting. -/
structure SettingOption where
  name : String
  /-- The replacement that has been given. -/
  given : Settings.Override → Option String
  give : Settings.Override → String → Settings.Override

/-- The options that replace settings. -/
def settingOptions : List SettingOption :=
  [⟨"default-database", (·.defaultDatabase), fun o v => { o with
    defaultDatabase := some v }⟩,
    ⟨"default-schema", (·.defaultSchema), fun o v => { o with
      defaultSchema := some v }⟩,
    ⟨"default-location", (·.defaultLocation), fun o v => { o with
      defaultLocation := some v }⟩,
    ⟨"database-suffix", (·.databaseSuffix), fun o v => { o with
      databaseSuffix := some v }⟩,
    ⟨"schema-suffix", (·.schemaSuffix), fun o v => { o with
      schemaSuffix := some v }⟩,
    ⟨"table-prefix", (·.tablePrefix),
      fun o v => { o with tablePrefix := some v }⟩]

/-- A variable written `key=value`. -/
def readVariable (text : String) : Except Stop (String × String) :=
  match cutAtEquals text.toList with
  | (key, some value) =>
    if Text.isBlankText key then .error (.fault (.notAVariable text))
    else .ok (Text.trim key, value)
  | (_, none) => .error (.fault (.notAVariable text))

/-- Adds the variables that are written between commas. -/
def addVariables (override : Settings.Override)
    (text : String) : Except Stop Settings.Override :=
  ((Text.split ',' text).mapM readVariable).map fun given =>
    { override with
      vars := given.foldl
        (fun vars pair => Dictionary.insert pair.1 pair.2 vars) override.vars }

/-- Adds an option with its value. Variables may be given often, any other
option once. -/
def addOption (override : Settings.Override) (name value : String) :
    Except Stop Settings.Override :=
  if name = "vars" then addVariables override value
  else
    match settingOptions.find? (·.name = name) with
    | none => .error (.fault (.unknownOption ("--" ++ name)))
    | some option =>
      if (option.given override).isSome then
        .error (.fault (.repeated ("--" ++ name)))
      else .ok (option.give override value)

def takesValue (name : String) : Bool :=
  name = "vars" || settingOptions.any (·.name = name)

/-! ## The arguments of a command -/

inductive Verb
  | compile
  | parse
  deriving DecidableEq

inductive Expected
  | anything
  /-- The value of the option before it. -/
  | value (option : String)
  | words
  deriving DecidableEq

/-- What has been read of the arguments of a command. -/
structure Given where
  json : Bool
  path : Option String
  override : Settings.Override
  expected : Expected

namespace Given

def nothing : Given := ⟨false, none, .empty, .anything⟩

/-- Adds a word: every command takes one path. -/
def addWord (given : Given) (word : String) : Except Stop Given :=
  if given.path.isSome then .error (.fault (.unexpectedWord word))
  else if word.isEmpty then .error (.fault .emptyPath)
  else .ok { given with path := some word }

def addOption (given : Given) (name value : String) : Except Stop Given :=
  (CommandLine.addOption given.override name value).map fun override =>
    { given with override := override, expected := .anything }

/-- Adds an option without value. -/
def addFlag (given : Given) (name : String)
    (value : Option String) : Except Stop Given :=
  (readFlag false given.json name value).map fun json =>
    { given with json := json }

/-- Reads an argument that may be anything. -/
def addArgument (verb : Verb) (given : Given) : Argument → Except Stop Given
  | .separator => .ok { given with expected := .words }
  | .word word => given.addWord word
  | .short letters => (letters.forM (readLetter false)).map fun _ => given
  | .long name value =>
    if verb = .compile ∧ takesValue name then
      match value with
      | some value => given.addOption name value
      | none => .ok { given with expected := .value name }
    else given.addFlag name value

def add (verb : Verb) (given : Given) (text : String) : Except Stop Given :=
  match given.expected, Argument.ofString text with
  | .words, _ => given.addWord text
  | .value name, .word value => given.addOption name value
  | .value name, _ => .error (.fault (.missingValue ("--" ++ name)))
  | .anything, argument => given.addArgument verb argument

end Given

/-- The command that its arguments make up. A project is in the working
directory unless told otherwise. -/
def Given.command (given : Given) (verb : Verb) : Except Stop Command :=
  match given.expected, verb, given.path with
  | .value name, _, _ => .error (.fault (.missingValue ("--" ++ name)))
  | _, .compile, path => .ok (.compile (path.getD ".") given.override)
  | _, .parse, some file => .ok (.parse file)
  | _, .parse, none => .error (.fault .missingFile)

/-- Reads the arguments of a command, after `--json` or not. -/
def readCommand (json : Bool) (verb : Verb)
    (rest : List String) : Except Stop Invocation := do
  let given ← rest.foldlM (Given.add verb) .nothing
  return ⟨json || given.json, ← given.command verb⟩

/-! ## All arguments -/

/-- Reads the arguments of the program, after `--json` or not. -/
def readFrom (json : Bool) : List String → Except Stop Invocation
  | [] => .error (.fault .noCommand)
  | text :: rest =>
    match Argument.ofString text with
    | .separator =>
      match rest with
      | [] => .error (.fault .noCommand)
      | word :: _ => .error (.fault (.unexpectedWord word))
    | .word "compile" => readCommand json .compile rest
    | .word "parse" => readCommand json .parse rest
    | .word "help" =>
      if rest ∈ [[], ["compile"], ["parse"], ["help"]] then .error .help
      else .error (.fault (.unknownCommand (rest.headD "")))
    | .word word => .error (.fault (.unknownCommand word))
    | .short letters => do
      letters.forM (readLetter true)
      readFrom json rest
    | .long name value => do readFrom (← readFlag true json name value) rest

def read (arguments : List String) : Except Stop Invocation :=
  readFrom false arguments

end SqlWorkflow.CommandLine
