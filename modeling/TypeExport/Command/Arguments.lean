import TypeExport.Command.Basic

/-!
# Command lines

`Request.ofArguments` reads the arguments of a command line. An option has a long name after two dashes,
and perhaps a letter after one. Letters may stand together. The value of an option is the next argument,
or follows an equals sign, or follows the letter.

Reading goes from left to right and stops at the first mistake, or at an option that asks for help or
for the version.
-/

namespace TypeExport

/-- The options of command lines. -/
inductive Switch where
  | help
  | version
  | verbose
  | config
  | schemaFile
  | sourceDirectory
  | ns
  | includeNested
  | directory
  | barrel
  deriving DecidableEq, Repr

namespace Switch

/-- The long name. -/
def long : Switch → String
  | .help => "help"
  | .version => "version"
  | .verbose => "verbose"
  | .config => "config"
  | .schemaFile => "schema"
  | .sourceDirectory => "src"
  | .ns => "namespace"
  | .includeNested => "nested-namespaces"
  | .directory => "output"
  | .barrel => "barrel"

/-- The letter. -/
def letter? : Switch → Option Char
  | .help => some 'h'
  | .version => some 'V'
  | .verbose => some 'v'
  | .config => some 'c'
  | .sourceDirectory => some 's'
  | .ns => some 'n'
  | .directory => some 'o'
  | .schemaFile | .includeNested | .barrel => none

/-- The option has a value. -/
def takesValue : Switch → Bool
  | .help | .version | .verbose | .includeNested => false
  | _ => true

/-- The value must not be empty. -/
def refusesEmpty : Switch → Bool
  | .schemaFile | .sourceDirectory | .directory => true
  | _ => false

/-- The option asks for something that ends the reading. -/
def isQuestion : Switch → Bool
  | .help | .version => true
  | _ => false

/-- The options before a command. -/
def general : List Switch := [.help, .version, .verbose]

/-- The options of listing. -/
def discovering : List Switch :=
  [.help, .verbose, .config, .schemaFile, .sourceDirectory, .ns, .includeNested]

/-- The options of generating. -/
def generating : List Switch := discovering ++ [.directory, .barrel]

end Switch

/-- What is wrong with a command line. -/
inductive UsageFault where
  | unknownOption (text : String)
  | unknownCommand (name : String)
  | unexpected (argument : String)
  | repeated (s : Switch)
  | noValue (s : Switch)
  | unwantedValue (s : Switch)
  | conflict (s other : Switch)
  | noCommand
  deriving DecidableEq, Repr

def UsageFault.message : UsageFault → String
  | .unknownOption text => "unknown option " ++ text
  | .unknownCommand name => "unknown command " ++ name
  | .unexpected argument => "unexpected argument " ++ argument
  | .repeated s => "--" ++ s.long ++ " is given more than once"
  | .noValue s => "--" ++ s.long ++ " needs a value"
  | .unwantedValue s => "--" ++ s.long ++ " takes no value"
  | .conflict s other => "--" ++ s.long ++ " and --" ++ other.long ++ " cannot be used together"
  | .noCommand => "a command is missing"

/-! ## Single arguments -/

/-- The options that have been given, with their values. -/
abbrev Given := List (Switch × String)

namespace Given

def has (g : Given) (s : Switch) : Bool := g.any (·.1 == s)

def value? (g : Given) (s : Switch) : Option String := (g.find? (·.1 == s)).map (·.2)

/-- Adds an option. -/
def add (g : Given) (s : Switch) (value : String) : Except UsageFault Given :=
  if g.has s then .error (.repeated s)
  else if s.refusesEmpty && value.isEmpty then .error (.noValue s)
  else .ok (g ++ [(s, value)])

end Given

/-- The forms of arguments. -/
inductive Argument where
  | word (text : String)
  /-- All arguments after it are words. -/
  | separator
  | long (name : String) (value : Option String)
  | letters (cs : List Char)
  deriving DecidableEq, Repr

/-- The form of an argument. A dash alone is a word. -/
def Argument.ofText (s : String) : Argument :=
  match s.toList with
  | ['-', '-'] => .separator
  | '-' :: '-' :: cs =>
    match cs.span (· != '=') with
    | (name, '=' :: value) => .long (String.ofList name) (some (String.ofList value))
    | (name, _) => .long (String.ofList name) none
  | '-' :: c :: cs => .letters (c :: cs)
  | _ => .word s

/-- What an argument with options leads to. -/
inductive Step where
  | done (g : Given)
  /-- The value of the option follows. -/
  | wants (g : Given) (s : Switch)
  /-- The option ends the reading. -/
  | asks (s : Switch)

/-- Reads an option by its long name. -/
def readLong (known : List Switch) (g : Given) (name : String) (value : Option String) :
    Except UsageFault Step :=
  match known.find? (·.long == name) with
  | none => .error (.unknownOption ("--" ++ name))
  | some s =>
    match s.takesValue, value with
    | true, some v => return .done (← g.add s v)
    | true, none => .ok (.wants g s)
    | false, some _ => .error (.unwantedValue s)
    | false, none => if s.isQuestion then .ok (.asks s) else return .done (← g.add s "")

/-- Reads options by their letters. -/
def readLetters (known : List Switch) (g : Given) : List Char → Except UsageFault Step
  | [] => .ok (.done g)
  | c :: cs =>
    match known.find? (·.letter? == some c) with
    | none => .error (.unknownOption ("-" ++ String.singleton c))
    | some s =>
      if s.takesValue then
        match cs with
        | [] => .ok (.wants g s)
        | '=' :: value => return .done (← g.add s (String.ofList value))
        | value => return .done (← g.add s (String.ofList value))
      else if s.isQuestion then .ok (.asks s)
      else do readLetters known (← g.add s "") cs

/-! ## Lists of arguments -/

/-- What a list of arguments begins with. -/
inductive Reading where
  /-- Options only. -/
  | options (g : Given)
  /-- Options and a word, and the arguments after it. -/
  | word (g : Given) (text : String) (rest : List String)
  /-- An option that ends the reading. -/
  | asks (s : Switch)

/-- Reads options up to the first word. -/
def readOptions (known : List Switch) (g : Given) : List String → Except UsageFault Reading
  | [] => .ok (.options g)
  | a :: as =>
    match Argument.ofText a with
    | .word text => .ok (.word g text as)
    | .separator => match as with
      | [] => .ok (.options g)
      | b :: _ => .error (.unexpected b)
    | .long name value => do go as (← readLong known g name value)
    | .letters cs => do go as (← readLetters known g cs)
where
  go (as : List String) : Step → Except UsageFault Reading
    | .done g => readOptions known g as
    | .asks s => .ok (.asks s)
    | .wants g s => match as with
      | [] => .error (.noValue s)
      | b :: bs => match Argument.ofText b with
        | .word v => do readOptions known (← g.add s v) bs
        | _ => .error (.noValue s)

/-! ## Requests -/

/-- What a command line asks for. -/
inductive Request where
  | run (command : Command)
  | help
  | version
  deriving DecidableEq, Repr

/-- The options of all commands. -/
def SourceOptions.ofGiven (g : Given) : SourceOptions :=
  let usual : SourceOptions := {}
  { config := (g.value? .config).getD usual.config
    schemaFile := g.value? .schemaFile
    sourceDirectory := g.value? .sourceDirectory
    ns := g.value? .ns
    includeNested := g.has .includeNested }

namespace Request

def ofQuestion : Switch → Request
  | .version => .version
  | _ => .help

/-- Reads the arguments of a command. -/
def ofOptions (known : List Switch) (make : Given → Command) (as : List String) :
    Except UsageFault Request := do
  match ← readOptions known [] as with
  | .asks s => return ofQuestion s
  | .word _ text _ => throw (.unexpected text)
  | .options g =>
    if g.has .schemaFile && g.has .sourceDirectory then throw (.conflict .schemaFile .sourceDirectory)
    return .run (make g)

/-- The words that are commands. -/
def commandNames : List String := ["generate", "discover", "help"]

/-- Reads the arguments of a request for help: the name of a command, or nothing. -/
def ofHelp : List String → Except UsageFault Request
  | [] => .ok .help
  | [name] => if commandNames.contains name then .ok .help else .error (.unknownCommand name)
  | name :: other :: _ =>
    if commandNames.contains name then .error (.unknownCommand other)
    else .error (.unknownCommand name)

/-- Reads the arguments of a command line. -/
def ofArguments (as : List String) : Except UsageFault Request := do
  match ← readOptions Switch.general [] as with
  | .asks s => return ofQuestion s
  | .options _ => throw .noCommand
  | .word _ "generate" rest =>
    ofOptions Switch.generating
      (fun g => .generate (.ofGiven g) (g.value? .directory) (g.value? .barrel)) rest
  | .word _ "discover" rest => ofOptions Switch.discovering (fun g => .discover (.ofGiven g)) rest
  | .word _ "help" rest => ofHelp rest
  | .word _ name _ => throw (.unknownCommand name)

end Request

end TypeExport
