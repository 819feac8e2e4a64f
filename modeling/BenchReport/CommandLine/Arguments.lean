set_option autoImplicit false

namespace BenchReport.CommandLine

inductive Choice where
  | config
  | input
  | reporter
  | output
  | logLevel
  deriving DecidableEq

namespace Choice

def all : List Choice := [.config, .input, .reporter, .output, .logLevel]

def long : Choice → String
  | .config => "config"
  | .input => "input"
  | .reporter => "reporter"
  | .output => "output"
  | .logLevel => "log-level"

def short : Choice → Char
  | .config => 'c'
  | .input => 'i'
  | .reporter => 'r'
  | .output => 'o'
  | .logLevel => 'l'

/-- Whether the value is a path, which cannot be empty. -/
def isPath : Choice → Bool
  | .config | .input | .output => true
  | .reporter | .logLevel => false

end Choice

/-- What is wrong with the arguments. -/
inductive Misuse where
  | unexpected (argument : String)
  | noValue (choice : Choice)
  | repeated (choice : Choice)
  | needlessValue (flag : String)
  deriving DecidableEq

def Misuse.message : Misuse → String
  | .unexpected argument => s!"error: unexpected argument '{argument}' found"
  | .noValue choice => s!"error: a value is required for '--{choice.long}' but none was supplied"
  | .repeated choice => s!"error: the argument '--{choice.long}' cannot be used multiple times"
  | .needlessValue flag => s!"error: unexpected value for '--{flag}' found; no more were expected"

/-- The values of the options that were given. -/
abbrev Arguments := List (Choice × String)

inductive Request where
  | run (arguments : Arguments)
  | version
  | help
  deriving DecidableEq

/-- What a single argument is by its form. -/
inductive Form where
  | word
  /-- The mark behind which all arguments are words. -/
  | endOfOptions
  | long (name : String) (value : Option String)
  | short (name : Char) (rest : List Char)

def Form.ofArgument (argument : String) : Form :=
  match argument.toList with
  | ['-', '-'] => .endOfOptions
  | '-' :: '-' :: cs =>
    let name := String.ofList (cs.takeWhile (· ≠ '='))
    match cs.dropWhile (· ≠ '=') with
    | [] => .long name none
    | _ :: value => .long name (some (String.ofList value))
  | '-' :: c :: cs => .short c cs
  | _ => .word

/-- What an argument asks for. -/
inductive Asked where
  | version
  | help
  | choice (c : Choice) (value : Option String)
  | endOfOptions
  | nothing (m : Misuse)

/-- A flag, which takes no value. -/
def flag (name : String) (value : Option String) (asked : Asked) : Asked :=
  match value with
  | none => asked
  | some _ => .nothing (.needlessValue name)

def Asked.ofArgument (argument : String) : Asked :=
  match Form.ofArgument argument with
  | .word => .nothing (.unexpected argument)
  | .endOfOptions => .endOfOptions
  | .long name value =>
    if name = "version" then flag name value .version
    else if name = "help" then flag name value .help
    else match Choice.all.find? (·.long == name) with
      | some c => .choice c value
      | none => .nothing (.unexpected argument)
  | .short name rest =>
    if name = 'V' then .version
    else if name = 'h' then .help
    else match Choice.all.find? (·.short == name) with
      | none => .nothing (.unexpected argument)
      | some c => match rest with
        | [] => .choice c none
        | '=' :: value => .choice c (some (String.ofList value))
        | value => .choice c (some (String.ofList value))

/-- Whether an argument can be the value of the option before it. -/
def isValue (argument : String) : Bool :=
  match Form.ofArgument argument with
  | .word => true
  | _ => false

/-- The values with one more. -/
def give (a : Arguments) (c : Choice) (value : String) : Except Misuse Arguments :=
  if (a.lookup c).isSome then .error (.repeated c)
  else if c.isPath && value = "" then .error (.noValue c)
  else .ok (a ++ [(c, value)])

/-- Reads the arguments behind those already read. -/
def readFrom (a : Arguments) : List String → Except Misuse Request
  | [] => .ok (.run a)
  | argument :: rest =>
    match Asked.ofArgument argument with
    | .version => .ok .version
    | .help => .ok .help
    | .nothing m => .error m
    | .endOfOptions => match rest with
      | [] => .ok (.run a)
      | word :: _ => .error (.unexpected word)
    | .choice c (some value) => give a c value >>= fun a => readFrom a rest
    | .choice c none => match rest with
      | [] => .error (.noValue c)
      | value :: rest =>
        if isValue value then give a c value >>= fun a => readFrom a rest
        else .error (.noValue c)

def read (arguments : List String) : Except Misuse Request := readFrom [] arguments

end BenchReport.CommandLine
