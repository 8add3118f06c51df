import Reckoner.Json.Reading
import Reckoner.Tool.Calculation
import Reckoner.Tool.Registry

/-!
# CommandLine — calling tools from a shell

`list` prints what tools there are, and `call` calls one with arguments in JSON.  The arguments of
the command line are read in order; the first that is not understood, and the first that asks for
help or for the version, decides.
-/

namespace Reckoner.CommandLine

/-- What a command line asks for. -/
inductive Command where
  | list
  | call (tool arguments : String)
  | version
  | help (page : String)
  deriving DecidableEq, Repr

/-- The name and the version of the program. -/
def versionLine : String := "toolbot 0.1.0"

/-- What is passed to a tool when no arguments are given. -/
def noArguments : String := "\x7b\x7d"

/-- The help on the program. -/
def mainPage : String :=
  "Calculator tools: expressions, scientific functions and unit conversion\n\n" ++
  "Usage: toolbot <COMMAND>\n\n" ++
  "Commands:\n" ++
  "  list  Print the available tool definitions\n" ++
  "  call  Invoke a tool and print its JSON reply\n" ++
  "  help  Print this message or the help of the given subcommand(s)\n\n" ++
  "Options:\n" ++
  "  -h, --help     Print help\n" ++
  "  -V, --version  Print version"

/-- The help on `list`. -/
def listPage : String :=
  "Print the available tool definitions\n\n" ++
  "Usage: toolbot list\n\n" ++
  "Options:\n" ++
  "  -h, --help  Print help"

/-- The help on `call`. -/
def callPage : String :=
  "Invoke a tool and print its JSON reply\n\n" ++
  "Usage: toolbot call [OPTIONS] <tool>\n\n" ++
  "Arguments:\n" ++
  "  <tool>  Tool name, e.g. calculator_calculate_expression\n\n" ++
  "Options:\n" ++
  "  -a, --args <JSON>  Tool arguments as a JSON object [default: " ++ noArguments ++ "]\n" ++
  "  -h, --help         Print help"

/-- An argument by its form. -/
inductive Word where
  /-- two dashes: what follows are no options -/
  | separator
  /-- an option by its name, with what is attached to it -/
  | long (name : String) (attached : Option String)
  /-- an option by its first letter, with what is attached to it -/
  | short (letter : Char) (attached : List Char)
  | plain (text : String)
  deriving DecidableEq, Repr

/-- The form of an argument.  A single dash is no option. -/
def Word.of (argument : String) : Word :=
  match argument.toList with
  | ['-', '-'] => .separator
  | '-' :: '-' :: rest =>
    let name := String.ofList (rest.takeWhile (· != '='))
    match rest.dropWhile (· != '=') with
    | _ :: value => .long name (some (String.ofList value))
    | [] => .long name none
  | '-' :: letter :: attached => .short letter attached
  | _ => .plain argument

/-- Whether an argument can be the value of the option before it. -/
def Word.isPlain : Word → Bool
  | .plain _ => true
  | _        => false

/-- Whether an option asks for help. -/
def Word.asksForHelp : Word → Bool
  | .long "help" none => true
  | .short 'h' _      => true
  | _                 => false

/-- Whether an option asks for the version. -/
def Word.asksForVersion : Word → Bool
  | .long "version" none => true
  | .short 'V' _         => true
  | _                    => false

/-- What is attached to the option that gives a tool its arguments; nothing for other words. -/
def Word.toolArguments? : Word → Option (Option String)
  | .long "args" attached   => some attached
  | .short 'a' []           => some none
  | .short 'a' ('=' :: cs)  => some (some (String.ofList cs))
  | .short 'a' cs           => some (some (String.ofList cs))
  | _                       => none

/-- What is asked for behind `list`. -/
def listCommand : List String → Option Command
  | [] => some .list
  | argument :: rest =>
    if (Word.of argument).asksForHelp then some (.help listPage)
    else if Word.of argument = .separator ∧ rest = [] then some .list
    else none

/-- The call of a tool, if it is known, with what it is given. -/
def finishedCall (tool arguments : Option String) : Option Command :=
  tool.map (.call · (arguments.getD noArguments))

/-- What is asked for behind `call`, with the tool and its arguments as far as they are known. -/
def callCommand (tool arguments : Option String) : List String → Option Command
  | [] => finishedCall tool arguments
  | argument :: rest =>
    let word := Word.of argument
    if word.asksForHelp then some (.help callPage)
    else if word = .separator then
      match tool, rest with
      | some _, []   => finishedCall tool arguments
      | none, [text] => finishedCall (some text) arguments
      | _, _         => none
    else if word.isPlain then
      if tool.isNone then callCommand (some argument) arguments rest else none
    else if arguments.isSome then none
    else match word.toolArguments?, rest with
      | some (some value), rest => callCommand tool (some value) rest
      | some none, value :: rest =>
        if (Word.of value).isPlain then callCommand tool (some value) rest else none
      | _, _ => none

/-- What is asked for behind `help`. -/
def helpCommand : List String → Option Command
  | []       => some (.help mainPage)
  | ["list"] => some (.help listPage)
  | ["call"] => some (.help callPage)
  | ["help"] => some (.help mainPage)
  | _        => none

/-- What a command line asks for, if it is understood. -/
def command? : List String → Option Command
  | [] => none
  | argument :: rest =>
    let word := Word.of argument
    if word.asksForHelp then some (.help mainPage)
    else if word.asksForVersion then some .version
    else if argument = "list" then listCommand rest
    else if argument = "call" then callCommand none none rest
    else if argument = "help" then helpCommand rest
    else none

/-- What a run of the program comes to: its exit code, and what it prints. -/
structure Exit where
  code   : Nat
  output : String
  deriving DecidableEq, Repr

/-- Prints some lines and succeeds. -/
def Exit.printing (text : String) : Exit :=
  ⟨0, text ++ "\n"⟩

/-- The tools of a calculator. -/
def registry (calculator : Calculator) : Registry :=
  Registry.empty.registerAll (Tool.allOf calculator)

/-- Carries out what was asked for.  A call whose arguments are no JSON prints nothing. -/
def Command.run (calculator : Calculator) : Command → Exit
  | .version => .printing versionLine
  | .help page => .printing page
  | .list => .printing (Json.array (registry calculator).definitions).pretty
  | .call tool arguments =>
    match Json.read arguments with
    | .error _ => ⟨1, ""⟩
    | .ok arguments =>
      match (registry calculator).execute tool arguments with
      | .ok reply => .printing reply.pretty
      | .error e => ⟨1, e.payload.pretty ++ "\n"⟩

/-- A run of the program with a command line; one that is not understood prints nothing. -/
def run (calculator : Calculator) (arguments : List String) : Exit :=
  match command? arguments with
  | some command => command.run calculator
  | none => ⟨2, ""⟩

end Reckoner.CommandLine
