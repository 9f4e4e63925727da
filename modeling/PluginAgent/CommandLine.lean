import PluginAgent.Product

namespace PluginAgent

inductive CliOption where
  | home
  | args
  | config
  deriving DecidableEq, Repr

inductive CliFlag where
  | stderr
  | help
  | version
  deriving DecidableEq, Repr

structure CommandLine where
  home : String
  args : Option String := none
  config : Option String := none
  toStderr : Bool := false
  deriving DecidableEq, Repr

namespace CommandLine

inductive Flaw where
  | help
  | version
  | badValue
  | tooManyValues
  | repeated
  | unknown
  | missing
  deriving DecidableEq, Repr

structure Draft where
  home : Option String := none
  args : Option String := none
  config : Option String := none
  toStderr : Bool := false
  deriving DecidableEq, Repr

def optionNamed? : String → Option CliOption
  | "agent-home" => some .home
  | "agent-args" => some .args
  | "config" => some .config
  | _ => none

def flagNamed? : String → Option CliFlag
  | "log-stderr" => some .stderr
  | "help" => some .help
  | "version" => some .version
  | _ => none

namespace Draft

def put (d : Draft) (o : CliOption) (value : String) : Except Flaw Draft :=
  match o with
  | .home =>
    if d.home.isSome then .error .repeated
    else if value.isEmpty then .error .badValue
    else .ok { d with home := some value }
  | .args => if d.args.isSome then .error .repeated else .ok { d with args := some value }
  | .config =>
    if d.config.isSome then .error .repeated
    else if value.isEmpty then .error .badValue
    else .ok { d with config := some value }

def settle (d : Draft) : Option (CliOption × Option String) → Except Flaw Draft
  | none => .ok d
  | some (_, none) => .error .badValue
  | some (o, some value) => d.put o value

def setFlag (d : Draft) : CliFlag → Except Flaw Draft
  | .stderr => if d.toStderr then .error .repeated else .ok { d with toStderr := true }
  | .help => .error .help
  | .version => .error .version

end Draft

def long? (word : List Char) : Option (String × Option String) :=
  match word with
  | '-' :: '-' :: rest =>
    match rest.span (· != '=') with
    | (name, []) => some (String.ofList name, none)
    | (name, _ :: value) => some (String.ofList name, some (String.ofList value))
  | _ => none

def shortFlag? : Char → Option CliFlag
  | 'h' => some .help
  | 'V' => some .version
  | _ => none

-- The pending option is the last one that was read; it waits for its value or has it.
def readWords (d : Draft) (pending : Option (CliOption × Option String)) :
    List String → Except Flaw Draft
  | [] => d.settle pending
  | word :: rest =>
    match word.toList with
    | ['-', '-'] => if rest.isEmpty then d.settle pending else .error .unknown
    | '-' :: '-' :: _ =>
      match long? word.toList with
      | none => .error .unknown
      | some (name, value) => match optionNamed? name, flagNamed? name, value with
        | some o, _, value => (d.settle pending).bind fun d => match value with
          | none => readWords d (some (o, none)) rest
          | some v => (d.put o v).bind fun d => readWords d none rest
        | none, some _, some _ => .error .tooManyValues
        | none, some f, none =>
            (d.settle pending).bind fun d => (d.setFlag f).bind fun d => readWords d none rest
        | none, none, _ => .error .unknown
    | '-' :: c :: _ =>
      match shortFlag? c with
      | some f => (d.settle pending).bind fun d => (d.setFlag f).bind fun d => readWords d none rest
      | none => .error .unknown
    | _ =>
      match pending with
      | some (o, none) => readWords d (some (o, some word)) rest
      | _ => .error .unknown

def parseWith (fallback : Option String) (words : List String) : Except Flaw CommandLine :=
  match readWords {} none words with
  | .error flaw => .error flaw
  | .ok d => match d.home.or fallback with
    | some home =>
      if home.isEmpty then .error .badValue else .ok ⟨home, d.args, d.config, d.toStderr⟩
    | none => .error .missing

def parse (words : List String) : Except Flaw CommandLine :=
  parseWith none words

def usage : String :=
  "Usage: probe-agent --agent-home <HOME> [--agent-args <ARGS>] [--config <FILE>] [--log-stderr]"

def Flaw.message : Flaw → String
  | help => usage
  | version => s!"{Product.name}-agent {Product.version}"
  | badValue => "a value is missing or empty"
  | tooManyValues => "a switch takes no value"
  | repeated => "an option is given twice"
  | unknown => "unexpected argument"
  | missing => "no agent home is given"

def Flaw.exitCode : Flaw → UInt32
  | help => 0
  | version => 0
  | _ => 2

end CommandLine

end PluginAgent
