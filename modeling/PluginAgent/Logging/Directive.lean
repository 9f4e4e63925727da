import PluginAgent.Logging.Pattern
import PluginAgent.Text.CharacterClass
import PluginAgent.Text.Blank
import PluginAgent.Text.Split

namespace PluginAgent.Directive

open Text

def levelNames : List String :=
  ["error", "warn", "info", "debug", "trace", "off"]

def isLevel (s : List Char) : Bool :=
  let digits := match s with
    | '+' :: r => r
    | r => r
  s.isEmpty || levelNames.any (sameIgnoringCase (String.ofList s)) ||
    (!digits.isEmpty && digits.all Char.isDigit &&
      (digits.foldl (fun n c => n * 10 + (c.toNat - 48)) 0) ≤ 5)

/-- A number with a sign in front, which as a pattern would repeat nothing. -/
def isSignedNumber : List Char → Bool
  | '+' :: r =>
    let lower := r.map Char.toLower
    let (mantissa, exponent) := lower.span (· != 'e')
    let (whole, fraction) := (cut? '.' mantissa).getD (mantissa, [])
    let power := match exponent.drop 1 with
      | '+' :: p => p
      | '-' :: p => p
      | p => p
    ["inf", "infinity", "nan"].any (·.toList == lower) ||
      ((whole ++ fraction).all Char.isDigit && !(whole ++ fraction).isEmpty &&
        (exponent.isEmpty || (power.all Char.isDigit && !power.isEmpty)))
  | _ => false

def isField (s : List Char) : Bool :=
  !s.isEmpty && match splitOn '=' s with
    | _ :: value :: _ => isSignedNumber value || Pattern.isValid value
    | _ => true

inductive State where
  | start
  | levelOrTarget
  | span
  | field (start : Nat)
  | fields
  | target
  | level (start : Nat)
  | complete
  deriving DecidableEq, Repr

def startsWord (c : Char) : Bool :=
  c == '-' || c == ':' || c == '_' || isAlphanumeric c

def slice (text : List Char) (start stop : Nat) : List Char :=
  (text.take stop).drop start

def step (text : List Char) (i : Nat) (state : State) (c : Char) : Option State :=
  match state with
  | .start => if c = '[' then some .span else if startsWord c then some .levelOrTarget else none
  | .levelOrTarget =>
    if c = '=' then some (.level (i + 1))
    else if c = '[' then some .span
    else if c = ',' then some .complete
    else some state
  | .span =>
    if c = ']' then some .target
    else if c = '\x7b' then some (.field (i + 1))
    else some state
  | .field start =>
    if c = '\x7d' then if isField (slice text start i) then some .fields else none
    else if c = ',' then if isField (slice text start i) then some (.field (i + 1)) else none
    else some state
  | .fields => if c = ']' then some .target else none
  | .target => if c = '=' then some (.level (i + 1)) else none
  | .level start =>
    if c = ',' then if isLevel (slice text start i) then some .complete else none else some state
  | .complete => none

def scan (text : List Char) : Nat → State → List Char → Option State
  | _, state, [] => some state
  | i, state, c :: r => match step text i state c with
    | some state => scan text (i + 1) state r
    | none => none

def isValid (text : List Char) : Bool :=
  match scan text 0 .start (trim text) with
  | some .levelOrTarget => true
  | some (.level start) => isLevel (text.drop start)
  | some .target => true
  | some .complete => true
  | _ => false

def areValid (text : List Char) : Bool :=
  (splitOn ',' text).all fun s => s.isEmpty || isValid s

end PluginAgent.Directive
