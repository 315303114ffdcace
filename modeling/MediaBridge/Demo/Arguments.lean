import MediaBridge.Settings.Basic

/-! # Command line arguments

The demonstration program takes options only.  An option has a long name, and most have a short one;
its value follows as an argument of its own or is attached: `--frames 4`, `--frames=4`, `-n 4`, `-n4`
and `-n=4` all say the same.  An argument that begins with a dash, other than the dash alone, is never
the value of the option before it.

Arguments are read from left to right, and help or the version is given as soon as it is asked for.
-/

namespace MediaBridge.Demo

/-- The options. -/
inductive Flag where
  | config
  | frames
  | policy
  | dropEvery
  | help
  | version
  deriving DecidableEq, Repr

namespace Flag

/-- Every option. -/
def all : List Flag := [config, frames, policy, dropEvery, help, version]

/-- The name after two dashes. -/
def long : Flag → String
  | config => "config"
  | frames => "frames"
  | policy => "policy"
  | dropEvery => "drop-every"
  | help => "help"
  | version => "version"

/-- The letter after one dash. -/
def short? : Flag → Option Char
  | config => some 'c'
  | frames => some 'n'
  | policy => some 'p'
  | dropEvery => none
  | help => some 'h'
  | version => some 'V'

/-- Whether the option needs a value. -/
def takesValue : Flag → Bool
  | help | version => false
  | _ => true

/-- What the option is for. -/
def description : Flag → String
  | config => "JSON file with bridge settings."
  | frames => "Number of frames to push through the loopback pipeline."
  | policy => "Which side discards frames when the bridge is full (input/output)."
  | dropEvery => "Let the pipeline silently drop every K-th frame (0 disables)."
  | help => "Print help"
  | version => "Print version"

end Flag

/-- What is wrong with the arguments. -/
inductive ArgumentFault where
  /-- An argument is no option and no value. -/
  | unexpected (argument : String)
  | missingValue (flag : Flag)
  | invalidValue (flag : Flag) (value : String)
  /-- An option without a value got one. -/
  | needlessValue (flag : Flag)
  /-- An option is given twice. -/
  | repeated (flag : Flag)
  deriving DecidableEq, Repr

/-- The fault as it is shown. -/
def ArgumentFault.message : ArgumentFault → String
  | unexpected argument => s!"unexpected argument '{argument}' found"
  | missingValue flag => s!"a value is required for '--{flag.long}' but none was supplied"
  | invalidValue flag value => s!"invalid value '{value}' for '--{flag.long}'"
  | needlessValue flag => s!"unexpected value for '--{flag.long}' found"
  | repeated flag => s!"the argument '--{flag.long}' cannot be used multiple times"

/-- What the demonstration is to do. -/
structure Arguments where
  /-- The path of a settings document. -/
  config : Option String := none
  frames : UInt64 := 100
  policy : Option DiscardPolicy := none
  dropEvery : UInt64 := 0
  /-- The options given so far. -/
  given : List Flag := []
  deriving DecidableEq, Repr

/-- What the program is asked for. -/
inductive Command where
  | run (a : Arguments)
  | help
  | version
  deriving DecidableEq, Repr

/-! ## Values -/

/-- A run of decimal digits, with or without a plus sign, that fits a 64-bit word. -/
def count? (text : List Char) : Option UInt64 :=
  let digits := match text with
    | '+' :: rest => rest
    | _ => text
  if digits = [] ∨ digits.any (fun c => !c.isDigit) then none
  else
    let n := digits.foldl (fun n c => n * 10 + (c.toNat - '0'.toNat)) 0
    if n < UInt64.size then some (UInt64.ofNat n) else none

/-- The policy with a name, in letters of either case. -/
def policy? (text : List Char) : Option DiscardPolicy :=
  match String.ofList (text.map Char.toLower) with
  | "input" => some .discardInput
  | "output" => some .discardOutput
  | _ => none

/-- Stores the value of an option. -/
def Arguments.put (a : Arguments) (flag : Flag) (value : List Char) :
    Except ArgumentFault Arguments :=
  if flag ∈ a.given then .error (.repeated flag)
  else
    let a := { a with given := flag :: a.given }
    let stored := match flag with
      | .config => some { a with config := some (String.ofList value) }
      | .frames => (count? value).map fun frames => { a with frames }
      | .policy => (policy? value).map fun policy => { a with policy := some policy }
      | .dropEvery => (count? value).map fun dropEvery => { a with dropEvery }
      | _ => some a
    match stored with
    | none => .error (.invalidValue flag (String.ofList value))
    | some a => .ok a

/-! ## Reading -/

/-- What an argument is. -/
inductive Token where
  | flag (f : Flag) (attached : Option (List Char))
  /-- Two dashes, after which there are no options. -/
  | endOfFlags
  | plain
  | unknown
  deriving DecidableEq, Repr

/-- Cuts a text at its first equals sign. -/
def splitEquals (text : List Char) : List Char × Option (List Char) :=
  match text.dropWhile (· ≠ '=') with
  | [] => (text, none)
  | _ :: value => (text.takeWhile (· ≠ '='), some value)

/-- Tells what an argument is.  A letter that needs no value ends an argument with one dash. -/
def Token.of (argument : List Char) : Token :=
  match argument with
  | '-' :: '-' :: [] => .endOfFlags
  | '-' :: '-' :: text =>
    let (name, attached) := splitEquals text
    match Flag.all.find? fun f => f.long.toList = name with
    | none => .unknown
    | some f => .flag f attached
  | '-' :: letter :: rest =>
    match Flag.all.find? fun f => f.short? = some letter with
    | none => .unknown
    | some f =>
      if f.takesValue then
        match rest with
        | [] => .flag f none
        | '=' :: value => .flag f (some value)
        | _ => .flag f (some rest)
      else .flag f none
  | _ => .plain

/-- Reads arguments; `waiting` is the option whose value comes next. -/
def Command.parseFrom (a : Arguments) (waiting : Option Flag) :
    List String → Except ArgumentFault Command
  | [] =>
    match waiting with
    | none => .ok (.run a)
    | some f => .error (.missingValue f)
  | argument :: rest =>
    match waiting, Token.of argument.toList with
    | some f, .plain => do parseFrom (← a.put f argument.toList) none rest
    -- what begins with a dash is never a value
    | some f, _ => .error (.missingValue f)
    | none, .flag f (some value) =>
      if f.takesValue then do parseFrom (← a.put f value) none rest
      else .error (.needlessValue f)
    | none, .flag .help none => .ok .help
    | none, .flag .version none => .ok .version
    | none, .flag f none => parseFrom a (some f) rest
    | none, .endOfFlags =>
      match rest with
      | [] => .ok (.run a)
      | argument :: _ => .error (.unexpected argument)
    | none, _ => .error (.unexpected argument)

/-- Reads the arguments of a command line. -/
def Command.parse (arguments : List String) : Except ArgumentFault Command :=
  parseFrom {} none arguments

end MediaBridge.Demo
