import Gauntlet.Settings.Flag

/-! # The command line

  Values come from the environment first and from the arguments second, so that an
  argument wins. Every environment variable of a flag must hold a proper value, even
  if an argument gives another one. Flags end at the first argument that is none, at
  `-` or after `--`; what follows is positional.

  A command line asks for a run, for help or for the version.
-/

namespace Gauntlet

abbrev Environment := List (Text × Text)

/-- Why a command line cannot be taken. -/
inductive UsageFault where
  | undefined (name : Text)
  | badSyntax (arg : Text)
  | needsArgument (name : Text)
  | badValue (value name reason : Text)
  | badTruth (value name : Text)
  /-- An environment variable holds no value of the named kind. -/
  | environment (value kind source name reason : Text)
  /-- An environment variable holds no word of a flag's set. -/
  | environmentWord (value source name reason : Text)
  | twoForms (second first : Text)
  /-- Help on something unknown; `byCommand` tells that the help command was used. -/
  | noTopic (topic : Text) (byCommand : Bool)
  deriving DecidableEq, Repr, Inhabited

def UsageFault.message : UsageFault → Text
  | undefined name => "flag provided but not defined: -" ++ name
  | badSyntax arg => "bad flag syntax: " ++ arg
  | needsArgument name => "flag needs an argument: -" ++ name
  | badValue value name reason =>
    "invalid value " ++ Text.quoted value ++ " for flag -" ++ name ++ ": " ++ reason
  | badTruth value name =>
    "invalid boolean value " ++ Text.quoted value ++ " for -" ++ name ++ ": parse error"
  | environment value kind source name reason =>
    "could not parse " ++ Text.quoted value ++ " as " ++ kind ++
      " value from environment variable " ++ Text.quoted source ++ " for flag " ++ name ++
      ": " ++ reason
  | environmentWord value source name reason =>
    "could not parse " ++ Text.quoted value ++ " from environment variable " ++
      Text.quoted source ++ " as value for flag " ++ name ++ ": " ++ reason
  | twoForms second first => "Cannot use two forms of the same flag: " ++ second ++ " " ++ first
  | noTopic topic _ => "No help topic for '" ++ topic ++ "'"

namespace CommandLine

/-! ### The environment -/

/-- Takes the value of one flag's environment variable. -/
def fromVariable (f : Flag) (source value : Text) (g : Given) : Except UsageFault Given :=
  match f.value with
  | .text _ store => .ok (store value g)
  | .truth store =>
    if value = [] then .ok (store false g)
    else match truthOf? value with
      | some b => .ok (store b g)
      | none => .error (.environment value "bool" source f.name
          (numberProblem "strconv.ParseBool" value .malformed))
  | .number _ store =>
    if value = [] then .ok g
    else match Numeral.readInt value with
      | .ok n => .ok (store n g)
      | .error e => .error (.environment value "int" source f.name
          (numberProblem "strconv.ParseInt" value e))
  | .duration _ store =>
    if value = [] then .ok g
    else match Duration.read value with
      | .ok d => .ok (store d g)
      | .error e => .error (.environment value "duration" source f.name e.message)
  | .word _ problem store =>
    if value = [] then .ok g
    else match problem value with
      | none => .ok (store value g)
      | some reason => .error (.environmentWord value source f.name reason)

/-- Takes the values of all environment variables, in the order of the flags. -/
def fromEnvironment (env : Environment) : List Flag → Given → Except UsageFault Given
  | [], g => .ok g
  | f :: fs, g =>
    match f.environment.bind fun v => (env.lookup v).map fun value => (v, value) with
    | none => fromEnvironment env fs g
    | some (v, value) =>
      match fromVariable f v value g with
      | .error e => .error e
      | .ok g' => fromEnvironment env fs g'

/-! ### Arguments -/

/-- What an argument is. -/
inductive Argument where
  /-- A flag with the value after `=`, if there is one. -/
  | flag (name : Text) (value : Option Text)
  /-- The end of the flags; the argument itself is dropped. -/
  | separator
  | positional
  | malformed
  deriving DecidableEq, Repr

/-- The name and the value of a flag argument without its dashes. -/
def splitFlag (t : Text) : Text × Option Text :=
  match t with
  | [] => ([], none)
  | b :: rest =>
    match Text.cut? 61 rest with
    | some (name, value) => (b :: name, some value)
    | none => (t, none)

def Argument.ofText (t : Text) : Argument :=
  match t with
  | 45 :: c :: rest =>
    if c = 45 ∧ rest = [] then .separator
    else
      let body := if c = 45 then rest else c :: rest
      match body with
      | [] => .malformed
      | b :: _ =>
        if b = 45 ∨ b = 61 then .malformed
        else
          let (name, value) := splitFlag body
          .flag name value
  | _ => .positional

structure Parsed where
  given : Given := {}
  /-- The names under which flags were used. -/
  used : List Text := []
  positional : List Text := []
  deriving Inhabited

def find? (flags : List Flag) (name : Text) : Option Flag :=
  flags.find? fun f => f.names.contains name

/-- The wording of a number that cannot be taken. -/
def shortReason : Numeral.Fault → Text
  | .malformed => "parse error"
  | .outOfRange => "value out of range"

/-- Takes a value for a flag that was used under a name. -/
def store (f : Flag) (name value : Text) (g : Given) : Except UsageFault Given :=
  match f.value with
  | .text _ put => .ok (put value g)
  | .truth put =>
    match truthOf? value with
    | some b => .ok (put b g)
    | none => .error (.badTruth value name)
  | .number _ put =>
    match Numeral.readInt value with
    | .ok n => .ok (put n g)
    | .error e => .error (.badValue value name (shortReason e))
  | .duration _ put =>
    match Duration.read value with
    | .ok d => .ok (put d g)
    | .error _ => .error (.badValue value name "parse error")
  | .word _ problem put =>
    match problem value with
    | none => .ok (put value g)
    | some reason => .error (.badValue value name reason)

/-- Reads arguments from the left until the flags end. -/
def parse (flags : List Flag) : List Text → Parsed → Except UsageFault Parsed
  | [], p => .ok p
  | arg :: rest, p =>
    match Argument.ofText arg with
    | .positional => .ok { p with positional := arg :: rest }
    | .separator => .ok { p with positional := rest }
    | .malformed => .error (.badSyntax arg)
    | .flag name value =>
      match find? flags name with
      | none => .error (.undefined name)
      | some f =>
        match value.or (if f.isTruth then some (Text.ofString "true") else none) with
        | some v =>
          match store f name v p.given with
          | .error e => .error e
          | .ok given => parse flags rest { p with given, used := name :: p.used }
        | none =>
          match rest with
          | [] => .error (.needsArgument name)
          | v :: rest' =>
            match store f name v p.given with
            | .error e => .error e
            | .ok given => parse flags rest' { p with given, used := name :: p.used }

/-- A flag that was used under both of its names. -/
def twoForms (flags : List Flag) (used : List Text) : Option UsageFault :=
  flags.findSome? fun f =>
    match f.short with
    | some s => if used.contains f.name && used.contains s then some (.twoForms s f.name) else none
    | none => none

def read (flags : List Flag) (env : Environment) (args : List Text) : Except UsageFault Parsed :=
  match fromEnvironment env flags {} with
  | .error e => .error e
  | .ok given =>
    match parse flags args { given } with
    | .error e => .error e
    | .ok p =>
      match twoForms flags p.used with
      | some e => .error e
      | none => .ok p

/-! ### Requests -/

/-- What a command line asks for. -/
inductive Request where
  | help
  | version
  | run (given : Given) (positional : List Text)
  deriving Inhabited

def helpNames : List Text := ["help", "h"].map Text.ofString

/-- Help on a topic; only the help command itself is known. -/
def helpOn (byCommand : Bool) (positional : List Text) : Except UsageFault Request :=
  match positional with
  | [] => .ok .help
  | t :: _ =>
    if t = [] ∨ helpNames.contains t then .ok .help else .error (.noTopic t byCommand)

/-- Carries out the help command with its arguments. -/
def helpCommand : (depth : Nat) → List Text → Except UsageFault Request
  | 0, _ => .ok .help
  | k + 1, args =>
    match read [Flag.help] [] args with
    | .error e => .error e
    | .ok p =>
      if p.given.help = some true then helpOn false p.positional
      else match p.positional with
        | [] => .ok .help
        | t :: rest => if helpNames.contains t then helpCommand k rest else helpOn true (t :: rest)

/-- What a command line asks for; `versioned` tells whether it may ask for the
    version. -/
def request (versioned : Bool) (env : Environment) (args : List Text) :
    Except UsageFault Request :=
  let flags := Flag.all ++ [Flag.help] ++ (if versioned then [Flag.version] else [])
  match read flags env args with
  | .error e => .error e
  | .ok p =>
    if p.given.help = some true then helpOn false p.positional
    else if p.given.version = some true then .ok .version
    else match p.positional with
      | [] => .ok (.run p.given [])
      | t :: rest =>
        if helpNames.contains t then helpCommand (rest.length + 1) rest
        else .ok (.run p.given (t :: rest))

end CommandLine

end Gauntlet
