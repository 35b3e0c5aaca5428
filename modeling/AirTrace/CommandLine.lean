/-!
# Command lines

A command line holds options only.  An option with a value takes it from the next argument, or from
its own after an equals sign; a short option also takes what follows it in its own argument.  Short
options without values can be joined.  No option may be given twice, and a value may not be empty or
look like an option.
-/

namespace AirTrace.CommandLine

/-- What a command line asks for. -/
structure Request where
  /-- The capture file to read. -/
  input : Option String
  /-- The capture file to write. -/
  output : Option String
  /-- The file with the settings. -/
  settings : Option String
  verbose : Bool
  /-- Whether the counters are to be shown. -/
  stats : Bool
  deriving DecidableEq, Repr

/-- A request for nothing. -/
def Request.blank : Request := ⟨none, none, none, false, false⟩

/-- Why a command line gives no request. -/
inductive Refusal where
  /-- The command line asks how the program is used. -/
  | help
  /-- The command line is not as it should be. -/
  | usage
  deriving DecidableEq, Repr

/-- The options that take a value. -/
inductive Valued where
  | input
  | output
  | settings
  deriving DecidableEq, Repr

/-- The options that take none. -/
inductive Switch where
  | verbose
  | stats
  | help
  deriving DecidableEq, Repr

/-- Any option. -/
inductive Choice where
  | valued (v : Valued)
  | switch (s : Switch)

/-- The option with a long name. -/
def long? (name : List Char) : Option Choice :=
  match String.ofList name with
  | "file" => some (.valued .input)
  | "write" => some (.valued .output)
  | "config" => some (.valued .settings)
  | "verbose" => some (.switch .verbose)
  | "stats" => some (.switch .stats)
  | "help" => some (.switch .help)
  | _ => none

/-- The option with a short name. -/
def short? : Char → Option Choice
  | 'f' => some (.valued .input)
  | 'w' => some (.valued .output)
  | 'v' => some (.switch .verbose)
  | 'h' => some (.switch .help)
  | _ => none

namespace Request

/-- The value that an option has been given. -/
def value? (r : Request) : Valued → Option String
  | .input => r.input
  | .output => r.output
  | .settings => r.settings

/-- Gives an option its value. -/
def give (r : Request) (v : Valued) (x : String) : Except Refusal Request :=
  if x.isEmpty || (r.value? v).isSome then .error .usage
  else .ok (match v with
    | .input => { r with input := some x }
    | .output => { r with output := some x }
    | .settings => { r with settings := some x })

/-- Sets an option that takes no value. -/
def flip (r : Request) : Switch → Except Refusal Request
  | .verbose => if r.verbose then .error .usage else .ok { r with verbose := true }
  | .stats => if r.stats then .error .usage else .ok { r with stats := true }
  | .help => .error .help

end Request

/-- Whether an argument can be the value of the option before it. -/
def isValue (a : String) : Bool :=
  match a.toList with
  | ['-'] => true
  | '-' :: _ => false
  | _ => true

/-- An option whose value must be the next argument, if one is still to come. -/
abbrev Awaiting := Option Valued

/-- Takes an argument with a long option, its dashes left out. -/
def takeLong (r : Request) (a : List Char) : Except Refusal (Request × Awaiting) :=
  let name := a.takeWhile (· != '=')
  let attached := a.dropWhile (· != '=')
  match long? name, attached with
  | some (.valued v), [] => .ok (r, some v)
  | some (.valued v), _ :: x => do return (← r.give v (String.ofList x), none)
  | some (.switch s), [] => do return (← r.flip s, none)
  | some (.switch _), _ :: _ => .error .usage
  | none, _ => .error .usage

/-- Takes an argument with short options, its dash left out. -/
def takeShort (r : Request) : List Char → Except Refusal (Request × Awaiting)
  | [] => .ok (r, none)
  | c :: rest =>
      match short? c with
      | some (.switch s) => do takeShort (← r.flip s) rest
      | some (.valued v) =>
          match rest with
          | [] => .ok (r, some v)
          | '=' :: x => do return (← r.give v (String.ofList x), none)
          | x => do return (← r.give v (String.ofList x), none)
      | none => .error .usage

/-- Takes an argument where an option must come. -/
def takeOption (r : Request) (a : String) : Except Refusal (Request × Awaiting) :=
  match a.toList with
  | '-' :: '-' :: name => takeLong r name
  | '-' :: c :: rest => takeShort r (c :: rest)
  | _ => .error .usage

/-- Takes arguments in order.  Two dashes alone end the options, and nothing may follow them. -/
def takeAll (r : Request) : Awaiting → List String → Except Refusal Request
  | none, [] => .ok r
  | some _, [] => .error .usage
  | some v, a :: rest => do
      if !isValue a then throw .usage
      takeAll (← r.give v a) none rest
  | none, a :: rest => do
      if a == "--" then
        if rest.isEmpty then return r else throw .usage
      let (r, awaiting) ← takeOption r a
      takeAll r awaiting rest

/-- Reads a command line. -/
def read (args : List String) : Except Refusal Request := takeAll .blank none args

end AirTrace.CommandLine
