import Reconciler.CommandLine.Option

/-!
# Reading arguments

An option's value follows its name, in the same argument after `=` or in the next one unless that
looks like an option itself. Arguments are read in order, so what stands first decides: a request
for help or for the version ends the reading before a fault behind it is seen, and not after one.
The environment is read last, for the options that were not given.
-/

namespace Reconciler.CommandLine

/-- Why a command line is refused. -/
inductive UsageFault where
  /-- The argument is none of the program's. -/
  | unknown (argument : String)
  /-- The option is given twice. -/
  | repeated (key : Key)
  /-- The option lacks its value. -/
  | missingValue (key : Key)
  /-- The option takes no value, but one is attached. -/
  | unexpectedValue (key : Key) (value : String)
  /-- The value is none for the option. -/
  | invalidValue (key : Key) (value : String)
  deriving DecidableEq, Repr

/-- The fault in a line. -/
def UsageFault.message : UsageFault → String
  | unknown argument => "unexpected argument '" ++ argument ++ "' found"
  | repeated key => "the argument '--" ++ key.long ++ "' cannot be used multiple times"
  | missingValue key => "a value is required for '--" ++ key.long ++ "' but none was supplied"
  | unexpectedValue key value =>
    "unexpected value '" ++ value ++ "' for '--" ++ key.long ++ "' found; no more were expected"
  | invalidValue key value => "invalid value '" ++ value ++ "' for '--" ++ key.long ++ "'"

/-- Why reading ends without options. -/
inductive Halt where
  | refused (fault : UsageFault)
  /-- Help is asked for. -/
  | help
  /-- The version is asked for. -/
  | version
  deriving DecidableEq, Repr

/-! ## Single arguments -/

/-- What an argument looks like. -/
inductive Token where
  /-- Two dashes and a name, with the value attached by `=` if there is one. -/
  | long (name : String) (attached : Option String)
  /-- One dash and letters. -/
  | short (letters : List Char)
  /-- Two dashes alone, after which nothing is an option. -/
  | separator
  /-- Anything else. -/
  | word
  deriving DecidableEq, Repr

/-- The look of an argument. -/
def Token.ofText (s : String) : Token :=
  match s.toList with
  | ['-', '-'] => .separator
  | '-' :: '-' :: cs =>
    let name := cs.takeWhile (· != '=')
    match cs.drop name.length with
    | _ :: value => .long (String.ofList name) (some (String.ofList value))
    | [] => .long (String.ofList name) none
  | ['-'] => .word
  | '-' :: letters => .short letters
  | _ => .word

/-! ## Lists of arguments -/

/-- The options given so far. -/
abbrev Given := List (Key × Value)

/-- Give an option the value that a text stands for. -/
def give (given : Given) (key : Key) (value : String) : Except Halt Given :=
  if given.any (·.1 == key) then .error (.refused (.repeated key))
  else
    match key.form.read? value with
    | some v => .ok (given ++ [(key, v)])
    | none => .error (.refused (.invalidValue key value))

/-- What a single letter asks for. -/
def haltOfLetters (argument : String) : List Char → Halt
  | 'h' :: _ => .help
  | 'V' :: _ => .version
  | _ => .refused (.unknown argument)

/-- What a name that is no option's asks for. -/
def haltOfName (argument name : String) (attached : Option String) : Halt :=
  if attached.isSome then .refused (.unknown argument)
  else if name = "help" then .help
  else if name = "version" then .version
  else .refused (.unknown argument)

/-- Read arguments. -/
def scan (given : Given) : List String → Except Halt Given
  | [] => .ok given
  | argument :: rest =>
    match Token.ofText argument with
    | .word => .error (.refused (.unknown argument))
    | .short letters => .error (haltOfLetters argument letters)
    | .separator =>
      match rest with
      | [] => .ok given
      | argument :: _ => .error (.refused (.unknown argument))
    | .long name attached =>
      match Key.ofLong? name with
      | none => .error (haltOfName argument name attached)
      | some key =>
        match attached with
        | some value =>
          if key.form = .switch then .error (.refused (.unexpectedValue key value))
          else
            match give given key value with
            | .ok given => scan given rest
            | .error halt => .error halt
        | none =>
          if key.form = .switch then
            match give given key "true" with
            | .ok given => scan given rest
            | .error halt => .error halt
          else
            match rest with
            | [] => .error (.refused (.missingValue key))
            | value :: rest =>
              if Token.ofText value = .word then
                match give given key value with
                | .ok given => scan given rest
                | .error halt => .error halt
              else .error (.refused (.missingValue key))

/-- Read the variables of options that were not given. -/
def addVariables (environment : String → Option String) (given : Given) :
    List Key → Except Halt Given
  | [] => .ok given
  | key :: keys =>
    match if given.any (·.1 == key) then none else key.variableName?.bind environment with
    | none => addVariables environment given keys
    | some value =>
      match give given key value with
      | .ok given => addVariables environment given keys
      | .error halt => .error halt

/-! ## Options -/

/-- Everything the program is told. -/
structure Options where
  definition : Bool := false
  installDefinition : Bool := false
  name : String := Settings.defaultName
  onlyNamespace : Option String := none
  leaderElection : Bool := false
  leaseNamespace : String := Settings.defaultLeaseNamespace
  leaseDurationSecs : Nat := 15
  renewIntervalSecs : Nat := 5
  watchTimeoutSecs : Nat := Settings.defaultWatchTimeoutSecs
  plainLogs : Bool := false
  deriving DecidableEq, Repr

namespace Options

/-- The options with one that is given. -/
def set (o : Options) : Key × Value → Options
  | (.definition, .switch on) => { o with definition := on }
  | (.installDefinition, .switch on) => { o with installDefinition := on }
  | (.name, .text s) => { o with name := s }
  | (.onlyNamespace, .text s) => { o with onlyNamespace := some s }
  | (.leaderElection, .switch on) => { o with leaderElection := on }
  | (.leaseNamespace, .text s) => { o with leaseNamespace := s }
  | (.leaseDuration, .number n) => { o with leaseDurationSecs := n }
  | (.renewInterval, .number n) => { o with renewIntervalSecs := n }
  | (.watchTimeout, .number n) => { o with watchTimeoutSecs := n }
  | (.plainLogs, .switch on) => { o with plainLogs := on }
  | _ => o

/-- The options of a command line and an environment. -/
def ofArguments (arguments : List String) (environment : String → Option String) :
    Except Halt Options := do
  let given ← scan [] arguments
  let given ← addVariables environment given Key.all
  return given.foldl set {}

/-- The settings of an operator with these options and an identity. -/
def settings (o : Options) (identity : String) : Settings :=
  { Settings.named o.name identity with
    onlyNamespace := o.onlyNamespace
    leaderElection := o.leaderElection
    leaseNamespace := o.leaseNamespace
    leaseDuration := .ofSecs o.leaseDurationSecs
    renewInterval := .ofSecs o.renewIntervalSecs
    watchTimeoutSecs := o.watchTimeoutSecs }

end Options

end Reconciler.CommandLine
