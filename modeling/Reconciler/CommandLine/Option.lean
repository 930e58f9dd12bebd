import Reconciler.Settings

/-!
# Options

What the program can be told on its command line, and for most options in a variable of its
environment. An option is a switch, a text or a number that must fit a word of some size.
-/

namespace Reconciler.CommandLine

/-- What an option takes. -/
inductive Form where
  /-- Nothing on the command line; `true` or `false` in a variable. -/
  | switch
  | text
  /-- A number below `2^bits`, in decimal digits after an optional sign. -/
  | number (bits : Nat)
  deriving DecidableEq, Repr

/-- What an option is given. -/
inductive Value where
  | switch (on : Bool)
  | text (s : String)
  | number (n : Nat)
  deriving DecidableEq, Repr

/-- The number that decimal digits stand for; there must be one. -/
def natOfDigits? (cs : List Char) : Option Nat :=
  if cs.isEmpty || !cs.all Char.isDigit then none
  else some (cs.foldl (fun n c => n * 10 + (c.toNat - 48)) 0)

/-- The number that a text stands for. A minus is understood below 64 bits only, and leaves only
zero. -/
def number? (bits : Nat) (s : String) : Option Nat :=
  let read (cs : List Char) : Option Nat := (natOfDigits? cs).filter (· < Nat.pow 2 bits)
  match s.toList with
  | '+' :: cs => read cs
  | '-' :: cs => if bits < 64 then (read cs).filter (· = 0) else none
  | cs => read cs

/-- The value of a form that a text stands for. -/
def Form.read? : Form → String → Option Value
  | .switch, s =>
    if s = "true" then some (.switch true) else if s = "false" then some (.switch false) else none
  | .text, s => some (.text s)
  | .number bits, s => (number? bits s).map .number

/-- The options that can be given, each once. -/
inductive Key where
  /-- Print the definition of the type and exit. -/
  | definition
  | installDefinition
  | name
  | onlyNamespace
  | leaderElection
  | leaseNamespace
  | leaseDuration
  | renewInterval
  | watchTimeout
  | plainLogs
  deriving DecidableEq, Repr

namespace Key

/-- The options in the order in which help lists them. -/
def all : List Key :=
  [definition, installDefinition, name, onlyNamespace, leaderElection, leaseNamespace,
    leaseDuration, renewInterval, watchTimeout, plainLogs]

/-- The name after two dashes. -/
def long : Key → String
  | definition => "crd"
  | installDefinition => "install-crds"
  | name => "name"
  | onlyNamespace => "namespace"
  | leaderElection => "leader-election"
  | leaseNamespace => "lease-namespace"
  | leaseDuration => "lease-duration-secs"
  | renewInterval => "renew-interval-secs"
  | watchTimeout => "watch-timeout-secs"
  | plainLogs => "plain-logs"

/-- The variable that gives the option where the command line does not. -/
def variableName? : Key → Option String
  | definition => none
  | installDefinition => some "KUBEOPS_INSTALL_CRDS"
  | name => some "KUBEOPS_OPERATOR_NAME"
  | onlyNamespace => some "KUBEOPS_NAMESPACE"
  | leaderElection => some "KUBEOPS_LEADER_ELECTION"
  | leaseNamespace => some "KUBEOPS_LEASE_NAMESPACE"
  | leaseDuration => some "KUBEOPS_LEASE_DURATION_SECS"
  | renewInterval => some "KUBEOPS_RENEW_INTERVAL_SECS"
  | watchTimeout => some "KUBEOPS_WATCH_TIMEOUT_SECS"
  | plainLogs => some "KUBEOPS_PLAIN_LOGS"

/-- What the option takes. -/
def form : Key → Form
  | definition => .switch
  | installDefinition => .switch
  | name => .text
  | onlyNamespace => .text
  | leaderElection => .switch
  | leaseNamespace => .text
  | leaseDuration => .number 64
  | renewInterval => .number 64
  | watchTimeout => .number 32
  | plainLogs => .switch

/-- What help says about the option. -/
def help : Key → String
  | definition => "Print the ConfigMirror CRD manifest and exit"
  | installDefinition => "Install or update the CRD with server-side apply before starting"
  | name => "Operator name, used as field manager and lease name prefix"
  | onlyNamespace => "Only watch this namespace"
  | leaderElection => "Run leader election so only one replica reconciles"
  | leaseNamespace => "Namespace of the leader election Lease"
  | leaseDuration => "Lease duration in seconds"
  | renewInterval => "Lease renew interval in seconds"
  | watchTimeout => "Server-side watch timeout in seconds"
  | plainLogs => "Human-readable logs instead of JSON"

/-- What the option is if it is not given, where help shows that. -/
def shownDefault? : Key → Option String
  | name => some Settings.defaultName
  | leaseNamespace => some Settings.defaultLeaseNamespace
  | leaseDuration => some "15"
  | renewInterval => some "5"
  | watchTimeout => some (toString Settings.defaultWatchTimeoutSecs)
  | _ => none

/-- The option of a name. -/
def ofLong? (s : String) : Option Key := all.find? (·.long == s)

end Key

end Reconciler.CommandLine
