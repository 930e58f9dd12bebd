import Reconciler.Logging.Directive

/-!
# Which log lines are kept

A filter is a list of directives. Those that name a span, or the value of a field, speak of lines
inside spans only, and nothing is said here about those. The others are tried in an order from the
most specific to the least: longer targets first, then more fields, so that `kubeops::watch=debug`
goes before `kubeops=info`. The first that covers a line decides, and what none covers is dropped.
-/

namespace Reconciler.Logging

/-- A directive for lines outside of spans. -/
structure Rule where
  /-- What the targets start with. -/
  target : Option String := none
  /-- The fields that lines have. -/
  fields : List String := []
  threshold : Threshold
  deriving DecidableEq, Repr

namespace Rule

/-- The rule of a directive that speaks of lines outside of spans. -/
def ofDirective? (d : Directive) : Option Rule :=
  match d.span, d.field with
  | none, none => some ⟨d.target, [], d.threshold⟩
  | none, some ⟨name, false⟩ => some ⟨d.target, [name], d.threshold⟩
  | _, _ => none

/-- Any target is less than a certain one, and a short one less than a long one. -/
def targetSize (r : Rule) : Nat := (r.target.map fun s => s.utf8ByteSize + 1).getD 0

/-- The order of specificity, in which rules are equal only if they cover the same lines. -/
def order (a b : Rule) : Ordering :=
  (compare a.targetSize b.targetSize).then <|
    (compare a.fields.length b.fields.length).then <|
      (compare (a.target.getD "") (b.target.getD "")).then <|
        compare (a.fields.headD "") (b.fields.headD "")

/-- Put a rule among others, the most specific first, in the place of an equal one. -/
def insert (r : Rule) : List Rule → List Rule
  | [] => [r]
  | other :: rest =>
    match order r other with
    | .gt => r :: other :: rest
    | .eq => r :: rest
    | .lt => other :: insert r rest

/-- The rule speaks of a line from a target with certain fields. -/
def covers (r : Rule) (target : String) (fields : List String) : Bool :=
  r.target.all (fun start => target.startsWith start) && r.fields.all fields.contains

end Rule

/-- The rules of a list of directives, the most specific first. -/
structure Filter where
  rules : List Rule
  deriving DecidableEq, Repr

namespace Filter

/-- The filter of directives. Of equal rules the later one counts, but rules about fields come after
all others. -/
def ofDirectives (directives : List Directive) : Filter :=
  let plain := directives.filter (·.field.isNone)
  let others := directives.filter (·.field.isSome)
  ⟨((plain ++ others).filterMap Rule.ofDirective?).foldl (fun rules r => r.insert rules) []⟩

/-- The filter that a text stands for: directives between commas, some of which may be empty. A
text without any keeps errors only. -/
def ofText? (s : String) : Option Filter := do
  let directives ← ((s.splitOn ",").filter (!·.isEmpty)).mapM Directive.ofText?
  some (ofDirectives
    (if directives.isEmpty then [{ threshold := Level.error.rank }] else directives))

/-- The filter of a program that is given none, as a text. -/
def defaultText : String := "info,kubeops=debug,kube=info,tower=warn,hyper=warn"

/-- The filter that a program is given, if it is one, and else the default. -/
def choose (given : Option String) : Filter :=
  (given.bind ofText?).getD ((ofText? defaultText).getD ⟨[]⟩)

/-- How much is kept of the lines from a target with certain fields. -/
def threshold (f : Filter) (target : String) (fields : List String) : Threshold :=
  ((f.rules.find? (·.covers target fields)).map Rule.threshold).getD 0

/-- Lines of a level from a target with certain fields are kept. -/
def keeps (f : Filter) (target : String) (fields : List String) (level : Level) : Bool :=
  level.rank ≤ f.threshold target fields

end Filter

end Reconciler.Logging
