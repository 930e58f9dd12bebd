import Reconciler.Proofs.Host.Deeds
import Reconciler.Proofs.Watch.Reaction

/-!
# Runs of one type of entity

A site is one ungated type of entity with its clock and everything outside. `Step` lists what can
happen to it, in any order and at any pace: the clock moves and the outside changes with it, the
network does what it likes with the connection, something happens to the watcher, the dispatcher
takes a turn, a requeue handle is used. The schedule of a real run is one of these
(`Pipeline.turn_run`), and so are those of operators that share the outside with other types.

What is left out is what an operator does when it stops: no step cancels or closes the queue, and
none clears it.
-/

namespace Reconciler.Host

open Dispatch (Asked Call Fit Policy Steps Verdict)
open Queue (Command Entry meet)

variable {K E : Type} [Entity K]

abbrev DispatchPipeline (K E : Type) : Type :=
  Pipeline K (Call K) Call.Answer E Dispatcher (K × Verdict)

/-- One type of entity, its clock, and everything outside. -/
structure Site (K E : Type) where
  now : Nat
  env : E
  pipeline : DispatchPipeline K E

namespace Site

def line (s : Site K E) : DispatchLine K E := s.pipeline.line

def watcher (s : Site K E) : Watcher := s.pipeline.watcher

/-- A type as it is registered, with the given settings, cache and finalizers. -/
def registered (settings : Settings) (cache : Cache) (finalizers : List String) (place now : Nat)
    (env : E) : Site K E where
  now
  env
  pipeline := {
    place
    watcher := .ofSettings settings cache
    line := { consumer := some { state := .ofSettings settings finalizers } } }

/-- The site after something has happened to its watcher. -/
def tell (b : CallBackend K E) (draw : Nat) (s : Site K E) (input : Watch.Input K) : Site K E :=
  let (pipeline, env) := s.pipeline.tell b s.now draw s.env input
  { s with pipeline, env }

def withLine (s : Site K E) (line : DispatchLine K E) : Site K E :=
  { s with pipeline := { s.pipeline with line } }

end Site

/-- The deed in what a watcher makes of an input, if the input is an event about an entity that is
there. -/
def Watcher.deeds (w : Watcher) : Watch.Input K → List (Deed K)
  | .event (.added x) => if w.loop.isSome then [.changed x (w.cache.upsert x).2] else []
  | .event (.modified x) => if w.loop.isSome then [.changed x (w.cache.upsert x).2] else []
  | _ => []

/-- What can happen to a site, with what it shows. -/
inductive Step (b : CallBackend K E) : Site K E → List (Deed K) → Site K E → Prop where
  /-- The clock moves, and the outside changes. -/
  | outside {s : Site K E} {later : Nat} {env : E} : s.now ≤ later →
      Step b s [] { s with now := later, env }
  /-- The network does something to the connection. -/
  | network {s : Site K E} (link : Link K) :
      Step b s [] { s with pipeline := { s.pipeline with link } }
  | told {s : Site K E} (draw : Nat) (input : Watch.Input K) :
      Step b s (Watcher.deeds s.watcher input) (s.tell b draw input)
  | turned {s : Site K E} {draw : Nat} {line : DispatchLine K E} {env : E} :
      s.line.WithinRange s.now →
      s.line.turn b (dispatching draw) s.now true s.env = some (line, env) →
      Step b s (s.line.deeds b s.now true s.env) { s with env, pipeline := { s.pipeline with line } }
  | requeued {s : Site K E} {command : Command K} : command.IsRequeue →
      Step b s [] (s.withLine (s.line.send command))
  /-- The others have had their turn before an answer is looked at. -/
  | resumed {s : Site K E} : Step b s [] (s.withLine s.line.resume)

inductive Run (b : CallBackend K E) (start : Site K E) : List (Deed K) → Site K E → Prop where
  | nil : Run b start [] start
  | snoc {deeds more : List (Deed K)} {s s' : Site K E} :
      Run b start deeds s → Step b s more s' → Run b start (deeds ++ more) s'

/-! ## Turns of a pipeline -/

section Pipelines

variable {Q : Type} {A : Q → Type} {D R : Type}

omit [Entity K] in
theorem performAll_line (b : Backend K Q A E) (now : Nat) (p : Pipeline K Q A E D R) (env : E)
    (effects : List (Watch.Effect K)) :
    (p.performAll b now env effects).1.line = p.line.sendAll (Watch.sent effects) := by
  induction effects generalizing p env with
  | nil => simp [Pipeline.performAll, Line.sendAll, Watch.sent]
  | cons effect rest ih =>
    unfold Pipeline.performAll
    rw [ih]
    cases effect with
    | publish state => rfl
    | connect request => rfl
    | send command =>
      simp [Pipeline.perform, Line.send, Line.sendAll, Watch.sent, Watch.Effect.command?]

omit [Entity K] in
theorem incoming?_link {p q : Pipeline K Q A E D R} {now : Nat} {input : Watch.Input K}
    (h : p.incoming? now = some (q, input)) : ∃ link, q = { p with link } := by
  unfold Pipeline.incoming? at h
  split at h
  · cases h
  · split at h
    · split at h <;> obtain ⟨rfl, -⟩ := Prod.mk.inj (Option.some.inj h) <;> exact ⟨_, rfl⟩
    · cases h
  · split at h
    · obtain ⟨rfl, -⟩ := Prod.mk.inj (Option.some.inj h)
      exact ⟨_, rfl⟩
    · obtain ⟨rfl, -⟩ := Prod.mk.inj (Option.some.inj h)
      exact ⟨_, rfl⟩
    · split at h
      · obtain ⟨rfl, -⟩ := Prod.mk.inj (Option.some.inj h)
        exact ⟨_, rfl⟩
      · cases h

end Pipelines

/-- What happens to a watcher reaches the line as the commands that the watcher sends. -/
theorem Site.tell_line (b : CallBackend K E) (draw : Nat) (s : Site K E) (input : Watch.Input K) :
    (s.tell b draw input).now = s.now ∧
      (s.tell b draw input).line =
        s.line.sendAll (Watch.sent (s.watcher.react s.now draw input).2) := by
  exact ⟨rfl, performAll_line b s.now _ s.env _⟩

/-- Whatever an ungated pipeline does in a turn is a run of its site. -/
theorem Pipeline.turn_run {b : CallBackend K E} {p p' : DispatchPipeline K E} {now draw : Nat}
    {env env' : E} {channel : Leadership.Channel} (hfollower : p.follower = none)
    (hrange : p.line.WithinRange now)
    (h : p.turn b (dispatching draw) now draw channel true env = some (p', env')) :
    ∃ deeds, Run b ⟨now, env, p⟩ deeds ⟨now, env', p'⟩ := by
  unfold Pipeline.turn at h
  have hquiet : p.follower.bind (·.look channel) = none := by rw [hfollower]; rfl
  simp only [hquiet] at h
  split at h
  · obtain h := Option.some.inj h
    have hstep := Step.told (b := b) (s := ⟨now, env, p⟩) draw .wake
    simp only [Site.tell, h] at hstep
    exact ⟨_, .snoc .nil hstep⟩
  · split at h
    · next q input hincoming =>
      obtain ⟨link, rfl⟩ := incoming?_link hincoming
      have hstep := Step.told (b := b) (s := ⟨now, env, { p with link }⟩) draw input
      obtain h := Option.some.inj h
      simp only [Site.tell, h] at hstep
      exact ⟨_, .snoc (.snoc .nil (.network link)) hstep⟩
    · obtain ⟨⟨line, env₁⟩, hturn, heq⟩ := Option.map_eq_some_iff.mp h
      obtain ⟨rfl, rfl⟩ := Prod.mk.inj heq
      have hstep := Step.turned (b := b) (s := ⟨now, env, p⟩) hrange hturn
      exact ⟨_, .snoc .nil hstep⟩

end Reconciler.Host
