import Reconciler.Proofs.Host.Halting
import Reconciler.Proofs.Host.Resigning
import Reconciler.Simulation.Widget

/-!
# The lease goes last

Once an operator is cancelled, no entry is taken up any more. Its types are stopped one after the
other, and only when all of them are still does the election end. If the replica leads then, it
gives the lease back, and nothing but the answer to that and the return comes after it
(`ReleasesLast`).

The invariant is read off the stage of the operator: a type that has been stopped is halted, one
whose consumer has been awaited is still (`Stage.HasStopped`, `Stage.HasDrained`), and once the
election has been told to stop it is over. What goes before an entry of the trace follows from the
stage in which it is made (`Entered`).
-/

namespace Reconciler.Host

open Leadership (Channel Election)
open Queue (Command Entry)
open Simulation (Widget)

variable {K Q E D R : Type} {A : Q → Type}

/-- The type at a place has been stopped. -/
def Stage.HasStopped (place : Nat) : Stage → Prop
  | .running => False
  | .stopping types => types ≤ place
  | .draining types => types ≤ place
  | _ => True

/-- The consumer of the type at a place has been awaited. -/
def Stage.HasDrained (place : Nat) : Stage → Prop
  | .running => False
  | .stopping types => types ≤ place
  | .draining types => types < place
  | _ => True

/-- All types have been stopped, and their consumers awaited. -/
def Stage.IsQuiet (stage : Stage) : Prop :=
  ∀ place, stage.HasStopped place ∧ stage.HasDrained place

/-- The election has been told to stop. -/
def Stage.IsResigning : Stage → Prop
  | .resigning => True
  | .finished => True
  | _ => False

theorem Stage.IsResigning.isQuiet {stage : Stage} (h : stage.IsResigning) : stage.IsQuiet := by
  intro place
  cases stage with
  | resigning => exact ⟨trivial, trivial⟩
  | finished => exact ⟨trivial, trivial⟩
  | _ => exact h.elim

theorem Stage.isQuiet_stopping : (Stage.stopping 0).IsQuiet := fun place =>
  ⟨Nat.zero_le place, Nat.zero_le place⟩

namespace Operator

/-! ## Traces -/

/-- The lease is given back. -/
def Mark.released : Mark K Q := .lease (.did .release)

def Did (trace : Trace K Q A E D R) (m : Mark K Q) : Prop := ∃ x ∈ trace, x.2 = m

/-- An entry of the type at a place is being handled. -/
def isDispatching (place : Nat) (trace : Trace K Q A E D R) : Bool :=
  trace.foldl (fun dispatching x => dispatchingAfter place dispatching x.2) false

def releasingAfter (releasing : Bool) : Mark K Q → Bool
  | .lease (.did .release) => true
  | .lease (.heard (.released _)) => false
  | _ => releasing

/-- A release has not been answered. -/
def isReleasing (trace : Trace K Q A E D R) : Bool :=
  trace.foldl (fun releasing x => releasingAfter releasing x.2) false

/-- What is left once the lease is given back: the release goes on and is answered, the end of the
election is published, and the operator returns. -/
def IsAftermath (x : Operator K Q A E D R × Mark K Q) : Prop :=
  match x.2 with
  | .pursued _ => Leadership.Candidacy.IsReleasing x.1
  | .lease (.heard _) => True
  | .lease (.did (.publish _)) => True
  | .returned => True
  | _ => False

/-- A cancelled operator takes up no entry, gives the lease back last if at all, and then
returns. -/
structure ReleasesLast (trace : Trace K Q A E D R) : Prop where
  dispatches : ∀ before o place entry after,
    trace = before ++ (o, .dispatched place entry) :: after → ¬Did before .cancelled
  releases : ∀ before o after, trace = before ++ (o, .released) :: after →
    Did before .cancelled ∧ o.channel.current = .leader ∧ (∀ p ∈ o.pipelines, p.IsStill) ∧
      (∀ place, isDispatching place before = false) ∧ ∀ x ∈ after, IsAftermath x
  returns : ∀ before o after, trace = before ++ (o, .returned) :: after →
    isReleasing before = false ∧ after = []

/-- What goes before an entry of the trace. -/
structure Entered (before : Trace K Q A E D R) (x : Operator K Q A E D R × Mark K Q) : Prop where
  unreturned : ¬Did before .returned
  aftermath : Did before .released → IsAftermath x
  dispatched : ∀ place entry, x.2 = .dispatched place entry → ¬Did before .cancelled
  released : x.2 = .released →
    Did before .cancelled ∧ x.1.channel.current = .leader ∧ (∀ p ∈ x.1.pipelines, p.IsStill) ∧
      ∀ place, isDispatching place before = false
  returned : x.2 = .returned → isReleasing before = false

def Regular (trace : Trace K Q A E D R) : Prop :=
  ∀ before x after, trace = before ++ x :: after → Entered before x

section Traces

variable {trace : Trace K Q A E D R} {o : Operator K Q A E D R} {m : Mark K Q}
  {marks : List (Mark K Q)}

theorem did_append (marks : List (Mark K Q)) :
    Did (trace ++ marks.map (o, ·)) m ↔ Did trace m ∨ m ∈ marks := by
  simp only [Did, List.mem_append, List.mem_map, or_and_right, exists_or]
  exact or_congr Iff.rfl ⟨fun ⟨_, ⟨_, hm, rfl⟩, heq⟩ => heq ▸ hm, fun hm => ⟨_, ⟨m, hm, rfl⟩, rfl⟩⟩

theorem did_snoc {m' : Mark K Q} : Did (trace ++ [(o, m)]) m' ↔ Did trace m' ∨ m' = m := by
  rw [← List.mem_singleton]
  exact did_append [m]

theorem isDispatching_append (place : Nat) (marks : List (Mark K Q)) :
    isDispatching place (trace ++ marks.map (o, ·)) =
      marks.foldl (dispatchingAfter place) (isDispatching place trace) := by
  rw [isDispatching, List.foldl_append, List.foldl_map]
  rfl

theorem isReleasing_append (marks : List (Mark K Q)) : isReleasing (trace ++ marks.map (o, ·)) =
    marks.foldl releasingAfter (isReleasing trace) := by
  rw [isReleasing, List.foldl_append, List.foldl_map]
  rfl

theorem isDispatching_snoc (place : Nat) : isDispatching place (trace ++ [(o, m)]) =
    dispatchingAfter place (isDispatching place trace) m :=
  isDispatching_append place [m]

theorem isReleasing_snoc : isReleasing (trace ++ [(o, m)]) =
    releasingAfter (isReleasing trace) m :=
  isReleasing_append [m]

theorem isReleasing_of_not_did (h : ¬Did trace .released) : isReleasing trace = false := by
  refine foldl_eq_self fun x hx => ?_
  have hx : x.2 ≠ .released := fun heq => h ⟨x, hx, heq⟩
  unfold releasingAfter
  split
  · next heq => exact absurd heq hx
  · rfl
  · rfl

/-- What the election hears stands first, then what it does. -/
theorem of_mem_heard {e : Election} (he : o.election = some e) {input : Election.Input}
    (hm : m ∈ o.heard input) : m = .lease (.heard input) ∨
      ∃ effect ∈ (e.react o.now o.channel.current input).2, m = .lease (.did effect) := by
  simp only [heard, he] at hm
  rcases List.mem_cons.mp hm with rfl | hm
  · exact .inl rfl
  · obtain ⟨effect, heffect, rfl⟩ := List.mem_map.mp hm
    exact .inr ⟨effect, heffect, rfl⟩

theorem dispatching_heard (place : Nat) (input : Election.Input) (dispatching : Bool) :
    (o.heard input).foldl (dispatchingAfter place) dispatching = dispatching := by
  refine foldl_eq_self fun m hm => ?_
  cases he : o.election with
  | none => simp [heard, he] at hm
  | some e => rcases of_mem_heard he hm with rfl | ⟨effect, -, rfl⟩ <;> rfl

theorem Regular.nil : Regular ([] : Trace K Q A E D R) := by
  intro before x after heq
  cases before <;> cases heq

theorem Regular.snoc (h : Regular trace) {x : Operator K Q A E D R × Mark K Q}
    (hx : Entered trace x) : Regular (trace ++ [x]) := by
  intro before y after heq
  rcases List.eq_nil_or_concat after with rfl | ⟨rest, z, rfl⟩
  · obtain ⟨rfl, hxy⟩ := List.append_inj' heq rfl
    exact (List.cons.inj hxy).1 ▸ hx
  · rw [List.concat_eq_append, ← List.cons_append, ← List.append_assoc] at heq
    exact h before y rest (List.append_inj' heq rfl).1

/-- Marks that are neither of the beginning of the end nor of the end itself. -/
def Mark.IsPlain (m : Mark K Q) : Prop := m ≠ .cancelled ∧ m ≠ .released ∧ m ≠ .returned

theorem Regular.append (h : Regular trace) (hplain : ∀ m ∈ marks, m.IsPlain)
    (hunreturned : ¬Did trace .returned)
    (haftermath : Did trace .released → ∀ m ∈ marks, IsAftermath (o, m))
    (hdispatched : ∀ place entry, .dispatched place entry ∈ marks → ¬Did trace .cancelled) :
    Regular (trace ++ marks.map (o, ·)) := by
  induction marks generalizing trace with
  | nil => simpa using h
  | cons m rest ih =>
    obtain ⟨hcancelled, hreleased, hreturned⟩ := hplain m List.mem_cons_self
    have hregular : Regular (trace ++ [(o, m)]) := h.snoc {
      unreturned := hunreturned
      aftermath := fun hdid => haftermath hdid m List.mem_cons_self
      dispatched := fun place entry heq => hdispatched place entry (heq ▸ List.mem_cons_self)
      released := fun heq => absurd heq hreleased
      returned := fun heq => absurd heq hreturned }
    rw [List.map_cons, ← List.singleton_append, ← List.append_assoc]
    refine ih hregular (fun m hm => hplain m (List.mem_cons_of_mem _ hm)) ?_ ?_ ?_
    · rw [did_snoc]
      exact fun hdid => hdid.elim hunreturned fun heq => hreturned heq.symm
    · intro hdid other hother
      rcases did_snoc.mp hdid with hdid | heq
      · exact haftermath hdid other (List.mem_cons_of_mem _ hother)
      · exact absurd heq.symm hreleased
    · intro place entry hentry hdid
      rcases did_snoc.mp hdid with hdid | heq
      · exact hdispatched place entry (List.mem_cons_of_mem _ hentry) hdid
      · exact hcancelled heq.symm

theorem Regular.releasesLast (h : Regular trace) : ReleasesLast trace where
  dispatches before o place entry after heq := (h before _ after heq).dispatched place entry rfl
  releases before o after heq := by
    obtain ⟨hcancelled, hleader, hstill, hidle⟩ := (h before _ after heq).released rfl
    refine ⟨hcancelled, hleader, hstill, hidle, fun x hx => ?_⟩
    obtain ⟨early, late, rfl⟩ := List.append_of_mem hx
    rw [← List.cons_append, ← List.append_assoc] at heq
    exact (h _ x late heq).aftermath
      ⟨_, List.mem_append_right before List.mem_cons_self, rfl⟩
  returns before o after heq := by
    refine ⟨(h before _ after heq).returned rfl, ?_⟩
    cases after with
    | nil => rfl
    | cons x late =>
      rw [← List.singleton_append, ← List.append_assoc] at heq
      exact absurd ⟨_, List.mem_append_right before List.mem_cons_self, rfl⟩
        (h _ x late heq).unreturned

end Traces

/-! ## The invariant -/

structure Kept (trace : Trace K Q A E D R) (o : Operator K Q A E D R) : Prop where
  regular : Regular trace
  lease : LeaseKept o
  running : o.stage = .running → ¬Did trace .cancelled
  cancelled : o.stage ≠ .running →
    Did trace .cancelled ∧ ∀ p ∈ o.pipelines, p.line.cancelled = true
  halted : ∀ place p, o.pipelines[place]? = some p → o.stage.HasStopped place → p.IsHalted
  ended : ∀ place p, o.pipelines[place]? = some p → o.stage.HasDrained place →
    p.line.isEnded = true
  handling : ∀ place, isDispatching place trace = true →
    ∃ p, o.pipelines[place]? = some p ∧ p.line.IsHandling
  unreleased : ¬o.stage.IsResigning → ¬Did trace .released
  resigned : o.stage.IsResigning → ∀ e, o.election = some e → IsOver e
  awaited : isReleasing trace = true →
    ∃ e, o.election = some e ∧ (e.stage = some .releasing ∨ e.stage = some .lost)
  unreturned : o.stage ≠ .finished → ¬Did trace .returned
  finished : o.stage = .finished → ∀ e, o.election = some e → e.stage = none

section Invariant

variable {pr : Program K Q A E D R} {trace : Trace K Q A E D R} {o o' : Operator K Q A E D R}
  {marks : List (Mark K Q)}

theorem Kept.still (h : Kept trace o) (hquiet : o.stage.IsQuiet) :
    ∀ p ∈ o.pipelines, p.IsStill := by
  intro p hp
  obtain ⟨place, hplace⟩ := List.mem_iff_getElem?.mp hp
  exact ⟨h.halted place p hplace (hquiet place).1, h.ended place p hplace (hquiet place).2⟩

theorem Kept.idle (h : Kept trace o) (hquiet : o.stage.IsQuiet) (place : Nat) :
    isDispatching place trace = false := by
  cases hdispatching : isDispatching place trace with
  | false => rfl
  | true =>
    obtain ⟨p, hp, hhandling⟩ := h.handling place hdispatching
    have hended := (h.still hquiet p (List.mem_of_getElem? hp)).ended
    exact absurd (hended.symm.trans hhandling.not_ended) (by decide)

/-- The pipelines go on, and take up nothing again that they have given up; so does the election. -/
theorem Kept.carry (h : Kept trace o) {trace' : Trace K Q A E D R} (hregular : Regular trace')
    (hdid : ∀ m : Mark K Q, ¬m.IsPlain → (Did trace' m ↔ Did trace m))
    (hstage : o'.stage = o.stage) (hlease : LeaseKept o')
    (hpipelines : ∀ (place : Nat) (p' : Pipeline K Q A E D R), o'.pipelines[place]? = some p' →
      ∃ p, o.pipelines[place]? = some p ∧ p.Becomes p')
    (hhandling : ∀ place, isDispatching place trace' = true →
      ∃ p, o'.pipelines[place]? = some p ∧ p.line.IsHandling)
    (hresigned : o.stage.IsResigning → ∀ e, o'.election = some e → IsOver e)
    (hawaited : isReleasing trace' = true →
      ∃ e, o'.election = some e ∧ (e.stage = some .releasing ∨ e.stage = some .lost))
    (hfinished : o.stage = .finished → ∀ e, o'.election = some e → e.stage = none) :
    Kept trace' o' where
  regular := hregular
  lease := hlease
  running := by
    rw [hstage, hdid _ fun hplain => hplain.1 rfl]
    exact h.running
  cancelled hrunning := by
    obtain ⟨hcancelled, hlines⟩ := h.cancelled (hstage ▸ hrunning)
    refine ⟨(hdid _ fun hplain => hplain.1 rfl).mpr hcancelled, fun p' hp' => ?_⟩
    obtain ⟨place, hplace⟩ := List.mem_iff_getElem?.mp hp'
    obtain ⟨p, hp, hbecomes⟩ := hpipelines place p' hplace
    exact hbecomes.cancelled (hlines p (List.mem_of_getElem? hp))
  halted place p' hp' hstopped := by
    obtain ⟨p, hp, hbecomes⟩ := hpipelines place p' hp'
    exact hbecomes.halted (h.halted place p hp (hstage ▸ hstopped))
  ended place p' hp' hdrained := by
    obtain ⟨p, hp, hbecomes⟩ := hpipelines place p' hp'
    exact hbecomes.ended (h.ended place p hp (hstage ▸ hdrained))
  handling := hhandling
  unreleased := by
    rw [hstage, hdid _ fun hplain => hplain.2.1 rfl]
    exact h.unreleased
  resigned := hstage ▸ hresigned
  awaited := hawaited
  unreturned := by
    rw [hstage, hdid _ fun hplain => hplain.2.2 rfl]
    exact h.unreturned
  finished := hstage ▸ hfinished

/-- The pipelines go on while the election stays as it is. -/
theorem Kept.relay (h : Kept trace o) {trace' : Trace K Q A E D R} (hregular : Regular trace')
    (hdid : ∀ m : Mark K Q, ¬m.IsPlain → (Did trace' m ↔ Did trace m))
    (hreleasing : isReleasing trace' = isReleasing trace) (hstage : o'.stage = o.stage)
    (helection : o'.election = o.election) (hlease : LeaseKept o')
    (hpipelines : ∀ (place : Nat) (p' : Pipeline K Q A E D R), o'.pipelines[place]? = some p' →
      ∃ p, o.pipelines[place]? = some p ∧ p.Becomes p')
    (hhandling : ∀ place, isDispatching place trace' = true →
      ∃ p, o'.pipelines[place]? = some p ∧ p.line.IsHandling) : Kept trace' o' := by
  refine h.carry hregular hdid hstage hlease hpipelines hhandling ?_ ?_ ?_
  · rw [helection]
    exact h.resigned
  · rw [hreleasing, helection]
    exact h.awaited
  · rw [helection]
    exact h.finished

theorem put_cases {place : Nat} {p p' : Pipeline K Q A E D R}
    (hp : o.pipelines[place]? = some p) {other : Nat} {q : Pipeline K Q A E D R}
    (hq : (o.put place p').pipelines[other]? = some q) :
    other = place ∧ q = p' ∨ other ≠ place ∧ o.pipelines[other]? = some q := by
  have hlt : place < o.pipelines.length := (List.getElem?_eq_some_iff.mp hp).1
  by_cases heq : other = place
  · subst heq
    have hset : (o.pipelines.set other p')[other]? = some p' := List.getElem?_set_self hlt
    exact .inl ⟨rfl, Option.some.inj (hq.symm.trans hset)⟩
  · refine .inr ⟨heq, ?_⟩
    rw [← hq]
    exact (List.getElem?_set_ne fun h => heq h.symm).symm

theorem put_self {place : Nat} {p p' : Pipeline K Q A E D R} (hp : o.pipelines[place]? = some p) :
    (o.put place p').pipelines[place]? = some p' :=
  List.getElem?_set_self (List.getElem?_eq_some_iff.mp hp).1

theorem put_of_ne {place other : Nat} {p' : Pipeline K Q A E D R} (hne : other ≠ place) :
    (o.put place p').pipelines[other]? = o.pipelines[other]? :=
  List.getElem?_set_ne fun h => hne h.symm

/-- One pipeline goes on in silence. -/
theorem Kept.put (h : Kept trace o) {place : Nat} {p p' : Pipeline K Q A E D R}
    (hp : o.pipelines[place]? = some p) (hbecomes : p.Becomes p')
    (hhandling : p.line.IsHandling → p'.line.IsHandling) : Kept trace (o.put place p') := by
  refine h.relay h.regular (fun _ _ => Iff.rfl) rfl rfl rfl h.lease ?_ ?_
  · intro other q hq
    rcases put_cases hp hq with ⟨rfl, rfl⟩ | ⟨-, hq⟩
    · exact ⟨p, hp, hbecomes⟩
    · exact ⟨q, hq, ⟨id, id, id⟩⟩
  · intro other hdispatching
    obtain ⟨q, hq, hbusy⟩ := h.handling other hdispatching
    by_cases heq : other = place
    · subst heq
      obtain rfl := Option.some.inj (hp.symm.trans hq)
      exact ⟨p', put_self hp, hhandling hbusy⟩
    · exact ⟨q, (put_of_ne heq).trans hq, hbusy⟩

theorem Kept.resume (h : Kept trace o) :
    Kept trace
      { o with lease := o.lease.map (·.resume), pipelines := o.pipelines.map (·.resume) } := by
  refine h.relay h.regular (fun _ _ => Iff.rfl) rfl rfl rfl ?_ ?_ ?_
  · intro job' hjob'
    obtain ⟨job, hjob, rfl⟩ := Option.map_eq_some_iff.mp hjob'
    exact h.lease job hjob
  · intro place p' hp'
    obtain ⟨p, hp, rfl⟩ := Option.map_eq_some_iff.mp ((List.getElem?_map ..).symm.trans hp')
    exact ⟨p, hp, (becomes_resume p).1⟩
  · intro place hdispatching
    obtain ⟨p, hp, hbusy⟩ := h.handling place hdispatching
    exact ⟨p.resume, by simp [hp], (becomes_resume p).2 hbusy⟩

theorem Kept.cancel (h : Kept trace o) (hstage : o.stage = .running) :
    Kept (trace ++ [(o, .cancelled)]) o.cancel := by
  have hcancel : o.cancel = { o with
      pipelines := o.pipelines.map cancelLine, stage := .stopping o.pipelines.length } :=
    if_pos hstage
  have hsame : ∀ m : Mark K Q, m ≠ .cancelled →
      (Did (trace ++ [(o, .cancelled)]) m ↔ Did trace m) :=
    fun m hm => did_snoc.trans (or_iff_left hm)
  have hunreleased : ¬Did trace .released := h.unreleased (by simp [hstage, Stage.IsResigning])
  have hunreturned : ¬Did trace .returned := h.unreturned (by simp [hstage])
  have hplace : ∀ (place : Nat) (p' : Pipeline K Q A E D R),
      (o.pipelines.map cancelLine)[place]? = some p' → place < o.pipelines.length := by
    intro place p' hp'
    simpa using (List.getElem?_eq_some_iff.mp hp').1
  rw [hcancel]
  exact {
    regular := h.regular.snoc {
      unreturned := hunreturned
      aftermath := fun hdid => absurd hdid hunreleased
      dispatched := fun _ _ heq => nomatch heq
      released := fun heq => nomatch heq
      returned := fun heq => nomatch heq }
    lease := h.lease
    running := fun heq => nomatch heq
    cancelled := fun _ => by
      refine ⟨did_snoc.mpr (.inr rfl), fun p' hp' => ?_⟩
      obtain ⟨p, -, rfl⟩ := List.mem_map.mp hp'
      rfl
    halted := fun place p' hp' hstopped => absurd (hplace place p' hp') (Nat.not_lt.mpr hstopped)
    ended := fun place p' hp' hdrained => absurd (hplace place p' hp') (Nat.not_lt.mpr hdrained)
    handling := fun place hdispatching => by
      obtain ⟨p, hp, hbusy⟩ := h.handling place
        ((isDispatching_snoc place).symm.trans hdispatching)
      exact ⟨cancelLine p, by simp [hp], hbusy⟩
    unreleased := fun _ => by rwa [hsame _ (by simp [Mark.released])]
    resigned := fun heq => heq.elim
    awaited := fun hreleasing => h.awaited (isReleasing_snoc.symm.trans hreleasing)
    unreturned := fun _ => by rwa [hsame _ (by simp)]
    finished := fun heq => nomatch heq }

/-- Marks that are plain leave how far the operator has got. -/
theorem did_append_plain (hplain : ∀ m ∈ marks, m.IsPlain) {m : Mark K Q} (hm : ¬m.IsPlain) :
    Did (trace ++ marks.map (o, ·)) m ↔ Did trace m :=
  (did_append marks).trans (or_iff_left fun hmem => hm (hplain m hmem))

theorem Kept.work [Entity K] (h : Kept trace o) {place : Nat} {p p' : Pipeline K Q A E D R}
    {env : E} (hp : o.pipelines[place]? = some p)
    (hact : Act pr.backend (pr.handler p.place) o.now place o.channel p o.env marks (p', env)) :
    Kept (trace ++ marks.map (o, ·)) { o.put place p' with env } := by
  have hmem := List.mem_of_getElem? hp
  have hworking : ¬o.stage.IsResigning := fun hresigning =>
    no_act_of_still (h.still hresigning.isQuiet p hmem) hact
  have hunreleased := h.unreleased hworking
  have hunreturned : ¬Did trace .returned := h.unreturned fun hfinished =>
    hworking (hfinished ▸ trivial)
  have hplain : ∀ m ∈ marks, m.IsPlain := by
    intro m hm
    obtain ⟨request, rfl⟩ | ⟨entry, rfl, -⟩ | ⟨question, rfl⟩ | rfl := hact.of_mem hm <;>
      simp [Mark.IsPlain, Mark.released]
  have hregular : Regular (trace ++ marks.map (o, ·)) := by
    refine h.regular.append hplain hunreturned (fun hdid => absurd hdid hunreleased) ?_
    intro other entry hentry hcancelled
    obtain ⟨request, heq⟩ | ⟨entry', -, hopen⟩ | ⟨question, heq⟩ | heq := hact.of_mem hentry
    · cases heq
    · -- An entry is taken up only by a line that is not cancelled.
      have hrunning : o.stage ≠ .running := fun hrunning => h.running hrunning hcancelled
      exact absurd ((h.cancelled hrunning).2 p hmem) (by simp [hopen])
    · cases heq
    · cases heq
  refine h.relay hregular (fun m hm => did_append_plain hplain hm) ?_ rfl rfl h.lease ?_ ?_
  · rw [isReleasing_append]
    refine foldl_eq_self fun m hm => ?_
    obtain ⟨request, rfl⟩ | ⟨entry, rfl, -⟩ | ⟨question, rfl⟩ | rfl := hact.of_mem hm <;> rfl
  · intro other q hq
    rcases put_cases hp hq with ⟨rfl, rfl⟩ | ⟨-, hq⟩
    · exact ⟨p, hp, hact.becomes⟩
    · exact ⟨q, hq, ⟨id, id, id⟩⟩
  · intro other hdispatching
    rw [isDispatching_append] at hdispatching
    by_cases heq : other = place
    · subst heq
      refine ⟨p', put_self hp, hact.handling (fun hbefore => ?_) hdispatching⟩
      obtain ⟨q, hq, hbusy⟩ := h.handling other hbefore
      obtain rfl := Option.some.inj (hp.symm.trans hq)
      exact hbusy
    · rw [hact.foldl_of_ne heq] at hdispatching
      obtain ⟨q, hq, hbusy⟩ := h.handling other hdispatching
      exact ⟨q, (put_of_ne heq).trans hq, hbusy⟩

section Hearing

variable {e : Election} {input : Election.Input}

theorem isPlain_heard (he : o.election = some e) (hinput : input = .wake ∨ IsOutcome input) :
    ∀ m ∈ o.heard input, m.IsPlain := by
  intro m hm
  rcases of_mem_heard he hm with rfl | ⟨effect, heffect, rfl⟩
  · simp [Mark.IsPlain, Mark.released]
  · refine ⟨by simp, ?_, by simp⟩
    intro heq
    obtain rfl : effect = .release := by simpa [Mark.released] using heq
    exact release_not_mem_react e o.now o.channel.current hinput heffect

theorem releasing_heard (he : o.election = some e) (hinput : input = .wake ∨ IsOutcome input)
    (releasing : Bool) : (o.heard input).foldl releasingAfter releasing =
      releasingAfter releasing (.lease (.heard input) : Mark K Q) := by
  have hheard : o.heard input = .lease (.heard input) ::
      (e.react o.now o.channel.current input).2.map fun effect => .lease (.did effect) := by
    simp only [heard, he]
  rw [hheard, List.foldl_cons]
  refine foldl_eq_self fun m hm => ?_
  obtain ⟨effect, heffect, rfl⟩ := List.mem_map.mp hm
  cases effect with
  | release =>
    exact absurd heffect (release_not_mem_react e o.now o.channel.current hinput)
  | _ => rfl

/-- What the election enters of its own: when it is over, it only publishes. -/
theorem Kept.regular_heard (h : Kept trace o) (he : o.election = some e)
    (hinput : input = .wake ∨ IsOutcome input) (hactive : o.stage ≠ .finished) :
    Regular (trace ++ (o.heard input).map (o, ·)) := by
  refine h.regular.append (isPlain_heard he hinput) (h.unreturned hactive) (fun hdone m hm => ?_)
    fun place entry hentry => ?_
  · have hresigning : o.stage.IsResigning := by
      by_contra hnot
      exact h.unreleased hnot hdone
    rcases of_mem_heard he hm with rfl | ⟨effect, heffect, rfl⟩
    · trivial
    · obtain ⟨state, rfl⟩ := (react_over (h.resigned hresigning e he) o.now o.channel.current
        hinput).2 effect heffect
      trivial
  · rcases of_mem_heard he hentry with heq | ⟨effect, -, heq⟩ <;> cases heq

/-- The election hears something of its own, and goes on or stays over. -/
theorem Kept.tell (h : Kept trace o) (he : o.election = some e) (env : E)
    (hinput : input = .wake ∨ IsOutcome input) (hactive : o.stage ≠ .finished) :
    Kept (trace ++ (o.heard input).map (o, ·)) ({ o with env }.tellElection pr input) := by
  have hlease : LeaseKept ({ o with env }.tellElection pr input) :=
    LeaseKept.tell (o := { o with env }) h.lease input
  obtain ⟨env', channel, lease, htell, -⟩ := tell_spec (o := { o with env }) pr he input
  rw [htell] at hlease ⊢
  refine h.carry (h.regular_heard he hinput hactive)
    (fun m hm => did_append_plain (isPlain_heard he hinput) hm) rfl hlease
    (fun place p hp => ⟨p, hp, ⟨id, id, id⟩⟩) (fun place hdispatching => ?_)
    (fun hresigning e' he' => ?_) (fun hawaited => ?_)
    (fun hfinished => absurd hfinished hactive)
  · rw [isDispatching_append, dispatching_heard] at hdispatching
    exact h.handling place hdispatching
  · obtain rfl := Option.some.inj he'
    exact (react_over (h.resigned hresigning e he) o.now o.channel.current hinput).1
  · -- A release that was awaited is still awaited, unless this is the answer to it.
    rw [isReleasing_append, releasing_heard he hinput] at hawaited
    have hbefore : isReleasing trace = true ∧ ∀ outcome, input ≠ .released outcome := by
      cases input with
      | released outcome => cases hawaited
      | _ => exact ⟨hawaited, fun _ heq => nomatch heq⟩
    obtain ⟨e', he', hstage⟩ := h.awaited hbefore.1
    obtain rfl := Option.some.inj (he.symm.trans he')
    exact ⟨_, rfl, react_awaited hstage _ _ hinput hbefore.2⟩

end Hearing

theorem Kept.elect (h : Kept trace o) (hturn : o.turnElection pr = some o') :
    Kept (trace ++ (electionMarks o).map (o, ·)) o' := by
  obtain ⟨e, he, hcases⟩ := Leadership.Candidacy.turnElection_cases hturn
  rcases hcases with ⟨hnone, hdue, rfl⟩ | ⟨job, env, hjob, hgoes⟩
  · have hmarks : electionMarks o = o.heard .wake := by simp only [electionMarks, hnone]
    rw [hmarks]
    refine h.tell he o.env (.inl rfl) fun hfinished => ?_
    have hstage := h.finished hfinished e he
    simp [hstage, Election.alarm?] at hdue
  · obtain ⟨houtcome, e', he', hwaits⟩ := h.lease job hjob
    obtain rfl := Option.some.inj (he.symm.trans he')
    have hactive : o.stage ≠ .finished := by
      intro hfinished
      have hstage := h.finished hfinished e he
      simp [Waits, hstage] at hwaits
    rcases hgoes with ⟨input, hrest, rfl⟩ | ⟨q, next, job', hrest, rfl, halways⟩
    · have hmarks : electionMarks o = o.heard input := by simp only [electionMarks, hjob, hrest]
      rw [hmarks]
      rw [hrest] at houtcome
      exact h.tell he env (.inr houtcome) hactive
    · have hmarks : electionMarks o = [.pursued q] := by simp only [electionMarks, hjob, hrest]
      rw [hmarks]
      have hplain : ∀ m ∈ [(.pursued q : Mark K Q)], m.IsPlain := by
        simp [Mark.IsPlain, Mark.released]
      refine h.relay ?_ (fun m hm => did_append_plain hplain hm) ?_ rfl rfl ?_
        (fun place p hp => ⟨p, hp, ⟨id, id, id⟩⟩) fun place hdispatching => ?_
      · refine h.regular.append hplain (h.unreturned hactive) (fun hdone m hm => ?_)
          fun place entry hentry => ?_
        · -- It is the release that goes on.
          obtain rfl := List.mem_singleton.mp hm
          have hresigning : o.stage.IsResigning := by
            by_contra hnot
            exact h.unreleased hnot hdone
          have hover := h.resigned hresigning e he
          have hstage : e.stage = some .releasing := by
            rcases hwaits with ⟨leading, hstage⟩ | hstage
            · simp [IsOver, hstage] at hover
            · exact hstage
          simpa [IsAftermath, Leadership.Candidacy.IsReleasing, he] using hstage
        · cases List.mem_singleton.mp hentry
      · rw [isReleasing_append]
        rfl
      · intro job'' heq
        obtain rfl := Option.some.inj heq
        exact ⟨halways _ houtcome, e, he, hwaits⟩
      · rw [isDispatching_append] at hdispatching
        exact h.handling place hdispatching

/-! ### Stopping -/

/-- Stopping goes on to the next type, or to its consumer. -/
theorem Kept.advance (h : Kept trace o) {stage : Stage} (env : E) (hrunning : o.stage ≠ .running)
    (hworking : ¬o.stage.IsResigning) (hrunning' : stage ≠ .running)
    (hworking' : ¬stage.IsResigning)
    (hhalted : ∀ (place : Nat) (p : Pipeline K Q A E D R), o.pipelines[place]? = some p →
      stage.HasStopped place → p.IsHalted)
    (hended : ∀ (place : Nat) (p : Pipeline K Q A E D R), o.pipelines[place]? = some p →
      stage.HasDrained place → p.line.isEnded = true) :
    Kept trace { o with env, stage } where
  regular := h.regular
  lease := h.lease
  running heq := absurd heq hrunning'
  cancelled _ := h.cancelled hrunning
  halted := hhalted
  ended := hended
  handling := h.handling
  unreleased _ := h.unreleased hworking
  resigned hresigning := absurd hresigning hworking'
  awaited := h.awaited
  unreturned _ := h.unreturned fun hfinished => hworking (hfinished ▸ trivial)
  finished heq := by
    rw [show stage = .finished from heq] at hworking'
    exact absurd trivial hworking'

/-- The next type is stopped, and its consumer is awaited. -/
theorem Kept.halt [Entity K] (h : Kept trace o) {types : Nat}
    (hstage : o.stage = .stopping (types + 1)) {p : Pipeline K Q A E D R}
    (hp : o.pipelines[types]? = some p) :
    Kept trace { o with
      env := (p.stop pr.backend o.now pr.draw o.env).2
      pipelines := o.pipelines.set types (p.stop pr.backend o.now pr.draw o.env).1
      stage := .draining types } := by
  obtain ⟨hhalted, hline⟩ := stop_spec pr.backend o.now pr.draw p o.env
  have hput : Kept trace (o.put types (p.stop pr.backend o.now pr.draw o.env).1) := by
    refine h.put hp ⟨?_, fun _ => hhalted, ?_⟩ ?_
    · exact fun hcancelled => hline ▸ hcancelled
    · exact fun hended => hline ▸ hended
    · exact fun hhandling => hline ▸ hhandling
  refine hput.advance _ (by simp [Operator.put, hstage])
    (by simp [Operator.put, hstage, Stage.IsResigning]) (by simp) (by simp [Stage.IsResigning]) ?_ ?_
  · intro place q hq hle
    rcases put_cases hp hq with ⟨rfl, rfl⟩ | ⟨hne, hq⟩
    · exact hhalted
    · refine h.halted place q hq ?_
      rw [hstage]
      exact Nat.lt_of_le_of_ne hle hne.symm
  · intro place q hq hlt
    rcases put_cases hp hq with ⟨rfl, rfl⟩ | ⟨-, hq⟩
    · exact absurd hlt (Nat.lt_irrefl _)
    · refine h.ended place q hq ?_
      rw [hstage]
      exact hlt

/-- There is no type at the place that is next. -/
theorem Kept.skip (h : Kept trace o) {types : Nat}
    (hstage : o.stage = .stopping (types + 1) ∨ o.stage = .draining types)
    (hnone : o.pipelines[types]? = none) : Kept trace { o with stage := .stopping types } := by
  have hbeyond : ∀ (place : Nat) (p : Pipeline K Q A E D R), o.pipelines[place]? = some p →
      types ≤ place → o.stage.HasStopped place ∧ o.stage.HasDrained place := by
    intro place p hp hle
    have hlt : types < place := by
      refine Nat.lt_of_le_of_ne hle ?_
      rintro rfl
      exact absurd (hnone.symm.trans hp) (by simp)
    rcases hstage with hstage | hstage
    · rw [hstage]
      exact ⟨hlt, hlt⟩
    · rw [hstage]
      exact ⟨hle, hlt⟩
  refine h.advance o.env (by rcases hstage with h | h <;> simp [h])
    (by rcases hstage with h | h <;> simp [h, Stage.IsResigning]) (by simp)
    (by simp [Stage.IsResigning]) ?_ ?_
  · exact fun place p hp hle => h.halted place p hp (hbeyond place p hp hle).1
  · exact fun place p hp hle => h.ended place p hp (hbeyond place p hp hle).2

/-- The consumer of the type that was stopped last has ended. -/
theorem Kept.drained (h : Kept trace o) {types : Nat} (hstage : o.stage = .draining types)
    {p : Pipeline K Q A E D R} (hp : o.pipelines[types]? = some p)
    (hended : p.line.isEnded = true) : Kept trace { o with stage := .stopping types } := by
  refine h.advance o.env (by simp [hstage]) (by simp [hstage, Stage.IsResigning]) (by simp)
    (by simp [Stage.IsResigning]) ?_ ?_
  · intro place q hq hle
    refine h.halted place q hq ?_
    rw [hstage]
    exact hle
  · intro place q hq hle
    by_cases heq : place = types
    · subst heq
      obtain rfl := Option.some.inj (hp.symm.trans hq)
      exact hended
    · refine h.ended place q hq ?_
      rw [hstage]
      exact Nat.lt_of_le_of_ne hle fun h => heq h.symm

/-- What is entered when the election is told to stop, all types being still. -/
theorem Kept.regular_resign (h : Kept trace o) (hstage : o.stage = .stopping 0) {e : Election}
    (he : o.election = some e) : Regular (trace ++ (o.heard .stop).map (o, ·)) ∧
      (isReleasing (trace ++ (o.heard .stop).map (o, ·)) = true →
        (e.react o.now o.channel.current .stop).1.stage = some .releasing) := by
  have hworking : ¬o.stage.IsResigning := by simp [hstage, Stage.IsResigning]
  have hunreleased := h.unreleased hworking
  have hunreturned : ¬Did trace .returned := h.unreturned (by simp [hstage])
  have hquiet : o.stage.IsQuiet := hstage ▸ Stage.isQuiet_stopping
  rcases react_cases e o.now o.channel.current .stop with
    hpublish | ⟨heq, -⟩ | ⟨-, hleader, hreleasing, heffects⟩
  · have hplain : ∀ m ∈ o.heard .stop, m.IsPlain := by
      intro m hm
      rcases of_mem_heard he hm with rfl | ⟨effect, heffect, rfl⟩
      · simp [Mark.IsPlain, Mark.released]
      · obtain ⟨state, rfl⟩ := hpublish effect heffect
        simp [Mark.IsPlain, Mark.released]
    refine ⟨h.regular.append hplain hunreturned (fun hdid => absurd hdid hunreleased) ?_, ?_⟩
    · intro place entry hentry
      rcases of_mem_heard he hentry with heq | ⟨effect, -, heq⟩ <;> cases heq
    · intro hawaited
      have hnone : ¬Did (trace ++ (o.heard .stop).map (o, ·)) .released :=
        mt (did_append_plain hplain fun hp => hp.2.1 rfl).mp hunreleased
      exact absurd ((isReleasing_of_not_did hnone).symm.trans hawaited) (by decide)
  · cases heq
  · have hheard : o.heard .stop = [(.lease (.heard .stop) : Mark K Q), .released] := by
      simp only [heard, he, heffects, List.map_cons, List.map_nil, Mark.released]
    refine ⟨?_, fun _ => hreleasing⟩
    have hplain : ∀ m ∈ [(.lease (.heard .stop) : Mark K Q)], m.IsPlain := by
      simp [Mark.IsPlain, Mark.released]
    have hstopped : Regular (trace ++ [(o, .lease (.heard .stop))]) :=
      h.regular.append hplain hunreturned (fun hdid => absurd hdid hunreleased)
        fun place entry hentry => by cases List.mem_singleton.mp hentry
    have hdid : ∀ {m : Mark K Q}, ¬m.IsPlain →
        (Did (trace ++ [(o, .lease (.heard .stop))]) m ↔ Did trace m) :=
      fun hm => did_append_plain hplain hm
    rw [hheard, List.map_cons, ← List.singleton_append, ← List.append_assoc]
    refine hstopped.snoc {
      unreturned := mt (hdid fun hp => hp.2.2 rfl).mp hunreturned
      aftermath := fun hdone => absurd ((hdid fun hp => hp.2.1 rfl).mp hdone) hunreleased
      dispatched := fun _ _ heq => nomatch heq
      released := fun _ => ⟨(hdid fun hp => hp.1 rfl).mpr (h.cancelled (by simp [hstage])).1,
        hleader, h.still hquiet, fun place => ?_⟩
      returned := fun heq => nomatch heq }
    exact (isDispatching_snoc place).trans (h.idle hquiet place)

/-- All types are still, and only the election has yet to end. -/
theorem Kept.await (h : Kept trace o) (hquiet : o.stage.IsQuiet)
    (hpipelines : o'.pipelines = o.pipelines) (hresigning : o'.stage.IsResigning)
    (hlease : LeaseKept o') (hregular : Regular (trace ++ marks.map (o, ·)))
    (hidle : ∀ place, marks.foldl (dispatchingAfter place) false = false)
    (hover : ∀ e, o'.election = some e → IsOver e)
    (hawaited : isReleasing (trace ++ marks.map (o, ·)) = true →
      ∃ e, o'.election = some e ∧ (e.stage = some .releasing ∨ e.stage = some .lost))
    (hunreturned : o'.stage ≠ .finished → ¬Did (trace ++ marks.map (o, ·)) .returned)
    (hfinished : o'.stage = .finished → ∀ e, o'.election = some e → e.stage = none) :
    Kept (trace ++ marks.map (o, ·)) o' := by
  have hrunning : o.stage ≠ .running := fun heq => (heq ▸ hquiet 0).1
  obtain ⟨hcancelled, hlines⟩ := h.cancelled hrunning
  exact {
    regular := hregular
    lease := hlease
    running := fun heq => (heq ▸ hresigning : Stage.running.IsResigning).elim
    cancelled := fun _ => ⟨(did_append _).mpr (.inl hcancelled), hpipelines ▸ hlines⟩
    halted := fun place p hp _ => h.halted place p (hpipelines ▸ hp) (hquiet place).1
    ended := fun place p hp _ => h.ended place p (hpipelines ▸ hp) (hquiet place).2
    handling := fun place hdispatching => by
      rw [isDispatching_append, h.idle hquiet, hidle place] at hdispatching
      cases hdispatching
    unreleased := fun hnot => absurd hresigning hnot
    resigned := fun _ => hover
    awaited := hawaited
    unreturned := hunreturned
    finished := hfinished }

/-- All types are still, and the election is told to stop. -/
theorem Kept.resign (h : Kept trace o) (hstage : o.stage = .stopping 0) :
    Kept (trace ++ (o.heard .stop).map (o, ·))
      ({ o with stage := .resigning }.tellElection pr .stop) := by
  have hquiet : o.stage.IsQuiet := hstage ▸ Stage.isQuiet_stopping
  have hunreturned : ¬Did trace .returned := h.unreturned (by simp [hstage])
  rcases Option.eq_none_or_eq_some o.election with he | ⟨e, he⟩
  · have htell : { o with stage := .resigning }.tellElection pr .stop =
        { o with stage := .resigning } := by simp only [tellElection, he]
    have hheard : o.heard .stop = ([] : List (Mark K Q)) := by simp only [heard, he]
    have hsame : trace ++ ([] : List (Mark K Q)).map (o, ·) = trace := List.append_nil trace
    rw [htell, hheard]
    refine h.await hquiet rfl trivial h.lease ?_ (fun place => rfl) ?_ ?_ ?_ ?_
    · rw [hsame]
      exact h.regular
    · exact fun e he' => absurd (he.symm.trans he') (by simp)
    · rw [hsame]
      exact h.awaited
    · rw [hsame]
      exact fun _ => hunreturned
    · exact fun heq => by cases heq
  · obtain ⟨hregular, hreleasing⟩ := h.regular_resign hstage he
    have hlease : LeaseKept ({ o with stage := .resigning }.tellElection pr .stop) :=
      LeaseKept.tell (o := { o with stage := .resigning }) h.lease .stop
    obtain ⟨env, channel, lease, htell, -⟩ := tell_spec
      (o := { o with stage := .resigning }) pr he .stop
    rw [htell] at hlease ⊢
    refine h.await hquiet rfl trivial hlease hregular
      (fun place => dispatching_heard place .stop false) (fun e' he' => ?_)
      (fun hawaited => ⟨_, rfl, .inl (hreleasing hawaited)⟩) (fun _ hdid => ?_)
      (fun heq => by cases heq)
    · obtain rfl := Option.some.inj he'
      exact react_stop_over e o.now o.channel.current
    · rcases (did_append _).mp hdid with hdid | hmem
      · exact hunreturned hdid
      · rcases of_mem_heard he hmem with heq | ⟨effect, -, heq⟩ <;> cases heq

/-- The election is over and nothing is awaited: the operator returns. -/
theorem Kept.finish (h : Kept trace o) (hstage : o.stage = .resigning)
    (hended : (o.election.bind (·.stage)).isNone = true) :
    Kept (trace ++ [(o, .returned)]) { o with stage := .finished } := by
  have hquiet : o.stage.IsQuiet := by
    rw [hstage]
    exact Stage.IsResigning.isQuiet trivial
  have hnone : ∀ e, o.election = some e → e.stage = none := by
    intro e he
    simpa [he] using hended
  have hanswered : isReleasing trace = false := by
    cases hreleasing : isReleasing trace with
    | false => rfl
    | true =>
      obtain ⟨e, he, hwaits⟩ := h.awaited hreleasing
      simp [hnone e he] at hwaits
  have hregular : Regular (trace ++ [(o, .returned)]) := h.regular.snoc {
    unreturned := h.unreturned (by simp [hstage])
    aftermath := fun _ => trivial
    dispatched := fun _ _ heq => nomatch heq
    released := fun heq => nomatch heq
    returned := fun _ => hanswered }
  change Kept (trace ++ [Mark.returned].map (o, ·)) _
  refine h.await hquiet rfl trivial h.lease hregular (fun place => rfl)
    (fun e he => .inl (hnone e he)) (fun hawaited => ?_) (fun hnot => absurd rfl hnot)
    (fun _ => hnone)
  exact h.awaited (isReleasing_snoc.symm.trans hawaited)

theorem Kept.stop [Entity K] (h : Kept trace o) (hturn : o.turnStop pr = some o') :
    Kept (trace ++ (stopMarks pr o).map (o, ·)) o' := by
  unfold turnStop at hturn
  split at hturn
  · cases hturn
  · cases hturn
  · next hstage =>
    obtain rfl := Option.some.inj hturn
    have hmarks : stopMarks pr o = o.heard .stop := by simp only [stopMarks, hstage]
    rw [hmarks]
    exact h.resign hstage
  · next types hstage =>
    split at hturn
    · next hnone =>
      obtain rfl := Option.some.inj hturn
      have hmarks : stopMarks pr o = [] := by simp only [stopMarks, hstage, hnone]
      rw [hmarks, List.map_nil, List.append_nil]
      exact h.skip (.inl hstage) hnone
    · next p hp =>
      obtain rfl := Option.some.inj hturn
      have hmarks : stopMarks pr o = [] := by
        simp only [stopMarks, hstage, hp, stopShown_eq_nil, List.filterMap_nil]
      rw [hmarks, List.map_nil, List.append_nil]
      exact h.halt hstage hp
  · next types hstage =>
    have hmarks : stopMarks pr o = [] := by simp only [stopMarks, hstage]
    rw [hmarks, List.map_nil, List.append_nil]
    split at hturn
    · next hnone =>
      obtain rfl := Option.some.inj hturn
      exact h.skip (.inr hstage) hnone
    · next p hp =>
      split at hturn
      · next hended =>
        obtain rfl := Option.some.inj hturn
        exact h.drained hstage hp hended
      · cases hturn
  · next hstage =>
    split at hturn
    · next hended =>
      obtain rfl := Option.some.inj hturn
      have hmarks : stopMarks pr o = [.returned] := by simp only [stopMarks, hstage]
      rw [hmarks]
      exact h.finish hstage hended
    · cases hturn

/-! ### Runs -/

theorem Kept.step [Entity K] (h : Kept trace o) (hstep : Step pr o marks o') :
    Kept (trace ++ marks.map (o, ·)) o' := by
  have hsilent : ∀ {o' : Operator K Q A E D R}, Kept trace o' →
      Kept (trace ++ ([] : List (Mark K Q)).map (o, ·)) o' := by
    intro o' h'
    simpa using h'
  cases hstep with
  | cancelled hrunning => exact h.cancel hrunning
  | stopped hturn => exact h.stop hturn
  | elected hturn => exact h.elect hturn
  | worked hp hact => exact h.work hp hact
  | resumed => exact hsilent h.resume
  | passed later env hle =>
    exact hsilent (h.relay h.regular (fun _ _ => Iff.rfl) rfl rfl rfl h.lease
      (fun place p hp => ⟨p, hp, ⟨id, id, id⟩⟩) h.handling)
  | @offered place p item hp =>
    obtain ⟨hbecomes, hline⟩ := becomes_offer p item
    exact hsilent (h.put hp hbecomes fun hhandling => hline ▸ hhandling)
  | @closed place p hp =>
    obtain ⟨hbecomes, hline⟩ := becomes_close p
    exact hsilent (h.put hp hbecomes fun hhandling => hline ▸ hhandling)
  | queued command hp => exact hsilent (h.put hp ⟨id, fun h => ⟨h.loop, h.follower, h.link⟩, id⟩ id)

theorem Run.kept [Entity K] {start : Operator K Q A E D R} (hrun : Run pr start trace o)
    (h : Kept [] start) : Kept trace o := by
  induction hrun with
  | nil => exact h
  | snoc _ hstep ih => exact ih.step hstep

/-- An operator of given settings that has just been started. -/
theorem Kept.started [Entity K] (pr : Program K Q A E D R) (s : Settings) (hasLease : Bool)
    (now : Nat) (env : E) (pipelines : List (Pipeline K Q A E D R)) :
    Kept [] (Operator.start pr
      { now, env, pipelines, election := if hasLease then some (.ofSettings s) else none }) := by
  have hnothing : ∀ m : Mark K Q, ¬Did ([] : Trace K Q A E D R) m := by
    rintro m ⟨x, hx, -⟩
    cases hx
  cases hasLease <;> exact {
    regular := .nil
    lease := fun job hjob => nomatch hjob
    running := fun _ => hnothing _
    cancelled := fun hnot => absurd rfl hnot
    halted := fun _ _ _ hstopped => hstopped.elim
    ended := fun _ _ _ hdrained => hdrained.elim
    handling := fun _ hdispatching => nomatch hdispatching
    unreleased := fun _ => hnothing _
    resigned := fun hresigning => hresigning.elim
    awaited := fun hawaited => nomatch hawaited
    unreturned := fun _ => hnothing _
    finished := fun heq => nomatch heq }

end Invariant

/-- An operator of any settings and types, with or without a lease to compete for, whatever it runs
and whatever happens outside: once it is cancelled it takes up no entry, it gives the lease back
last, if it leads then, and it returns after that. -/
theorem releases_last [Entity K] {pr : Program K Q A E D R} (s : Settings) (hasLease : Bool)
    (now : Nat) (env : E) (pipelines : List (Pipeline K Q A E D R)) {trace : Trace K Q A E D R}
    {o : Operator K Q A E D R}
    (hrun : Run pr
      (.start pr
        { now, env, pipelines, election := if hasLease then some (.ofSettings s) else none })
      trace o) :
    ReleasesLast trace :=
  (hrun.kept (.started pr s hasLease now env pipelines)).regular.releasesLast

/-! ## A shutdown while an entry is handled -/

/-- Every question is answered after three milliseconds, and the lease is free. -/
def deliberate : Program Widget Unit (fun _ => Except Error Bool) Unit Unit Unit where
  backend := {
    call now _ env := (env, { ready := some (now + 3), value := .ok true })
    watch _ _ _ env := (env, { ready := none, outcome := .ok {} }) }
  handler _ := { plan _ _ _ := .ask () fun _ => .done (), conclude _ _ := some ((), []) }
  attempt := (Plan.call ()).map some
  release := (Plan.call ()).map fun answer => some (answer.map fun _ => ())

/-- A replica that competes for the lease, with one type. -/
def single : Operator Widget Unit (fun _ => Except Error Bool) Unit Unit Unit :=
  .start deliberate {
    now := 0, env := ()
    pipelines := [{ watcher := {}, gated := true, line := { consumer := some { state := () } } }]
    election := some (.ofSettings (.named "operator" "a")) }

def early : Entry Widget := ⟨{ metadata := { name := some "a" }, fields := [] }, .reconcile⟩

/-- The replica takes up an entry as the leader, and is cancelled before it is done with it. -/
def cutShort : List (Mark Widget Unit) := [
  .lease (.heard .wake), .lease (.did (.publish .candidate)), .lease (.did .attempt),
  .lease (.heard (.attempted (.ok true))), .lease (.did (.publish .leader)),
  .watched 0 { version := "0", timeoutSecs := 25 },
  .dispatched 0 early, .asked 0 (),
  .cancelled,
  .concluded 0,
  .lease (.heard .stop), .released,
  .lease (.heard (.released (.ok ()))), .lease (.did (.publish .inactive)),
  .returned]

theorem releases_last_cutShort :
    ∃ trace o, Run deliberate single trace o ∧ trace.map Prod.snd = cutShort ∧
      ReleasesLast trace := by
  have begun : Run deliberate single _ _ := Run.nil.snoc (.elected rfl)
  have leading := (begun.snoc (.passed 3 () (by decide))).snoc (.elected rfl)
  have followed := leading.snoc (.worked (show _[0]? = _ from rfl) (.followed 0 rfl))
  have watched := followed.snoc (.worked (show _[0]? = _ from rfl) (.woken 0 rfl))
  have queued := watched.snoc (.queued (.schedule ⟨none, "a"⟩ early 0) (show _[0]? = _ from rfl))
  have dispatched := queued.snoc (.worked (show _[0]? = _ from rfl) (.turned true rfl))
  have cancelled := dispatched.snoc (.cancelled rfl)
  have stopping := cancelled.snoc (.stopped rfl)
  have later := stopping.snoc (.passed 6 () (by decide))
  have concluded := later.snoc (.worked (show _[0]? = _ from rfl) (.turned true rfl))
  have ended := concluded.snoc (.worked (show _[0]? = _ from rfl) (.turned true rfl))
  have drained := ended.snoc (.stopped rfl)
  have resigning := drained.snoc (.stopped rfl)
  have released := (resigning.snoc (.passed 9 () (by decide))).snoc (.elected rfl)
  have returned := released.snoc (.stopped rfl)
  exact ⟨_, _, returned, rfl, releases_last (.named "operator" "a") true 0 () _ returned⟩

end Operator

end Reconciler.Host
