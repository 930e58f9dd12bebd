import Mathlib.Data.List.Induction
import Reconciler.Proofs.Host.Site
import Reconciler.Simulation.Widget

/-!
# No change is lost on its way to the controller

From the event that reports a change, its entity is owed a call (`Owed`): an entry that leads to one
is upcoming in the queue, or the dispatcher is at such an entry that was delivered since, until the
debt is discharged. What discharges it is a success on an entity at least as new, a deletion that the
controller has heard of, or a read that finds the entity gone.

The debt moves. Schedules merge with the entry that carries it, which may then be pressing for
another reason and with another entity; the dispatcher takes the entry over; and when it fails, it
queues the entity again. An entity that is merely queued again may be old, but then it is read again
first, so it is only a reconcile that has to carry a new one (`Carries`).
-/

namespace Reconciler.Host

open Dispatch (Asked Call Fit Found Handled Policy Settled Steps Succeeded Verdict)
open Queue (Command Entry meet)
open Simulation (Widget)

variable {K E : Type} [Entity K]

/-! ## Debts -/

/-- Of all that was seen since an event, the entity comes from the event itself, from a later one, or
from a read that began later. -/
def AsNew (e : K) (since : List (Deed K)) (x : K) : Prop :=
  x = e ∨ (∃ change, .changed x change ∈ since) ∨
    ∃ name ns, .called ⟨.get name ns, Except.ok (some x)⟩ ∈ since

/-- The deeds that discharge a debt of an identity, after what was seen since the event. -/
inductive Discharges (p : Policy) (key : EntityKey) (e : K) (since : List (Deed K)) :
    Deed K → Prop where
  /-- The reconcile, or the pass over the finalizers if the entity is marked for deletion, was a
  success, and the entity is at least as new as the event's. -/
  | succeeded {entry : Entry K} {before calls : List (Asked K)} {x : K} {action : Action} :
      underway since = some (entry, before ++ calls) → Entity.key? x = some key →
      AsNew e since x → Succeeded p x action calls →
      Discharges p key e since (.concluded x (.succeeded action))
  /-- The controller was called for the deletion. -/
  | told {entry : Entry K} {answer : Except Error Unit} :
      underway since = some (entry, [⟨.deleted entry.entity, answer⟩]) →
      Entity.key? entry.entity = some key →
      Discharges p key e since (.concluded entry.entity .forgotten)
  /-- The entity was read again and is gone. -/
  | gone {entry : Entry K} :
      underway since = some (entry, [⟨.get key.name key.ns, Except.ok none⟩]) →
      Discharges p key e since (.concluded entry.entity .forgotten)

/-- The debt of an identity has been discharged since the event. -/
def Discharged (p : Policy) (key : EntityKey) (e : K) (since : List (Deed K)) : Prop :=
  ∃ before deed after, since = before ++ deed :: after ∧ Discharges p key e before deed

/-- An entry that is good for the debt. -/
def Carries (e : K) (since : List (Deed K)) (entry : Entry K) : Prop :=
  entry.trigger.IsPressing ∧ (entry.trigger = .reconcile → AsNew e since entry.entity)

/-- Where the debt of an identity is. -/
inductive Owed (p : Policy) (key : EntityKey) (e : K) (since : List (Deed K))
    (l : DispatchLine K E) : Prop where
  | discharged : Discharged p key e since → Owed p key e since l
  | upcoming {entry : Entry K} : l.upcoming key = some entry → Carries e since entry →
      Owed p key e since l
  | underway {entry : Entry K} {calls : List (Asked K)} {c : DispatchConsumer K E}
      {job : Job K (Call K) Call.Answer E (K × Verdict)} :
      Host.underway since = some (entry, calls) → Entity.key? entry.entity = some key →
      Carries e since entry → l.consumer = some c → c.activity = .busy job →
      job.rest.Ends Fit (Handled p entry) calls → Owed p key e since l

section Debts

variable {p : Policy} {key : EntityKey} {e : K} {since more : List (Deed K)}

omit [Entity K] in
theorem AsNew.append {x : K} (h : AsNew e since x) : AsNew e (since ++ more) x := by
  rcases h with h | ⟨change, h⟩ | ⟨name, ns, h⟩
  · exact .inl h
  · exact .inr (.inl ⟨change, List.mem_append_left _ h⟩)
  · exact .inr (.inr ⟨name, ns, List.mem_append_left _ h⟩)

omit [Entity K] in
theorem Carries.append {entry : Entry K} (h : Carries e since entry) :
    Carries e (since ++ more) entry :=
  ⟨h.1, fun htrigger => (h.2 htrigger).append⟩

theorem Discharged.append (h : Discharged p key e since) :
    Discharged p key e (since ++ more) := by
  obtain ⟨before, deed, after, rfl, hdeed⟩ := h
  exact ⟨before, deed, after ++ more, by simp, hdeed⟩

theorem Discharged.of_last {deed : Deed K} (h : Discharges p key e since deed) :
    Discharged p key e (since ++ [deed]) :=
  ⟨since, deed, [], rfl, h⟩

omit [Entity K] in
/-- An entry that carries the debt goes on doing so under every schedule of a new enough entity, and
under every requeue and deletion. -/
theorem Carries.onto {pending : Entry K} (h : Carries e since pending) (new : Entry K)
    (hnew : new.trigger = .requeue ∨ new.trigger = .deleted ∨ AsNew e since new.entity) :
    Carries e since (new.onto (some pending)) := by
  refine ⟨Queue.IsPressing.onto h.1, fun htrigger => ?_⟩
  obtain ⟨hentity, hrequeue, hdeleted⟩ := Queue.onto_reconcile htrigger
  rw [hentity]
  rcases hnew with hnew | hnew | hnew
  · exact absurd hnew hrequeue
  · exact absurd hnew hdeleted
  · exact hnew

/-- Requeues leave the debt with what is upcoming. -/
theorem Carries.foldl {pending : Entry K} (h : Carries e since pending) (key : EntityKey)
    {commands : List (Command K)} (hcommands : ∀ command ∈ commands, command.IsRequeue) :
    ∃ entry, commands.foldl (meet key) (some pending) = some entry ∧ Carries e since entry := by
  induction commands generalizing pending with
  | nil => exact ⟨pending, rfl, h⟩
  | cons command rest ih =>
    obtain ⟨x, delay, hcommand⟩ := hcommands command List.mem_cons_self
    obtain ⟨other, -, rfl⟩ := schedule?_eq_some hcommand
    have hrest : ∀ command ∈ rest, command.IsRequeue := fun other hother =>
      hcommands other (List.mem_cons_of_mem _ hother)
    by_cases hkey : other = key
    · obtain ⟨entry, hfold, hcarries⟩ :=
        ih (h.onto ⟨x, .requeue⟩ (.inl rfl)) hrest
      exact ⟨entry, by rw [List.foldl_cons, meet, if_pos hkey, hfold], hcarries⟩
    · obtain ⟨entry, hfold, hcarries⟩ := ih h hrest
      exact ⟨entry, by rw [List.foldl_cons, meet, if_neg hkey, hfold], hcarries⟩

omit [Entity K] in
/-- The calls made for the entry under way were seen. -/
theorem mem_of_underway {entry : Entry K} {calls : List (Asked K)}
    (h : underway since = some (entry, calls)) {asked : Asked K} (hasked : asked ∈ calls) :
    .called asked ∈ since := by
  induction since using List.reverseRecOn generalizing entry calls with
  | nil => cases h
  | append_singleton since deed ih =>
    simp only [underway, List.foldl_append, List.foldl_cons, List.foldl_nil] at h
    cases deed with
    | changed x change => exact List.mem_append_left _ (ih h hasked)
    | delivered other =>
      obtain ⟨rfl, rfl⟩ := Prod.mk.inj (Option.some.inj h)
      cases hasked
    | concluded x verdict => cases h
    | called last =>
      obtain ⟨⟨other, before⟩, hbefore, heq⟩ := Option.map_eq_some_iff.mp h
      obtain ⟨rfl, rfl⟩ := Prod.mk.inj heq
      rcases List.mem_append.mp hasked with hasked | hasked
      · exact List.mem_append_left _ (ih hbefore hasked)
      · rw [List.mem_singleton.mp hasked]
        exact List.mem_append_right _ List.mem_cons_self

end Debts

/-! ## Turns of the dispatcher -/

section Turns

variable {p : Policy} {key : EntityKey} {e : K} {since : List (Deed K)} {now : Nat}
  {pending : EntityKey → Option (Entry K)} {plan : Steps K (K × Verdict)}
  {l l' : DispatchLine K E} {c : DispatchConsumer K E} {deeds : List (Deed K)}

/-- What is upcoming stays good for the debt while the dispatcher goes on with another entity. -/
theorem Went.owed_of_pending (h : Went p now pending plan l' deeds) {entry : Entry K}
    (hentry : pending key = some entry) (hcarries : Carries e since entry) :
    Owed p key e (since ++ deeds) l' := by
  cases h with
  | called _ _ _ _ _ hupcoming =>
    exact .upcoming ((hupcoming key).trans hentry) hcarries.append
  | @concluded r commands c' _ hintact _ hcommands _ hupcoming =>
    obtain ⟨entry', hfold, hcarries'⟩ := hcarries.foldl key hcommands
    exact .upcoming (by rw [hupcoming, hentry, hfold]) hcarries'.append

/-- A verdict on an entry that carries the debt discharges it, unless it is a failure. -/
theorem Handled.discharges {entry : Entry K} {calls : List (Asked K)} {r : K × Verdict}
    (h : Handled p entry calls r) (hunderway : underway since = some (entry, calls))
    (hkey : Entity.key? entry.entity = some key) (hcarries : Carries e since entry) :
    Discharges p key e since (.concluded r.1 r.2) ∨ ∃ error, r.2 = .failed error := by
  obtain ⟨hpressing, hnew⟩ := hcarries
  -- A read of the entity asks for the identity of the entry.
  have hread : ∀ name, (Entity.metadata entry.entity).name = some name →
      key = ⟨(Entity.metadata entry.entity).ns, name⟩ := by
    intro name hname
    rw [Entity.key?, Metadata.key?, hname] at hkey
    exact (Option.some.inj hkey).symm
  cases h with
  | skipped hskipped => rcases hpressing with h | h | h <;> rcases hskipped with h' | h' <;> simp_all
  | told answer _ => exact .inl (.told hunderway hkey)
  | @gone name htrigger hname =>
    obtain rfl := hread name hname
    exact .inl (.gone hunderway)
  | unread error _ => exact .inr ⟨error, rfl⟩
  | @settled before own x r hfound hsettled =>
    cases hsettled with
    | failed error => exact .inr ⟨error, rfl⟩
    | succeeded hsucceeded =>
      refine .inl (.succeeded hunderway (hfound.key?_eq.trans hkey) ?_ hsucceeded)
      cases hfound with
      | reread _ _ _ =>
        exact .inr (.inr ⟨_, _, mem_of_underway hunderway List.mem_cons_self⟩)
      | given hrequeue hdeleted =>
        rcases hpressing with htrigger | htrigger | htrigger
        · exact hnew htrigger
        · exact absurd htrigger hrequeue
        · exact absurd htrigger hdeleted

/-- The dispatcher discharges the debt that its entry carries, or hands it back to the queue when it
fails. -/
theorem Went.owed_of_underway (h : Went p now pending plan l' deeds) {entry : Entry K}
    {calls : List (Asked K)} (hunderway : underway since = some (entry, calls))
    (hkey : Entity.key? entry.entity = some key) (hcarries : Carries e since entry)
    (hplan : plan.Ends Fit (Handled p entry) calls) : Owed p key e (since ++ deeds) l' := by
  cases h with
  | @called call answer next c' job heq hfit hintact hactivity hrest _ =>
    subst heq
    have hcalls : underway (since ++ [.called ⟨call, answer⟩]) =
        some (entry, calls ++ [⟨call, answer⟩]) := by
      rw [underway, List.foldl_append, ← underway, hunderway]
      rfl
    exact .underway hcalls hkey hcarries.append hintact.consumer hactivity
      (hrest ▸ hplan answer hfit)
  | @concluded r commands c' heq hintact _ _ hfailed hupcoming =>
    subst heq
    have hhandled : Handled p entry calls r := hplan
    rcases Handled.discharges hhandled hunderway hkey hcarries with h | ⟨error, herror⟩
    · exact .discharged (.of_last h)
    · have hrkey := hhandled.key?_eq.trans hkey
      obtain ⟨delay, rfl⟩ := hfailed error key herror hrkey
      have hentry : l'.upcoming key = some ((⟨r.1, .requeue⟩ : Entry K).onto (pending key)) := by
        rw [hupcoming, List.foldl_cons, meet, if_pos rfl]
        rfl
      refine .upcoming hentry ⟨?_, ?_⟩
      · exact Queue.requeue_onto rfl
      · intro htrigger
        exact absurd rfl (Queue.onto_reconcile htrigger).2.1

/-- A turn of the dispatcher keeps the debt. -/
theorem Turned.owed (h : Turned p now true l c l' deeds) (hl : l.Intact c p now)
    (howed : Owed p key e since l) : Owed p key e (since ++ deeds) l' := by
  cases howed with
  | discharged hdischarged => exact .discharged hdischarged.append
  | upcoming hentry hcarries =>
    cases h with
    | idle _ _ _ hsame =>
      exact .upcoming ((hsame key).trans hentry) hcarries.append
    | @delivered key' entry' pending deeds _ hentry' hnone hothers hwent =>
      rw [← List.singleton_append, ← List.append_assoc]
      by_cases hkey : key = key'
      · -- The entry that carries the debt is the one that is delivered.
        subst hkey
        obtain rfl : entry' = _ := Option.some.inj (hentry'.symm.trans hentry)
        have haddressed := hl.addressed key _ (hl.upcoming_eq key ▸ hentry)
        refine hwent.owed_of_underway ?_ haddressed hcarries.append
          (Dispatch.handle_ends p _ haddressed)
        rw [underway, List.foldl_append]
        rfl
      · exact hwent.owed_of_pending ((hothers key hkey).trans hentry) hcarries.append
    | @answered job pending deeds _ hcommands hpending hwent =>
      obtain ⟨entry', hfold, hcarries'⟩ := hcarries.foldl key hcommands
      exact hwent.owed_of_pending (by rw [hpending, hentry, hfold]) hcarries'
  | @underway entry calls c' job hunderway hkey hcarries hconsumer hactivity hplan =>
    obtain rfl : c = c' := Option.some.inj (hl.consumer.symm.trans hconsumer)
    cases h with
    | idle hwaiting _ _ _ => rw [hactivity] at hwaiting; cases hwaiting
    | delivered hwaiting _ _ _ _ => rw [hactivity] at hwaiting; cases hwaiting
    | answered hbusy _ _ hwent =>
      obtain rfl := Activity.busy.inj (hactivity.symm.trans hbusy)
      exact hwent.owed_of_underway hunderway hkey hcarries hplan

end Turns

/-! ## Runs of a site -/

section Steps

variable {b : CallBackend K E} {p : Policy} {key : EntityKey} {e : K} {since deeds : List (Deed K)}
  {s s' : Site K E} {c : DispatchConsumer K E} {now : Nat} {l : DispatchLine K E}

theorem Went.intact {pending : EntityKey → Option (Entry K)} {plan : Steps K (K × Verdict)}
    {l' : DispatchLine K E} (h : Went p now pending plan l' deeds) : ∃ c', l'.Intact c' p now := by
  cases h with
  | called _ _ hintact _ _ _ => exact ⟨_, hintact⟩
  | concluded _ hintact _ _ _ _ => exact ⟨_, hintact⟩

theorem Turned.intact {leading : Bool} {l' : DispatchLine K E}
    (h : Turned p now leading l c l' deeds) : ∃ c', l'.Intact c' p now := by
  cases h with
  | idle _ hintact _ _ => exact ⟨_, hintact⟩
  | delivered _ _ _ _ hwent => exact hwent.intact
  | answered _ _ _ hwent => exact hwent.intact

/-- Sending keeps the debt, if every schedule for the identity brings a new enough entity, or is a
requeue or a deletion. -/
theorem Owed.sendAll (hl : l.Intact c p now) (howed : Owed p key e since l)
    {command : Command K} {other : EntityKey} {new : Entry K} {delay : Nat}
    (hcommand : command = .schedule other new delay) (haddressed : command.IsAddressed)
    (hnew : new.trigger = .requeue ∨ new.trigger = .deleted ∨ AsNew e since new.entity) :
    Owed p key e since (l.sendAll [command]) := by
  obtain ⟨hintact, hupcoming⟩ := hl.sendAll [command]
    fun one hone => List.mem_singleton.mp hone ▸ haddressed
  cases howed with
  | discharged hdischarged => exact .discharged hdischarged
  | underway hunderway hkey hcarries hconsumer hactivity hplan =>
    exact .underway hunderway hkey hcarries hconsumer hactivity hplan
  | upcoming hentry hcarries =>
    by_cases hkey : other = key
    · refine .upcoming (hupcoming key ▸ ?_) (hcarries.onto new hnew)
      rw [hcommand, List.foldl_cons, List.foldl_nil, meet, if_pos hkey, hentry]
    · refine .upcoming (hupcoming key ▸ ?_) hcarries
      rw [hcommand, List.foldl_cons, List.foldl_nil, meet, if_neg hkey, hentry]

omit [Entity K] in
theorem underway_append_changed (x : K) (change : Change) :
    underway (since ++ [.changed x change]) = underway since := by
  rw [underway, List.foldl_append]
  rfl

theorem Owed.changed (howed : Owed p key e since l) (x : K) (change : Change) :
    Owed p key e (since ++ [.changed x change]) l := by
  cases howed with
  | discharged hdischarged => exact .discharged hdischarged.append
  | upcoming hentry hcarries => exact .upcoming hentry hcarries.append
  | underway hunderway hkey hcarries hconsumer hactivity hplan =>
    exact .underway ((underway_append_changed x change).trans hunderway) hkey hcarries.append
      hconsumer hactivity hplan

/-- An event that has an entity queued tells of a change, or that the entity is gone. -/
theorem deeds_of_queued? {w : Watcher} {input : Watch.Input K} {x : K} {trigger : Trigger}
    (h : w.queued? input = some (x, trigger)) :
    (trigger = .deleted ∧ Watcher.deeds w input = []) ∨
      ∃ change, trigger = .ofChange change ∧ Watcher.deeds w input = [.changed x change] := by
  rcases input with _ | _ | _ | _ | _ | event | _ | _
  case event =>
    rcases event with y | y | y | _ | _ <;> simp only [Watcher.queued?] at h
    case added =>
      split at h
      · next hloop =>
        obtain ⟨rfl, rfl⟩ := Prod.mk.inj (Option.some.inj h)
        exact .inr ⟨_, rfl, by simp [Watcher.deeds, hloop]⟩
      · cases h
    case modified =>
      split at h
      · next hloop =>
        obtain ⟨rfl, rfl⟩ := Prod.mk.inj (Option.some.inj h)
        exact .inr ⟨_, rfl, by simp [Watcher.deeds, hloop]⟩
      · cases h
    case deleted =>
      split at h
      · obtain ⟨rfl, rfl⟩ := Prod.mk.inj (Option.some.inj h)
        exact .inl ⟨rfl, rfl⟩
      · cases h
    all_goals cases h
  all_goals cases h

theorem deeds_of_queued?_eq_none {w : Watcher} {input : Watch.Input K}
    (h : w.queued? input = none) : Watcher.deeds w input = [] := by
  rcases input with _ | _ | _ | _ | _ | event | _ | _
  case event =>
    rcases event with y | y | y | _ | _ <;> simp_all [Watcher.queued?, Watcher.deeds]
  all_goals rfl

/-- Whatever happens to the watcher, its line stays intact, and a debt stays. -/
theorem tell_intact_owed (h : s.line.Intact c p s.now) (draw : Nat) (input : Watch.Input K) :
    (∃ c', (s.tell b draw input).line.Intact c' p (s.tell b draw input).now) ∧
      ∀ key e since, Owed p key e since s.line →
        Owed p key e (since ++ Watcher.deeds s.watcher input) (s.tell b draw input).line := by
  obtain ⟨hnow, hline⟩ := Site.tell_line b draw s input
  rw [hnow, hline, Watcher.sent_react]
  cases hqueued : s.watcher.queued? input with
  | none =>
    rw [deeds_of_queued?_eq_none hqueued]
    simp only [Option.bind_none, Option.toList_none, List.append_nil]
    rw [show s.line.sendAll [] = s.line by simp [Line.sendAll]]
    exact ⟨⟨c, h⟩, fun key e since howed => howed⟩
  | some queued =>
    obtain ⟨x, trigger⟩ := queued
    cases hcommand : Command.schedule? x 0 trigger with
    | none =>
      simp only [Option.bind_some, hcommand, Option.toList_none]
      rw [show s.line.sendAll [] = s.line by simp [Line.sendAll]]
      refine ⟨⟨c, h⟩, fun key e since howed => ?_⟩
      rcases deeds_of_queued? hqueued with ⟨-, hdeeds⟩ | ⟨change, -, hdeeds⟩
      · rw [hdeeds, List.append_nil]
        exact howed
      · rw [hdeeds]
        exact howed.changed x change
    | some command =>
      simp only [Option.bind_some, hcommand, Option.toList_some]
      have haddressed : command.IsAddressed := ⟨x, 0, trigger, hcommand⟩
      obtain ⟨other, -, hschedule⟩ := schedule?_eq_some hcommand
      refine ⟨⟨c, (h.sendAll [command] fun one hone => List.mem_singleton.mp hone ▸ haddressed).1⟩, ?_⟩
      intro key e since howed
      rcases deeds_of_queued? hqueued with ⟨rfl, hdeeds⟩ | ⟨change, rfl, hdeeds⟩
      · rw [hdeeds, List.append_nil]
        exact howed.sendAll h hschedule haddressed (.inr (.inl rfl))
      · rw [hdeeds]
        refine (howed.changed x change).sendAll h hschedule haddressed (.inr (.inr ?_))
        exact .inr (.inl ⟨change, List.mem_append_right _ List.mem_cons_self⟩)

/-- Letting others have their turn changes nothing but when the answer is looked at. -/
theorem resume_intact_owed (h : l.Intact c p now) :
    (∃ c', l.resume.Intact c' p now) ∧
      ∀ key e since, Owed p key e since l → Owed p key e since l.resume := by
  obtain ⟨inbox, closed, cancelled, consumer⟩ := l
  obtain ⟨queue, activity, state⟩ := c
  obtain rfl : consumer = some ⟨queue, activity, state⟩ := h.consumer
  cases activity with
  | waiting => exact ⟨⟨_, h⟩, fun key e since howed => howed⟩
  | ended => exact ⟨⟨_, h⟩, fun key e since howed => howed⟩
  | busy job =>
    have hintact : (Line.resume ⟨inbox, closed, cancelled, some ⟨queue, .busy job, state⟩⟩).Intact
        ⟨queue, .busy job.resume, state⟩ p now :=
      { h with consumer := rfl, goesOn := h.goesOn }
    refine ⟨⟨_, hintact⟩, ?_⟩
    rintro key e since (hdischarged | ⟨hentry, hcarries⟩ |
      ⟨hunderway, hkey, hcarries, hconsumer, hactivity, hplan⟩)
    · exact .discharged hdischarged
    · exact .upcoming hentry hcarries
    · obtain rfl := Option.some.inj hconsumer
      obtain rfl := Activity.busy.inj hactivity
      exact .underway hunderway hkey hcarries rfl rfl hplan

/-- Whatever happens to a site, its line stays intact, and a debt stays. -/
theorem Step.intact_owed (hb : b.Faithful) (h : s.line.Intact c p s.now) (hstep : Step b s deeds s') :
    (∃ c', s'.line.Intact c' p s'.now) ∧
      ∀ key e since, Owed p key e since s.line → Owed p key e (since ++ deeds) s'.line := by
  cases hstep with
  | outside hlater =>
    refine ⟨⟨c, h.mono hlater⟩, fun key e since howed => ?_⟩
    rw [List.append_nil]
    exact howed
  | network link =>
    refine ⟨⟨c, h⟩, fun key e since howed => ?_⟩
    rw [List.append_nil]
    exact howed
  | told draw input => exact tell_intact_owed h draw input
  | turned hrange hturn =>
    have hturned := Line.turn_spec hb h hrange hturn
    exact ⟨hturned.intact, fun key e since howed => hturned.owed h howed⟩
  | @requeued command hrequeue =>
    obtain ⟨x, delay, hcommand⟩ := hrequeue
    have haddressed : command.IsAddressed := ⟨x, delay, .requeue, hcommand⟩
    obtain ⟨other, -, hschedule⟩ := schedule?_eq_some hcommand
    refine ⟨⟨c, (h.sendAll [command] fun one hone => List.mem_singleton.mp hone ▸ haddressed).1⟩, ?_⟩
    intro key e since howed
    rw [List.append_nil]
    exact howed.sendAll h hschedule haddressed (.inl rfl)
  | resumed =>
    obtain ⟨hintact, hresumed⟩ := resume_intact_owed h
    refine ⟨hintact, fun key e since howed => ?_⟩
    rw [List.append_nil]
    exact hresumed key e since howed

/-- Throughout a run the line stays intact, and a debt that there is at its beginning stays. -/
theorem Run.intact_owed (hb : b.Faithful) (h : s.line.Intact c p s.now) (hrun : Run b s deeds s') :
    (∃ c', s'.line.Intact c' p s'.now) ∧
      ∀ key e since, Owed p key e since s.line → Owed p key e (since ++ deeds) s'.line := by
  induction hrun with
  | nil =>
    refine ⟨⟨c, h⟩, fun key e since howed => ?_⟩
    rw [List.append_nil]
    exact howed
  | snoc _ hstep ih =>
    obtain ⟨⟨c', hintact⟩, howed⟩ := ih
    obtain ⟨hintact', howed'⟩ := hstep.intact_owed hb hintact
    refine ⟨hintact', fun key e since h => ?_⟩
    rw [← List.append_assoc]
    exact howed' key e _ (howed key e since h)

end Steps

theorem registered_intact (settings : Settings) (cache : Cache) (finalizers : List String)
    (place now : Nat) (env : E) :
    ∃ c, (Site.registered (K := K) settings cache finalizers place now env).line.Intact c
      (Dispatcher.ofSettings settings finalizers).policy now := by
  refine ⟨{ state := .ofSettings settings finalizers }, ⟨rfl, rfl, rfl, ?_, ?_⟩, rfl, trivial⟩
  · exact (Queue.Sound.startingAt 0).mono (Nat.zero_le now)
  · rintro key entry ⟨⟩

/-- No change is lost. Take any run of a type from its registration up to an event in which a watch
tells that an entity with an identity is there or was modified, which the cache takes for more than
an echo of status or finalizers, and any run on from there. Then the consumer has not come to its
end, and the event has been discharged since, or an entry that leads to a call is upcoming for the
identity, or the dispatcher works on such an entry that was delivered after the event. -/
theorem no_change_lost {b : CallBackend K E} (hb : b.Faithful) {settings : Settings} {cache : Cache}
    {finalizers : List String} {place now : Nat} {env : E} {past since : List (Deed K)}
    {s s' : Site K E} (hpast : Run b (.registered settings cache finalizers place now env) past s)
    {draw : Nat} {event : Watch.Event K} {e : K} {key : EntityKey}
    (hevent : event = .added e ∨ event = .modified e) (hkey : Entity.key? e = some key)
    (hwatching : s.watcher.loop.isSome) (hother : (s.watcher.cache.upsert e).2 = .other)
    (hsince : Run b (s.tell b draw (.event event)) since s') :
    s'.line.isEnded = false ∧
      (Discharged (Dispatcher.ofSettings settings finalizers).policy key e since ∨
        (∃ entry, s'.line.upcoming key = some entry ∧ entry.trigger.IsPressing) ∨
        ∃ entry calls c job, underway since = some (entry, calls) ∧
          Entity.key? entry.entity = some key ∧ entry.trigger.IsPressing ∧
          s'.line.consumer = some c ∧ c.activity = .busy job) := by
  obtain ⟨c₀, hstart⟩ := registered_intact (K := K) settings cache finalizers place now env
  obtain ⟨⟨c, hintact⟩, -⟩ := hpast.intact_owed hb hstart
  -- The event sends a reconcile, which takes the place of whatever is upcoming.
  have hqueued : s.watcher.queued? (.event event) = some (e, .reconcile) := by
    rcases hevent with rfl | rfl <;> simp [Watcher.queued?, hwatching, hother, Trigger.ofChange]
  have hschedule : Command.schedule? e 0 .reconcile = some (.schedule key ⟨e, .reconcile⟩ 0) := by
    rw [Command.schedule?, hkey]
    rfl
  have hline : (s.tell b draw (.event event)).line =
      s.line.sendAll [.schedule key ⟨e, .reconcile⟩ 0] := by
    rw [(Site.tell_line b draw s _).2, Watcher.sent_react, hqueued]
    simp only [Option.bind_some, hschedule, Option.toList_some]
  obtain ⟨hsent, hupcoming⟩ := hintact.sendAll [.schedule key ⟨e, .reconcile⟩ 0]
    fun one hone => List.mem_singleton.mp hone ▸ ⟨e, 0, .reconcile, hschedule⟩
  have howed : Owed (Dispatcher.ofSettings settings finalizers).policy key e []
      (s.tell b draw (.event event)).line := by
    have hentry : (s.tell b draw (.event event)).line.upcoming key = some ⟨e, .reconcile⟩ := by
      rw [hline, hupcoming, List.foldl_cons, List.foldl_nil, meet, if_pos rfl,
        Queue.reconcile_onto rfl]
    exact .upcoming hentry ⟨.inl rfl, fun _ => .inl rfl⟩
  obtain ⟨⟨c', hintact'⟩, hafter⟩ := hsince.intact_owed hb (hline ▸ hsent)
  refine ⟨?_, ?_⟩
  · have hgoesOn := hintact'.goesOn
    rw [Line.isEnded, hintact'.consumer]
    obtain ⟨queue, activity, state⟩ := c'
    cases activity with
    | ended => exact absurd hgoesOn id
    | waiting => rfl
    | busy job => rfl
  · cases hafter key e [] howed with
    | discharged h => exact .inl h
    | upcoming hentry hcarries => exact .inr (.inl ⟨_, hentry, hcarries.1⟩)
    | underway hunderway hkey hcarries hconsumer hactivity _ =>
      exact .inr (.inr ⟨_, _, _, _, hunderway, hkey, hcarries.1, hconsumer, hactivity⟩)

/-- The controller reconciles an entity that the first connection brings. -/
theorem no_change_lost_reconciled :
    ∃ (x : Widget) (s s' : Site Widget Unit) (since : List (Deed Widget)),
      Run obliging (.registered (.named "op" "pod") .empty [] 0 0 ()) [] s ∧
      Run obliging (s.tell obliging 0 (.event (.added x))) since s' ∧
      since = [.delivered ⟨x, .reconcile⟩, .called ⟨.reconcile x, Except.ok .awaitChange⟩,
        .concluded x (.succeeded .awaitChange)] ∧
      s'.line.isEnded = false ∧
      (Discharged (Dispatcher.ofSettings (.named "op" "pod") []).policy ⟨none, "a"⟩ x since ∨
        (∃ entry, s'.line.upcoming ⟨none, "a"⟩ = some entry ∧ entry.trigger.IsPressing) ∨
        ∃ entry calls c job, underway since = some (entry, calls) ∧
          Entity.key? entry.entity = some ⟨none, "a"⟩ ∧ entry.trigger.IsPressing ∧
          s'.line.consumer = some c ∧ c.activity = .busy job) := by
  let x : Widget := { metadata := { name := some "a" }, fields := [] }
  let start : Site Widget Unit := .registered (.named "op" "pod") .empty [] 0 0 ()
  let s := ((start.tell obliging 0 .start).tell obliging 0 .wake).tell obliging 0 .opened
  have watching : Run obliging start [] s :=
    .snoc (.snoc (.snoc .nil (show Step _ _ [] _ from .told 0 .start))
      (show Step _ _ [] _ from .told 0 .wake)) (show Step _ _ [] _ from .told 0 .opened)
  let reported := s.tell obliging 0 (.event (.added x))
  have hrange : reported.line.WithinRange 0 := by
    intro c hc _ happly
    obtain rfl := Option.some.inj hc
    cases happly
  -- The first turn calls the controller, the second one looks at its answer.
  obtain ⟨line, line', hturn, hturn', hdeeds, hrange'⟩ : ∃ line line',
      reported.line.turn obliging (dispatching 0) 0 true () = some (line, ()) ∧
      line.turn obliging (dispatching 0) 0 true () = some (line', ()) ∧
      line.deeds obliging 0 true () = [.concluded x (.succeeded .awaitChange)] ∧
      line.WithinRange 0 := by
    refine ⟨_, _, rfl, rfl, rfl, ?_⟩
    intro c hc hwaiting _
    obtain rfl := Option.some.inj hc
    cases hwaiting
  have delivered : Run obliging reported
      [.delivered ⟨x, .reconcile⟩, .called ⟨.reconcile x, Except.ok .awaitChange⟩]
      { reported with pipeline := { reported.pipeline with line } } :=
    .snoc .nil (.turned hrange hturn)
  have concluded := delivered.snoc (.turned hrange' hturn')
  refine ⟨x, s, _, _, watching, concluded, congrArg (_ ++ ·) hdeeds, ?_⟩
  exact no_change_lost obliging_faithful watching (.inl rfl) rfl rfl rfl concluded

end Reconciler.Host
