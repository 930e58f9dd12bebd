import Reconciler.Proofs.Host.Following
import Reconciler.Simulation.Widget

/-!
# Leadership epochs are kept apart

A follower has its watcher run while this replica leads, and after everything else that is
published it stops the watcher and clears the queue. The follower, the watcher, its connection and
the consumer of the queue take turns in any order, and the consumer may be busy with an entry for as
long as it likes and apply what was sent meanwhile late. What keeps one epoch apart from the next is
the order of the queue's commands: a clear follows everything that was scheduled before this replica
stepped down, and comes before everything that the watch of the next epoch schedules, since nothing
is published before the follower has seen what was published before.

`Gated.Separated` says what comes of it at every point of a run at which all parts wait. It holds of
every run (`Gated.epochs_separated`): for every consumer whose results and answers send schedules
only, and for all connections that bring named entities.
-/

namespace Reconciler.Host

open Leadership (Channel Follower)
open Dispatch (Call Verdict)
open Queue (Command Entry meet)
open Simulation (Widget)

variable {K E Q D R : Type} {A : Q → Type} [Entity K]

namespace Gated

variable {b : Backend K Q A E} {h : Handler K Q A E D R} {first : Leadership}
  {trace more past since : List (Incident K)} {s s' start : Gated K Q A E D R}

/-! ## Publications in a run -/

/-- All that a step of a gated type can be, as far as publications and clears go. -/
theorem Kept.step_cases (hs : s.Kept first trace) (hh : h.SendsSchedules)
    (hstep : Step b h s more s') :
    (∃ state, s.Settled ∧ more = [.published state] ∧ s' = s.publish state) ∨
      s'.channel = s.channel ∧
        ((¬s.Settled ∧ more = if s.channel.current = .leader then [] else [.sent .clear]) ∨
          (s'.Settled ↔ s.Settled) ∧ ∀ i ∈ more,
            i.publication? = none ∧ ∀ command, i = .sent command → command.IsAddressed) := by
  cases hstep with
  | published state hsettled => exact .inl ⟨state, hsettled, rfl, rfl⟩
  | acted hact => exact .inr ⟨hact.channel, hs.act_cases hh hact⟩
  | outside _ _ _ => exact .inr ⟨rfl, .inr ⟨Iff.rfl, by simp⟩⟩
  | scheduled command hcommand =>
    refine .inr ⟨rfl, .inr ⟨Iff.rfl, fun i hi => ?_⟩⟩
    obtain rfl := List.mem_singleton.mp hi
    exact ⟨rfl, fun other heq => Incident.sent.inj heq ▸ hcommand⟩
  | offered hitem =>
    obtain ⟨link, hoffer, -⟩ := offer_spec s.pipeline hs.named hitem
    rw [hoffer]
    exact .inr ⟨rfl, .inr ⟨Iff.rfl, by simp⟩⟩
  | closed =>
    obtain ⟨link, hclose, -⟩ := close_spec s.pipeline hs.named
    rw [hclose]
    exact .inr ⟨rfl, .inr ⟨Iff.rfl, by simp⟩⟩

/-- Nothing is published but by a publication, and not before the last one has been seen. -/
theorem Kept.step_published (hs : s.Kept first trace) (hh : h.SendsSchedules)
    (hstep : Step b h s more s') {state : Leadership} (hmem : .published state ∈ more) :
    s.Settled ∧ more = [.published state] ∧ s' = s.publish state := by
  rcases hs.step_cases hh hstep with ⟨other, hsettled, rfl, rfl⟩ | ⟨-, ⟨-, rfl⟩ | ⟨-, hquiet⟩⟩
  · obtain rfl := Incident.published.inj (List.mem_singleton.mp hmem)
    exact ⟨hsettled, rfl, rfl⟩
  · split at hmem
    · cases hmem
    · cases List.mem_singleton.mp hmem
  · cases (hquiet _ hmem).1

/-- A run up to a publication, and on from there. -/
theorem Run.split (hstart : start.Kept first []) (hb : b.SendsSchedules) (hnamed : b.OpensNamed)
    (hh : h.SendsSchedules) (hrun : Run b h start trace s) {before : List (Incident K)}
    {state : Leadership} (htrace : trace = before ++ .published state :: since) :
    ∃ s₁ : Gated K Q A E D R, s₁.Kept first before ∧ s₁.Settled ∧
      Run b h (s₁.publish state) since s := by
  induction hrun generalizing since with
  | nil => simp at htrace
  | @snoc trace more s s' hrun hstep ih =>
    have hs := hrun.kept hstart hb hnamed hh
    rw [List.nil_append] at hs
    -- Either the publication is the last step, or there is one more since.
    have hlast : ∀ early, before = trace ++ early → more = early ++ .published state :: since →
        ∃ s₁ : Gated K Q A E D R, s₁.Kept first before ∧ s₁.Settled ∧
          Run b h (s₁.publish state) since s' := by
      intro early hbefore hmore
      have hmem : .published state ∈ more := by rw [hmore]; simp
      obtain ⟨hsettled, hone, rfl⟩ := hs.step_published hh hstep hmem
      rw [hone] at hmore
      cases early with
      | nil =>
        obtain ⟨-, rfl⟩ := List.cons.inj hmore
        rw [hbefore, List.append_nil]
        exact ⟨s, hs, hsettled, .nil⟩
      | cons i early => simp at hmore
    rcases List.append_eq_append_iff.mp htrace with ⟨early, hbefore, hmore⟩ | ⟨late, hbefore, hmore⟩
    · exact hlast early hbefore hmore
    · cases late with
      | nil => exact hlast [] (by simpa using hbefore.symm) (by simpa using hmore.symm)
      | cons i late =>
        obtain ⟨rfl, rfl⟩ := List.cons.inj hmore
        obtain ⟨s₁, hs₁, hsettled, hsince⟩ := ih hbefore
        exact ⟨s₁, hs₁, hsettled, hsince.snoc hstep⟩

/-! ## After a step-down -/

theorem not_isAddressed_clear : ¬(Command.clear : Command K).IsAddressed := by
  rintro ⟨x, delay, trigger, hcommand⟩
  obtain ⟨key, -, heq⟩ := schedule?_eq_some hcommand
  cases heq

/-- When something else than leader is published, the queue is cleared before anything else is
published and before the publication has been seen. -/
theorem Run.cleared (hstart : start.Kept first past) (hb : b.SendsSchedules)
    (hnamed : b.OpensNamed) (hh : h.SendsSchedules) (hrun : Run b h start since s)
    (hunseen : ¬start.Settled) (hcurrent : start.channel.current ≠ .leader) :
    (¬s.Settled ∧ s.channel = start.channel ∧ ∀ i ∈ since, i.publication? = none) ∨
      ∃ settling rest, since = settling ++ .sent .clear :: rest ∧
        ∀ i ∈ settling, i.publication? = none := by
  induction hrun with
  | nil => exact .inl ⟨hunseen, rfl, by simp⟩
  | @snoc since more s s' hrun hstep ih =>
    rcases ih with ⟨hwaiting, hchannel, hquiet⟩ | ⟨settling, rest, rfl, hsettling⟩
    · have hs := hrun.kept hstart hb hnamed hh
      rcases hs.step_cases hh hstep with
        ⟨state, hsettled, -⟩ | ⟨hsame, ⟨-, rfl⟩ | ⟨hsettled, hmore⟩⟩
      · exact absurd hsettled hwaiting
      · rw [hchannel, if_neg hcurrent]
        exact .inr ⟨since, [], rfl, hquiet⟩
      · refine .inl ⟨fun h => hwaiting (hsettled.mp h), hsame.trans hchannel, fun i hi => ?_⟩
        rcases List.mem_append.mp hi with hi | hi
        · exact hquiet i hi
        · exact (hmore i hi).1
    · exact .inr ⟨settling, rest ++ more, by simp, hsettling⟩

/-! ## While leading -/

/-- As long as leader is all that is published, nothing clears the queue. -/
theorem Run.leading (hstart : start.Kept first past) (hb : b.SendsSchedules)
    (hnamed : b.OpensNamed) (hh : h.SendsSchedules) (hrun : Run b h start since s)
    (hcurrent : start.channel.current = .leader)
    (honly : ∀ state, .published state ∈ since → state = .leader) :
    s.channel.current = .leader ∧ .sent .clear ∉ since := by
  induction hrun with
  | nil => exact ⟨hcurrent, by simp⟩
  | @snoc since more s s' hrun hstep ih =>
    obtain ⟨hleader, hclear⟩ := ih fun state h => honly state (List.mem_append_left _ h)
    have hs := hrun.kept hstart hb hnamed hh
    rcases hs.step_cases hh hstep with
      ⟨state, -, rfl, rfl⟩ | ⟨hsame, ⟨-, rfl⟩ | ⟨-, hmore⟩⟩
    · exact ⟨honly state (by simp), by simpa using hclear⟩
    · rw [hsame, if_pos hleader, List.append_nil]
      exact ⟨hleader, hclear⟩
    · rw [hsame]
      refine ⟨hleader, fun h => ?_⟩
      rcases List.mem_append.mp h with h | h
      · exact hclear h
      · exact not_isAddressed_clear ((hmore _ h).2 _ rfl)

/-- No connection has been asked for yet: the follower has still to start the loop, or the loop has
not had its first turn. -/
def AwaitsFirst (s : Gated K Q A E D R) : Prop :=
  s.pipeline.link = .none ∧ (¬s.Settled ∧ s.watcher.loop = none ∨ s.watcher.loop = some {})

/-- A loop without a turn yet is no reason for a connection. -/
theorem tell_link_of_spawned {p : Pipeline K Q A E D R} {now draw : Nat} (env : E)
    {input : Watch.Input K} (hb : b.OpensNamed) (hnamed : p.link.IsNamed)
    (hloop : (p.watcher.react now draw input).1.loop = some {}) :
    (p.tell b now draw env input).1.link = .none := by
  by_contra hlink
  have hconnected := (tell_link now draw p env input hb hnamed).2 hlink
  rw [Watcher.isConnected, hloop] at hconnected
  cases hconnected

theorem shown_wake_of_spawned {w : Watcher} (hloop : w.loop = some {}) (now draw : Nat) :
    Watcher.shown w now draw (.wake : Watch.Input K) =
      [.requested (w.request Watch.initialVersion) w.cache.clear] := by
  obtain ⟨ns, timeoutSecs, backoff, state, cache, failures, loop⟩ := w
  obtain rfl : loop = some {} := hloop
  rfl

/-- While this replica leads, the first that is asked for is a connection from the first version,
and the cache is empty then. -/
theorem AwaitsFirst.step (hawaits : s.AwaitsFirst) (hs : s.Kept first trace)
    (hnamed : b.OpensNamed) (hh : h.SendsSchedules) (hcurrent : s.channel.current = .leader)
    (hstep : Step b h s more s') :
    (s'.AwaitsFirst ∧ ∀ i ∈ more, i.request? = none) ∨
      ∃ request cache, more = [.requested request cache] ∧ request.version = "0" ∧
        cache.snapshots = [] := by
  obtain ⟨hlink, hloop⟩ := hawaits
  cases hstep with
  | published state hsettled =>
    refine .inl ⟨⟨hlink, .inr ?_⟩, by simp [Incident.request?]⟩
    exact hloop.resolve_left fun h => h.1 hsettled
  | outside _ _ _ => exact .inl ⟨⟨hlink, hloop⟩, by simp⟩
  | scheduled _ _ => exact .inl ⟨⟨hlink, hloop⟩, by simp [Incident.request?]⟩
  | offered hitem =>
    obtain ⟨link, hoffer, -, hnone⟩ := offer_spec s.pipeline hs.named hitem
    rw [hoffer]
    exact .inl ⟨⟨hnone hlink, hloop⟩, by simp⟩
  | closed =>
    obtain ⟨link, hclose, -, hnone⟩ := close_spec s.pipeline hs.named
    rw [hclose]
    exact .inl ⟨⟨hnone hlink, hloop⟩, by simp⟩
  | acted hact =>
    cases hact with
    | resumed _ =>
      obtain ⟨link, hresume, -, hnone⟩ := resume_spec s.pipeline hs.named
      rw [hresume]
      exact .inl ⟨⟨hnone hlink, hloop⟩, by simp⟩
    | turned _ =>
      refine .inl ⟨⟨hlink, hloop⟩, fun i hi => ?_⟩
      rcases hs.line.of_mem_shown hh hi with ⟨entry, rfl⟩ | ⟨command, rfl, -⟩ <;> rfl
    | taken draw hincoming => exact absurd hlink (incoming?_spec hs.named hincoming).1
    | woken draw hrestless =>
      rcases hloop with ⟨-, hnone⟩ | hspawned
      · have hsome := loop_isSome_of_isRestless hrestless
        rw [hnone] at hsome
        cases hsome
      · exact .inr ⟨_, _, shown_wake_of_spawned hspawned s.now draw, rfl, rfl⟩
    | followed draw hlook =>
      obtain ⟨-, rfl, rfl⟩ := hs.looked hlook
      have hstarted : (s.watcher.react s.now draw (.start : Watch.Input K)).1.loop = some {} := by
        rcases hloop with ⟨-, hnone⟩ | hspawned
        · simp [Watcher.react, hnone]
        · simp [Watcher.react, hspawned]
      let p : Pipeline K Q A E D R :=
        { s.pipeline with follower := some ⟨some s.channel.publications⟩ }
      have hlink' := tell_link_of_spawned (p := p) s.env hnamed hs.named hstarted
      have hwatcher := (tell_watcher s.now draw p s.env .start b).1
      have hloop' := (congrArg Watcher.loop hwatcher).trans hstarted
      rw [obeying_orders, hcurrent, if_pos rfl]
      exact .inl ⟨⟨hlink', .inr hloop'⟩, by simp⟩

/-- When this replica begins to lead, its follower has a loop to start. -/
theorem Kept.awaitsFirst_publish (hs : s.Kept first trace) (hsettled : s.Settled)
    (hcurrent : s.channel.current ≠ .leader) : (s.publish .leader).AwaitsFirst := by
  have hidle : s.watcher.loop = none := by
    simpa using mt (hs.follows hsettled).1.mp hcurrent
  have hlink : s.pipeline.link = .none := by
    by_contra hlink
    have hloop := Watcher.loop_isSome_of_isConnected (hs.connected hlink)
    rw [hidle] at hloop
    cases hloop
  exact ⟨hlink, .inl ⟨hs.not_settled_publish hsettled _, hidle⟩⟩

theorem Run.awaits_or_asked (hstart : start.Kept first past) (hb : b.SendsSchedules)
    (hnamed : b.OpensNamed) (hh : h.SendsSchedules) (hrun : Run b h start since s)
    (hcurrent : start.channel.current = .leader) (hawaits : start.AwaitsFirst)
    (honly : ∀ state, .published state ∈ since → state = .leader) :
    (s.AwaitsFirst ∧ ∀ i ∈ since, i.request? = none) ∨
      ∃ made request cache rest, since = made ++ .requested request cache :: rest ∧
        (∀ i ∈ made, i.request? = none) ∧ request.version = "0" ∧ cache.snapshots = [] := by
  induction hrun with
  | nil => exact .inl ⟨hawaits, by simp⟩
  | @snoc since more s s' hrun hstep ih =>
    have hbefore : ∀ state, .published state ∈ since → state = .leader :=
      fun state h => honly state (List.mem_append_left _ h)
    rcases ih hbefore with ⟨hwaiting, hquiet⟩ | ⟨made, request, cache, rest, rfl, hmade⟩
    · have hs := hrun.kept hstart hb hnamed hh
      have hleader := (hrun.leading hstart hb hnamed hh hcurrent hbefore).1
      rcases hwaiting.step hs hnamed hh hleader hstep with
        ⟨hwaiting', hmore⟩ | ⟨request, cache, rfl, hrequest⟩
      · refine .inl ⟨hwaiting', fun i hi => ?_⟩
        rcases List.mem_append.mp hi with hi | hi
        · exact hquiet i hi
        · exact hmore i hi
      · exact .inr ⟨since, request, cache, [], rfl, hquiet, hrequest⟩
    · exact .inr ⟨made, request, cache, rest ++ more, by simp, hmade⟩

theorem Blocked.not_awaitsFirst (hblocked : s.Blocked b h) : ¬s.AwaitsFirst := by
  rintro ⟨-, ⟨hunseen, -⟩ | hspawned⟩
  · exact hunseen hblocked.settled
  · refine hblocked _ _ (.woken 0 ?_)
    have hloop : s.pipeline.watcher.loop = some {} := hspawned
    simp [Pipeline.isRestless, hloop]

/-! ## Epochs -/

/-- How the epochs of leadership are kept apart, as it shows when all parts wait. -/
structure Separated (b : Backend K Q A E) (h : Handler K Q A E D R) (first : Leadership)
    (trace : List (Incident K)) (s : Gated K Q A E D R) : Prop where
  held : leadershipAfter first trace = s.channel.current
  /-- A loop runs exactly while this replica leads. -/
  alive : s.watcher.loop.isSome ↔ s.channel.current = .leader
  stopped : s.channel.current ≠ .leader → s.watcher.state = .stopped
  /-- The first connection asked for since this replica has begun to lead is one from the first
  version, and there was nothing in the cache then. -/
  fresh : ∀ before since, trace = before ++ .published .leader :: since →
    leadershipAfter first before ≠ .leader →
    (∀ state, .published state ∈ since → state = .leader) →
    ∃ made request cache rest, since = made ++ .requested request cache :: rest ∧
      (∀ i ∈ made, i.request? = none) ∧ request.version = "0" ∧ cache.snapshots = []
  /-- After every publication of something else the queue was cleared, before anything else was
  published, and whatever has been delivered since is what schedules since the clear come to. -/
  dropped : ∀ before state since, trace = before ++ .published state :: since → state ≠ .leader →
    ∃ settling rest, since = settling ++ .sent .clear :: rest ∧
      (∀ i ∈ settling, i.publication? = none) ∧
      ∀ between entry later, rest = between ++ .delivered entry :: later →
        ∃ key, Entity.key? entry.entity = some key ∧ undelivered between key = some entry
  /-- Let something else than leader be published now and all parts run until they wait again. What
  is delivered from the publication on, then or ever after, is what schedules since the publication
  come to: nothing that was scheduled before it. -/
  discarded : ∀ state, state ≠ .leader → ∀ settling s₁ since s₂,
    Acts b h (s.publish state) settling s₁ → s₁.Blocked b h → Run b h s₁ since s₂ →
    ∀ between entry later, settling ++ since = between ++ .delivered entry :: later →
      ∃ key, Entity.key? entry.entity = some key ∧ undelivered between key = some entry
  /-- What is scheduled while this replica leads is never cleared. Until it is delivered, or the
  consumer has come to its end, it is upcoming in the queue, with what has merged with it. -/
  spared : ∀ before since, trace = before ++ .published .leader :: since →
    (∀ state, .published state ∈ since → state = .leader) →
    .sent .clear ∉ since ∧
      ∀ earlier key entry delay later,
        since = earlier ++ .sent (.schedule key entry delay) :: later →
        (∀ other, .delivered other ∈ later → Entity.key? other.entity ≠ some key) →
        ∃ merged,
          (later.filterMap Incident.command?).foldl (meet key)
            (some (entry.onto (undelivered (before ++ .published .leader :: earlier) key))) =
              some merged ∧
          ∃ c, s.line.consumer = some c ∧
            (c.activity = .ended ∨ c.queue.upcoming? s.line.inbox key = some merged)

/-- When all parts wait, nothing acts on a publication before the follower does. -/
theorem Blocked.act_publish (hblocked : s.Blocked b h) (hs : s.Kept first trace)
    {state : Leadership} (hact : Act b h (s.publish state) more s') (hstate : state ≠ .leader) :
    more = [.sent .clear] := by
  have hpublished := hs.publish hblocked.settled state
  cases hact with
  | followed draw hlook =>
    obtain ⟨-, -, rfl⟩ := hpublished.looked hlook
    rw [obeying_orders]
    exact if_neg hstate
  | woken draw hrestless => exact absurd (.woken draw hrestless) (hblocked _ _)
  | taken draw hincoming => exact absurd (.taken draw hincoming) (hblocked _ _)
  | resumed hyields => exact absurd (.resumed hyields) (hblocked _ _)
  | turned hturn =>
    obtain ⟨⟨line, env⟩, hturn'⟩ := Line.turn_leading hturn s.channel.current.isLeader
    exact absurd (.turned hturn') (hblocked _ _)

section Runs

variable (hstart : start.Kept first []) (hb : b.SendsSchedules) (hnamed : b.OpensNamed)
  (hh : h.SendsSchedules) (hrun : Run b h start trace s) {before : List (Incident K)}

include hstart hb hnamed hh hrun

theorem Run.fresh (hblocked : s.Blocked b h)
    (htrace : trace = before ++ .published .leader :: since)
    (hbefore : leadershipAfter first before ≠ .leader)
    (honly : ∀ state, .published state ∈ since → state = .leader) :
    ∃ made request cache rest, since = made ++ .requested request cache :: rest ∧
      (∀ i ∈ made, i.request? = none) ∧ request.version = "0" ∧ cache.snapshots = [] := by
  obtain ⟨s₁, hs₁, hsettled, hsince⟩ := hrun.split hstart hb hnamed hh htrace
  have hawaits := hs₁.awaitsFirst_publish hsettled (hs₁.held ▸ hbefore)
  rcases hsince.awaits_or_asked (hs₁.publish hsettled _) hb hnamed hh rfl hawaits honly with
    ⟨hstill, -⟩ | hasked
  · exact absurd hstill hblocked.not_awaitsFirst
  · exact hasked

theorem Run.dropped (hsettled : s.Settled) {state : Leadership}
    (htrace : trace = before ++ .published state :: since) (hstate : state ≠ .leader) :
    ∃ settling rest, since = settling ++ .sent .clear :: rest ∧
      (∀ i ∈ settling, i.publication? = none) ∧
      ∀ between entry later, rest = between ++ .delivered entry :: later →
        ∃ key, Entity.key? entry.entity = some key ∧ undelivered between key = some entry := by
  obtain ⟨s₁, hs₁, hseen, hsince⟩ := hrun.split hstart hb hnamed hh htrace
  rcases hsince.cleared (hs₁.publish hseen _) hb hnamed hh (hs₁.not_settled_publish hseen _) hstate
    with ⟨hunseen, -⟩ | ⟨settling, rest, rfl, hquiet⟩
  · exact absurd hsettled hunseen
  · refine ⟨settling, rest, rfl, hquiet, ?_⟩
    rintro between entry later rfl
    have hs := hrun.kept hstart hb hnamed hh
    obtain ⟨key, hkey, hentry⟩ := hs.orderly.deliveries
      (before ++ .published state :: settling ++ .sent .clear :: between) entry later
      (by simp [htrace])
    rw [undelivered_clear] at hentry
    exact ⟨key, hkey, hentry⟩

theorem Run.discarded (hblocked : s.Blocked b h) {state : Leadership} (hstate : state ≠ .leader)
    {settling : List (Incident K)} {s₁ s₂ : Gated K Q A E D R}
    (hacts : Acts b h (s.publish state) settling s₁) (hwaiting : s₁.Blocked b h)
    (hlater : Run b h s₁ since s₂) {between later : List (Incident K)} {entry : Entry K}
    (hdelivered : settling ++ since = between ++ .delivered entry :: later) :
    ∃ key, Entity.key? entry.entity = some key ∧ undelivered between key = some entry := by
  have hs := hrun.kept hstart hb hnamed hh
  have hpublished := hs.publish hblocked.settled state
  have hs₂ := (hacts.run.trans hlater).kept hpublished hb hnamed hh
  -- The follower comes first, so that the clear precedes every delivery.
  obtain ⟨rest, rfl⟩ : ∃ rest, settling = .sent .clear :: rest := by
    cases hacts with
    | nil => exact absurd hwaiting.settled (hs.not_settled_publish hblocked.settled state)
    | cons hact _ =>
      obtain rfl := hblocked.act_publish hs hact hstate
      exact ⟨_, rfl⟩
  cases between with
  | nil => cases (List.cons.inj hdelivered).1
  | cons i between =>
    obtain ⟨rfl, -⟩ := List.cons.inj hdelivered
    obtain ⟨key, hkey, hentry⟩ := hs₂.orderly.deliveries
      (trace ++ [.published state] ++ .sent .clear :: between) entry later (by simp [hdelivered])
    rw [undelivered_clear] at hentry
    exact ⟨key, hkey, (undelivered_clear [] between key).trans hentry⟩

theorem Run.spared (htrace : trace = before ++ .published .leader :: since)
    (honly : ∀ state, .published state ∈ since → state = .leader) :
    .sent .clear ∉ since ∧
      ∀ earlier key entry delay later,
        since = earlier ++ .sent (.schedule key entry delay) :: later →
        (∀ other, .delivered other ∈ later → Entity.key? other.entity ≠ some key) →
        ∃ merged,
          (later.filterMap Incident.command?).foldl (meet key)
            (some (entry.onto (undelivered (before ++ .published .leader :: earlier) key))) =
              some merged ∧
          ∃ c, s.line.consumer = some c ∧
            (c.activity = .ended ∨ c.queue.upcoming? s.line.inbox key = some merged) := by
  obtain ⟨s₁, hs₁, hsettled, hsince⟩ := hrun.split hstart hb hnamed hh htrace
  have hclear := (hsince.leading (hs₁.publish hsettled _) hb hnamed hh rfl honly).2
  refine ⟨hclear, ?_⟩
  rintro earlier key entry delay later rfl hlater
  obtain ⟨merged, hmerged, hundelivered⟩ := undelivered_of_sent
    (before ++ .published .leader :: earlier) entry delay (fun h => hclear (by simp [h])) hlater
  refine ⟨merged, hmerged, ?_⟩
  obtain ⟨c, hc, hended | ⟨haccounts, -⟩⟩ := (hrun.kept hstart hb hnamed hh).line.consumer
  · exact ⟨c, hc, .inl hended⟩
  · refine ⟨c, hc, .inr ?_⟩
    rw [haccounts.upcoming, htrace, ← hundelivered]
    simp

end Runs

/-- Take any run of a gated type from its start, on a channel that stays open, and any point of it
at which all parts wait: the epochs of leadership are kept apart. -/
theorem epochs_separated (hb : b.SendsSchedules) (hnamed : b.OpensNamed) (hh : h.SendsSchedules)
    {settings : Settings} {cache : Cache} {place now : Nat} {env : E} {channel : Channel}
    (hopen : channel.closed = false) {state : D}
    (hrun : Run b h (started settings cache place now env channel state) trace s)
    (hblocked : s.Blocked b h) : s.Separated b h channel.current trace := by
  have hstart := kept_started (K := K) (Q := Q) (A := A) (R := R) settings cache place now env hopen
    state
  have hs := hrun.kept hstart hb hnamed hh
  rw [List.nil_append] at hs
  obtain ⟨halive, hstopped⟩ := hs.follows hblocked.settled
  exact {
    held := hs.held
    alive := halive
    stopped := hstopped
    fresh := fun _ _ htrace => hrun.fresh hstart hb hnamed hh hblocked htrace
    dropped := fun _ _ _ htrace => hrun.dropped hstart hb hnamed hh hblocked.settled htrace
    discarded := fun _ hstate _ _ _ _ hacts hwaiting hlater _ _ _ hdelivered =>
      hrun.discarded hstart hb hnamed hh hblocked hstate hacts hwaiting hlater hdelivered
    spared := fun _ _ htrace => hrun.spared hstart hb hnamed hh htrace }

end Gated

/-! ## Dispatchers -/

/-- The dispatcher schedules nothing but requeues. -/
theorem dispatching_sendsSchedules (draw : Nat) :
    (dispatching draw :
      Handler K (Call K) Call.Answer E Dispatcher (K × Verdict)).SendsSchedules := by
  rintro d ⟨x, verdict⟩ d' commands hconclude command hcommand
  cases hkey : Entity.key? x with
  | some key =>
    obtain ⟨_, requeues, heq, -, hrequeues, -⟩ := conclude_spec d draw (r := (x, verdict)) hkey
    obtain ⟨rfl, rfl⟩ := Prod.mk.inj (Option.some.inj (heq.symm.trans hconclude))
    exact (hrequeues command hcommand).isAddressed
  | none =>
    simp only [dispatching, Handler.ofDispatcher, Dispatcher.conclude, hkey] at hconclude
    cases verdict with
    | skipped =>
      obtain ⟨rfl, rfl⟩ := Prod.mk.inj (Option.some.inj hconclude)
      cases hcommand
    | _ => cases hconclude

theorem Backend.Faithful.sendsSchedules {b : CallBackend K E} (hb : b.Faithful) :
    b.SendsSchedules :=
  fun now call env command hcommand => (hb.commands now call env command hcommand).isAddressed

/-! ## Flapping -/

section Flapping

theorem obliging_opensNamed : obliging.OpensNamed := by
  intro now place request env connection houtcome event hevent
  obtain rfl := Except.ok.inj houtcome
  cases hevent

namespace Gated

def flappingSettings : Settings := .named "op" "pod"

/-- A gated type that has just been started on a channel that holds leader. -/
def leading : Gated Widget (Call Widget) Call.Answer Unit Dispatcher (Widget × Verdict) :=
  .started flappingSettings .empty 0 0 () { current := .leader } (.ofSettings flappingSettings [])

def widget : Widget := { metadata := { name := some "a" }, fields := [] }

/-- The first connection of an epoch, asked for with an empty cache. -/
def asked : Incident Widget :=
  .requested ((Watcher.ofSettings flappingSettings .empty).request "0") .empty

/-- An entity is requeued, this replica steps down and leads again, and the entity is scheduled once
more. -/
def flapping : List (Incident Widget) :=
  [asked, .sent (.schedule ⟨none, "a"⟩ ⟨widget, .requeue⟩ 5000),
   .published .candidate, .sent .clear,
   .published .leader, asked, .sent (.schedule ⟨none, "a"⟩ ⟨widget, .reconcile⟩ 0),
   .delivered ⟨widget, .reconcile⟩]

theorem run_flapping :
    ∃ s, Run obliging (dispatching 0) leading flapping s ∧ s.Blocked obliging (dispatching 0) := by
  have watching : Run obliging (dispatching 0) leading _ _ :=
    (Run.nil.snoc (.acted (.followed 0 rfl))).snoc (.acted (.woken 0 rfl))
  have requeued := (watching.snoc (.scheduled _ ⟨widget, 5000, .requeue, rfl⟩)).snoc
    (.acted (.turned rfl))
  have steppedDown := ((requeued.snoc (.published .candidate rfl)).snoc
    (.acted (.followed 0 rfl))).snoc (.acted (.turned rfl))
  have later := steppedDown.snoc (.outside 60000 () (by decide))
  have leadsAgain := ((later.snoc (.published .leader rfl)).snoc
    (.acted (.followed 0 rfl))).snoc (.acted (.woken 0 rfl))
  have scheduled := leadsAgain.snoc (.scheduled _ ⟨widget, 0, .reconcile, rfl⟩)
  have reconciled := (scheduled.snoc (.acted (.turned rfl))).snoc (.acted (.turned rfl))
  exact ⟨_, reconciled, blocked_of_turn (fun draw => rfl) rfl⟩

/-- The requeue is never delivered, and the schedule of the next epoch is. -/
theorem epochs_separated_flapping :
    ∃ s, Run obliging (dispatching 0) leading flapping s ∧ s.Blocked obliging (dispatching 0) ∧
      s.Separated obliging (dispatching 0) .leader flapping := by
  obtain ⟨s, hrun, hblocked⟩ := run_flapping
  exact ⟨s, hrun, hblocked, epochs_separated obliging_faithful.sendsSchedules obliging_opensNamed
    (dispatching_sendsSchedules 0) rfl hrun hblocked⟩

end Gated

end Flapping

end Reconciler.Host
