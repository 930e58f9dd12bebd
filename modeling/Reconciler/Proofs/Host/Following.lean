import Reconciler.Proofs.Host.Gated

/-!
# A gated type follows its leadership

What every run of a gated type keeps (`Gated.Kept`): once the follower has seen the last
publication, a loop runs exactly while this replica leads, and otherwise the watcher says that it is
stopped; there is a connection only where a loop reads it or waits for it; what is upcoming in the
queue is what is undelivered, and what was delivered was. It rests on connections that bring named
entities and on a handler and a backend that send schedules only.
-/

namespace Reconciler.Host

open Leadership (Channel Follower)
open Queue (Command Entry meet)

variable {K E Q D R : Type} {A : Q → Type} [Entity K]

/-- What a channel holds after a trace. -/
def leadershipAfter (first : Leadership) (trace : List (Incident K)) : Leadership :=
  trace.foldl (fun held i => i.publication?.getD held) first

omit [Entity K] in
theorem leadershipAfter_append {first : Leadership} {trace more : List (Incident K)}
    (hmore : ∀ i ∈ more, i.publication? = none) :
    leadershipAfter first (trace ++ more) = leadershipAfter first trace := by
  unfold leadershipAfter
  rw [List.foldl_append]
  generalize trace.foldl (fun held i => i.publication?.getD held) first = held
  induction more generalizing held with
  | nil => rfl
  | cons i rest ih =>
    rw [List.foldl_cons, hmore i List.mem_cons_self]
    exact ih (fun j hj => hmore j (List.mem_cons_of_mem _ hj)) held

/-! ## The invariant -/

/-- The watcher is as its follower has it: a loop runs exactly while this replica leads. -/
def Watcher.Follows (w : Watcher) (current : Leadership) : Prop :=
  (w.loop.isSome ↔ current = .leader) ∧ (current ≠ .leader → w.state = .stopped)

namespace Gated

variable {b : Backend K Q A E} {h : Handler K Q A E D R} {first : Leadership}
  {trace more : List (Incident K)} {s s' : Gated K Q A E D R}

/-- A gated type after a trace. -/
structure Kept (first : Leadership) (trace : List (Incident K)) (s : Gated K Q A E D R) : Prop where
  held : leadershipAfter first trace = s.channel.current
  channel_open : s.channel.closed = false
  follower : ∃ f, s.pipeline.follower = some f
  follows : s.Settled → Watcher.Follows s.watcher s.channel.current
  connected : s.pipeline.link ≠ .none → s.watcher.isConnected
  named : s.pipeline.link.IsNamed
  line : s.line.Accounted trace s.now
  orderly : Orderly trace

omit [Entity K] in
theorem settled_iff {f : Follower} (hf : s.pipeline.follower = some f)
    (hopen : s.channel.closed = false) : s.Settled ↔ f.seen = some s.channel.publications := by
  rw [Settled, hf, Option.bind_some, Follower.look, hopen]
  by_cases hseen : f.seen = some s.channel.publications
  · simp [hseen]
  · simp [hseen]

/-- What is published has not been seen. -/
theorem Kept.not_settled_publish (hs : s.Kept first trace) (hsettled : s.Settled)
    (state : Leadership) : ¬(s.publish state).Settled := by
  obtain ⟨f, hf⟩ := hs.follower
  rw [settled_iff hf hs.channel_open] at hsettled
  rw [settled_iff (s := s.publish state) hf hs.channel_open, hsettled]
  simp [publish, Channel.publish]

/-- What a follower that has something to see does. -/
theorem Kept.looked (hs : s.Kept first trace) {follower : Option Follower}
    {orders : List Follower.Order}
    (hlook : s.pipeline.follower.bind (·.look s.channel) = some (follower, orders)) :
    ¬s.Settled ∧ follower = some ⟨some s.channel.publications⟩ ∧
      orders = Follower.orders s.channel.current := by
  obtain ⟨f, hf⟩ := hs.follower
  refine ⟨fun hsettled => absurd (hsettled.symm.trans hlook) (by simp), ?_⟩
  rw [hf, Option.bind_some, Follower.look, hs.channel_open] at hlook
  split at hlook
  · cases hlook
  · obtain ⟨rfl, rfl⟩ := Prod.mk.inj (Option.some.inj hlook)
    exact ⟨rfl, rfl⟩

/-- Something happens to the watcher, by way of its follower or its connection. -/
theorem Kept.tell (hs : s.Kept first trace) (hb : b.OpensNamed) (draw : Nat) (f : Follower)
    {link : Link K} (hnamed : link.IsNamed) (input : Watch.Input K)
    (hfollows : f.seen = some s.channel.publications →
      Watcher.Follows (s.watcher.react s.now draw input).1 s.channel.current) :
    (s.after (Pipeline.tell b s.now draw { s.pipeline with follower := some f, link } s.env
      input)).Kept first (trace ++ Watcher.shown s.watcher s.now draw input) := by
  obtain ⟨hwatcher, hfollower⟩ :=
    tell_watcher s.now draw { s.pipeline with follower := some f, link } s.env input b
  obtain ⟨hlink, hconnected⟩ :=
    tell_link s.now draw { s.pipeline with follower := some f, link } s.env input hb hnamed
  have hline := tell_line s.now draw { s.pipeline with follower := some f, link } s.env input b
  have hentries : ∀ i ∈ Watcher.shown s.watcher s.now draw input, i.entry? = none :=
    fun i hi => (of_mem_shown hi).1
  refine ⟨?_, hs.channel_open, ⟨f, hfollower⟩, fun hsettled => ?_, fun hne => ?_, hlink, ?_, ?_⟩
  · rw [leadershipAfter_append fun i hi => (of_mem_shown hi).2]
    exact hs.held
  · rw [watcher, after, hwatcher]
    exact hfollows ((settled_iff (s := s.after _) hfollower hs.channel_open).mp hsettled)
  · rw [watcher, after, hwatcher]
    exact hconnected hne
  · rw [Gated.line, after, hline]
    exact hs.line.sendAll hentries
  · refine hs.orderly.append hentries fun command hcommand => .inr ?_
    obtain ⟨i, hi, heq⟩ := List.mem_filterMap.mp hcommand
    cases i with
    | sent other =>
      obtain rfl := Option.some.inj heq
      exact addressed_of_sent_mem_shown hi
    | _ => cases heq

theorem Kept.send (hs : s.Kept first trace) {command : Command K}
    (hcommand : command = .clear ∨ command.IsAddressed) :
    (s.withLine (s.line.send command)).Kept first (trace ++ [.sent command]) := by
  have hentries : ∀ i ∈ [Incident.sent command], i.entry? = none := by simp [Incident.entry?]
  have hcommands : [Incident.sent command].filterMap Incident.command? = [command] := rfl
  refine ⟨?_, hs.channel_open, hs.follower, hs.follows, hs.connected, hs.named, ?_, ?_⟩
  · rw [leadershipAfter_append (by simp [Incident.publication?])]
    exact hs.held
  · exact hs.line.sendAll hentries
  · refine hs.orderly.append hentries fun other hother => ?_
    rw [hcommands, List.mem_singleton] at hother
    exact hother ▸ hcommand

/-! ## Acts -/

theorem Act.channel (hact : Act b h s more s') : s'.channel = s.channel := by
  cases hact <;> rfl

/-- All that an act of a gated type can be, as far as publications and clears go: the follower
obeys, or some part does what neither clears the queue nor publishes anything. -/
theorem Kept.act_cases (hs : s.Kept first trace) (hh : h.SendsSchedules)
    (hact : Act b h s more s') :
    (¬s.Settled ∧ more = if s.channel.current = .leader then [] else [.sent .clear]) ∨
      (s'.Settled ↔ s.Settled) ∧ ∀ i ∈ more,
        i.publication? = none ∧ ∀ command, i = .sent command → command.IsAddressed := by
  have hshown : ∀ draw (input : Watch.Input K), ∀ i ∈ Watcher.shown s.watcher s.now draw input,
      i.publication? = none ∧ ∀ command, i = .sent command → command.IsAddressed :=
    fun draw input i hi =>
      ⟨(of_mem_shown hi).2, fun command heq => addressed_of_sent_mem_shown (heq ▸ hi)⟩
  have htold : ∀ (p : Pipeline K Q A E D R) draw input, p.follower = s.pipeline.follower →
      ((s.after (p.tell b s.now draw s.env input)).Settled ↔ s.Settled) := by
    intro p draw input hp
    rw [Settled, Settled, after, (tell_watcher ..).2, hp]
  cases hact with
  | followed draw hlook =>
    obtain ⟨hunseen, -, rfl⟩ := hs.looked hlook
    exact .inl ⟨hunseen, obeying_orders ..⟩
  | woken draw _ => exact .inr ⟨htold _ draw _ rfl, hshown draw _⟩
  | taken draw hincoming =>
    obtain ⟨link, rfl⟩ := incoming?_link hincoming
    exact .inr ⟨htold _ draw _ rfl, hshown draw _⟩
  | turned _ =>
    refine .inr ⟨Iff.rfl, fun i hi => ?_⟩
    rcases hs.line.of_mem_shown hh hi with ⟨entry, rfl⟩ | ⟨command, rfl, haddressed⟩
    · exact ⟨rfl, fun command heq => by cases heq⟩
    · refine ⟨rfl, fun other heq => ?_⟩
      obtain rfl := Incident.sent.inj heq
      exact haddressed
  | resumed _ => exact .inr ⟨Iff.rfl, by simp⟩

omit [Entity K] in
theorem loop_isSome_of_isRestless (hrestless : s.pipeline.isRestless s.now = true) :
    s.watcher.loop.isSome := by
  cases hloop : s.pipeline.watcher.loop with
  | none => simp [Pipeline.isRestless, Watcher.alarm?, hloop] at hrestless
  | some l => rw [watcher, hloop]; rfl

/-- While a loop runs, what happens to it but a stop leaves the watcher as its follower has it. -/
theorem Kept.follows_react (hs : s.Kept first trace) {draw : Nat} {input : Watch.Input K}
    (hloop : s.watcher.loop.isSome) (hstop : input ≠ .stop) (hnamed : input.IsNamed)
    (hsettled : s.Settled) :
    Watcher.Follows (s.watcher.react s.now draw input).1 s.channel.current := by
  have hleader := (hs.follows hsettled).1.mp hloop
  refine ⟨?_, fun hne => absurd hleader hne⟩
  exact iff_of_true (Watcher.loop_isSome_react hloop hstop hnamed) hleader

/-- The follower starts its watcher, or stops it and clears the queue. -/
theorem Kept.followed (hs : s.Kept first trace) (hb : b.OpensNamed) (draw : Nat)
    {follower : Option Follower} {orders : List Follower.Order}
    (hlook : s.pipeline.follower.bind (·.look s.channel) = some (follower, orders)) :
    (s.after (Pipeline.obey b s.now draw { s.pipeline with follower } s.env orders)).Kept first
      (trace ++ Watcher.obeying s.now draw s.watcher orders) := by
  obtain ⟨-, rfl, rfl⟩ := hs.looked hlook
  unfold Follower.orders
  split
  · next hleader =>
    have hcurrent : s.channel.current = .leader := by simpa [Leadership.isLeader] using hleader
    have hfollows : Watcher.Follows (s.watcher.react s.now draw (.start : Watch.Input K)).1
        s.channel.current := by
      rw [hcurrent]
      refine ⟨iff_of_true ?_ rfl, fun hne => absurd rfl hne⟩
      -- A loop that runs already is left alone.
      simp only [Watcher.react]
      split
      · assumption
      · rfl
    have hstarted := hs.tell hb draw ⟨some s.channel.publications⟩ hs.named .start fun _ => hfollows
    simp only [Watcher.obeying, Pipeline.obey, List.append_nil]
    exact hstarted
  · next hleader =>
    have hcurrent : s.channel.current ≠ .leader := by simpa [Leadership.isLeader] using hleader
    have hfollows : Watcher.Follows (s.watcher.react s.now draw (.stop : Watch.Input K)).1
        s.channel.current := by
      simp only [Watcher.react, Watcher.stop]
      split
      · next hnone => exact ⟨iff_of_false (by simp [Watcher.publish, hnone]) hcurrent, fun _ => rfl⟩
      · exact ⟨iff_of_false (by simp) hcurrent, fun _ => rfl⟩
    have hstopped := hs.tell hb draw ⟨some s.channel.publications⟩ hs.named .stop fun _ => hfollows
    have hcleared := hstopped.send (.inl rfl)
    rw [List.append_assoc] at hcleared
    exact hcleared

/-- The connection changes, but does not come into being. -/
theorem Kept.relink (hs : s.Kept first trace) {link : Link K} (hnamed : link.IsNamed)
    (hnone : s.pipeline.link = .none → link = .none) :
    ({ s with pipeline := { s.pipeline with link } } : Gated K Q A E D R).Kept first trace :=
  { hs with connected := fun hne => hs.connected fun h => hne (hnone h), named := hnamed }

theorem Kept.act (hs : s.Kept first trace) (hb : b.SendsSchedules) (hnamed : b.OpensNamed)
    (hh : h.SendsSchedules) (hact : Act b h s more s') : s'.Kept first (trace ++ more) := by
  obtain ⟨f, hf⟩ := hs.follower
  have hsettled : f.seen = some s.channel.publications → s.Settled :=
    (settled_iff hf hs.channel_open).mpr
  cases hact with
  | followed draw hlook => exact hs.followed hnamed draw hlook
  | woken draw hrestless =>
    have hloop := loop_isSome_of_isRestless hrestless
    have hwoken := hs.tell hnamed draw f hs.named .wake fun hseen =>
      hs.follows_react hloop (by simp) (by simp [Watch.Input.IsNamed]) (hsettled hseen)
    rw [← hf] at hwoken
    exact hwoken
  | taken draw hincoming =>
    -- There is a connection, so a loop runs, and nothing that it brings is a stop.
    obtain ⟨hlink, -, hstop, hinput, link, hlinkNamed, rfl⟩ := incoming?_spec hs.named hincoming
    have hloop := Watcher.loop_isSome_of_isConnected (hs.connected hlink)
    have htaken := hs.tell hnamed draw f hlinkNamed _ fun hseen =>
      hs.follows_react hloop hstop hinput (hsettled hseen)
    rw [← hf] at htaken
    exact htaken
  | turned hturn =>
    obtain ⟨hline, horderly⟩ := Line.turn_accounted hb hh hs.line hs.orderly hturn
    refine ⟨?_, hs.channel_open, hs.follower, hs.follows, hs.connected, hs.named, hline, horderly⟩
    rw [leadershipAfter_append]
    · exact hs.held
    · intro i hi
      rcases hs.line.of_mem_shown hh hi with ⟨entry, rfl⟩ | ⟨command, rfl, -⟩ <;> rfl
  | resumed _ =>
    obtain ⟨link, hresume, hlink, hnone⟩ := resume_spec s.pipeline hs.named
    rw [hresume, List.append_nil]
    exact { hs.relink hlink hnone with line := hs.line.resume }

theorem Kept.publish (hs : s.Kept first trace) (hsettled : s.Settled) (state : Leadership) :
    (s.publish state).Kept first (trace ++ [.published state]) := by
  have hentries : ∀ i ∈ [(.published state : Incident K)], i.entry? = none := by
    simp [Incident.entry?]
  have hline : (s.line.sendAll []).Accounted (trace ++ [.published state]) s.now :=
    hs.line.sendAll hentries
  rw [show s.line.sendAll [] = s.line by simp [Line.sendAll]] at hline
  refine ⟨?_, hs.channel_open, hs.follower, ?_, hs.connected, hs.named, hline, ?_⟩
  · rw [leadershipAfter, List.foldl_append]
    rfl
  · exact fun h => absurd h (hs.not_settled_publish hsettled state)
  · exact hs.orderly.append hentries (by simp [Incident.command?])

theorem Kept.step (hs : s.Kept first trace) (hb : b.SendsSchedules) (hnamed : b.OpensNamed)
    (hh : h.SendsSchedules) (hstep : Step b h s more s') : s'.Kept first (trace ++ more) := by
  cases hstep with
  | acted hact => exact hs.act hb hnamed hh hact
  | scheduled command hcommand => exact hs.send (.inr hcommand)
  | outside later env hlater =>
    rw [List.append_nil]
    exact { hs with line := hs.line.mono hlater }
  | offered hitem =>
    obtain ⟨link, hoffer, hlink, hnone⟩ := offer_spec s.pipeline hs.named hitem
    rw [hoffer, List.append_nil]
    exact hs.relink hlink hnone
  | closed =>
    obtain ⟨link, hclose, hlink, hnone⟩ := close_spec s.pipeline hs.named
    rw [hclose, List.append_nil]
    exact hs.relink hlink hnone
  | published state hsettled => exact hs.publish hsettled state

theorem Run.kept {start : Gated K Q A E D R} {past : List (Incident K)}
    (hstart : start.Kept first past) (hb : b.SendsSchedules) (hnamed : b.OpensNamed)
    (hh : h.SendsSchedules) (hrun : Run b h start trace s) : s.Kept first (past ++ trace) := by
  induction hrun with
  | nil =>
    rw [List.append_nil]
    exact hstart
  | snoc _ hstep ih =>
    rw [← List.append_assoc]
    exact ih.step hb hnamed hh hstep

theorem kept_started (settings : Settings) (cache : Cache) (place now : Nat) (env : E)
    {channel : Channel} (hopen : channel.closed = false) (state : D) :
    (started (K := K) (Q := Q) (A := A) (R := R) settings cache place now env channel state).Kept
      channel.current [] where
  held := rfl
  channel_open := hopen
  follower := ⟨{}, rfl⟩
  follows hsettled := by
    rw [settled_iff rfl hopen] at hsettled
    cases hsettled
  connected hne := absurd rfl hne
  named := trivial
  line := ⟨rfl, rfl, _, rfl, .inr ⟨⟨.startingAt now, fun _ => rfl⟩, trivial⟩⟩
  orderly := ⟨by simp, by simp⟩

end Gated

end Reconciler.Host
