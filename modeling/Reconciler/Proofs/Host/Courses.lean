import Reconciler.Proofs.Host.Gated
import Reconciler.Proofs.Watch.Course

/-!
# The courses of a pipeline

A pipeline keeps at most one connection: the one that its watcher asked for last, as long as the
watcher waits for it or reads it (`Link.Fits`). So it tells its watcher of no other connection, and
all that happens to the watcher while its loop runs is a course, whatever the other side brings and
whenever (`Life.course`).
-/

namespace Reconciler.Host

open Leadership (Channel)
open Watch (Awaits Course Input Loop Moment Turn)

variable {K E Q D R : Type} {A : Q → Type} [Entity K]

/-! ## The connection of a loop -/

omit [Entity K] in
/-- The connection is the one that the loop waits for or reads. -/
inductive Link.Fits : Link K → Option Loop → Prop
  | none {loop : Option Loop} : Fits .none loop
  | opening {o : Opening K} {version : String} : Fits (.opening o) (some ⟨version, .opening⟩)
  | opened {c : Connection K} {version : String} {stableAt : Option Nat} :
      Fits (.opened c) (some ⟨version, .streaming stableAt⟩)

omit [Entity K] in
/-- The connection when something that it brought is taken. -/
def Link.Brought (link : Link K) (loop : Option Loop) : Input K → Prop
  | .opened | .event _ => ∃ c, link = .opened c
  | .wake | .start => link.Fits loop
  | _ => True

variable {b : Backend K Q A E}

omit [Entity K] in
/-- What a connection brings is what the loop awaits. -/
theorem incoming?_awaits {p q : Pipeline K Q A E D R} {now : Nat} {input : Input K}
    (hfits : p.link.Fits p.watcher.loop) (hincoming : p.incoming? now = some (q, input)) :
    ∃ l, p.watcher.loop = some l ∧ Awaits l.phase input ∧ q.watcher = p.watcher ∧
      q.link.Brought q.watcher.loop input := by
  unfold Pipeline.incoming? at hincoming
  generalize hloop : p.watcher.loop = loop at hfits ⊢
  cases hlink : p.link with
  | none =>
    rw [hlink] at hincoming
    cases hincoming
  | opening o =>
    rw [hlink] at hincoming hfits
    cases hfits
    simp only at hincoming
    split at hincoming
    · cases houtcome : o.outcome with
      | ok connection =>
        rw [houtcome] at hincoming
        obtain ⟨rfl, rfl⟩ := Prod.mk.inj (Option.some.inj hincoming)
        exact ⟨_, rfl, .opened, rfl, connection, rfl⟩
      | error e =>
        rw [houtcome] at hincoming
        obtain ⟨rfl, rfl⟩ := Prod.mk.inj (Option.some.inj hincoming)
        exact ⟨_, rfl, .refused, rfl, trivial⟩
    · cases hincoming
  | opened c =>
    rw [hlink] at hincoming hfits
    cases hfits
    simp only at hincoming
    split at hincoming
    · obtain ⟨rfl, rfl⟩ := Prod.mk.inj (Option.some.inj hincoming)
      exact ⟨_, rfl, .event, rfl, _, rfl⟩
    · obtain ⟨rfl, rfl⟩ := Prod.mk.inj (Option.some.inj hincoming)
      exact ⟨_, rfl, .broken, rfl, trivial⟩
    · split at hincoming
      · obtain ⟨rfl, rfl⟩ := Prod.mk.inj (Option.some.inj hincoming)
        exact ⟨_, rfl, .ended, rfl, trivial⟩
      · cases hincoming

/-! ## What is told -/

omit [Entity K] in
/-- A connection that is asked for takes the place of any other. -/
theorem performAll_requests (b : Backend K Q A E) (now : Nat) (p : Pipeline K Q A E D R) (env : E)
    (effects : List (Watch.Effect K)) :
    if effects.filterMap Watch.Effect.request? = [] then
      (p.performAll b now env effects).1.link = p.link
    else ∃ o, (p.performAll b now env effects).1.link = .opening o := by
  induction effects generalizing p env with
  | nil => rfl
  | cons effect rest ih =>
    have hrest := ih (p.perform b now env effect).1 (p.perform b now env effect).2
    unfold Pipeline.performAll
    cases effect with
    | publish state => exact hrest
    | send command => exact hrest
    | connect request =>
      rw [if_neg (by simp [Watch.Effect.request?])]
      split at hrest
      · exact ⟨_, hrest⟩
      · exact hrest

theorem tell_requests (b : Backend K Q A E) (now draw : Nat) (p : Pipeline K Q A E D R) (env : E)
    (input : Input K) :
    if (p.watcher.react now draw input).2.filterMap Watch.Effect.request? = [] then
      (p.tell b now draw env input).1.link =
        if (p.watcher.react now draw input).1.isConnected then p.link else .none
    else ∃ o, (p.tell b now draw env input).1.link = .opening o :=
  performAll_requests b now _ env _

/-- Whatever the loop awaits, afterwards the connection fits it again. -/
theorem tell_fits (b : Backend K Q A E) (now draw : Nat) {p : Pipeline K Q A E D R} (env : E)
    {input : Input K} {l : Loop} (hloop : p.watcher.loop = some l) (hawaits : Awaits l.phase input)
    (hnamed : input.IsNamed) (hbrought : p.link.Brought p.watcher.loop input) :
    (p.tell b now draw env input).1.link.Fits (p.tell b now draw env input).1.watcher.loop := by
  have hlink := tell_requests b now draw p env input
  rw [(tell_watcher now draw p env input b).1]
  generalize (p.tell b now draw env input).1.link = link at hlink ⊢
  cases hinput : input.event? with
  | none =>
    have hturn := Watch.turn_of_awaits now draw hloop hawaits hinput
    obtain ⟨version, phase⟩ := l
    generalize (p.watcher.react now draw input).1 = w' at hturn hlink ⊢
    generalize (p.watcher.react now draw input).2.filterMap Watch.Effect.request? = requests
      at hturn hlink
    cases hturn with
    -- The loop is where it was, and so is the connection unless it was dropped.
    | again | early | unstable | settled | patient =>
      rw [if_pos rfl] at hlink
      split at hlink
      · exact hlink ▸ hbrought
      · exact hlink ▸ .none
    | first | due | ended =>
      obtain ⟨o, rfl⟩ := hlink
      exact .opening
    | stable =>
      rw [if_pos rfl] at hlink
      have hsame : link = p.link := hlink.trans (if_pos rfl)
      have hfits : p.link.Fits p.watcher.loop := hbrought
      rw [hloop, ← hsame] at hfits
      cases hfits with
      | none => exact .none
      | opened => exact .opened
    | opened =>
      rw [if_pos rfl] at hlink
      obtain ⟨c, hc⟩ := hbrought
      rw [hlink.trans (if_pos rfl), hc]
      exact .opened
    | failed =>
      rw [if_pos rfl] at hlink
      exact hlink ▸ .none
  | some event =>
    cases input with
    | event e =>
      have hreact : (p.watcher.react now draw (.event e)).1 = (p.watcher.handle l e).1 := by
        simp only [Watcher.react, hloop]
      have hafter := Watch.loop_handle hloop (hnamed e rfl)
      rw [Watch.requests_event hloop, hreact] at hlink
      rw [hreact, hafter]
      by_cases hgone : e.isGone
      · rw [if_pos hgone, if_neg (List.cons_ne_nil _ _)] at hlink
        rw [if_pos hgone]
        obtain ⟨o, rfl⟩ := hlink
        exact .opening
      · rw [if_neg hgone, if_pos rfl] at hlink
        rw [if_neg hgone]
        obtain ⟨c, hc⟩ := hbrought
        obtain ⟨version, phase⟩ := l
        cases hawaits
        split at hlink
        · rw [hlink, hc]
          exact .opened
        · exact hlink ▸ .none
    | _ => cases hinput

/-! ## Lives -/

/-- All that happens in a pipeline while its watcher runs, with what happens to the watcher. -/
inductive Life (b : Backend K Q A E) (first : Pipeline K Q A E D R) :
    List (Moment K) → Pipeline K Q A E D R → Prop
  | nil : Life b first [] first
  | told {past : List (Moment K)} {p : Pipeline K Q A E D R} {input : Input K} (now draw : Nat)
      (env : E) : Life b first past p → input = .wake ∨ input = .start →
      Life b first (past ++ [⟨now, draw, input, (p.watcher.react now draw input).2⟩])
        (p.tell b now draw env input).1
  | taken {past : List (Moment K)} {p q : Pipeline K Q A E D R} {input : Input K} (now draw : Nat)
      (env : E) : Life b first past p → p.incoming? now = some (q, input) →
      Life b first (past ++ [⟨now, draw, input, (p.watcher.react now draw input).2⟩])
        (q.tell b now draw env input).1
  | lined {past : List (Moment K)} {p : Pipeline K Q A E D R} (line : Line K Q A E D R) :
      Life b first past p → Life b first past { p with line }
  /-- The others have had their turn. -/
  | resumed {past : List (Moment K)} {p : Pipeline K Q A E D R} :
      Life b first past p → Life b first past p.resume
  /-- The other side puts an item into the connection. -/
  | offered {past : List (Moment K)} {p : Pipeline K Q A E D R}
      {item : Except Error (Watch.Event K)} : Life b first past p →
      (∀ event, item = .ok event → event.IsNamed) → Life b first past (p.offer item)
  /-- The other side ends the connection. -/
  | closed {past : List (Moment K)} {p : Pipeline K Q A E D R} :
      Life b first past p → Life b first past p.close

/-- A loop runs, and the connection is its own. -/
structure Pipeline.Watches (p : Pipeline K Q A E D R) : Prop where
  running : p.watcher.loop.isSome
  named : p.link.IsNamed
  fits : p.link.Fits p.watcher.loop

section Lives

variable {first p q : Pipeline K Q A E D R} {past : List (Moment K)}

/-- A loop that is told what it awaits goes on, and the connection stays its own. -/
theorem watches_tell (hb : b.OpensNamed) (now draw : Nat) (env : E) {input : Input K} {l : Loop}
    (hlink : p.link.IsNamed) (hloop : p.watcher.loop = some l) (hawaits : Awaits l.phase input)
    (hnamed : input.IsNamed) (hbrought : p.link.Brought p.watcher.loop input) :
    (p.tell b now draw env input).1.Watches where
  running := by
    have hstop : input ≠ .stop := by
      intro hstop
      rw [hstop] at hawaits
      generalize l.phase = phase at hawaits
      cases hawaits
    rw [(tell_watcher now draw p env input b).1]
    exact Watcher.loop_isSome_react (by rw [hloop]; rfl) hstop hnamed
  named := (tell_link now draw p env input hb hlink).1
  fits := tell_fits b now draw env hloop hawaits hnamed hbrought

omit [Entity K] in
theorem fits_resume (h : p.link.Fits p.watcher.loop) : p.resume.link.Fits p.watcher.loop := by
  unfold Pipeline.resume
  generalize p.watcher.loop = loop at h
  generalize p.link = link at h
  cases h with
  | none => exact .none
  | opening => exact .opening
  | opened => exact .opened

omit [Entity K] in
theorem fits_offer (h : p.link.Fits p.watcher.loop) (item : Except Error (Watch.Event K)) :
    (p.offer item).link.Fits p.watcher.loop := by
  unfold Pipeline.offer
  split
  · next c hlink =>
    split
    · exact h
    · generalize p.watcher.loop = loop at h ⊢
      rw [hlink] at h
      cases h
      exact .opened
  · exact h

omit [Entity K] in
theorem fits_close (h : p.link.Fits p.watcher.loop) : p.close.link.Fits p.watcher.loop := by
  unfold Pipeline.close
  split
  · next c hlink =>
    generalize p.watcher.loop = loop at h ⊢
    rw [hlink] at h
    cases h
    exact .opened
  · exact h

/-- All that happens to the watcher of a pipeline is a course. -/
theorem Life.course (life : Life b first past p) (hb : b.OpensNamed) (hfirst : first.Watches) :
    Course first.watcher past p.watcher ∧ p.Watches := by
  induction life with
  | nil => exact ⟨.nil, hfirst⟩
  | @told past p input now draw env _ hinput ih =>
    obtain ⟨hcourse, hwatches⟩ := ih
    obtain ⟨l, hloop⟩ := Option.isSome_iff_exists.mp hwatches.running
    have hawaits : Awaits l.phase input := by
      rcases hinput with rfl | rfl
      · exact .woken
      · exact .started
    have hnamed : input.IsNamed := by
      rcases hinput with rfl | rfl <;> rintro _ ⟨⟩
    have hbrought : p.link.Brought p.watcher.loop input := by
      rcases hinput with rfl | rfl <;> exact hwatches.fits
    rw [(tell_watcher now draw p env input b).1]
    exact ⟨hcourse.snoc now draw hloop hawaits hnamed,
      watches_tell hb now draw env hwatches.named hloop hawaits hnamed hbrought⟩
  | @taken past p q input now draw env _ hincoming ih =>
    obtain ⟨hcourse, hwatches⟩ := ih
    obtain ⟨l, hloop, hawaits, -, hbrought⟩ := incoming?_awaits hwatches.fits hincoming
    obtain ⟨-, -, -, hnamed, link, hlink, rfl⟩ := incoming?_spec hwatches.named hincoming
    rw [(tell_watcher now draw _ env input b).1]
    exact ⟨hcourse.snoc now draw hloop hawaits hnamed,
      watches_tell hb now draw env hlink hloop hawaits hnamed hbrought⟩
  | lined line _ ih => exact ⟨ih.1, ih.2.running, ih.2.named, ih.2.fits⟩
  | @resumed past p _ ih =>
    obtain ⟨hcourse, hwatches⟩ := ih
    obtain ⟨link, hresume, hlink, -⟩ := resume_spec p hwatches.named
    have hfits := fits_resume hwatches.fits
    rw [hresume] at hfits ⊢
    exact ⟨hcourse, hwatches.running, hlink, hfits⟩
  | @offered past p item _ hitem ih =>
    obtain ⟨hcourse, hwatches⟩ := ih
    obtain ⟨link, hoffer, hlink, -⟩ := offer_spec p hwatches.named hitem
    have hfits := fits_offer hwatches.fits item
    rw [hoffer] at hfits ⊢
    exact ⟨hcourse, hwatches.running, hlink, hfits⟩
  | @closed past p _ ih =>
    obtain ⟨hcourse, hwatches⟩ := ih
    obtain ⟨link, hclose, hlink, -⟩ := close_spec p hwatches.named
    have hfits := fits_close hwatches.fits
    rw [hclose] at hfits ⊢
    exact ⟨hcourse, hwatches.running, hlink, hfits⟩

/-- A stopped watcher that is started begins a life, without a connection. -/
theorem watches_start (now draw : Nat) (env : E) (hstopped : p.watcher.loop = none) :
    (p.tell b now draw env .start).1.watcher.loop = some {} ∧
      (p.tell b now draw env .start).1.Watches := by
  have hreact : (p.watcher.react now draw (.start : Input K)).1.loop = some {} := by
    simp only [Watcher.react, hstopped]
    rfl
  have hloop := hreact
  rw [← (tell_watcher now draw p env .start b).1] at hloop
  have hnone : (p.tell b now draw env .start).1.link = .none := by
    have hlink := tell_requests b now draw p env .start
    rw [if_pos (by simp only [Watcher.react, hstopped]; rfl)] at hlink
    rw [hlink, if_neg (by simp [Watcher.isConnected, hreact])]
  refine ⟨hloop, ?_, ?_, ?_⟩
  · rw [hloop]
    rfl
  · rw [hnone]
    trivial
  · rw [hnone]
    exact .none

/-- In a turn in which its follower orders nothing a pipeline goes on with its life. -/
theorem Life.turn (life : Life b first past p) {h : Handler K Q A E D R} {now draw : Nat}
    {c : Channel} {leading : Bool} {env env' : E} (hquiet : p.follower.bind (·.look c) = none)
    (hturn : p.turn b h now draw c leading env = some (q, env')) :
    ∃ more, Life b first (past ++ more) q := by
  unfold Pipeline.turn at hturn
  rw [hquiet] at hturn
  simp only at hturn
  split at hturn
  · have hlife := life.told now draw env (.inl rfl)
    rw [Option.some.inj hturn] at hlife
    exact ⟨_, hlife⟩
  · split at hturn
    · next taken input hincoming =>
      have hlife := life.taken now draw env hincoming
      rw [Option.some.inj hturn] at hlife
      exact ⟨_, hlife⟩
    · obtain ⟨⟨line, after⟩, -, hline⟩ := Option.map_eq_some_iff.mp hturn
      obtain ⟨rfl, -⟩ := Prod.mk.inj hline
      exact ⟨[], by rw [List.append_nil]; exact life.lined line⟩

end Lives

end Reconciler.Host
