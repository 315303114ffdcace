import MediaBridge.Pipeline.Scripted
import MediaBridge.Proofs.Supervisor.Calls

/-! # How far apart frames are presented

A frame clock remembers the reading at which the last accepted frame was submitted, and not the
presentation time which that frame was given.  So the next frame is presented one period after that
reading at the earliest.  That is a period after the last frame if the last frame was presented at
once, but less if it had been put off itself.

* `ptsAt_bounds`      a frame is put off by a period at most;
* `Follows.spacing`   two frames in a row, if their stamps follow a frame clock;
* `follows_of_stamps` the stamps of supervised submissions do;
* `spacing_of_stamps` two accepted frames in a row.
-/

namespace MediaBridge

variable {π : Type u} {α : Type v}

/-- A frame that was accepted. -/
structure Stamp where
  /-- The reading of the clock when it was submitted. -/
  now : ClockTime
  /-- When it is to be presented. -/
  pts : ClockTime
  deriving DecidableEq, Repr

/-- Clock times are the same if their nanoseconds are. -/
theorem ClockTime.toNat_inj {t u : ClockTime} : t.nanos.toNat = u.nanos.toNat ↔ t = u := by
  cases t
  cases u
  rw [UInt64.toNat_inj, mk.injEq]

namespace FrameClock

/-! ## Two frames in a row -/

variable {c : FrameClock} {stamps : List Stamp}

/-- Presentation is never early, and it is put off by a period at most. -/
theorem ptsAt_bounds {now : ClockTime} (hperiod : c.period.nanos < ClockTime.maxNanos)
    (hprevious : ∀ t, c.previous = some t → t.nanos.toNat ≤ now.nanos.toNat) :
    now.nanos.toNat ≤ (c.ptsAt now).nanos.toNat ∧
      (c.ptsAt now).nanos.toNat ≤ now.nanos.toNat + c.period.nanos := by
  -- a period that fits into the clock is not cut short
  have hmod : c.period.nanos % UInt64.size = c.period.nanos :=
    Nat.mod_eq_of_lt (by simp only [ClockTime.maxNanos] at hperiod; omega)
  have hnow : now.nanos.toNat ≤ ClockTime.maxNanos := Nat.le_pred_of_lt now.nanos.toNat_lt
  unfold ptsAt
  cases hp : c.previous with
  | none => exact ⟨Nat.le_refl _, Nat.le_add_right ..⟩
  | some t =>
    have hle := hprevious t hp
    simp only
    split
    · rename_i hnear
      have hgap : now.nanos.toNat - t.nanos.toNat ≤ c.period.nanos := hnear
      rw [ClockTime.toNat_add, hmod]
      omega
    · omega

/-- The frame after one that was submitted at `t`. -/
theorem toNat_ptsAt_commit {t now : ClockTime} (hperiod : c.period.nanos < ClockTime.maxNanos)
    (hle : t.nanos.toNat ≤ now.nanos.toNat)
    (hmax : ((c.commit t).ptsAt now).nanos.toNat < ClockTime.maxNanos) :
    ((c.commit t).ptsAt now).nanos.toNat =
      max (t.nanos.toNat + c.period.nanos) now.nanos.toNat := by
  have hmod : c.period.nanos % UInt64.size = c.period.nanos :=
    Nat.mod_eq_of_lt (by simp only [ClockTime.maxNanos] at hperiod; omega)
  rw [ptsAt_commit] at hmax ⊢
  split
  · rename_i hnear
    have hgap : now.nanos.toNat - t.nanos.toNat ≤ c.period.nanos := hnear
    rw [if_pos hnear, ClockTime.toNat_add, hmod] at hmax
    rw [ClockTime.toNat_add, hmod]
    omega
  · rename_i hfar
    have hgap : ¬now.nanos.toNat - t.nanos.toNat ≤ c.period.nanos := hfar
    omega

/-! ## Any number of frames -/

/-- The clock after frames were accepted. -/
def commitAll (c : FrameClock) (stamps : List Stamp) : FrameClock :=
  stamps.foldl (fun c a => c.commit a.now) c

/-- Whether frames were stamped as the clock says. -/
def Follows : FrameClock → List Stamp → Prop
  | _, [] => True
  | c, a :: rest => a.pts = c.ptsAt a.now ∧ (c.commit a.now).Follows rest

/-- One more frame is stamped by the clock as all the frames before it left it. -/
theorem Follows.snoc {a : Stamp} (h : c.Follows stamps)
    (ha : a.pts = (c.commitAll stamps).ptsAt a.now) : c.Follows (stamps ++ [a]) := by
  induction stamps generalizing c with
  | nil => exact ⟨ha, trivial⟩
  | cons b rest ih => exact ⟨h.1, ih h.2 ha⟩

/-- The last frame accepted is the last one the clock was told of. -/
theorem commitAll_snoc (c : FrameClock) (stamps : List Stamp) (a : Stamp) :
    c.commitAll (stamps ++ [a]) = (c.commitAll stamps).commit a.now := by
  rw [commitAll, List.foldl_append]
  rfl

/-- The second of two frames in a row is presented a period after the first was submitted, or at once
    if it is submitted later than that. -/
theorem Follows.spacing {earlier later : List Stamp} {a b : Stamp}
    (h : c.Follows (earlier ++ a :: b :: later)) (hperiod : c.period.nanos < ClockTime.maxNanos)
    (hprevious : ∀ t, c.previous = some t →
      ∀ x ∈ earlier ++ a :: b :: later, t.nanos.toNat ≤ x.now.nanos.toNat)
    (hsorted : (earlier ++ a :: b :: later).Pairwise fun x y => x.now.nanos.toNat ≤ y.now.nanos.toNat)
    (hmax : b.pts.nanos.toNat < ClockTime.maxNanos) :
    b.pts.nanos.toNat = max (a.now.nanos.toNat + c.period.nanos) b.now.nanos.toNat ∧
      a.now.nanos.toNat ≤ a.pts.nanos.toNat ∧
        a.pts.nanos.toNat ≤ a.now.nanos.toNat + c.period.nanos := by
  -- over the frames before the two; each of them only moves the clock on
  induction earlier generalizing c with
  | nil =>
    obtain ⟨ha, hb, -⟩ := h
    have hle := List.rel_of_pairwise_cons hsorted List.mem_cons_self
    have hbounds := ptsAt_bounds hperiod fun t ht => hprevious t ht a List.mem_cons_self
    rw [hb] at hmax ⊢
    rw [ha]
    exact ⟨toNat_ptsAt_commit hperiod hle hmax, hbounds⟩
  | cons x rest ih =>
    apply ih (c := c.commit x.now) h.2 hperiod _ (List.Pairwise.of_cons hsorted)
    intro t ht y hy
    have heq : x.now = t := Option.some.inj ht
    rw [← heq]
    exact List.rel_of_pairwise_cons hsorted hy

end FrameClock

namespace Supervisor

/-! ## Supervised submissions -/

/-- A submission that is not refused at once has passed the watchdog, and its frame was stamped. -/
theorem forward_of_submit [MediaPipeline π] {s s' : Supervisor π α} {uptime : Span}
    {frame : HandleId} {user : α} {now : ClockTime} {a : Admission}
    (h : s.submit uptime frame user = (a, s')) (hnow : s.clockTime uptime = .ok now)
    (ha : ∀ result, a = .done result → result = .ok true) :
    ∃ stalls, ({ s with stalls } : Supervisor π α).forward frame user now = (a, s') := by
  have hdone : ∀ {result : Except Error Bool} {s₁ : Supervisor π α},
      (Admission.done result, s₁) = (a, s') → result = .ok true := by
    intro result s₁ heq
    exact ha result (congrArg Prod.fst heq).symm
  have hclock : ∀ {p : π}, s.pipeline = some p → MediaPipeline.clockTime p uptime = now := by
    intro p hp
    rw [clockTime, hp] at hnow
    exact Except.ok.inj hnow
  have hscreens := s.screens_screen uptime
  rw [submit_eq_screen] at h
  generalize s.screen uptime = screened at h hscreens
  cases hscreens with
  | idle hp => exact ⟨s.stalls, hclock hp ▸ h⟩
  | lively hp => exact ⟨0, hclock hp ▸ h⟩
  | struck hp => exact ⟨s.stalls + 1, hclock hp ▸ h⟩
  | _ => exact nomatch hdone h

/-- What a frame carries once it was stamped, and what the frame clock remembers of it. -/
theorem stamped_of_forward {s s' : Supervisor π α} {frame : HandleId} {user : α} {now : ClockTime}
    {a : Admission} (h : s.forward frame user now = (a, s'))
    (ha : ∀ result, a = .done result → result = .ok true) :
    (∀ info, s'.relay.store.info frame = .ok info →
      info.timing.pts = some (s.frameClock.ptsAt now)) ∧
    (a = .done (.ok true) → s'.frameClock = s.frameClock.commit now) ∧
    ∀ w, a = .waits w → w.now = now ∧ s'.frameClock = s.frameClock := by
  unfold forward at h
  -- the frame is stamped before the relay sees it, so what was registered carries the stamp
  rcases s.relay.store.updateInfo_cases frame (·.withTiming (s.frameClock.timingAt now)) with
    ⟨e, -, hset⟩ | ⟨i, store, -, hset, hstamped⟩
  · rw [Store.setTiming, hset] at h
    cases ha _ (congrArg Prod.fst h).symm
  · rw [Store.setTiming, hset] at h
    have hoffers := Relay.offers_submit { s.relay with store } frame user
    simp only at h
    generalize ({ s.relay with store } : Relay α).submit frame user = submission at h hoffers
    cases hoffers with
    | @refused result r hresult hingest hid hrestarts =>
      rcases result with e | accepted
      · cases ha _ (congrArg Prod.fst h).symm
      · cases accepted with
        | true => exact absurd rfl hresult
        | false => cases ha _ (congrArg Prod.fst h).symm
    | @accepted o r info _ _ _ hinfo hcarried =>
      cases h
      refine ⟨?_, fun _ => rfl, fun w hw => by cases hw⟩
      intro carried hc
      rw [← Except.ok.inj (hcarried.symm.trans hc), ← Except.ok.inj (hstamped.symm.trans hinfo)]
      rfl
    | @waits t o r info _ _ _ hinfo hcarried =>
      cases h
      refine ⟨?_, (fun hdone => by cases hdone), ?_⟩
      · intro carried hc
        rw [← Except.ok.inj (hcarried.symm.trans hc), ← Except.ok.inj (hstamped.symm.trans hinfo)]
        rfl
      · intro w hw
        cases hw
        exact ⟨rfl, rfl⟩

/-- What a submitted frame carries, and what the frame clock remembers of it. -/
theorem stamped_of_submit [MediaPipeline π] {s s' : Supervisor π α} {uptime : Span}
    {frame : HandleId} {user : α} {now : ClockTime} {a : Admission}
    (h : s.submit uptime frame user = (a, s')) (hnow : s.clockTime uptime = .ok now)
    (ha : ∀ result, a = .done result → result = .ok true) :
    (∀ info, s'.relay.store.info frame = .ok info →
      info.timing.pts = some (s.frameClock.ptsAt now)) ∧
    (a = .done (.ok true) → s'.frameClock = s.frameClock.commit now) ∧
    ∀ w, a = .waits w → w.now = now ∧ s'.frameClock = s.frameClock := by
  obtain ⟨stalls, hforward⟩ := forward_of_submit h hnow ha
  exact stamped_of_forward (s := { s with stalls }) hforward ha

/-- The frame clock is told of a frame that waited only if it was accepted, and then of the reading
    from before the wait. -/
theorem frameClock_of_resumed {s s' : Supervisor π α} {w : Waiter} {accepted : Bool}
    (h : s.resumeSubmit? w = some (accepted, s')) :
    s'.frameClock = if accepted then s.frameClock.commit w.now else s.frameClock := by
  obtain ⟨⟨taken, r⟩, -, heq⟩ := Option.map_eq_some_iff.1 h
  cases taken <;> cases heq <;> rfl

/-- A frame that is refused is not remembered, unless the watchdog restarts the pipeline. -/
theorem frameClock_of_refused {c c' : Core α} {frame : HandleId} {user : α}
    {result : Except Error Bool}
    (h : Course (π := π) c (.submit frame user) (.submitted (.done result)) c')
    (hresult : result ≠ .ok true) (hrestarts : c'.restarts = c.restarts) :
    c'.frameClock = c.frameClock := by
  cases h with
  | aside hcall => exact hcall.elim
  | uninstalled => rfl
  | turnedDown =>
    unfold Core.halted
    split <;> rfl
  | restarted =>
    -- a restart resets the clock, but it is counted
    have hone : c.restarts + 1 = c.restarts := hrestarts
    simp at hone
  | unrestarted =>
    have hone : c.restarts + 1 = c.restarts := hrestarts
    simp at hone
  | forwarded _ h =>
    cases h with
    | refused => rfl
    | accepted => exact absurd rfl hresult

variable [MediaPipeline π]

/-- Submissions that are carried out one after the other, and the stamps of the frames accepted.
    Whatever else happens leaves the frame clock alone; so there is no restart. -/
inductive Stamps (s₀ : Supervisor π α) : List Stamp → Supervisor π α → Prop where
  | start : Stamps s₀ [] s₀
  -- A frame is accepted at once.
  | accepted (uptime : Span) (frame : HandleId) (user : α) {stamps : List Stamp}
    {s s' : Supervisor π α} {now pts : ClockTime} {info : FrameInfo} (prior : Stamps s₀ stamps s)
    (hnow : s.clockTime uptime = .ok now)
    (h : s.submit uptime frame user = (.done (.ok true), s'))
    (hinfo : s'.relay.store.info frame = .ok info) (hpts : info.timing.pts = some pts) :
    Stamps s₀ (stamps ++ [⟨now, pts⟩]) s'
  -- A frame is accepted after a wait.
  | waited (uptime : Span) (frame : HandleId) (user : α) {stamps : List Stamp}
    {s s₁ s₂ s' : Supervisor π α} {now pts : ClockTime} {info : FrameInfo} {w : Waiter}
    (prior : Stamps s₀ stamps s) (hnow : s.clockTime uptime = .ok now)
    (h : s.submit uptime frame user = (.waits w, s₁))
    (hinfo : s₁.relay.store.info frame = .ok info) (hpts : info.timing.pts = some pts)
    (hclock : s₂.frameClock = s₁.frameClock) (hresume : s₂.resumeSubmit? w = some (true, s')) :
    Stamps s₀ (stamps ++ [⟨now, pts⟩]) s'
  -- A frame is refused at once.
  | refused (uptime : Span) (frame : HandleId) (user : α) {stamps : List Stamp}
    {s s' : Supervisor π α} {result : Except Error Bool} (prior : Stamps s₀ stamps s)
    (h : s.submit uptime frame user = (.done result, s')) (hresult : result ≠ .ok true)
    (hrestarts : s'.relay.restarts = s.relay.restarts) : Stamps s₀ stamps s'
  -- A frame is refused after a wait.
  | withdrawn (uptime : Span) (frame : HandleId) (user : α) {stamps : List Stamp}
    {s s₁ s₂ s' : Supervisor π α} {now : ClockTime} {w : Waiter} (prior : Stamps s₀ stamps s)
    (hnow : s.clockTime uptime = .ok now) (h : s.submit uptime frame user = (.waits w, s₁))
    (hclock : s₂.frameClock = s₁.frameClock) (hresume : s₂.resumeSubmit? w = some (false, s')) :
    Stamps s₀ stamps s'
  | aside {stamps : List Stamp} {s s' : Supervisor π α} (prior : Stamps s₀ stamps s)
    (hclock : s'.frameClock = s.frameClock) : Stamps s₀ stamps s'

variable {s₀ s : Supervisor π α} {stamps : List Stamp}

/-- Accepted frames are stamped as the frame clock says, and it is told of each of them. -/
theorem follows_of_stamps (h : Stamps s₀ stamps s) :
    s.frameClock = s₀.frameClock.commitAll stamps ∧ s₀.frameClock.Follows stamps := by
  induction h with
  | start => exact ⟨rfl, trivial⟩
  | @accepted uptime frame user stamps s s' now pts info prior hnow h hinfo hpts ih =>
    obtain ⟨hclock, hfollows⟩ := ih
    obtain ⟨hstamped, hcommit, -⟩ :=
      stamped_of_submit h hnow fun _ heq => (Admission.done.inj heq).symm
    -- the stamp found on the frame is the one the clock gave
    have hgiven : pts = s.frameClock.ptsAt now :=
      Option.some.inj (hpts.symm.trans (hstamped info hinfo))
    constructor
    · rw [hcommit rfl, hclock, FrameClock.commitAll_snoc]
    · exact hfollows.snoc (hclock ▸ hgiven)
  | @waited uptime frame user stamps s s₁ s₂ s' now pts info w prior hnow h hinfo hpts hsame hresume
      ih =>
    obtain ⟨hclock, hfollows⟩ := ih
    obtain ⟨hstamped, -, hwaits⟩ := stamped_of_submit h hnow nofun
    obtain ⟨hreading, hwaited⟩ := hwaits w rfl
    have hgiven : pts = s.frameClock.ptsAt now :=
      Option.some.inj (hpts.symm.trans (hstamped info hinfo))
    have hcommit := frameClock_of_resumed hresume
    constructor
    · rw [hcommit, if_pos rfl, hsame, hwaited, hreading, hclock, FrameClock.commitAll_snoc]
    · exact hfollows.snoc (hclock ▸ hgiven)
  | @refused uptime frame user stamps s s' result prior h hresult hrestarts ih =>
    have hcourse := course_submit s uptime frame user
    rw [h] at hcourse
    have hsame : s'.frameClock = s.frameClock :=
      frameClock_of_refused hcourse hresult hrestarts
    exact ⟨hsame.trans ih.1, ih.2⟩
  | withdrawn uptime frame user prior hnow h hsame hresume ih =>
    obtain ⟨-, -, hwaits⟩ := stamped_of_submit h hnow nofun
    have hkept := frameClock_of_resumed hresume
    rw [if_neg Bool.false_ne_true, hsame, (hwaits _ rfl).2] at hkept
    exact ⟨hkept.trans ih.1, ih.2⟩
  | aside _ hsame ih => exact ⟨hsame.trans ih.1, ih.2⟩

/-- Of two accepted frames in a row, from a reset on, the second is presented a period after the first
    was submitted, or at once if it was submitted later than that.  It is not presented before the
    first, and a period later exactly if the first was presented at once, or the second is submitted a
    period after the first is presented. -/
theorem spacing_of_stamps {earlier later : List Stamp} {a b : Stamp} (h : Stamps s₀ stamps s)
    (hreset : s₀.frameClock.previous = none)
    (hperiod : s₀.frameClock.period.nanos < ClockTime.maxNanos)
    (hsorted : stamps.Pairwise fun x y => x.now.nanos.toNat ≤ y.now.nanos.toNat)
    (hmax : ∀ x ∈ stamps, x.pts.nanos.toNat < ClockTime.maxNanos)
    (hrow : stamps = earlier ++ a :: b :: later) :
    b.pts.nanos.toNat =
      max (a.now.nanos.toNat + s₀.frameClock.period.nanos) b.now.nanos.toNat ∧
    a.pts.nanos.toNat ≤ b.pts.nanos.toNat ∧
    (a.pts.nanos.toNat + s₀.frameClock.period.nanos ≤ b.pts.nanos.toNat ↔
      a.pts = a.now ∨
        a.pts.nanos.toNat + s₀.frameClock.period.nanos ≤ b.now.nanos.toNat) := by
  obtain ⟨-, hfollows⟩ := follows_of_stamps h
  subst hrow
  have hb : b ∈ earlier ++ a :: b :: later := by simp
  have hprevious : ∀ t, s₀.frameClock.previous = some t →
      ∀ x ∈ earlier ++ a :: b :: later, t.nanos.toNat ≤ x.now.nanos.toNat := by
    intro t ht
    rw [hreset] at ht
    exact nomatch ht
  obtain ⟨hnext, hlow, hhigh⟩ := hfollows.spacing hperiod hprevious hsorted (hmax b hb)
  rw [← ClockTime.toNat_inj]
  omega

/-- A pipeline whose clock stands still was started, and there are three frames. -/
def standing : Supervisor Scripted Nat :=
  let s : Supervisor Scripted Nat := { (new {} : Supervisor Scripted Nat) with pipeline := some {} }
  ({ s with relay := { s.relay with store := framesWith [none, none, none] } }.start .zero).2

/-- A number of milliseconds on the clock. -/
def atMillis (ms : Nat) : ClockTime := .ofSpan (.ofMillis ms)

/-- The presentation times of a burst of frames, with a period of 100 milliseconds. -/
def burst : List Stamp := [⟨.zero, .zero⟩, ⟨.zero, atMillis 100⟩, ⟨.zero, atMillis 100⟩]

/-- The three frames are accepted and stamped like this. -/
theorem stamps_burst : ∃ s, Stamps standing burst s :=
  ⟨_, ((Stamps.start.accepted .zero 0 7 rfl rfl rfl rfl).accepted .zero 1 8 rfl rfl rfl rfl).accepted
    .zero 2 9 rfl rfl rfl rfl⟩

/-- The second frame of a burst is presented a period after the first. -/
theorem spacing_of_burst : ∃ (s : Supervisor Scripted Nat) (a b : Stamp) (later : List Stamp),
    Stamps standing (a :: b :: later) s ∧
      a.pts.nanos.toNat + standing.frameClock.period.nanos ≤ b.pts.nanos.toNat := by
  obtain ⟨s, hs⟩ := stamps_burst
  have hrow : burst = [] ++ ⟨.zero, .zero⟩ :: ⟨.zero, atMillis 100⟩ :: [⟨.zero, atMillis 100⟩] := rfl
  have h := spacing_of_stamps hs rfl (by decide) (by decide) (by decide) hrow
  exact ⟨s, _, _, _, hs, h.2.2.2 (.inl rfl)⟩

/-- The third is presented together with the second, so it is not true that accepted frames in a row are
    always presented a period apart. -/
theorem not_spaced_by_period : ¬∀ (s₀ s : Supervisor Scripted Nat)
    (stamps earlier later : List Stamp) (a b : Stamp), Stamps s₀ stamps s →
    s₀.frameClock.previous = none → s₀.frameClock.period.nanos < ClockTime.maxNanos →
    (stamps.Pairwise fun x y => x.now.nanos.toNat ≤ y.now.nanos.toNat) →
    (∀ x ∈ stamps, x.pts.nanos.toNat < ClockTime.maxNanos) →
    stamps = earlier ++ a :: b :: later →
      a.pts.nanos.toNat + s₀.frameClock.period.nanos ≤ b.pts.nanos.toNat := by
  intro hall
  obtain ⟨s, hs⟩ := stamps_burst
  have hspaced := hall standing s burst [⟨.zero, .zero⟩] [] _ _ hs rfl (by decide) (by decide)
    (by decide) rfl
  exact absurd hspaced (by decide)

end Supervisor

end MediaBridge
