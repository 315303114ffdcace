import MediaBridge.Proofs.Supervisor.Spacing

/-! # When frames are presented

A submission that passes its screening has its frame stamped by the frame clock, whether the ingest
takes the frame in the end or not.  The reading at the last accepted frame never lies ahead of the
next one, so no frame is presented more than a period ahead of the pipeline's clock.  None is
presented in the past either, as long as a period has fewer than `2 ^ 64` nanoseconds.  A longer one
enters the arithmetic of the clock by its rest only, and a frame that follows within the period but
after that rest is stamped too early.

* `ptsAt_le`, `le_ptsAt_iff`  the two ends of the window;
* `clocks_of_call?`           what a call does to the frame clock;
* `recalls_of_run`            what the frame clock remembers was read by a submission before;
* `window_of_run`             the stamp of every submission in a run.
-/

namespace MediaBridge

variable {π : Type u} {α : Type v}

namespace FrameClock

/-! ## The window -/

variable {c : FrameClock} {now : ClockTime}

/-- No frame is put off by more than a period, nor beyond the last reading there is. -/
theorem ptsAt_le (hprevious : ∀ t, c.previous = some t → t.nanos.toNat ≤ now.nanos.toNat) :
    (c.ptsAt now).nanos.toNat ≤ min (now.nanos.toNat + c.period.nanos) ClockTime.maxNanos := by
  have hnow : now.nanos.toNat ≤ ClockTime.maxNanos := Nat.le_pred_of_lt now.nanos.toNat_lt
  have hmod : c.period.nanos % UInt64.size ≤ c.period.nanos := Nat.mod_le ..
  unfold ptsAt
  cases hp : c.previous with
  | none => simp only; omega
  | some t =>
    have hle := hprevious t hp
    simp only
    -- the sum cannot pass the last reading, even where the period is cut short
    split
    · rw [ClockTime.toNat_add]
      omega
    · omega

/-- A frame is stamped in the past exactly if the last accepted one is no more than a period old,
    but older than the rest of the period modulo `2 ^ 64` nanoseconds. -/
theorem le_ptsAt_iff : now.nanos.toNat ≤ (c.ptsAt now).nanos.toNat ↔
    ∀ t, c.previous = some t → now.since t ≤ c.period →
      (now.since t).nanos ≤ c.period.nanos % UInt64.size := by
  have hnow : now.nanos.toNat ≤ ClockTime.maxNanos := Nat.le_pred_of_lt now.nanos.toNat_lt
  unfold ptsAt
  cases hp : c.previous with
  | none => simp
  | some t =>
    simp only [Option.some.injEq, forall_eq']
    -- an early stamp needs a sum, and the rest of the period is added there
    split
    · rename_i hnear
      rw [ClockTime.toNat_add, ClockTime.nanos_since]
      constructor
      · intro hle _
        omega
      · intro hle
        have hgap := hle hnear
        omega
    · rename_i hfar
      exact iff_of_true (Nat.le_refl _) fun hnear => absurd hnear hfar

end FrameClock

namespace Supervisor

variable {s s' : Supervisor π α} {uptime : Span}

/-! ## Forwarding -/

/-- A stop leaves the frame clock alone. -/
theorem frameClock_halted (c : Core α) : c.halted.frameClock = c.frameClock := by
  unfold Core.halted
  split <;> rfl

/-- A frame that is not accepted leaves the frame clock as it is, or the pipeline was restarted. -/
theorem frameClock_of_rejected {c c' : Core α} {frame : HandleId} {user : α}
    {result : Except Error Bool}
    (h : Course (π := π) c (.submit frame user) (.submitted (.done result)) c')
    (hresult : result ≠ .ok true) :
    c'.frameClock = c.frameClock ∨ c'.frameClock = c.frameClock.reset := by
  cases h with
  | aside hcall => exact hcall.elim
  | uninstalled | unrestarted => exact .inl rfl
  | turnedDown => exact .inl (frameClock_halted c)
  | restarted => exact .inr rfl
  | forwarded _ h =>
    cases h with
    | refused => exact .inl rfl
    | accepted => exact absurd rfl hresult

/-- What the relay is given when a frame is forwarded. -/
theorem relay_of_forward {frame : HandleId} {user : α} {now : ClockTime} {a : Admission}
    {store : Store} (h : s.forward frame user now = (a, s'))
    (hset : s.relay.store.setTiming frame (s.frameClock.timingAt now) = .ok store) :
    s'.relay = ({ s.relay with store }.submit frame user).2 := by
  unfold forward at h
  rw [hset] at h
  simp only at h
  generalize ({ s.relay with store } : Relay α).submit frame user = submission at h ⊢
  rcases submission with ⟨(e | _ | _) | _, r⟩ <;> cases h <;> rfl

/-- Submissions go on after a wait only if they were told to wait. -/
def Resumes (turns : List (Turn π α)) : Prop :=
  ∀ prior t rest w, turns = prior ++ t :: rest → t.call = .resumeSubmit w →
    ∃ t' ∈ prior, t'.answer = .submitted (.waits w)

/-- Whether a submission that waits looks again. -/
def Call.isResumed : Call π α → Bool
  | .resumeSubmit _ => true
  | _ => false

/-- Where no submission looks again, there is nothing to ask for. -/
theorem resumes_of_all {turns : List (Turn π α)}
    (h : turns.all (fun t => !t.call.isResumed) = true) : Resumes turns := by
  intro prior t rest w hturns hcall
  subst hturns
  have hnever := List.all_eq_true.1 h t (List.mem_append_right _ List.mem_cons_self)
  rw [hcall] at hnever
  exact absurd hnever Bool.false_ne_true

/-- What holds of a run holds of its beginning. -/
theorem Resumes.of_append {earlier later : List (Turn π α)} (h : Resumes (earlier ++ later)) :
    Resumes earlier := by
  intro prior t rest w hearlier
  exact h prior t (rest ++ later) w (by rw [hearlier, List.append_assoc, List.cons_append])

variable [MediaPipeline π]

/-! ## Screening and stamping -/

/-- A submission that passes its screening stamps its frame; any other is not accepted. -/
theorem screened_submit (s : Supervisor π α) (uptime : Span) (frame : HandleId) (user : α) :
    (∃ now stalls, (s.screen uptime).1 = .passes now ∧
      s.submit uptime frame user =
        ({ s with stalls } : Supervisor π α).forward frame user now) ∨
    ∃ result, (s.screen uptime).1 = .ended result ∧ result ≠ .ok true ∧
      (s.submit uptime frame user).1 = .done result := by
  have hscreens := s.screens_screen uptime
  rw [submit_eq_screen]
  generalize s.screen uptime = screened at hscreens
  cases hscreens with
  | idle => exact .inl ⟨_, s.stalls, rfl, rfl⟩
  | lively => exact .inl ⟨_, 0, rfl, rfl⟩
  | struck => exact .inl ⟨_, s.stalls + 1, rfl, rfl⟩
  | uninstalled | turnedDown | broughtDown | restarted | unrestarted =>
    exact .inr ⟨_, rfl, nofun, rfl⟩

namespace Turn

/-- The reading at which a submission had its frame stamped, if it got that far. -/
def reading? (t : Turn π α) : Option ClockTime :=
  match t.call with
  | .submit .. =>
    match (t.before.screen t.uptime).1 with
    | .passes now => some now
    | .ended _ => none
  | _ => none

/-- What a turn does to the frame clock. -/
inductive Clocks (t : Turn π α) : Prop where
  | same (h : t.after.frameClock = t.before.frameClock)
  | reset (h : t.after.frameClock = t.before.frameClock.reset)
  -- A frame was accepted at once.
  | accepted {now : ClockTime} (hnow : t.reading? = some now)
    (h : t.after.frameClock = t.before.frameClock.commit now)
  -- A frame was accepted after a wait.
  | resumed {w : Waiter} (hcall : t.call = .resumeSubmit w)
    (h : t.after.frameClock = t.before.frameClock.commit w.now)

end Turn

/-- The frame clock is told of the reading if the frame is accepted at once; a watchdog restart may
    reset it. -/
theorem clocks_of_submit {frame : HandleId} {user : α} {a : Admission}
    (h : s.submit uptime frame user = (a, s')) :
    (⟨s, uptime, .submit frame user, .submitted a, s'⟩ : Turn π α).Clocks := by
  have hcourse := course_submit s uptime frame user
  -- either the frame was stamped and forwarded, or the submission ended before
  rcases screened_submit s uptime frame user with
    ⟨now, stalls, hscreen, hforward⟩ | ⟨result, -, hresult, hdone⟩
  · have hreading : (⟨s, uptime, .submit frame user, .submitted a, s'⟩ : Turn π α).reading? =
        some now := by simp only [Turn.reading?, hscreen]
    have hforwards := ({ s with stalls } : Supervisor π α).forwards_forward frame user now
    rw [← hforward, h] at hforwards
    cases hcore : s'.core with
    | mk =>
      rw [hcore] at hforwards
      cases hforwards with
      | refused => exact .same (congrArg Core.frameClock hcore)
      | accepted => exact .accepted hreading (congrArg Core.frameClock hcore)
      | waits => exact .same (congrArg Core.frameClock hcore)
  · rw [hdone, h] at hcourse
    rcases frameClock_of_rejected hcourse hresult with hsame | hreset
    · exact .same hsame
    · exact .reset hreset

/-- What any call does to the frame clock. -/
theorem clocks_of_call? {c : Call π α} {a : Answer α} (h : s.call? uptime c = some (a, s')) :
    (⟨s, uptime, c, a, s'⟩ : Turn π α).Clocks := by
  have hcourse := course_of_call? h
  have hcore : ∀ c' : Core α, s'.core = c' → s'.frameClock = c'.frameClock :=
    fun _ heq => congrArg Core.frameClock heq
  cases c with
  | submit frame user =>
    cases h
    exact clocks_of_submit rfl
  | start =>
    generalize s'.core = c' at hcourse hcore
    cases hcourse with
    | aside hc => exact hc.elim
    | unstarted => exact .same ((hcore _ rfl).trans (frameClock_halted s.core))
    | begun =>
      exact .reset ((hcore _ rfl).trans (congrArg FrameClock.reset (frameClock_halted s.core)))
    | unbegun => exact .same ((hcore _ rfl).trans (frameClock_halted s.core))
  | resumeSubmit w =>
    generalize s'.core = c' at hcourse hcore
    cases hcourse with
    | aside hc => exact hc.elim
    | resumed => exact .resumed rfl (hcore _ rfl)
    | withdrawn => exact .same (hcore _ rfl)
  | _ =>
    generalize s'.core = c' at hcourse hcore
    cases hcourse <;> exact .same (hcore _ rfl)

/-! ## Runs -/

/-- Every turn of a run is a call that was carried out. -/
theorem Run.carried {s₀ : Supervisor π α} {turns : List (Turn π α)} (run : Run s₀ turns s) :
    ∀ t ∈ turns, t.before.call? t.uptime t.call = some (t.answer, t.after) := by
  induction run with
  | start => exact fun t ht => absurd ht List.not_mem_nil
  | turn run h ih =>
    intro t ht
    rcases List.mem_append.1 ht with hold | hnew
    · exact ih t hold
    · rw [List.mem_singleton.1 hnew]
      exact h

/-- A submission that waits remembers the reading at which its frame was stamped. -/
theorem reading?_of_waits {t : Turn π α} {w : Waiter}
    (h : t.before.call? t.uptime t.call = some (t.answer, t.after))
    (ha : t.answer = .submitted (.waits w)) : t.reading? = some w.now := by
  obtain ⟨s, uptime, c, a, s'⟩ := t
  simp only at h ha
  subst ha
  cases c with
  | submit frame user =>
    have hsubmit : s.submit uptime frame user = (.waits w, s') := by
      obtain ⟨hwaits, hafter⟩ := Prod.mk.inj (Option.some.inj h)
      exact Prod.ext (Answer.submitted.inj hwaits) hafter
    rcases screened_submit s uptime frame user with
      ⟨now, stalls, hscreen, hforward⟩ | ⟨result, -, -, hdone⟩
    · rw [hsubmit] at hforward
      obtain ⟨-, -, hwaits⟩ :=
        stamped_of_forward (s := { s with stalls }) hforward.symm nofun
      simp only [Turn.reading?, hscreen, (hwaits w rfl).1]
    · rw [hsubmit] at hdone
      cases hdone
  | pop | pull | setInputCaps =>
    simp only [call?] at h
    split at h <;> cases h
  | resumeSubmit | resumeDelivery =>
    obtain ⟨_, -, heq⟩ := Option.map_eq_some_iff.1 h
    cases heq
  | _ => cases h

/-- What the frame clock remembers in a run. -/
structure Recalls (settings : Settings) (turns : List (Turn π α)) (c : FrameClock) : Prop where
  period : c.period = settings.framePeriod
  /-- A submission read it. -/
  previous : ∀ u, c.previous = some u → u ∈ turns.filterMap Turn.reading?

variable {settings : Settings} {turns : List (Turn π α)}

/-- The clock may remember a reading for as long as it likes. -/
theorem Recalls.more {c : FrameClock} {t : Turn π α} (h : Recalls settings turns c) :
    Recalls settings (turns ++ [t]) c where
  period := h.period
  previous u hu := by
    rw [List.filterMap_append]
    exact List.mem_append_left _ (h.previous u hu)

/-- The clock is told of a reading. -/
theorem Recalls.commit {c : FrameClock} {u : ClockTime} (h : Recalls settings turns c)
    (hu : u ∈ turns.filterMap Turn.reading?) : Recalls settings turns (c.commit u) where
  period := h.period
  previous v hv := by rwa [← Option.some.inj hv]

/-- The frame clock keeps its period in every run, and what it remembers was read by a submission.
    -/
theorem recalls_of_run (run : Run (.new settings) turns s) (hresumes : Resumes turns) :
    Recalls settings turns s.frameClock := by
  induction run with
  | start => exact ⟨rfl, nofun⟩
  | @turn turns s s' uptime c a run h ih =>
    have hbefore := (ih hresumes.of_append).more (t := ⟨s, uptime, c, a, s'⟩)
    cases clocks_of_call? h with
    | same hclock =>
      rw [show s'.frameClock = s.frameClock from hclock]
      exact hbefore
    | reset hclock =>
      rw [show s'.frameClock = s.frameClock.reset from hclock]
      exact ⟨hbefore.period, nofun⟩
    | @accepted now hnow hclock =>
      rw [show s'.frameClock = s.frameClock.commit now from hclock]
      apply hbefore.commit
      rw [List.filterMap_append]
      exact List.mem_append_right _ (List.mem_filterMap.2 ⟨_, List.mem_singleton_self _, hnow⟩)
    | @resumed w hcall hclock =>
      rw [show s'.frameClock = s.frameClock.commit w.now from hclock]
      apply hbefore.commit
      -- the submission that was told to wait had read the clock
      obtain ⟨t, ht, hwaits⟩ := hresumes turns _ [] w rfl hcall
      have hreading := reading?_of_waits (run.carried t ht) hwaits
      rw [List.filterMap_append]
      exact List.mem_append_left _ (List.mem_filterMap.2 ⟨t, ht, hreading⟩)

/-- A submission that read the clock has its frame stamped, as far as the frame can be. -/
theorem relay_of_reading {t : Turn π α} {now : ClockTime}
    (h : t.before.call? t.uptime t.call = some (t.answer, t.after)) (hnow : t.reading? = some now) :
    ∃ frame user, t.call = .submit frame user ∧
      ∀ store,
        t.before.relay.store.setTiming frame (t.before.frameClock.timingAt now) = .ok store →
          t.after.relay = ({ t.before.relay with store }.submit frame user).2 := by
  obtain ⟨s, uptime, c, a, s'⟩ := t
  cases c with
  | submit frame user =>
    have hafter : s' = (s.submit uptime frame user).2 :=
      (congrArg Prod.snd (Option.some.inj h)).symm
    subst hafter
    refine ⟨frame, user, rfl, fun store hset => ?_⟩
    rcases screened_submit s uptime frame user with
      ⟨now', stalls, hscreen, hforward⟩ | ⟨result, hscreen, -, -⟩
    · have heq : now' = now := by
        simp only [Turn.reading?, hscreen] at hnow
        exact Option.some.inj hnow
      subst heq
      exact relay_of_forward (s := { s with stalls }) hforward.symm hset
    · simp only [Turn.reading?, hscreen] at hnow
      exact nomatch hnow
  | _ => exact nomatch hnow

/-- The stamp of a frame, as long as the readings at submissions do not go back.  It lies between
    the reading and a period after it, but may come too early if a period has `2 ^ 64` nanoseconds
    or more. -/
theorem window_of_run {t : Turn π α} {now : ClockTime} (run : Run (.new settings) turns s)
    (hresumes : Resumes turns)
    (hclock : (turns.filterMap Turn.reading?).Pairwise fun u v => u.nanos.toNat ≤ v.nanos.toNat)
    (ht : t ∈ turns) (hnow : t.reading? = some now) :
    ∃ frame user pts, t.call = .submit frame user ∧
      t.before.frameClock.timingAt now =
        { pts := some pts, duration := some settings.framePeriod } ∧
      (∀ store, t.before.relay.store.setTiming frame
          { pts := some pts, duration := some settings.framePeriod } = .ok store →
        t.after.relay = ({ t.before.relay with store }.submit frame user).2) ∧
      pts.nanos.toNat ≤
        min (now.nanos.toNat + settings.framePeriod.nanos) ClockTime.maxNanos ∧
      (now.nanos.toNat ≤ pts.nanos.toNat ↔
        ∀ u, t.before.frameClock.previous = some u → now.since u ≤ settings.framePeriod →
          (now.since u).nanos ≤ settings.framePeriod.nanos % UInt64.size) ∧
      (settings.framePeriod.nanos < UInt64.size → now.nanos.toNat ≤ pts.nanos.toNat) := by
  obtain ⟨prior, rest, rfl⟩ := List.append_of_mem ht
  obtain ⟨s₁, hprior, hrest⟩ := run.split
  obtain ⟨rfl, hcall, -⟩ := hrest.first
  have hrecalls := recalls_of_run hprior hresumes.of_append
  have hprevious : ∀ u, t.before.frameClock.previous = some u →
      u.nanos.toNat ≤ now.nanos.toNat := by
    intro u hu
    rw [List.filterMap_append] at hclock
    exact (List.pairwise_append.1 hclock).2.2 u (hrecalls.previous u hu) now
      (List.mem_filterMap.2 ⟨t, List.mem_cons_self, hnow⟩)
  obtain ⟨frame, user, hsubmit, hrelay⟩ := relay_of_reading hcall hnow
  have htiming : t.before.frameClock.timingAt now =
      { pts := some (t.before.frameClock.ptsAt now), duration := some settings.framePeriod } := by
    rw [FrameClock.timingAt, hrecalls.period]
  have hhigh := FrameClock.ptsAt_le hprevious
  have hlow := @FrameClock.le_ptsAt_iff t.before.frameClock now
  rw [hrecalls.period] at hhigh hlow
  rw [htiming] at hrelay
  refine ⟨frame, user, _, hsubmit, htiming, hrelay, hhigh, hlow, fun hperiod => ?_⟩
  rw [hlow, Nat.mod_eq_of_lt hperiod]
  exact fun _ _ hnear => hnear

/-- Two frames, and a millisecond that passes after the first one is submitted. -/
def firstOfTwo : List (Span × Call Scripted Nat) :=
  [.install (.ok {}), .elsewhere (framesWith [none, none]), .start, .submit 0 7,
    .evolve { phase := .playing, clock := atMillis 1 }].map (.zero, ·)

/-- The second frame is put off until the first is a period old. -/
theorem window_of_second : ∃ (turns : List (Turn Scripted Nat)) (t : Turn Scripted Nat)
    (s : Supervisor Scripted Nat) (pts : ClockTime), Run (.new {}) (turns ++ [t]) s ∧
      t.call = .submit 1 8 ∧ t.reading? = some (atMillis 1) ∧
      t.before.frameClock.timingAt (atMillis 1) =
        { pts := some pts, duration := some (.ofMillis 100) } ∧
      (atMillis 1).nanos.toNat ≤ pts.nanos.toNat ∧
      pts.nanos.toNat ≤ (atMillis 1).nanos.toNat + 100000000 := by
  obtain ⟨turns, t, s₁, s, hturns, hlast, hresumes, hreadings, hcall, hnow⟩ : ∃ turns t s₁ s,
      (new {} : Supervisor Scripted Nat).turns? firstOfTwo = some (turns, s₁) ∧
        s₁.turns? [(.zero, .submit 1 8)] = some ([t], s) ∧
        (turns ++ [t]).all (fun t => !t.call.isResumed) = true ∧
        (turns ++ [t]).filterMap Turn.reading? = [.zero, atMillis 1] ∧
        t.call = .submit 1 8 ∧ t.reading? = some (atMillis 1) :=
    ⟨_, _, _, _, rfl, rfl, rfl, rfl, rfl, rfl⟩
  have hrun := (run_of_turns? hturns).append hlast
  obtain ⟨frame, user, pts, -, htiming, -, hhigh, -, hlow⟩ :=
    window_of_run hrun (resumes_of_all hresumes) (by rw [hreadings]; decide)
      (List.mem_append_right _ (List.mem_singleton_self t)) hnow
  exact ⟨turns, t, s, pts, hrun, hcall, hnow, htiming, hlow (by decide),
    Nat.le_trans hhigh (Nat.min_le_left ..)⟩

/-- Settings with a period of `2 ^ 64` nanoseconds and some 448 microseconds. -/
def longPeriod : Settings := { framePeriodMs := 18446744073710 }

/-- With them the second frame is accepted with a stamp in the past, so the stamp of an accepted
    frame does not always lie ahead of the clock. -/
theorem not_ahead_of_clock : ¬∀ (settings : Settings) (turns : List (Turn Scripted Nat))
    (s : Supervisor Scripted Nat) (t : Turn Scripted Nat) (frame : HandleId) (user : Nat)
    (now pts : ClockTime) (info : FrameInfo), settings.IsValid → Run (.new settings) turns s →
      Resumes turns →
      ((turns.filterMap Turn.reading?).Pairwise fun u v => u.nanos.toNat ≤ v.nanos.toNat) →
      t ∈ turns → t.reading? = some now → t.call = .submit frame user →
      t.answer = .submitted (.done (.ok true)) → t.after.relay.store.info frame = .ok info →
      info.timing.pts = some pts → now.nanos.toNat ≤ pts.nanos.toNat := by
  intro hall
  obtain ⟨turns, t, s₁, s, info, hturns, hlast, hresumes, hreadings, hcall, hnow, ha, hinfo, hpts⟩ :
      ∃ turns t s₁ s info,
        (new longPeriod : Supervisor Scripted Nat).turns? firstOfTwo = some (turns, s₁) ∧
        s₁.turns? [(.zero, .submit 1 8)] = some ([t], s) ∧
        (turns ++ [t]).all (fun t => !t.call.isResumed) = true ∧
        (turns ++ [t]).filterMap Turn.reading? = [.zero, atMillis 1] ∧
        t.call = .submit 1 8 ∧ t.reading? = some (atMillis 1) ∧
        t.answer = .submitted (.done (.ok true)) ∧ t.after.relay.store.info 1 = .ok info ∧
        info.timing.pts = some ⟨448384⟩ :=
    ⟨_, _, _, _, _, rfl, rfl, rfl, rfl, rfl, rfl, rfl, rfl, rfl⟩
  have hahead := hall longPeriod (turns ++ [t]) s t 1 8 (atMillis 1) ⟨448384⟩ info
    (Settings.validate_eq_ok_iff.1 rfl) ((run_of_turns? hturns).append hlast)
    (resumes_of_all hresumes) (by rw [hreadings]; decide)
    (List.mem_append_right _ (List.mem_singleton_self t)) hnow hcall ha hinfo hpts
  exact absurd hahead (by decide)

end Supervisor

end MediaBridge
