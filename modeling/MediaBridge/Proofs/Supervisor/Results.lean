import MediaBridge.Proofs.Supervisor.Tracking

/-! # What comes back from a loopback pipeline

A supervisor is started over a loopback pipeline that loses one in so many frames, and the application
submits frames that it has made.  Whatever way the application and the others come in between, the
frames that are not lost come back in the order in which they were submitted.

No two frames share a buffer: on a shared one there is only one id, that of the later submission.

* `yields_items`           popping takes out what is in the output queue;
* `tracks_ready`           at the start all frames are still to be submitted;
* `results_of_reaches`     what was lost and what came back, once the worker has processed everything;
* `not_results_of_shared`  of two frames with one buffer only one may come back.
-/

namespace MediaBridge

open Faults (kept lost)

variable {π : Type u} {α : Type v}

namespace Supervisor

/-- Popping until there is nothing left takes these matched frames out, one after the other. -/
inductive Yields : Supervisor π α → List (Matched α) → Prop where
  | nil {s : Supervisor π α} (h : s.pop? = none) : Yields s []
  | cons {s s' : Supervisor π α} {m : Matched α} {ms : List (Matched α)}
    (h : s.pop? = some (m, s')) (hrest : Yields s' ms) : Yields s (m :: ms)

/-- Popping takes out what is in the output queue, oldest first. -/
theorem yields_items (s : Supervisor π α) : s.Yields s.relay.bridge.output.items := by
  generalize hitems : s.relay.bridge.output.items = ms
  induction ms generalizing s with
  | nil =>
    refine .nil ?_
    simp only [pop?, Relay.pop?, BoundedQueue.pop?, hitems, Option.map_none]
  | cons m rest ih =>
    have hpop : s.pop? = some (m, { s with relay := { s.relay with bridge := { s.relay.bridge with
        output := { s.relay.bridge.output with items := rest } } } }) := by
      simp only [pop?, Relay.pop?, BoundedQueue.pop?, hitems, Option.map_some]
    exact .cons hpop (ih _ rfl)

/-- So nothing else can be popped. -/
theorem Yields.eq_items {s : Supervisor π α} {ms : List (Matched α)} (h : s.Yields ms) :
    ms = s.relay.bridge.output.items := by
  induction h with
  | @nil s hpop =>
    cases hitems : s.relay.bridge.output.items with
    | nil => rfl
    | cons m rest =>
      simp only [pop?, Relay.pop?, BoundedQueue.pop?, hitems, Option.map_some] at hpop
      cases hpop
  | @cons s s' m ms hpop _ ih =>
    cases hitems : s.relay.bridge.output.items with
    | nil =>
      simp only [pop?, Relay.pop?, BoundedQueue.pop?, hitems, Option.map_none] at hpop
      cases hpop
    | cons m' rest =>
      simp only [pop?, Relay.pop?, BoundedQueue.pop?, hitems, Option.map_some] at hpop
      cases hpop
      rw [ih]

end Supervisor

namespace Conveyor

/-- A supervisor with a loopback pipeline that was not started yet, and the buffers of the
    application. -/
def ready (settings : Settings) (o : LoopbackOptions) (f : Faults) (s₀ : Store) :
    Supervisor Loopback α :=
  let s := ((Supervisor.new settings).install (.ok { options := o, faults := f })).2
  { s with relay := { s.relay with store := s₀ } }

/-- All frames were submitted, and the worker has processed all of them. -/
structure Done (c : Conveyor α) : Prop where
  todo : c.todo = []
  passage : c.passage = .idle
  queue : c.supervisor.relay.ingest.queue = []
  errand : c.errand = .idle
  worker : ∀ l w, c.supervisor.pipeline = some l → l.worker = some w → w.activity = .polling

/-- At the start all frames are still to be submitted, and nobody has touched them. -/
theorem tracks_ready {settings : Settings} {o : LoopbackOptions} {f : Faults} {s₀ : Store}
    {uptime : Span} {frames : List (HandleId × α)} {s : Supervisor Loopback α} (hs₀ : s₀.Sound)
    (hpolicy : settings.discardPolicy = .discardOutput) (hstrips : f.stripsIds = false)
    (hroom : frames.length ≤ settings.maxOutputQueue.toNat)
    (hpending : frames.length ≤ settings.maxPending.toNat)
    (hreadable : ∀ x ∈ frames, ∃ bytes, (s₀.mapRead x.1).1 = .ok bytes)
    (hapart : frames.Pairwise fun x y => s₀.Apart x.1 y.1)
    (hstart : (ready settings o f s₀).start uptime = (.ok (), s)) :
    Tracks s₀ o f.dropEvery frames { supervisor := s, todo := frames }
      { todo := frames, handles := s₀.handles.next, buffers := s₀.buffers.next } := by
  obtain ⟨d, stalled, strips, refuses⟩ := f
  cases refuses with
  | true => cases hstart
  | false =>
    obtain rfl : _ = s := congrArg Prod.snd hstart
    -- a frame that can be read has a buffer
    have hhandles : ∀ x ∈ frames, ∃ t, (s₀.handle x.1).target = some t := by
      intro x hx
      obtain ⟨bytes, hread⟩ := hreadable x hx
      cases ht : (s₀.handle x.1).target with
      | some t => exact ⟨t, rfl⟩
      | none =>
        rw [(hs₀.orderly.inert ht).mapRead] at hread
        cases hread
    refine {
      keys := rfl
      apart := hapart
      todo := rfl
      log := rfl
      queue := rfl
      sound := hs₀
      oldHandles := Nat.le_refl _
      newHandles := Nat.le_refl _
      oldBuffers := Nat.le_refl _
      newBuffers := Nat.le_refl _
      resting := ⟨fun x hx => ?_, nofun, .nil⟩
      entering := ⟨rfl, rfl⟩
      filed := ⟨hpolicy, hpending, hroom, rfl, rfl, rfl, rfl⟩
      settled := ⟨Nat.le_refl _, fun i _ hlt => absurd hlt (Nat.not_lt_zero i), .inl rfl⟩
      driven := ⟨_, _, rfl, rfl, rfl, hstrips, rfl, .polling rfl rfl nofun⟩
      flushing := rfl
      ended := rfl
      failed := rfl
      fatal := rfl
      waiting := rfl
      bus := ?_ }
    · obtain ⟨t, ht⟩ := hhandles x hx
      exact ⟨rfl, fun t' ht' => ⟨hs₀.placed.handles _ _ ht', rfl⟩, Store.lt_next_of_target ht⟩
    · exact List.forall_iff_forall_mem.1 ⟨rfl, rfl, rfl, rfl, rfl, rfl⟩

/-- Of the frames that were submitted and accepted, in whatever way the worker, the supervisor and the
    others came in between, exactly those come back that were not lost, in the order in which they were
    submitted, each with its transformed bytes, its own timing and what its submitter left for it.  The
    lost ones before the last one that came back were passed over, for those behind it something is
    pending, and no result came out of order. -/
theorem results_of_reaches {settings : Settings} {o : LoopbackOptions} {f : Faults}
    {ops : List Store.Op} {uptime : Span} {frames : List (HandleId × α)}
    {s : Supervisor Loopback α} {c : Conveyor α}
    (hpolicy : settings.discardPolicy = .discardOutput) (hstrips : f.stripsIds = false)
    (hroom : frames.length ≤ settings.maxOutputQueue.toNat)
    (hpending : frames.length ≤ settings.maxPending.toNat)
    (hreadable : ∀ x ∈ frames, ∃ bytes, ((Store.performAll {} ops).mapRead x.1).1 = .ok bytes)
    (hapart : frames.Pairwise fun x y => (Store.performAll {} ops).Apart x.1 y.1)
    (hstart : (ready settings o f (Store.performAll {} ops)).start uptime = (.ok (), s))
    (h : Reaches { supervisor := s, todo := frames } c) (hdone : c.Done) :
    c.log.map (fun x => (x.frame, x.user)) = frames ∧
    (∃ ms, c.supervisor.Yields ms ∧ ms.Forall₂ (fun m i => ∃ x bytes, c.log[i]? = some x ∧
      m.user = x.user ∧ ((Store.performAll {} ops).mapRead x.frame).1 = .ok bytes ∧
      (c.supervisor.relay.store.mapRead m.frame).1 = .ok (o.transformed bytes) ∧
      c.supervisor.relay.store.info m.frame =
        .ok { timing := { x.timing with offset := i }, id := some i })
      (kept f.dropEvery frames.length)) ∧
    c.supervisor.relay.bridge.health.value .stale =
      UInt64.ofNat ((lost f.dropEvery frames.length).countP fun i =>
        (kept f.dropEvery frames.length).any (i < ·)) ∧
    c.supervisor.relay.bridge.pending.length =
      ((lost f.dropEvery frames.length).countP fun i =>
        (kept f.dropEvery frames.length).all (· < i)) ∧
    c.supervisor.fatal = none ∧ c.supervisor.failed = false := by
  obtain ⟨v, hv⟩ := tracks_of_reaches (tracks_ready (Store.sound_empty.performAll ops) hpolicy hstrips
    hroom hpending hreadable hapart hstart) h
  generalize Store.performAll {} ops = s₀ at hreadable hv
  obtain ⟨l, w, hpipeline, -, -, -, hworker, hworking⟩ := hv.driven
  -- nothing is under way any more
  have hentering := hv.entering
  rw [hdone.passage] at hentering
  obtain ⟨hnone, hunstamped⟩ := hentering
  have htodo : v.todo = [] := hv.todo.symm.trans hdone.todo
  have hqueued : v.queued = [] := List.map_eq_nil_iff.1 (hv.queue.symm.trans hdone.queue)
  have hcurrent : v.current = [] := by
    rw [hdone.errand] at hworking
    generalize hcurrent : v.current = current at hworking
    cases hworking with
    | polling => rfl
    | holding hactivity => exact nomatch hactivity.symm.trans (hdone.worker l w hpipeline hworker)
  have hpast : v.log = v.past := by
    rw [View.log, View.accepted, hnone, hcurrent, hqueued, List.append_nil, List.append_nil,
      List.append_nil]
  have hlog : c.log = v.past := hv.log.trans hpast
  have hframes : v.past.map Shipment.key = frames := by
    rw [← hv.keys, View.keys, hpast, hunstamped, htodo, List.append_nil, List.append_nil]
  have hn : frames.length = v.past.length := by rw [← hframes, List.length_map]
  obtain ⟨hfollowed, hopen⟩ := Faults.countP_of_settled hv.settled
  rw [hn, hfollowed, hopen, hlog]
  refine ⟨hframes, ⟨v.outputs, ?_, hv.resting.outputs.imp fun m i hm => ?_⟩, hv.filed.stale, ?_,
    hv.fatal, hv.failed⟩
  · rw [← hv.filed.items]
    exact c.supervisor.yields_items
  · -- what a result holds was made of the frame's bytes, and those are what can be read at the
    -- start
    obtain ⟨x, b, hx, huser, -, -, -, -, b₀, bytes, ⟨mapping, info, hbears⟩, hheld⟩ := hm
    have hmem : x.key ∈ frames := hframes ▸ List.mem_map_of_mem (List.mem_of_getElem? hx)
    obtain ⟨bytes', hread⟩ := hreadable x.key hmem
    obtain rfl : bytes' = bytes := hbears.bytes_of_mapRead (Prod.ext hread rfl)
    obtain ⟨s', hresult⟩ := hheld.mapRead
    exact ⟨x, bytes', hx, huser, hread, congrArg Prod.fst hresult, hheld.info⟩
  · rw [Pending.length, hv.filed.entries, Shipment.length_entriesFrom, List.length_drop, hpast]

/-- Lets the application submit its next frame, if none is under way. -/
def submitNext (c : Conveyor α) : Conveyor α :=
  match c.passage, c.todo with
  | .idle, (frame, user) :: rest =>
    match c.supervisor.submit .zero frame user with
    | (.done (.ok true), s) =>
      { c with
        supervisor := s
        passage := .idle
        todo := rest
        log := c.log ++ [⟨frame, user, c.supervisor.frameClock.timingAt (.ofSpan .zero)⟩] }
    | _ => c
  | _, _ => c

/-- Letting the application submit its next frame is made of steps. -/
theorem reaches_submitNext {c c' : Conveyor α} (h : Reaches c c') : Reaches c c'.submitNext := by
  unfold submitNext
  split
  · rename_i frame user rest hpassage htodo
    split
    · rename_i s hsubmit
      exact h.trans (reaches_submit hpassage htodo hsubmit (by rintro result ⟨⟩; rfl))
    · exact h
  · exact h

/-- Lets the supervisor go on with its sample, or else the worker, or else the application with its next
    frame. -/
def advance (c : Conveyor α) : Conveyor α :=
  match c.errand with
  | .idle => (c.work? false).getD c.submitNext
  | _ => (c.receive? .zero).getD c

/-- However often this is done, it is made of steps. -/
theorem reaches_advance (n : Nat) {c c' : Conveyor α} (h : Reaches c c') :
    Reaches c (n.repeat advance c') := by
  induction n with
  | zero => exact h
  | succ n ih =>
    rw [Nat.repeat]
    generalize n.repeat advance c' = u at ih
    unfold advance
    split
    · rename_i hidle
      cases hwork : u.work? false with
      | none => exact reaches_submitNext ih
      | some u' => exact ih.tail (.work false hidle hwork)
    · cases hreceive : u.receive? .zero with
      | none => exact ih
      | some u' => exact ih.tail (.receive .zero hreceive)

/-- Four frames of the application, of different sizes. -/
def frames : List Store.Op :=
  [.newFrame ⟨#[1, 2]⟩, .newFrame ⟨#[3]⟩, .newFrame ⟨#[4]⟩, .newFrame ⟨#[5, 6]⟩]

/-- They are to be submitted to a pipeline that inverts them and loses every other one. -/
def loaded : Conveyor Nat where
  supervisor := ((ready { discardPolicy := .discardOutput } { transform := some .invert }
    { dropEvery := 2 } (Store.performAll {} frames)).start .zero).2
  todo := [(0, 10), (1, 11), (2, 12), (3, 13)]

/-- All of them were processed. -/
def processed : Conveyor Nat := (14).repeat advance loaded

/-- After fourteen of these moves there is nothing left to do. -/
theorem done_processed : processed.Done where
  todo := rfl
  passage := rfl
  queue := rfl
  errand := rfl
  worker := by
    rintro l w ⟨⟩ ⟨⟩
    rfl

/-- The first frame and the third came back; the second was passed over, and something is pending for
    the fourth. -/
theorem results_of_processed :
    (∃ ms, processed.supervisor.Yields ms ∧ ms.map (·.user) = [10, 12]) ∧
      processed.supervisor.relay.bridge.health.value .stale = 1 ∧
      processed.supervisor.relay.bridge.pending.length = 1 := by
  have hreadable : ∀ x ∈ loaded.todo, ∃ bytes,
      ((Store.performAll {} frames).mapRead x.1).1 = .ok bytes :=
    List.forall_iff_forall_mem.1 ⟨⟨_, rfl⟩, ⟨_, rfl⟩, ⟨_, rfl⟩, ⟨_, rfl⟩⟩
  have htarget : ∀ x ∈ loaded.todo,
      ((Store.performAll {} frames).handle x.1).target = some ⟨x.1, true⟩ :=
    List.forall_iff_forall_mem.1 ⟨rfl, rfl, rfl, rfl⟩
  have hne : loaded.todo.Pairwise fun x y => x.1 ≠ y.1 := by decide
  have hapart : loaded.todo.Pairwise fun x y => (Store.performAll {} frames).Apart x.1 y.1 := by
    refine hne.imp_of_mem fun {x y} hx hy hxy t u ht hu => ?_
    cases (htarget x hx).symm.trans ht
    cases (htarget y hy).symm.trans hu
    exact hxy
  have hstart : (ready { discardPolicy := .discardOutput } { transform := some .invert }
      { dropEvery := 2 } (Store.performAll {} frames)).start .zero = (.ok (), loaded.supervisor) := rfl
  obtain ⟨-, ⟨ms, hyields, hms⟩, hstale, hpending, -⟩ :=
    results_of_reaches (by rfl) (by rfl) (by decide) (by decide) hreadable hapart hstart
      (reaches_advance 14 .refl) done_processed
  refine ⟨⟨ms, hyields, ?_⟩, hstale, hpending⟩
  cases hms with
  | cons hfirst hms =>
    cases hms with
    | cons hthird hms =>
      cases hms
      obtain ⟨x, bytes, hx, huser, -⟩ := hfirst
      obtain ⟨y, bytes', hy, huser', -⟩ := hthird
      cases hx
      cases hy
      rw [List.map_cons, List.map_cons, huser, huser', List.map_nil]

/-- Two frames that share their buffer. -/
def twins : List Store.Op := [.newReference ⟨#[1, 2]⟩, .own 0, .own 0]

/-- They are to be submitted to a pipeline that loses nothing. -/
def paired : Conveyor Nat where
  supervisor := ((ready { discardPolicy := .discardOutput } {} {}
    (Store.performAll {} twins)).start .zero).2
  todo := [(0, 10), (1, 11)]

/-- Both were submitted before the worker came to the first of them. -/
def crossed : Conveyor Nat := (8).repeat advance paired.submitNext.submitNext

/-- After eight moves there is nothing left to do. -/
theorem done_crossed : crossed.Done where
  todo := rfl
  passage := rfl
  queue := rfl
  errand := rfl
  worker := by
    rintro l w ⟨⟩ ⟨⟩
    rfl

/-- The buffer has the id of the second frame by then, so what comes back of the first is taken for the
    second, and for what comes back of the second there is no entry left. -/
theorem users_crossed : crossed.supervisor.relay.bridge.output.items.map (·.user) = [11] := by
  decide

/-- So frames that share a buffer do not all come back, even if none is lost. -/
theorem not_results_of_shared :
    ¬∀ (settings : Settings) (o : LoopbackOptions) (f : Faults) (ops : List Store.Op)
        (uptime : Span) (frames : List (HandleId × Nat)) (s : Supervisor Loopback Nat)
        (c : Conveyor Nat),
      settings.discardPolicy = .discardOutput → f.stripsIds = false →
      frames.length ≤ settings.maxOutputQueue.toNat → frames.length ≤ settings.maxPending.toNat →
      (∀ x ∈ frames, ∃ bytes, ((Store.performAll {} ops).mapRead x.1).1 = .ok bytes) →
      (ready settings o f (Store.performAll {} ops)).start uptime = (.ok (), s) →
      Reaches { supervisor := s, todo := frames } c → c.Done →
      ∃ ms, c.supervisor.Yields ms ∧ ms.map (some ·.user) =
        (kept f.dropEvery frames.length).map fun i => frames[i]?.map (·.2) := by
  intro h
  have hreadable : ∀ x ∈ paired.todo, ∃ bytes,
      ((Store.performAll {} twins).mapRead x.1).1 = .ok bytes :=
    List.forall_iff_forall_mem.1 ⟨⟨_, rfl⟩, ⟨_, rfl⟩⟩
  have hstart : (ready { discardPolicy := .discardOutput } {} {}
      (Store.performAll {} twins)).start .zero = (.ok (), paired.supervisor) := rfl
  have hreach : Reaches paired crossed :=
    reaches_advance 8 (reaches_submitNext (reaches_submitNext .refl))
  obtain ⟨ms, hyields, husers⟩ := h _ _ _ _ _ _ _ _ rfl rfl (by decide) (by decide) hreadable hstart
    hreach done_crossed
  rw [hyields.eq_items] at husers
  -- one frame came back, and none of the two was lost
  have hone := congrArg List.length users_crossed
  have htwo := congrArg List.length husers
  rw [List.length_map] at hone htwo
  rw [hone] at htwo
  exact absurd htwo (by decide)

end Conveyor

end MediaBridge
