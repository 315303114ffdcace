import MediaBridge.Proofs.Supervisor.Progress

/-! # Keeping track of the frames

`Tracks` says that a view is right about a conveyor.  Every step of one of those at work is a step in
the view, or none: a frame goes on to the next part of it.

* `Tracks.stamp`, `register`, `measure`, `accept`  the steps of a submission;
* `Tracks.work`                                    the worker takes a frame, loses it or copies it;
* `Tracks.receive`                                 the supervisor takes a sample and publishes it;
* `tracks_of_reaches`                              so no steps lose track of the frames.
-/

namespace MediaBridge

open Faults (kept lost Settled)

variable {α : Type v}

namespace Conveyor

open Store (Only)

variable {s₀ s s' : Store} {o : LoopbackOptions} {k : Nat} {v : View α} {g : HandleId}
  {b : BufferId}

/-- A worker is at work. -/
def Driven (s₀ s : Store) (o : LoopbackOptions) (k : Nat) (v : View α) (pipeline : Option Loopback)
    (e : Errand α) : Prop :=
  ∃ l w, pipeline = some l ∧ l.options = o ∧ l.faults.dropEvery = k ∧ l.faults.stripsIds = false ∧
    l.worker = some w ∧ Working s₀ s o k v.past.length v.handles v.buffers w e v.current

/-- How far the frames have come is what a view says. -/
structure Tracks (s₀ : Store) (o : LoopbackOptions) (k : Nat) (frames : List (HandleId × α))
    (c : Conveyor α) (v : View α) : Prop where
  keys : v.keys = frames
  apart : frames.Pairwise fun x y => s₀.Apart x.1 y.1
  todo : c.todo = v.todo
  log : c.log = v.log
  queue : c.supervisor.relay.ingest.queue = v.queued.map (·.frame)
  sound : c.supervisor.relay.store.Sound
  oldHandles : s₀.handles.next ≤ v.handles
  newHandles : v.handles ≤ c.supervisor.relay.store.handles.next
  oldBuffers : s₀.buffers.next ≤ v.buffers
  newBuffers : v.buffers ≤ c.supervisor.relay.store.buffers.next
  resting : Resting s₀ c.supervisor.relay.store o k v
  entering : Entering s₀ c.supervisor.relay.store v.accepted.length v.entering v.stamped c.passage
  filed : Filed k frames.length v.outputs v.log v.settled c.supervisor.relay.bridge
  settled : Settled k v.settled v.past.length
  driven : Driven s₀ c.supervisor.relay.store o k v c.supervisor.pipeline c.errand
  flushing : c.supervisor.relay.ingest.flushing = false
  ended : c.supervisor.relay.ingest.ended = false
  failed : c.supervisor.failed = false
  fatal : c.supervisor.fatal = none
  waiting : c.supervisor.waiting = []
  bus : ∀ m ∈ c.supervisor.bus, m.kind = .phaseChanged

section

variable {frames l₁ l₂ : List (HandleId × α)} {c : Conveyor α} {x : HandleId × α}
  {bytes : ByteArray}

namespace Tracks

/-- All other frames are away from one. -/
theorem away (h : Tracks s₀ o k frames c v) (hkeys : v.keys = l₁ ++ x :: l₂)
    (hmade : s₀.Made x.1 b bytes) : ∀ y ∈ l₁ ++ l₂, s₀.Away y.1 x.1 b := by
  have hapart := h.apart
  rw [← h.keys, hkeys, List.pairwise_append] at hapart
  obtain ⟨-, hlater, hearlier⟩ := hapart
  intro y hy
  rcases List.mem_append.1 hy with hy | hy
  · exact (hearlier y hy x List.mem_cons_self).away hmade
  · exact (List.rel_of_pairwise_cons hlater hy).symm.away hmade

/-- What is done about a frame that is being submitted leaves the others alone. -/
theorem beside (h : Tracks s₀ o k frames c v) (todo : List (HandleId × α))
    (hkeys : v.keys = l₁ ++ x :: l₂) (hmade : s₀.Made x.1 b bytes)
    (ho : Only x.1 b c.supervisor.relay.store s')
    (hp : ∀ p, Store.Undisturbed p c.supervisor.relay.store s')
    (htodo : ∀ y ∈ todo, y ∈ v.todo ∧ y ∈ l₂) (haccepted : ∀ y ∈ v.accepted, y.key ∈ l₁) :
    Resting s₀ s' o k { v with todo } ∧ Driven s₀ s' o k v c.supervisor.pipeline c.errand := by
  have haway := h.away hkeys hmade
  have hshipped : ∀ y ∈ v.accepted, s₀.Away y.frame x.1 b :=
    fun y hy => haway y.key (List.mem_append_left _ (haccepted y hy))
  obtain ⟨hx, hb⟩ := hmade.lt
  constructor
  · have hrest : Resting s₀ c.supervisor.relay.store o k { v with todo } :=
      ⟨fun y hy => h.resting.todo y (htodo y hy).1, h.resting.queued, h.resting.outputs⟩
    -- the frame that is worked on was made at the beginning, so no output shares its buffer
    refine hrest.only ho (Nat.le_trans h.oldHandles h.newHandles)
      (Nat.le_trans h.oldBuffers h.newBuffers) ?_ ?_ (.inl ⟨hx, hb⟩)
    · exact fun y hy => haway y (List.mem_append_right _ (htodo y hy).2)
    · exact fun y hy => hshipped y (List.mem_append_right _ hy)
  · -- neither the frame the worker holds nor its own buffers are this one
    obtain ⟨l, w, hl, ho', hk, hstrips, hw, hworking⟩ := h.driven
    refine ⟨l, w, hl, ho', hk, hstrips, hw, hworking.only ho hp ?_ ?_ ?_⟩
    · exact fun y hy => hshipped y (List.mem_append_left _ (List.mem_append_right _ hy))
    · exact Nat.lt_of_lt_of_le hx h.oldHandles
    · exact Nat.lt_of_lt_of_le hb h.oldBuffers

/-! ## The steps of a submission -/

/-- A frame that is stamped is in the view as stamped. -/
theorem stamp {frame : HandleId} {user : α} {rest : List (HandleId × α)} {store : Store}
    {t : Timing} {now : ClockTime} (h : Tracks s₀ o k frames c v) (hpassage : c.passage = .idle)
    (htodo : c.todo = (frame, user) :: rest)
    (hset : c.supervisor.relay.store.setTiming frame t = .ok store) (stalls : Nat) :
    Tracks s₀ o k frames
      { c with
        supervisor := { c.supervisor with stalls, relay := { c.supervisor.relay with store } }
        passage := .stamped ⟨frame, user, t⟩ now
        todo := rest }
      { v with stamped := [⟨frame, user, t⟩], todo := rest } := by
  have hv := h.todo.symm.trans htodo
  have hentering := h.entering
  rw [hpassage] at hentering
  obtain ⟨hnone, hunstamped⟩ := hentering
  have hkeys : v.keys = v.log.map Shipment.key ++ (frame, user) :: rest := by
    rw [View.keys, hunstamped, hv, List.append_nil]
  obtain ⟨b, bytes, m, info, hmade, hbears, rfl, ho⟩ :=
    (h.resting.todo (frame, user) (hv ▸ List.mem_cons_self)).setTiming hset
  have hp := fun p => Store.undisturbed_updateInfo (p := p) h.sound hset
  obtain ⟨hresting, hdriven⟩ := h.beside rest hkeys hmade ho hp
    (fun y hy => ⟨hv ▸ List.mem_cons_of_mem _ hy, hy⟩)
    (fun y hy => List.mem_map_of_mem (List.mem_append_left _ hy))
  exact { h with
    keys := by
      rw [← h.keys, hkeys]
      simp [View.keys, View.log, View.accepted, Shipment.key]
    todo := rfl
    sound := h.sound.updateInfo hset
    newHandles := Nat.le_trans h.newHandles ho.handles
    newBuffers := Nat.le_trans h.newBuffers ho.buffers
    resting := { hresting with }
    entering := ⟨hnone, rfl, b, bytes, m, info, hmade, hbears, rfl⟩
    driven := hdriven }

/-- A stamped frame that is registered gets the next id and is on the log. -/
theorem register {x : Shipment α} {now : ClockTime} {t : Ticket} {relay : Relay α}
    (h : Tracks s₀ o k frames c v) (hpassage : c.passage = .stamped x now)
    (hregister : c.supervisor.relay.register x.frame x.user = (.registered t, relay)) :
    Tracks s₀ o k frames
      { c with
        supervisor := { c.supervisor with relay }
        passage := .registered t now
        log := c.log ++ [x] }
      { v with entering := [x], stamped := [] } := by
  have hentering := h.entering
  rw [hpassage] at hentering
  obtain ⟨hnone, hstamped, b, bytes, m, info, hmade, hbears, htiming⟩ := hentering
  have hlog : v.log = v.accepted := by rw [View.log, hnone, List.append_nil]
  have hkeys : v.keys = v.log.map Shipment.key ++ x.key :: v.todo := by
    rw [View.keys, hstamped, List.map_append, List.append_assoc]
    rfl
  obtain ⟨hid, hframe, hingest, hbridge, hbears', hproceeds⟩ :=
    Relay.register_of_bears hbears hregister
  have hp := hproceeds.undisturbed h.sound
  obtain ⟨hresting, hdriven⟩ := h.beside v.todo hkeys hmade hproceeds.only hp
    (fun y hy => ⟨hy, hy⟩) (fun y hy => List.mem_map_of_mem (List.mem_append_left _ hy))
  -- this frame is one of those that are to be submitted, so there is room for its entry
  have hn : v.log.length + 1 ≤ frames.length := by
    rw [← h.keys, hkeys]
    simp
  have hsettled : v.settled ≤ v.log.length := by
    have hle := h.settled.le
    simp only [View.log, View.accepted, List.length_append]
    omega
  have hfiled := h.filed.enter x hn hsettled
  rw [← htiming, ← hbridge, hlog] at hfiled
  rw [h.filed.nextId, hlog] at hid hbears'
  exact { h with
    keys := by
      rw [← h.keys, hkeys, hlog]
      simp [View.keys, View.log, View.accepted, Shipment.key]
    log := by
      show c.log ++ [x] = v.accepted ++ [x]
      rw [h.log, hlog]
    queue := hingest ▸ h.queue
    sound := hproceeds.sound h.sound
    newHandles := Nat.le_trans h.newHandles hproceeds.only.handles
    newBuffers := Nat.le_trans h.newBuffers hproceeds.only.buffers
    resting := { hresting with }
    entering := by
      refine ⟨rfl, x, rfl, hframe, b, bytes, hmade, ?_⟩
      rw [Shipment.infoAt, Shipment.timingAt, ← htiming]
      exact hbears'
    filed := hfiled
    driven := hdriven
    flushing := hingest ▸ h.flushing
    ended := hingest ▸ h.ended }

/-- Measuring a frame leaves the view as it is. -/
theorem measure {t : Ticket} {now : ClockTime} {offer : Offer} {relay : Relay α}
    (h : Tracks s₀ o k frames c v) (hpassage : c.passage = .registered t now)
    (hmeasure : c.supervisor.relay.measure t = (some offer, relay)) :
    Tracks s₀ o k frames
      { c with supervisor := { c.supervisor with relay }, passage := .offered ⟨t, offer, now⟩ } v := by
  have hentering := h.entering
  rw [hpassage] at hentering
  obtain ⟨hunstamped, x, hx, hframe, b, bytes, hmade, hbears⟩ := hentering
  have hkeys : v.keys = v.accepted.map Shipment.key ++ x.key :: v.todo := by
    rw [View.keys, View.log, hx, hunstamped]
    simp
  rw [← hframe] at hbears
  obtain ⟨hoffer, hingest, hbridge, hheld, hproceeds⟩ := Relay.measure_of_bears hbears hmeasure
  rw [hframe] at hoffer hheld hproceeds
  have hp := hproceeds.undisturbed h.sound
  obtain ⟨hresting, hdriven⟩ := h.beside v.todo hkeys hmade hproceeds.only hp
    (fun y hy => ⟨hy, hy⟩) (fun y hy => List.mem_map_of_mem hy)
  exact { h with
    queue := hingest ▸ h.queue
    sound := hproceeds.sound h.sound
    newHandles := Nat.le_trans h.newHandles hproceeds.only.handles
    newBuffers := Nat.le_trans h.newBuffers hproceeds.only.buffers
    resting := hresting
    entering := ⟨hunstamped, x, hx, hoffer, b, bytes, hmade, hheld⟩
    filed := hbridge ▸ h.filed
    driven := hdriven
    flushing := hingest ▸ h.flushing
    ended := hingest ▸ h.ended }

/-- A frame that is accepted is the last one in the queue. -/
theorem accept {w : Waiter} {relay : Relay α} (h : Tracks s₀ o k frames c v)
    (hpassage : c.passage = .offered w)
    (hresume : c.supervisor.relay.resume? w.ticket w.offer = some (true, relay)) :
    ∃ v', Tracks s₀ o k frames
      { c with supervisor := { c.supervisor with relay }, passage := .accepted w.now } v' := by
  have hentering := h.entering
  rw [hpassage] at hentering
  obtain ⟨hunstamped, x, hx, hframe, hcarries⟩ := hentering
  cases Relay.resume?_of_accepted hresume
  have hlog : v.log = ({ v with queued := v.queued ++ [x], entering := [] } : View α).log := by
    simp [View.log, View.accepted, hx]
  have hqueued : Resting s₀ c.supervisor.relay.store o k { v with queued := v.queued ++ [x] } := by
    refine { h.resting with queued := fun j y hy => ?_ }
    rcases Nat.lt_trichotomy j v.queued.length with hlt | rfl | hgt
    · rw [List.getElem?_append_left hlt] at hy
      exact h.resting.queued j y hy
    -- the frame got its id when as many were accepted as are before it now
    · rw [List.getElem?_concat_length] at hy
      cases hy
      rw [View.accepted, List.length_append] at hcarries
      exact hcarries
    · rw [List.getElem?_eq_none (by rw [List.length_append]; exact hgt)] at hy
      cases hy
  refine ⟨{ v with queued := v.queued ++ [x], entering := [] }, { h with
    keys := ?_
    log := h.log.trans hlog
    queue := ?_
    resting := { hqueued with }
    entering := ⟨rfl, hunstamped⟩
    filed := ?_ }⟩
  · rw [← h.keys, View.keys, View.keys, ← hlog]
  · rw [Ingest.queue_accept, h.queue, hframe, List.map_append]
    rfl
  · rw [← hlog]
    refine { h.filed with stale := ?_ }
    have hvalue : (c.supervisor.relay.bridge.confirm w.ticket.size).health.value .stale =
        c.supervisor.relay.bridge.health.value .stale := by
      simp [Bridge.confirm, Health.recordSubmit, Health.bump]
    exact hvalue.trans h.filed.stale

/-- The frame clock is no part of the view. -/
theorem commit {now : ClockTime} (h : Tracks s₀ o k frames c v)
    (hpassage : c.passage = .accepted now) :
    Tracks s₀ o k frames { c with supervisor := c.supervisor.commit now, passage := .idle } v := by
  have hentering := h.entering
  rw [hpassage] at hentering
  exact { h with entering := hentering }

/-! ## The steps of the worker -/

/-- What is done about a frame that was accepted leaves those alone that come behind it. -/
theorem worked {x : Shipment α} {ingest : Ingest} {pipeline : Option Loopback} {e : Errand α}
    (h : Tracks s₀ o k frames c v) (past current queued : List (Shipment α))
    (haccepted : past ++ current ++ queued = v.accepted)
    (hkeys : v.keys = l₁ ++ x.key :: ((queued ++ v.entering ++ v.stamped).map Shipment.key ++ v.todo))
    (hmade : s₀.Made x.frame b bytes) (hsound : s'.Sound)
    (ho : Only x.frame b c.supervisor.relay.store s')
    (hresting : Resting s₀ c.supervisor.relay.store o k { v with past, current, queued })
    (hsettled : Settled k v.settled past.length)
    (hdriven : Driven s₀ s' o k { v with past, current, queued } pipeline e)
    (hqueue : ingest.queue = queued.map (·.frame)) (hflushing : ingest.flushing = false)
    (hended : ingest.ended = false) :
    Tracks s₀ o k frames
      { c with
        supervisor := { c.supervisor with
          pipeline, relay := { c.supervisor.relay with store := s', ingest } }
        errand := e }
      { v with past, current, queued } := by
  have haway := h.away hkeys hmade
  have hshipped : ∀ y ∈ queued ++ v.entering ++ v.stamped, s₀.Away y.frame x.frame b :=
    fun y hy => haway y.key
      (List.mem_append_right _ (List.mem_append_left _ (List.mem_map_of_mem hy)))
  have hlog : ({ v with past, current, queued } : View α).log = v.log := by
    rw [View.log, View.accepted, haccepted]
    rfl
  exact { h with
    keys := by
      rw [← h.keys, View.keys, View.keys, hlog]
    log := h.log.trans hlog.symm
    queue := hqueue
    sound := hsound
    newHandles := Nat.le_trans h.newHandles ho.handles
    newBuffers := Nat.le_trans h.newBuffers ho.buffers
    resting := by
      refine hresting.only ho (Nat.le_trans h.oldHandles h.newHandles)
        (Nat.le_trans h.oldBuffers h.newBuffers) ?_ ?_ (.inl hmade.lt)
      · exact fun y hy => haway y (List.mem_append_right _ (List.mem_append_right _ hy))
      · exact fun y hy => hshipped y (List.mem_append_left _ (List.mem_append_left _ hy))
    entering := by
      rw [View.accepted, haccepted]
      refine h.entering.only ho fun y hy => hshipped y ?_
      rw [List.append_assoc]
      exact List.mem_append_right _ hy
    filed := by
      rw [hlog]
      exact h.filed
    settled := hsettled
    driven := hdriven
    flushing := hflushing
    ended := hended }

/-- The worker takes the first of the queued frames, and keeps or loses it. -/
theorem take {r : WorkerStep} {l : Loopback} {w : Worker} {waited : Bool}
    (h : Tracks s₀ o k frames c v) (hoptions : l.options = o) (hdrops : l.faults.dropEvery = k)
    (hstrips : l.faults.stripsIds = false) (hactivity : w.activity = .polling)
    (hpulled : w.pulled = v.past.length) (hequipped : w.Equipped c.supervisor.relay.store)
    (hcurrent : v.current = [])
    (hstep : w.step? l.options l.faults c.supervisor.relay.store c.supervisor.relay.ingest
      c.supervisor.egress.caps waited = some r) :
    ∃ v', Tracks s₀ o k frames (c.worked r { l with worker := some r.worker }) v' := by
  cases hqueued : v.queued with
  -- with nothing in the ingest, and the stream not over, the worker would have waited
  | nil =>
    have hempty : c.supervisor.relay.ingest.queue = [] := by rw [h.queue, hqueued]; rfl
    obtain ⟨input, rest, freed, hqueue, -⟩ := Worker.pulls_of_step? hactivity h.ended hstep
    cases hempty.symm.trans hqueue
  | cons x rest =>
    have hqueue : c.supervisor.relay.ingest.queue = x.frame :: rest.map (·.frame) := by
      rw [h.queue, hqueued]
      rfl
    obtain ⟨b, bytes, hmade, hheld⟩ := h.resting.queued 0 x (by rw [hqueued]; rfl)
    have hplace : (v.past ++ v.current).length + 0 = v.past.length := by
      rw [hcurrent, List.append_nil, Nat.add_zero]
    rw [hplace] at hheld
    obtain ⟨⟨freed, hingest⟩, hitem, htakes, hsound, ho⟩ :=
      Worker.takes_of_step? hequipped h.sound hactivity h.ended hqueue hheld hstep
    have hkeys : v.keys = v.past.map Shipment.key ++
        x.key :: ((rest ++ v.entering ++ v.stamped).map Shipment.key ++ v.todo) := by
      simp [View.keys, View.log, View.accepted, hcurrent, hqueued]
    have haccepted : v.accepted = v.past ++ [x] ++ rest := by
      simp [View.accepted, hcurrent, hqueued]
    -- those behind it move up by one place
    have hbehind := h.resting.behind hcurrent hqueued
    have hflushing : r.ingest.flushing = false := by
      rw [hingest]
      exact h.flushing
    have hended : r.ingest.ended = false := by
      rw [hingest]
      exact h.ended
    have hqueue' : r.ingest.queue = rest.map (·.frame) := by rw [hingest]
    rw [worked_of_none hitem]
    generalize r.worker = w' at htakes
    generalize r.store = store at htakes hsound ho
    cases htakes with
    -- the frame goes past without a result
    | lost hlost hequipped' =>
      rw [hpulled, Faults.drops_succ_iff, hdrops] at hlost
      have hlength : (v.past ++ [x]).length = v.past.length + 1 := List.length_append
      refine ⟨_, h.worked (v.past ++ [x]) [] rest ?_ hkeys hmade
        hsound ho ?_ ?_ ⟨_, _, rfl, hoptions, hdrops, hstrips, rfl, ?_⟩ hqueue' hflushing hended⟩
      · rw [haccepted, List.append_nil]
      · refine { h.resting with queued := fun j y hy => ?_, outputs := ?_ }
        · show y.Carries ((v.past ++ [x] ++ []).length + j) s₀
            (c.supervisor.relay.store.Held y.frame)
          rw [List.append_nil]
          exact hbehind j y hy
        · rw [hlength, Faults.kept_succ_of_dvd hlost]
          exact h.resting.outputs.imp fun m i hm =>
            hm.snoc rfl (Nat.le_refl _) (Nat.le_refl _)
      · exact hlength ▸ h.settled.snoc hlost
      · refine .polling hactivity ?_ hequipped'
        rw [hlength, hpulled]
    | held hkept hpulled' hactivity' hbears hfitted =>
      rw [hpulled] at hkept hpulled'
      have hkept' : ¬k ∣ v.past.length + 1 := by
        rw [← hdrops, ← Faults.drops_succ_iff, hkept]
        nofun
      refine ⟨_, h.worked v.past [x] rest haccepted.symm hkeys
        hmade hsound ho ?_ h.settled ⟨_, _, rfl, hoptions, hdrops, hstrips, rfl, ?_⟩ hqueue'
        hflushing hended⟩
      · exact { h.resting with queued := hbehind }
      · exact .holding hactivity' hpulled' hkept' ⟨b, bytes, hmade, hbears, hfitted⟩

/-- The worker copies the frame that it holds, and hands the copy over. -/
theorem copy {r : WorkerStep} {l : Loopback} {w : Worker} {waited : Bool} {x : Shipment α}
    (h : Tracks s₀ o k frames c v) (hoptions : l.options = o) (hdrops : l.faults.dropEvery = k)
    (hstrips : l.faults.stripsIds = false) (hactivity : w.activity = .holding x.frame)
    (hpulled : w.pulled = v.past.length + 1) (hkept : ¬k ∣ v.past.length + 1)
    (hcarries : x.Carries v.past.length s₀ fun b c' =>
      c.supervisor.relay.store.Bears x.frame b .readable c' ∧
        w.Fitted c.supervisor.relay.store c'.bytes.size)
    (hcurrent : v.current = [x])
    (hstep : w.step? l.options l.faults c.supervisor.relay.store c.supervisor.relay.ingest
      c.supervisor.egress.caps waited = some r) :
    ∃ v', Tracks s₀ o k frames (c.worked r { l with worker := some r.worker }) v' := by
  obtain ⟨b, bytes, hmade, hbears, hfitted⟩ := hcarries
  -- the copy is lent by the worker's own pool, so the frame is read and not touched
  obtain ⟨b', hitem, hingest, hworker, hequipped, hheld, hb', hsound, ho⟩ :=
    Worker.copies_of_step? h.sound hactivity hbears hfitted rfl hstrips hstep
  have hkeys : v.keys = v.past.map Shipment.key ++
      x.key :: ((v.queued ++ v.entering ++ v.stamped).map Shipment.key ++ v.todo) := by
    simp [View.keys, View.log, View.accepted, hcurrent]
  rw [worked_of_sample hitem, hingest]
  rw [hoptions] at hheld
  refine ⟨_, h.worked v.past v.current v.queued rfl hkeys hmade
    hsound ho h.resting h.settled ⟨_, _, rfl, hoptions, hdrops, hstrips, rfl, ?_⟩ h.queue h.flushing
    h.ended⟩
  rw [hworker, hcurrent]
  exact .handed rfl hpulled hequipped hkept h.newHandles (Nat.le_trans h.newBuffers hb')
    ⟨b, bytes, hmade, hheld⟩

/-- A step of the worker. -/
theorem work {c' : Conveyor α} {waited : Bool} (h : Tracks s₀ o k frames c v)
    (hidle : c.errand = .idle) (hwork : c.work? waited = some c') :
    ∃ v', Tracks s₀ o k frames c' v' := by
  obtain ⟨l, w, hpipeline, hoptions, hdrops, hstrips, hworker, hworking⟩ := h.driven
  obtain ⟨l', hl', hstepped⟩ := Option.bind_eq_some_iff.1 hwork
  cases hpipeline.symm.trans hl'
  obtain ⟨⟨r, l'⟩, hstep, rfl⟩ := Option.map_eq_some_iff.1 hstepped
  obtain ⟨w', hw', hstep⟩ := Option.bind_eq_some_iff.1 hstep
  cases hworker.symm.trans hw'
  obtain ⟨r', hr, heq⟩ := Option.map_eq_some_iff.1 hstep
  cases heq
  rw [hidle] at hworking
  generalize hcurrent : v.current = current at hworking
  cases hworking with
  | polling hactivity hpulled hequipped =>
    exact h.take hoptions hdrops hstrips hactivity hpulled hequipped hcurrent hr
  | holding hactivity hpulled hkept hcarries =>
    exact h.copy hoptions hdrops hstrips hactivity hpulled hkept hcarries hcurrent hr

/-! ## The steps of the supervisor -/

/-- What is done about a sample leaves the frames alone. -/
theorem beyond (h : Tracks s₀ o k frames c v) (hg : v.handles ≤ g) (hb : v.buffers ≤ b)
    (ho : Only g b c.supervisor.relay.store s') :
    Resting s₀ s' o k v ∧ Entering s₀ s' v.accepted.length v.entering v.stamped c.passage := by
  have hg₀ := Nat.le_trans h.oldHandles hg
  have hb₀ := Nat.le_trans h.oldBuffers hb
  refine ⟨h.resting.only ho (Nat.le_trans h.oldHandles h.newHandles)
    (Nat.le_trans h.oldBuffers h.newBuffers) ?_ ?_ (.inr ⟨hg, hb⟩), h.entering.only ho ?_⟩
  · exact fun x hx => (h.resting.todo x hx).away hg₀ hb₀
  · intro x hx
    obtain ⟨j, hj⟩ := List.getElem?_of_mem hx
    obtain ⟨b', bytes, hmade, -⟩ := h.resting.queued j x hj
    exact hmade.away hg₀ hb₀
  · intro x hx
    obtain ⟨b', bytes, hmade⟩ := h.entering.made x hx
    exact hmade.away hg₀ hb₀

/-- The supervisor takes the payload of the sample it was handed. -/
theorem taken {y : Sample} {uptime : Span} {c' : Conveyor α} (h : Tracks s₀ o k frames c v)
    (herrand : c.errand = .handed y) (hreceive : c.receive? uptime = some c') :
    Tracks s₀ o k frames c' v := by
  obtain ⟨l, w, hpipeline, hoptions, hdrops, hstrips, hworker, hworking⟩ := h.driven
  rw [herrand] at hworking
  generalize hcurrent : v.current = current at hworking
  cases hworking with
  | @handed x _ b hactivity hpulled hequipped hkept hhandles hbuffers hcarries =>
    obtain ⟨b₀, bytes, hmade, hheld⟩ := hcarries
    obtain ⟨copy, b', s', htaken, hfresh, hcopy, hb', ho⟩ :=
      Store.takePayload_of_held hheld rfl
    obtain ⟨ops, hops, hstore⟩ := c.supervisor.relay.store.through_takePayload y.frame
    rw [htaken] at hstore
    obtain ⟨hsound, hp, -⟩ := h.sound.through ops hops
    rw [← hstore] at hsound hp
    obtain ⟨hresting, hentering⟩ := h.beyond hhandles hbuffers ho
    cases hreceive.symm.trans (receive?_of_copied herrand htaken)
    exact { h with
      sound := hsound
      newHandles := Nat.le_trans h.newHandles ho.handles
      newBuffers := Nat.le_trans h.newBuffers ho.buffers
      resting := hresting
      entering := hentering
      driven := by
        refine ⟨l, w, hpipeline, hoptions, hdrops, hstrips, hworker, ?_⟩
        rw [hcurrent]
        exact .copied hactivity hpulled (hequipped.of_undisturbed hp) hkept
          (Nat.le_trans h.newHandles hcopy) (Nat.le_trans h.newBuffers hb')
          ⟨b₀, bytes, hmade, hfresh⟩ }

/-- The copy is matched with its entry and put into the output. -/
theorem matched {y : Sample} {copy : HandleId} {id : Nat} {uptime : Span} {c' : Conveyor α}
    (h : Tracks s₀ o k frames c v) (herrand : c.errand = .copied y copy id)
    (hreceive : c.receive? uptime = some c') : ∃ v', Tracks s₀ o k frames c' v' := by
  obtain ⟨l, w, hpipeline, hoptions, hdrops, hstrips, hworker, hworking⟩ := h.driven
  rw [herrand] at hworking
  generalize hcurrent : v.current = current at hworking
  cases hworking with
  | @copied x _ _ b hactivity hpulled hequipped hkept hhandles hbuffers hcarries =>
    obtain ⟨b₀, bytes, hmade, hfresh⟩ := hcarries
    have hlog : v.log = v.past ++ x :: (v.queued ++ v.entering) := by
      simp [View.log, View.accepted, hcurrent]
    -- results come in the order of acceptance, so its entry is there and the older ones are passed
    -- over
    have hresolve := h.filed.resolve hlog h.settled.le
    have hlength : v.past.length + 1 ≤ frames.length := by
      rw [← h.keys, View.keys, hlog]
      simp
    -- all that came back before was kept, and there is room for all frames
    have hroom : c.supervisor.relay.bridge.output.items.length <
        c.supervisor.relay.bridge.output.capacity := by
      have hle := Faults.length_kept_le k v.past.length
      have hcapacity := h.filed.capacity
      rw [h.filed.items, h.resting.outputs.length_eq]
      omega
    obtain ⟨relay, hmatch, hingest, hfresh', hproceeds, hpolicy, hmax, hpending, houtput, hstale⟩ :=
      Relay.matchCopy_of_fresh hfresh h.filed.policy hroom (congrArg (·.1.result) hresolve)
    have hreply := Supervisor.reply_of_delivering
      (s := ({ c.supervisor with relay } : Supervisor Loopback α).markDelivery uptime)
      hpipeline hworker hactivity
    have hc' : c' = { c with
        supervisor :=
          (({ c.supervisor with relay } : Supervisor Loopback α).markDelivery uptime).reply .ok
        errand := .idle } := by
      simp only [receive?, herrand, hmatch, concluded, Supervisor.conclude, Option.map_some,
        Option.getD_some, Option.some.injEq] at hreceive
      exact hreceive.symm
    have ho := hproceeds.only
    obtain ⟨hresting, hentering⟩ := h.beyond hhandles hbuffers ho
    have haccepted : v.accepted = v.past ++ [x] ++ [] ++ v.queued := by
      simp [View.accepted, hcurrent]
    have hpast : (v.past ++ [x]).length = v.past.length + 1 := List.length_append
    have hheld := hfresh'.held
    rw [hc', hreply]
    refine ⟨{ v with
      outputs := v.outputs ++ [⟨copy, x.user⟩]
      past := v.past ++ [x]
      current := []
      settled := v.past.length + 1
      handles := copy + 1
      buffers := b + 1 }, { h with
        keys := ?_
        log := ?_
        queue := ?_
        sound := hproceeds.sound h.sound
        oldHandles := Nat.le_trans h.oldHandles (Nat.le_succ_of_le hhandles)
        newHandles := hheld.lt_handles
        oldBuffers := Nat.le_trans h.oldBuffers (Nat.le_succ_of_le hbuffers)
        newBuffers := hheld.lt_buffers
        resting := ?_
        entering := ?_
        filed := ?_
        settled := ?_
        driven := ?_
        flushing := ?_
        ended := ?_ }⟩
    · rw [← h.keys, View.keys, View.keys, View.log, View.log, View.accepted, ← haccepted]
    · rw [View.log, View.accepted, ← haccepted]
      exact h.log
    · exact hingest ▸ h.queue
    · refine hresting.snoc hcurrent hkept (Nat.le_succ_of_le hhandles) (Nat.le_succ_of_le hbuffers)
        ⟨x, b, by rw [List.getElem?_concat_length], rfl, Nat.le_trans h.oldHandles hhandles,
          Nat.lt_succ_self _, Nat.le_trans h.oldBuffers hbuffers, Nat.lt_succ_self _, b₀, bytes,
          hmade, hheld⟩
    · rw [View.accepted, ← haccepted]
      exact hentering
    · rw [View.log, View.accepted, ← haccepted]
      exact h.filed.settle hlog h.settled hkept hpolicy hmax hpending houtput hstale
    · rw [hpast]
      exact ⟨Nat.le_refl _, fun i hle hlt => absurd hle (Nat.not_le.2 hlt), .inr hkept⟩
    · refine ⟨_, _, rfl, hoptions, hdrops, hstrips, rfl, ?_⟩
      rw [hpast]
      exact .polling rfl hpulled (hequipped.of_undisturbed (hproceeds.undisturbed h.sound))
    · exact hingest ▸ h.flushing
    · exact hingest ▸ h.ended

/-- The reader takes a message about a move, if there is any. -/
theorem read (h : Tracks s₀ o k frames c v) :
    Tracks s₀ o k frames { c with supervisor := c.supervisor.readNext } v := by
  unfold Supervisor.readNext
  split
  · rename_i m rest hreader hbus
    have hkind := h.bus m (hbus ▸ List.mem_cons_self)
    have hrest : ∀ m' ∈ rest, m'.kind = .phaseChanged :=
      fun m' hm' => h.bus m' (hbus ▸ List.mem_cons_of_mem _ hm')
    cases m with
    | error | endOfStream | warning => cases hkind
    | phaseChanged source old new pending =>
      cases source with
      | pipeline | element name => exact { h with bus := hrest }
  · exact h

/-- The operator may change any fault but those that lose results. -/
theorem control {l : Loopback} {f : Faults} (h : Tracks s₀ o k frames c v)
    (hpipeline : c.supervisor.pipeline = some l) (hdrops : f.dropEvery = l.faults.dropEvery)
    (hstrips : f.stripsIds = l.faults.stripsIds) :
    Tracks s₀ o k frames
      { c with supervisor := { c.supervisor with pipeline := some { l with faults := f } } } v := by
  obtain ⟨l', w, hl', hoptions, hdrops', hstrips', hworker, hworking⟩ := h.driven
  cases hpipeline.symm.trans hl'
  exact { h with
    driven := ⟨_, w, rfl, hoptions, hdrops.trans hdrops', hstrips.trans hstrips', hworker, hworking⟩ }

/-- The steps of the supervisor are the payload taken and the match made. -/
theorem receive {uptime : Span} {c' : Conveyor α} (h : Tracks s₀ o k frames c v)
    (hreceive : c.receive? uptime = some c') : ∃ v', Tracks s₀ o k frames c' v' := by
  cases herrand : c.errand with
  | idle =>
    rw [receive?, herrand] at hreceive
    cases hreceive
  | handed y => exact ⟨v, h.taken herrand hreceive⟩
  | copied y copy id => exact h.matched herrand hreceive
  -- nothing waits for room, since there is always some
  | parked y m =>
    obtain ⟨l, w, -, -, -, -, -, hworking⟩ := h.driven
    rw [herrand] at hworking
    cases hworking

end Tracks

/-- No step loses track of the frames. -/
theorem tracks_of_step {c' : Conveyor α} (h : Tracks s₀ o k frames c v) (hstep : c.Step c') :
    ∃ v', Tracks s₀ o k frames c' v' := by
  cases hstep with
  | stamp uptime stalls hpassage htodo hpipeline hfailed hset =>
    exact ⟨_, h.stamp hpassage htodo hset stalls⟩
  | register hpassage hregister => exact ⟨_, h.register hpassage hregister⟩
  | measure hpassage hmeasure => exact ⟨_, h.measure hpassage hmeasure⟩
  | accept hpassage hresume => exact h.accept hpassage hresume
  | commit hpassage => exact ⟨_, h.commit hpassage⟩
  | work waited hidle hwork => exact h.work hidle hwork
  | receive uptime hreceive => exact h.receive hreceive
  | read => exact ⟨_, h.read⟩
  | control f hpipeline hdrops hstrips => exact ⟨_, h.control hpipeline hdrops hstrips⟩

/-- No steps lose track of the frames. -/
theorem tracks_of_reaches {c' : Conveyor α} (h : Tracks s₀ o k frames c v) (hreach : Reaches c c') :
    ∃ v', Tracks s₀ o k frames c' v' := by
  induction hreach with
  | refl => exact ⟨v, h⟩
  | tail _ hstep ih =>
    obtain ⟨v', h'⟩ := ih
    exact tracks_of_step h' hstep

end

end Conveyor

end MediaBridge
