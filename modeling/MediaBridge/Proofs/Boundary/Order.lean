import MediaBridge.Proofs.Boundary.QueuedBytes
import MediaBridge.Proofs.Trail

/-! # The order of an ingest

Frames leave an ingest because they are pulled, or because it is closed, and both take them in the order
in which they were accepted.  Any number of threads push; a push that has to wait looks again at some
later step, when the ingest may have been closed, opened and ended any number of times.

`Deed` names the steps of `Metered.Step` for what they do to the ingest.

* `does_of_step`         every step has a name;
* `passed_of_does`       what one step does to the order, to the numbers and to the bytes;
* `passes_of_trail`      what any number of steps does.
-/

namespace MediaBridge

/-- An offer is answered with what the ingest answers at this moment. -/
theorem Ingest.answer?_of_settle? {p p' : Ingest} {s s' : Store} {o : Offer} {flow : Flow}
    (h : p.settle? s o = some (flow, p', s')) : p.answer? = some flow := by
  unfold settle? at h
  cases ha : p.answer? with
  | none =>
    rw [ha] at h
    cases h
  | some answer =>
    rw [ha] at h
    cases answer <;> cases h <;> rfl

namespace Metered

/-- What a step does to an ingest. -/
inductive Deed where
  /-- A push has measured its frame. -/
  | offered (o : Offer)
  /-- A push ended with the frame in the queue. -/
  | accepted (o : Offer)
  /-- A push ended with another answer. -/
  | refused (flow : Flow)
  | pulled (h : HandleId)
  /-- The ingest was closed, and these frames were dropped. -/
  | closed (frames : List HandleId)
  | reopened
  | ended
  /-- Somebody else worked with the buffers. -/
  | elsewhere

namespace Deed

/-- The frame that came in. -/
def entered : Deed → List HandleId
  | .accepted o => [o.frame]
  | _ => []

/-- The frame that was pulled. -/
def taken : Deed → List HandleId
  | .pulled h => [h]
  | _ => []

/-- The frames that were dropped. -/
def dropped : Deed → List HandleId
  | .closed frames => frames
  | _ => []

/-- The frames that left, oldest first. -/
def left (d : Deed) : List HandleId := d.taken ++ d.dropped

end Deed

/-- A step with its name. -/
inductive Does (w : Metered) : Deed → Metered → Prop where
  | offer {o : Offer} {w' : Metered} (hstep : w.Step w')
    (hm : w.store.measure o.frame = (some o, w'.store)) (hingest : w'.ingest = w.ingest)
    (hqueued : w'.queued = w.queued) : w.Does (.offered o) w'
  | fail {h : HandleId} {w' : Metered} (hstep : w.Step w')
    (hm : w.store.measure h = (none, w'.store)) (hingest : w'.ingest = w.ingest)
    (hqueued : w'.queued = w.queued) : w.Does (.refused .error) w'
  | accept {o : Offer} {w' : Metered} (hstep : w.Step w')
    (h : w.ingest.settle? w.store o = some (.ok, w'.ingest, w'.store))
    (hqueued : w'.queued = w.queued ++ [o]) : w.Does (.accepted o) w'
  | refuse {o : Offer} {flow : Flow} {w' : Metered} (hstep : w.Step w')
    (h : w.ingest.settle? w.store o = some (flow, w'.ingest, w'.store)) (hflow : flow ≠ .ok)
    (hqueued : w'.queued = w.queued) : w.Does (.refused flow) w'
  | pull {h : HandleId} {w' : Metered} (hstep : w.Step w')
    (hp : w.ingest.pull w.store = some (h, w'.ingest, w'.store))
    (hqueued : w'.queued = w.queued.tail) : w.Does (.pulled h) w'
  | close {w' : Metered} (hstep : w.Step w')
    (hingest : w'.ingest = (w.ingest.setFlushing w.store true).1) (hqueued : w'.queued = []) :
    w.Does (.closed w.ingest.queue) w'
  | reopen {w' : Metered} (hstep : w.Step w')
    (hingest : w'.ingest = (w.ingest.setFlushing w.store false).1)
    (hqueued : w'.queued = w.queued) : w.Does .reopened w'
  | finish {w' : Metered} (hstep : w.Step w') (hingest : w'.ingest = w.ingest.endStream)
    (hqueued : w'.queued = w.queued) : w.Does .ended w'
  | elsewhere (op : Store.Op) {w' : Metered} (hstep : w.Step w')
    (hstore : w'.store = w.store.perform op) (hingest : w'.ingest = w.ingest)
    (hqueued : w'.queued = w.queued) : w.Does .elsewhere w'

variable {w w' : Metered} {d : Deed} {deeds : List Deed} {maxBytes : Nat}

/-- Work with the buffers is a step with a name. -/
theorem does_elsewhere (op : Store.Op) (hop : ∀ h ∈ w.held, op.through ≠ some h) :
    w.Does .elsewhere { w with store := w.store.perform op } :=
  .elsewhere op (.elsewhere op hop) rfl rfl rfl

/-- Every step has a name. -/
theorem does_of_step (hp : w.store.Placed) (h : w.Step w') : ∃ d, w.Does d w' := by
  have hstep := h
  cases h with
  | @measure h o s hfree hm =>
    obtain ⟨rfl, -⟩ := Store.holds_measure hp hm
    exact ⟨_, .offer hstep hm rfl rfl⟩
  | unmeasured h hfree hm => exact ⟨_, .fail hstep hm rfl rfl⟩
  | accept ho h => exact ⟨_, .accept hstep h rfl⟩
  | refuse ho h hflow => exact ⟨_, .refuse hstep h hflow rfl⟩
  | pull hp => exact ⟨_, .pull hstep hp rfl⟩
  | close => exact ⟨_, .close hstep rfl rfl⟩
  | reopen => exact ⟨_, .reopen hstep rfl rfl⟩
  | endStream => exact ⟨_, .finish hstep rfl rfl⟩
  | elsewhere op hop => exact ⟨_, does_elsewhere op hop⟩

/-- A step with a name is a step. -/
theorem Does.step (h : w.Does d w') : w.Step w' := by
  cases h <;> assumption

/-! ## One step -/

/-- What is true of the deeds that led to a state. -/
structure Passed (w : Metered) (maxBytes : Nat) (deeds : List Deed) : Prop where
  sound : w.Sound
  room : w.ingest.maxBytes = maxBytes
  order : deeds.flatMap Deed.left ++ w.ingest.queue = deeds.flatMap Deed.entered
  total : w.ingest.totalPushed = (deeds.flatMap Deed.entered).length
  closed : w.ingest.flushing = true → w.ingest.queue = []
  /-- Before the newest frame came in there was room. -/
  bytes : w.queued ≠ [] → bytes w.queued.dropLast < maxBytes

/-- Nothing came in or left before the first step. -/
theorem passed_new (maxBytes : Nat) : (new maxBytes).Passed maxBytes [] where
  sound := sound_new maxBytes
  room := rfl
  order := rfl
  total := rfl
  closed := fun _ => rfl
  bytes := fun hne => absurd rfl hne

/-- A step that lets no frame in or out. -/
theorem Passed.idle (hw : w.Passed maxBytes deeds) (hs : w'.Sound) (hleft : d.left = [])
    (hentered : d.entered = []) (hroom : w'.ingest.maxBytes = w.ingest.maxBytes)
    (htotal : w'.ingest.totalPushed = w.ingest.totalPushed)
    (hqueued : w'.queued = w.queued)
    (hclosed : w'.ingest.flushing = true → w.ingest.flushing = true) :
    w'.Passed maxBytes (deeds ++ [d]) := by
  have hqueue : w'.ingest.queue = w.ingest.queue := by rw [hs.queue, hw.sound.queue, hqueued]
  constructor
  · exact hs
  · rw [hroom, hw.room]
  · simp only [List.flatMap_append, List.flatMap_singleton, hleft, hentered, List.append_nil, hqueue,
      hw.order]
  · simp only [List.flatMap_append, List.flatMap_singleton, hentered, List.append_nil, htotal,
      hw.total]
  · intro hflush
    rw [hqueue]
    exact hw.closed (hclosed hflush)
  · rw [hqueued]
    exact hw.bytes

/-- A step that leaves the ingest as it is. -/
theorem Passed.same (hw : w.Passed maxBytes deeds) (hs : w'.Sound) (hleft : d.left = [])
    (hentered : d.entered = []) (hingest : w'.ingest = w.ingest) (hqueued : w'.queued = w.queued) :
    w'.Passed maxBytes (deeds ++ [d]) :=
  hw.idle hs hleft hentered (by rw [hingest]) (by rw [hingest]) hqueued (by rw [hingest]; exact id)

/-- A frame that comes in goes to the end of the queue, and there was room for it. -/
theorem Passed.accept {o : Offer} (hw : w.Passed maxBytes deeds) (hs : w'.Sound)
    (h : w.ingest.settle? w.store o = some (.ok, w'.ingest, w'.store))
    (hqueued : w'.queued = w.queued ++ [o]) : w'.Passed maxBytes (deeds ++ [.accepted o]) := by
  obtain ⟨hopen, -, hroom⟩ := Ingest.answer?_eq_ok_iff.1 (Ingest.answer?_of_settle? h)
  obtain ⟨-, hingest, -⟩ | ⟨hflow, -⟩ := Ingest.settle?_cases h
  case inr => exact absurd rfl hflow
  constructor
  · exact hs
  · rw [hingest]
    exact hw.room
  · simp only [List.flatMap_append, List.flatMap_singleton, Deed.left, Deed.taken, Deed.dropped,
      Deed.entered, List.append_nil, hingest, Ingest.queue_accept, ← List.append_assoc, hw.order]
  · simp only [List.flatMap_append, List.flatMap_singleton, Deed.entered, List.length_append,
      List.length_singleton, hingest, Ingest.accept, hw.total]
  · intro hflush
    rw [hingest] at hflush
    exact absurd hopen (by rw [show w.ingest.flushing = true from hflush]; decide)
  · -- the count is never below the queued bytes, so there was room for these before the push
    intro _
    have hcount := hw.sound.count
    rw [hqueued, List.dropLast_concat]
    have hmax := hw.room
    omega

/-- A frame that is pulled was the first in the queue. -/
theorem Passed.pull {h : HandleId} (hw : w.Passed maxBytes deeds) (hs : w'.Sound)
    (hp : w.ingest.pull w.store = some (h, w'.ingest, w'.store))
    (hqueued : w'.queued = w.queued.tail) : w'.Passed maxBytes (deeds ++ [.pulled h]) := by
  obtain ⟨rest, hqueue, -, hingest⟩ := Ingest.pull_cases hp
  constructor
  · exact hs
  · rw [hingest]
    exact hw.room
  · have horder := hw.order
    rw [hqueue] at horder
    simp only [List.flatMap_append, List.flatMap_singleton, Deed.left, Deed.taken, Deed.dropped,
      Deed.entered, List.append_nil, hingest, List.append_assoc, List.singleton_append, horder]
  · simp only [List.flatMap_append, List.flatMap_singleton, Deed.entered, List.append_nil, hingest,
      hw.total]
  · intro hflush
    rw [hingest] at hflush
    have hempty := hw.closed hflush
    rw [hqueue] at hempty
    cases hempty
  · intro hne
    rw [hqueued] at hne ⊢
    cases hold : w.queued with
    | nil =>
      rw [hold] at hne
      exact absurd rfl hne
    | cons o frames =>
      have hbytes := hw.bytes (by rw [hold]; exact List.cons_ne_nil o frames)
      rw [hold, List.tail_cons] at hne
      -- the newest frame is the same as before
      rw [hold, List.dropLast_cons_of_ne_nil hne, bytes_cons] at hbytes
      rw [List.tail_cons]
      omega

/-- Closing the ingest drops what is in the queue, in its order. -/
theorem Passed.close (hw : w.Passed maxBytes deeds) (hs : w'.Sound)
    (hingest : w'.ingest = (w.ingest.setFlushing w.store true).1) (hqueued : w'.queued = []) :
    w'.Passed maxBytes (deeds ++ [.closed w.ingest.queue]) := by
  constructor
  · exact hs
  · rw [hingest]
    exact hw.room
  · have horder := hw.order
    simp only [List.flatMap_append, List.flatMap_singleton, Deed.left, Deed.taken, Deed.dropped,
      Deed.entered, List.append_nil, List.nil_append, hs.queue, hqueued, List.map_nil, horder]
  · simp only [List.flatMap_append, List.flatMap_singleton, Deed.entered, List.append_nil, hingest]
    exact hw.total
  · intro _
    rw [hs.queue, hqueued, List.map_nil]
  · intro hne
    exact absurd hqueued hne

/-- What one step does to the order, to the numbers and to the bytes. -/
theorem passed_of_does (hw : w.Passed maxBytes deeds) (h : w.Does d w') :
    w'.Passed maxBytes (deeds ++ [d]) := by
  have hs := sound_of_step hw.sound h.step
  cases h with
  | offer _ _ hingest hqueued | fail _ _ hingest hqueued | elsewhere _ _ _ hingest hqueued =>
    exact hw.same hs rfl rfl hingest hqueued
  | refuse _ h hflow hqueued =>
    obtain ⟨hok, -⟩ | ⟨-, hingest, -⟩ := Ingest.settle?_cases h
    · exact absurd hok hflow
    · exact hw.same hs rfl rfl hingest hqueued
  | accept _ h hqueued => exact hw.accept hs h hqueued
  | pull _ hp hqueued => exact hw.pull hs hp hqueued
  | close _ hingest hqueued => exact hw.close hs hingest hqueued
  | reopen _ hingest hqueued =>
    exact hw.idle hs rfl rfl (by rw [hingest]; rfl) (by rw [hingest]; rfl) hqueued
      (by rw [hingest]; exact fun h => absurd h Bool.false_ne_true)
  | finish _ hingest hqueued =>
    exact hw.idle hs rfl rfl (by rw [hingest]; rfl) (by rw [hingest]; rfl) hqueued
      (by rw [hingest]; exact id)

/-! ## Any number of steps -/

/-- Order, numbers and bytes after any number of steps. -/
theorem passed_of_trail (h : Trail Does (new maxBytes) deeds w) : w.Passed maxBytes deeds := by
  induction h with
  | refl => exact passed_new maxBytes
  | tail _ hdoes ih => exact passed_of_does ih hdoes

/-- The steps that lead to a state can be named. -/
theorem trail_of_reaches (h : (new maxBytes).Reaches w) :
    ∃ deeds, Trail Does (new maxBytes) deeds w := by
  induction h with
  | refl => exact ⟨[], .refl⟩
  | tail _ hstep ih =>
    obtain ⟨deeds, htrail⟩ := ih
    obtain ⟨d, hdoes⟩ := does_of_step (passed_of_trail htrail).sound.placed hstep
    exact ⟨_, htrail.tail hdoes⟩

/-- Of the frames that left, some were pulled. -/
theorem taken_sublist_left (deeds : List Deed) :
    (deeds.flatMap Deed.taken).Sublist (deeds.flatMap Deed.left) := by
  induction deeds with
  | nil => exact .refl _
  | cons d rest ih =>
    simp only [List.flatMap_cons, Deed.left]
    exact (List.sublist_append_left ..).append ih

/-- A frame that left was pulled or dropped. -/
theorem length_left (deeds : List Deed) : (deeds.flatMap Deed.left).length =
    (deeds.flatMap Deed.taken).length + (deeds.flatMap Deed.dropped).length := by
  induction deeds with
  | nil => rfl
  | cons d rest ih =>
    simp only [List.flatMap_cons, Deed.left, List.length_append] at ih ⊢
    omega

/-- Frames leave in the order in which they were accepted, and those that are pulled are some of them.
    Every frame that was ever accepted was pulled, was dropped, or is queued; an ingest that is closed
    holds none; and without the newest one the queued frames have less than the bytes at which a push
    has to wait.  Whatever happens next, a frame is accepted only if the ingest is open and its stream
    goes on, and a push that ends otherwise leaves the ingest as it was. -/
theorem passes_of_trail (h : Trail Does (new maxBytes) deeds w) :
    deeds.flatMap Deed.left ++ w.ingest.queue = deeds.flatMap Deed.entered ∧
      (deeds.flatMap Deed.taken).Sublist (deeds.flatMap Deed.entered) ∧
      w.ingest.totalPushed = (deeds.flatMap Deed.taken).length +
        (deeds.flatMap Deed.dropped).length + w.ingest.queue.length ∧
      (w.ingest.flushing = true → w.ingest.queue = []) ∧
      w.ingest.queue = w.queued.map (·.frame) ∧ (∀ o ∈ w.queued, w.store.Holds o) ∧
      (w.queued ≠ [] → bytes w.queued.dropLast < maxBytes) ∧
      (∀ w', w.Step w' → ∃ d, w.Does d w') ∧
      ∀ d w', w.Does d w' →
        (∀ o, d = .accepted o → w.ingest.flushing = false ∧ w.ingest.ended = false) ∧
        (∀ flow, d = .refused flow → flow ≠ .ok ∧ w'.ingest = w.ingest) := by
  have hw := passed_of_trail h
  refine ⟨hw.order, ?_, ?_, hw.closed, hw.sound.queue, ?_, hw.bytes, ?_, ?_⟩
  · -- those that were pulled are some of those that left, and these a beginning of those that came
    -- in
    rw [← hw.order]
    exact (taken_sublist_left deeds).trans (List.sublist_append_left ..)
  · rw [hw.total, ← hw.order, List.length_append, length_left]
  · intro o ho
    exact hw.sound.holds o (List.mem_append_right _ ho)
  · intro w' hstep
    exact does_of_step hw.sound.placed hstep
  · -- an answer is given by the ingest as it is when the push looks
    intro d w' hdoes
    constructor
    · rintro o rfl
      cases hdoes with
      | accept _ hs _ =>
        obtain ⟨hopen, hgoes, -⟩ := Ingest.answer?_eq_ok_iff.1 (Ingest.answer?_of_settle? hs)
        exact ⟨hopen, hgoes⟩
    · rintro flow rfl
      cases hdoes with
      | fail _ _ hingest _ => exact ⟨nofun, hingest⟩
      | refuse _ hs hflow _ =>
        obtain ⟨hok, -⟩ | ⟨-, hingest, -⟩ := Ingest.settle?_cases hs
        · exact absurd hok hflow
        · exact ⟨hflow, hingest⟩

/-- Two frames of four bytes were pushed where there is room for one.  The first one was pulled, and the
    second one was dropped. -/
theorem passes_of_closed : ∃ (deeds : List Deed) (w : Metered), Trail Does (new 4) deeds w ∧
    deeds.flatMap Deed.taken = [0] ∧ deeds.flatMap Deed.dropped = [1] ∧
      deeds.flatMap Deed.left ++ [] = deeds.flatMap Deed.entered ∧ w.ingest.totalPushed = 1 + 1 + 0 := by
  have hstart : Trail Does (new 4) [] (new 4) := .refl
  have hopen := hstart.tail (.reopen .reopen rfl rfl)
  have hmade := (hopen.tail (does_elsewhere (.newFrame ⟨#[1, 2, 3, 4]⟩) nofun)).tail
    (does_elsewhere (.newFrame ⟨#[5, 6, 7, 8]⟩) nofun)
  have hfirst := hmade.tail (.offer (o := ⟨0, 4⟩) (.measure 0 nofun rfl) rfl rfl rfl)
  have hboth := hfirst.tail (.offer (o := ⟨1, 4⟩) (.measure 1 (by decide) rfl) rfl rfl rfl)
  have haccepted := hboth.tail (.accept (.accept (.swap _ _ _) rfl) rfl rfl)
  have hpulled := haccepted.tail (.pull (.pull rfl) rfl rfl)
  have hsecond := hpulled.tail (.accept (.accept (.refl _) rfl) rfl rfl)
  have hclosed := (hsecond.tail (.finish .endStream rfl rfl)).tail (.close .close rfl rfl)
  obtain ⟨horder, -, htotal, -⟩ := passes_of_trail hclosed
  exact ⟨_, _, hclosed, rfl, rfl, horder, htotal⟩

end Metered

end MediaBridge
