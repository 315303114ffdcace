import MediaBridge.Proofs.Buffer.Copy
import MediaBridge.Proofs.Correspondence.Ascending

/-! # What submissions and deliveries come to

A submission or a delivery goes through several steps with early ends.  Each of them has one inductive
predicate here that lists its ends, with what is known there and the relay that is left; later proofs
go by these cases and do not open the operations again.

* `registers_register`   the three ends of a registration;
* `submits_submit`       the five ends of a submission;
* `publishes_publish`    the three ends of a publication;
* `delivers_deliver`     the five ends of the delivery of a sample;
* `deliver_of_found`     the one that is meant to be.

What becomes of the buffers is left open except where a frame goes on.
-/

namespace MediaBridge

variable {α : Type u}

namespace Bridge

/-! ## What stays as it is -/

/-- Notices in the log leave the matched frames alone. -/
@[simp] theorem output_noteIf (b : Bridge α) (due : Bool) (n : Notice) :
    (b.noteIf due n).output = b.output := by cases due <;> rfl

/-- Notices in the log leave the counters alone. -/
@[simp] theorem health_noteIf (b : Bridge α) (due : Bool) (n : Notice) :
    (b.noteIf due n).health = b.health := by cases due <;> rfl

/-- Giving up an entry does not touch what was matched. -/
@[simp] theorem output_evict (b : Bridge α) : b.evict.output = b.output := output_noteIf ..

/-- A pair that is dropped was never in the output. -/
@[simp] theorem output_dropOutput (b : Bridge α) : b.dropOutput.output = b.output :=
  output_noteIf ..

/-- A sample without an id leaves the matched frames alone. -/
@[simp] theorem output_dropUncorrelated (b : Bridge α) : b.dropUncorrelated.output = b.output :=
  output_noteIf ..

/-- A sample without an id leaves the entries alone. -/
@[simp] theorem pending_dropUncorrelated (b : Bridge α) : b.dropUncorrelated.pending = b.pending :=
  pending_noteIf ..

/-- Looking for an entry leaves the output alone. -/
@[simp] theorem output_resolve (b : Bridge α) (id size : Nat) :
    (b.resolve id size).2.output = b.output := rfl

/-- An accepted submission keeps its entry, -/
@[simp] theorem pending_confirm (b : Bridge α) (size : Nat) :
    (b.confirm size).pending = b.pending := rfl

/-- An accepted submission puts nothing out. -/
@[simp] theorem output_confirm (b : Bridge α) (size : Nat) :
    (b.confirm size).output = b.output := rfl

/-- A registration that is taken back leaves the output alone. -/
@[simp] theorem output_withdraw (b : Bridge α) (id : Nat) : (b.withdraw id).output = b.output := rfl

/-! ## What was configured -/

/-- What a bridge was configured with. -/
def limits (b : Bridge α) : DiscardPolicy × Nat × Nat := (b.policy, b.maxInput, b.maxPending)

/-- Notices in the log change no settings. -/
@[simp] theorem limits_noteIf (b : Bridge α) (due : Bool) (n : Notice) :
    (b.noteIf due n).limits = b.limits := by cases due <;> rfl

/-- Giving up an entry changes no settings. -/
@[simp] theorem limits_evict (b : Bridge α) : b.evict.limits = b.limits := limits_noteIf ..

/-- Dropping a pair changes no settings. -/
@[simp] theorem limits_dropOutput (b : Bridge α) : b.dropOutput.limits = b.limits :=
  limits_noteIf ..

/-- Dropping a sample without an id changes no settings. -/
@[simp] theorem limits_dropUncorrelated (b : Bridge α) : b.dropUncorrelated.limits = b.limits :=
  limits_noteIf ..

/-- Registering a frame changes no settings. -/
@[simp] theorem limits_enter (b : Bridge α) (timing : Timing) (user : α) :
    (b.enter timing user).limits = b.limits := by
  rw [enter]
  split
  · rw [limits_evict]
    rfl
  · rfl

/-! ## Entering -/

/-- With room a registration only adds its entry. -/
theorem enter_of_lt {b : Bridge α} (h : b.pending.length < b.maxPending) (timing : Timing)
    (user : α) : b.enter timing user = { b with pending := b.pending.register timing user } := by
  have hlen := b.pending.length_register timing user
  rw [enter, if_neg (by rw [hlen]; omega)]

/-- Without room the oldest entry makes place. -/
theorem enter_of_le {b : Bridge α} (h : b.maxPending ≤ b.pending.length) (timing : Timing)
    (user : α) :
    b.enter timing user = { b with pending := b.pending.register timing user }.evict := by
  have hlen := b.pending.length_register timing user
  rw [enter, if_pos (by rw [hlen]; omega)]

/-- A registration leaves the output alone, with room and without. -/
@[simp] theorem output_enter (b : Bridge α) (timing : Timing) (user : α) :
    (b.enter timing user).output = b.output := by
  rcases Nat.lt_or_ge b.pending.length b.maxPending with h | h
  · rw [enter_of_lt h]
  · rw [enter_of_le h, output_evict]

/-- Every registration takes one id. -/
@[simp] theorem nextId_enter (b : Bridge α) (timing : Timing) (user : α) :
    (b.enter timing user).pending.nextId = b.pending.nextId + 1 := by
  rw [pending_enter]
  split
  · rw [Pending.nextId_evict]
    rfl
  · rfl

/-- The id of the entry that the next registration gives up.  With no room for any entry it is the
    new one's own. -/
def givesUp? (b : Bridge α) : Option Nat :=
  if b.maxPending ≤ b.pending.length then
    some ((b.pending.entries.head?.map (·.id)).getD b.pending.nextId)
  else none

/-- A registration adds an entry, and gives the oldest one up if there is no room. -/
theorem pending_enter_cases (b : Bridge α) (timing : Timing) (user : α) :
    (b.givesUp? = none ∧ (b.enter timing user).pending = b.pending.register timing user) ∨
    ∃ e rest, (b.pending.register timing user).entries = e :: rest ∧ b.givesUp? = some e.id ∧
      (b.enter timing user).pending =
        { b.pending.register timing user with entries := rest, watermark := e.id + 1 } := by
  -- either there is room, or the first entry of those with the new one goes
  rcases Nat.lt_or_ge b.pending.length b.maxPending with h | h
  · refine .inl ⟨by rw [givesUp?, if_neg (by omega)], ?_⟩
    rw [enter_of_lt h]
  · have henter : (b.enter timing user).pending = (b.pending.register timing user).evict := by
      rw [enter_of_le h, pending_evict]
    rw [henter, givesUp?, if_pos h]
    cases hentries : b.pending.entries with
    -- no entry waits, so the new one itself is given up
    | nil =>
      have hnew : (b.pending.register timing user).entries = [b.pending.nextEntry timing user] := by
        rw [Pending.register, hentries]
        rfl
      exact .inr ⟨_, [], hnew, rfl, Pending.evict_of_entries hnew⟩
    | cons e rest =>
      have hold : (b.pending.register timing user).entries =
          e :: (rest ++ [b.pending.nextEntry timing user]) := by
        rw [Pending.register, hentries]
        rfl
      exact .inr ⟨e, _, hold, rfl, Pending.evict_of_entries hold⟩

/-! ## Publishing -/

/-- A publication waits, places the pair last, or drops it. -/
theorem publish?_cases (b : Bridge α) (m : Matched α) :
    b.publish? m = none ∨
    b.publish? m = some (true, { b with output := b.output.append m }.count .delivered 1) ∨
    b.publish? m = some (false, b.dropOutput) := by
  unfold publish?
  -- each policy asks the queue in its own way
  cases b.policy with
  | discardOutput =>
    cases ht : b.output.tryPush m with
    | none => exact .inr (.inr rfl)
    | some output =>
      obtain ⟨-, rfl⟩ := BoundedQueue.tryPush_eq_some_iff.1 ht
      exact .inr (.inl rfl)
  | discardInput =>
    cases hp : b.output.push m with
    | waits => exact .inl rfl
    | refused => exact .inr (.inr rfl)
    | accepted output =>
      obtain ⟨-, -, rfl⟩ := BoundedQueue.push_eq_accepted_iff.1 hp
      exact .inr (.inl rfl)

end Bridge

namespace Relay

/-! ## The ends of a registration -/

/-- How the registration of a frame ends. -/
inductive Registers (r : Relay α) (frame : HandleId) (user : α) :
    Registration × Relay α → Prop where
  -- The frame cannot be read, or its buffer is gone.
  | failed {e : Error} {s : Store}
    (hbad : (∃ e, (r.store.size frame).1 = .error e) ∨ ∃ e, r.store.info frame = .error e) :
    r.Registers frame user (.failed e, { r with store := s })
  -- Too many frames are in flight.
  | turnedAway {s : Store} (hfull : r.bridge.isInputFull = true) :
    r.Registers frame user (.turnedAway, { r with store := s, bridge := r.bridge.reject })
  -- The frame has an entry under the next id, and carries that id.
  | registered {s : Store} {size : Nat} {info : FrameInfo}
    (hfull : r.bridge.isInputFull = false) (hinfo : r.store.info frame = .ok info)
    (hstamped : s.info frame = .ok (info.stamped info.timing r.bridge.pending.nextId)) :
    r.Registers frame user (.registered ⟨r.bridge.pending.nextId, size, frame⟩,
      { r with store := s, bridge := r.bridge.enter info.timing user })

/-- Every registration ends in one of the three ways. -/
theorem registers_register (r : Relay α) (frame : HandleId) (user : α) :
    r.Registers frame user (r.register frame user) := by
  have hinfo := r.store.info_unmap_size frame frame
  unfold register
  cases hs : r.store.size frame with
  | mk result s =>
    rw [hs] at hinfo
    cases result with
    | error e => exact .failed (.inl ⟨e, by rw [hs]⟩)
    | ok size =>
      simp only at hinfo ⊢
      cases hi : (s.unmap frame).info frame with
      | error e => exact .failed (.inr ⟨e, by rw [← hinfo, hi]⟩)
      | ok info =>
        simp only
        cases hfull : r.bridge.isInputFull with
        | true => exact .turnedAway hfull
        | false =>
          simp only [Bool.false_eq_true, if_false]
          -- the info can be read, so it can be changed
          rcases (s.unmap frame).updateInfo_cases frame
              (·.stamped info.timing r.bridge.pending.nextId) with
            ⟨e, hdead, -⟩ | ⟨i, s', hlive, hupdate, hstamped⟩
          · rw [hi] at hdead
            exact nomatch hdead
          · rw [hi] at hlive
            cases hlive
            simp only [hupdate]
            exact .registered hfull (by rw [← hinfo, hi]) hstamped

/-- Whatever comes of a registration, the matched frames are left alone. -/
theorem output_register (r : Relay α) (frame : HandleId) (user : α) :
    (r.register frame user).2.bridge.output = r.bridge.output := by
  have hreg := r.registers_register frame user
  generalize r.register frame user = registration at hreg
  cases hreg with
  | failed => rfl
  | turnedAway => rfl
  | registered => exact Bridge.output_enter ..

/-! ## The ends of a submission -/

/-- What the ingest's answer makes of a registered submission. -/
theorem resume?_cases (r : Relay α) (t : Ticket) (o : Offer) :
    (r.ingest.answer? = none ∧ r.resume? t o = none) ∨
    (r.ingest.answer? = some .ok ∧ r.resume? t o = some (true,
      { r with ingest := r.ingest.accept o, bridge := r.bridge.confirm t.size })) ∨
    (r.resume? t o = some (false,
      { r with store := r.store.drop o.frame, bridge := r.bridge.withdraw t.id })) := by
  unfold resume? Ingest.settle?
  cases ha : r.ingest.answer? with
  | none => exact .inl ⟨rfl, rfl⟩
  | some flow =>
    cases flow with
    | ok => exact .inr (.inl ⟨rfl, rfl⟩)
    | flushing => exact .inr (.inr rfl)
    | ended => exact .inr (.inr rfl)
    | error => exact .inr (.inr rfl)

/-- A frame is measured and offered to the ingest, or its registration is taken back. -/
theorem measure_cases (r : Relay α) (t : Ticket) :
    (∃ s o, o.frame = t.frame ∧ s.info t.frame = r.store.info t.frame ∧
      r.measure t = (some o, { r with store := s })) ∨
    ∃ s, r.measure t = (none, { r with store := s, bridge := r.bridge.withdraw t.id }) := by
  have hinfo := r.store.info_unmap_size t.frame t.frame
  unfold measure Store.measure
  cases hs : r.store.size t.frame with
  | mk result s =>
    rw [hs] at hinfo
    cases result with
    | error e => exact .inr ⟨_, rfl⟩
    | ok size => exact .inl ⟨_, ⟨t.frame, size⟩, rfl, hinfo, rfl⟩

/-- How a submission ends, as far as it goes without waiting. -/
inductive Submits (r : Relay α) (frame : HandleId) (user : α) : Submission × Relay α → Prop where
  -- The frame cannot be read, or its buffer is gone.
  | failed {e : Error} {s : Store}
    (hbad : (∃ e, (r.store.size frame).1 = .error e) ∨ ∃ e, r.store.info frame = .error e) :
    r.Submits frame user (.done (.error e), { r with store := s })
  -- Too many frames are in flight.
  | turnedAway {s : Store} (hfull : r.bridge.isInputFull = true) :
    r.Submits frame user (.done (.ok false), { r with store := s, bridge := r.bridge.reject })
  -- The ingest refused the frame after it was registered.
  | refused {s : Store} {info : FrameInfo} (hfull : r.bridge.isInputFull = false)
    (hinfo : r.store.info frame = .ok info) :
    r.Submits frame user (.done (.ok false), { r with
      store := s
      bridge := (r.bridge.enter info.timing user).withdraw r.bridge.pending.nextId })
  -- The frame is queued at the ingest, and carries the id of its entry.
  | accepted {s : Store} {info : FrameInfo} {o : Offer} {size : Nat}
    (hfull : r.bridge.isInputFull = false) (hinfo : r.store.info frame = .ok info)
    (hstamped : s.info frame = .ok (info.stamped info.timing r.bridge.pending.nextId))
    (ho : o.frame = frame) :
    r.Submits frame user (.done (.ok true), { r with
      store := s
      ingest := r.ingest.accept o
      bridge := (r.bridge.enter info.timing user).confirm size })
  -- The ingest is full.
  | waits {t : Ticket} {o : Offer} {r' : Relay α} : r.Submits frame user (.waits t o, r')

/-- Every submission ends in one of the five ways. -/
theorem submits_submit (r : Relay α) (frame : HandleId) (user : α) :
    r.Submits frame user (r.submit frame user) := by
  have hreg := registers_register r frame user
  unfold submit
  generalize r.register frame user = registration at hreg
  cases hreg with
  | failed hbad => exact .failed hbad
  | turnedAway hfull => exact .turnedAway hfull
  | @registered s size info hfull hinfo hstamped =>
    simp only
    -- a registered frame is measured, and then the ingest answers or lets it wait
    rcases measure_cases { r with store := s, bridge := r.bridge.enter info.timing user }
        ⟨r.bridge.pending.nextId, size, frame⟩ with ⟨s', o, ho, hsame, hm⟩ | ⟨s', hm⟩
    · simp only [hm]
      rcases resume?_cases { r with store := s', bridge := r.bridge.enter info.timing user }
          ⟨r.bridge.pending.nextId, size, frame⟩ o with ⟨-, hr⟩ | ⟨-, hr⟩ | hr
      · simp only [hr]
        exact .waits
      · simp only [hr]
        exact .accepted hfull hinfo (hsame.trans hstamped) ho
      · simp only [hr]
        exact .refused hfull hinfo
    · simp only [hm]
      exact .refused hfull hinfo

/-! ## The ends of a delivery -/

/-- How a publication ends, as far as it goes without waiting. -/
inductive Publishes (r : Relay α) (m : Matched α) : Delivery α × Relay α → Prop where
  -- The frame is the last one in the output queue.
  | placed : r.Publishes m (.done (.ok ()), { r with
      bridge := { r.bridge with output := r.bridge.output.append m }.count .delivered 1 })
  -- There was no room.
  | dropped {s : Store} :
    r.Publishes m (.done (.ok ()), { r with store := s, bridge := r.bridge.dropOutput })
  -- There is no room yet.
  | waits : r.Publishes m (.waits m, r)

/-- Every publication ends in one of the three ways. -/
theorem publishes_publish (r : Relay α) (m : Matched α) : r.Publishes m (r.publish m) := by
  unfold publish publish?
  rcases Bridge.publish?_cases r.bridge m with h | h | h
  · simp only [h, Option.map_none]
    exact .waits
  · simp only [h, Option.map_some]
    exact .placed
  · simp only [h, Option.map_some]
    exact .dropped

/-- Publishing changes no settings. -/
theorem limits_publish (r : Relay α) (m : Matched α) :
    (r.publish m).2.bridge.limits = r.bridge.limits := by
  have hp := r.publishes_publish m
  generalize r.publish m = publication at hp
  cases hp with
  | placed => rfl
  | dropped => exact Bridge.limits_dropOutput r.bridge
  | waits => rfl

/-- How the delivery of a sample ends, as far as it goes without waiting. -/
inductive Delivers (r : Relay α) (x : Sample) : Delivery α × Relay α → Prop where
  -- The sample's frame cannot be read.
  | unreadable {e : Error} {s : Store} (hr : ¬r.store.Readable x.frame) :
    r.Delivers x (.done (.ok ()), { r with store := s, bridge := r.bridge.dropUnreadable e })
  -- The sample carries no id.
  | uncorrelated {s : Store} {c : Content} (hc : r.store.content? x.frame = some c)
    (hid : c.info.id = none) :
    r.Delivers x (.done (.ok ()), { r with store := s, bridge := r.bridge.dropUncorrelated })
  -- Nothing is pending for the sample's id.
  | unmatched {s : Store} {c : Content} {id : Nat} (hc : r.store.content? x.frame = some c)
    (hid : c.info.id = some id) (hr : r.store.Readable x.frame)
    (hm : (r.bridge.pending.resolve id).1.result = .unmatched) :
    r.Delivers x (.done (.ok ()), { r with
      store := s
      bridge := (r.bridge.resolve id c.bytes.size).2.dropUnmatched id })
  -- The sample's id is smaller than every one pending, and that must not happen.
  | outOfOrder {s : Store} {c : Content} {id oldest : Nat}
    (hc : r.store.content? x.frame = some c) (hid : c.info.id = some id)
    (hr : r.store.Readable x.frame)
    (hm : (r.bridge.pending.resolve id).1.result = .outOfOrder oldest) :
    r.Delivers x (.done (.error (.orderingViolation id oldest)), { r with
      store := s
      bridge := (r.bridge.resolve id c.bytes.size).2 })
  -- The sample's content, with the timing of the entry, is published for the entry's submitter.
  | matched {s : Store} {c : Content} {id : Nat} {e : PendingEntry α} {copy : HandleId}
    {b : BufferId} {d : Delivery α × Relay α}
    (hc : r.store.content? x.frame = some c) (hid : c.info.id = some id)
    (hr : r.store.Readable x.frame)
    (hm : (r.bridge.pending.resolve id).1.result = .found e)
    (hf : s.Fresh copy b { c with info := c.info.withTiming e.timing })
    (hd : d = { r with store := s, bridge := (r.bridge.resolve id c.bytes.size).2 }.publish
      ⟨copy, e.user⟩) : r.Delivers x d

/-- The copy of a sample always gets as far as its id allows. -/
theorem delivers_matchCopy {r : Relay α} {x : Sample} {s : Store} {c : Content} {id : Nat}
    {copy : HandleId} {b : BufferId} (hc : r.store.content? x.frame = some c)
    (hid : c.info.id = some id) (hr : r.store.Readable x.frame) (hf : s.Fresh copy b c) :
    r.Delivers x ({ r with store := s }.matchCopy copy id) := by
  -- the copy is fresh, so its size is taken, and below its timing set, without fail
  obtain ⟨s₁, hsize, hf₁⟩ := hf.size
  simp only [matchCopy, hsize]
  cases hm : (r.bridge.pending.resolve id).1.result with
  | unmatched =>
    have hres : r.bridge.resolve id c.bytes.size =
        (.unmatched, (r.bridge.resolve id c.bytes.size).2) := by rw [← hm]; rfl
    rw [hres]
    exact .unmatched hc hid hr hm
  | outOfOrder oldest =>
    have hres : r.bridge.resolve id c.bytes.size =
        (.outOfOrder oldest, (r.bridge.resolve id c.bytes.size).2) := by rw [← hm]; rfl
    rw [hres]
    exact .outOfOrder hc hid hr hm
  | found e =>
    have hres : r.bridge.resolve id c.bytes.size =
        (.found e, (r.bridge.resolve id c.bytes.size).2) := by rw [← hm]; rfl
    obtain ⟨s₂, hset, hf₂⟩ := hf₁.setTiming e.timing
    rw [hres]
    simp only [hset]
    exact .matched hc hid hr hm hf₂ rfl

/-- Every delivery of a sample ends in one of the five ways. -/
theorem delivers_deliver (r : Relay α) (x : Sample) :
    r.Delivers x (r.deliver (.sample x)) := by
  have htaken := r.store.taken_takePayload x.frame
  unfold deliver
  simp only
  generalize r.store.takePayload x.frame = taken at htaken
  -- what became of the payload decides how far the sample gets
  cases htaken with
  | dead hc =>
    refine .unreadable ?_
    rintro ⟨b, hl, -⟩
    rw [Store.content?_of_live? hl] at hc
    exact nomatch hc
  | untagged hc hid => exact .uncorrelated hc hid
  | locked hc hid hr => exact .unreadable hr
  | copied hc hid hr hf => exact delivers_matchCopy hc hid hr hf

/-- Only a result out of order makes a delivery fail. -/
theorem outOfOrder_of_deliver_error {r : Relay α} {item : Item} {e : Error}
    (h : (r.deliver item).1 = .done (.error e)) :
    ∃ x c id oldest, item = .sample x ∧ r.store.content? x.frame = some c ∧
      c.info.id = some id ∧ (r.bridge.pending.resolve id).1.result = .outOfOrder oldest := by
  cases item with
  | endOfStream => exact nomatch h
  | sample x =>
    have hd := r.delivers_deliver x
    generalize r.deliver (.sample x) = delivery at hd h
    -- all other ends answer with success, or the pair waits
    cases hd with
    | unreadable => exact nomatch h
    | uncorrelated => exact nomatch h
    | unmatched => exact nomatch h
    | outOfOrder hc hid hr hm => exact ⟨x, _, _, _, rfl, hc, hid, hm⟩
    | @matched s c id entry copy b d hc hid hr hm hf hd =>
      have hp := publishes_publish
        { r with store := s, bridge := (r.bridge.resolve id c.bytes.size).2 } ⟨copy, entry.user⟩
      rw [← hd] at hp
      cases hp <;> exact nomatch h

/-- A readable sample whose entry is found is published for the entry's submitter. -/
theorem deliver_of_found {r : Relay α} {x : Sample} {c : Content} {id : Nat} {e : PendingEntry α}
    (hc : r.store.content? x.frame = some c) (hid : c.info.id = some id)
    (hr : r.store.Readable x.frame) (hm : (r.bridge.pending.resolve id).1.result = .found e) :
    ∃ s copy, r.deliver (.sample x) =
        ({ r with store := s, bridge := (r.bridge.resolve id c.bytes.size).2 }).publish
          ⟨copy, e.user⟩ ∧
      s.content? copy = some { c with info := c.info.withTiming e.timing } := by
  have hd := r.delivers_deliver x
  generalize r.deliver (.sample x) = delivery at hd
  -- the sample shows one content and one id, so no other end fits what is known of it
  cases hd with
  | unreadable hnr => exact absurd hr hnr
  | uncorrelated hc' hid' =>
    rw [hc] at hc'
    cases hc'
    rw [hid] at hid'
    exact nomatch hid'
  | unmatched hc' hid' hr' hm' =>
    obtain ⟨rfl, rfl⟩ := Store.content?_unique hc hid hc' hid'
    exact nomatch hm.symm.trans hm'
  | outOfOrder hc' hid' hr' hm' =>
    obtain ⟨rfl, rfl⟩ := Store.content?_unique hc hid hc' hid'
    exact nomatch hm.symm.trans hm'
  | matched hc' hid' hr' hm' hf hd =>
    obtain ⟨rfl, rfl⟩ := Store.content?_unique hc hid hc' hid'
    cases hm.symm.trans hm'
    exact ⟨_, _, hd, hf.content?⟩

end Relay

end MediaBridge
