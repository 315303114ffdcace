import Mathlib.Logic.Relation
import MediaBridge.Proofs.Correspondence.Calls

/-! # Submissions and results in any order

Any number of threads work on one relay.  A submission takes several steps: its registration, the
measuring of its frame, the answer of the ingest, and the withdrawal if that answer was a refusal.  A
delivery takes the entry for its result in one step and may wait before it publishes.  Between any two
steps others may act.

An id is held by a submission under way, or by a frame that was accepted.  `Separate` says that no id
is held twice, and that every id held, and every entry, is below the next id.  Withdrawals lower the
next id, but only to the id that they give back, which is then above all the others.

* `effect_of_step`     what a step does to the entries and to the ids held;
* `limits_of_step`     it leaves what was configured;
* `separate_of_step`   no step breaks the invariant;
* `ids_of_reaches`     what holds in every state that can be reached;
* `reaches_of_run`     calls that are carried out one after the other are a special case;
* `submissionStep_cases`, `submits_of_submit`  the steps of submissions among the others.
-/

namespace MediaBridge

open Relation (ReflTransGen)

variable {α : Type u}

/-- How far a submission has come. -/
inductive Stage where
  | registered
  /-- The frame was measured, and the ingest has not answered yet. -/
  | offered (o : Offer)
  /-- The ingest refused the frame. -/
  | refused

/-- A submission that was registered and has not come to its end. -/
structure Underway where
  ticket : Ticket
  stage : Stage

/-- A relay with what is under way at it. -/
structure Concurrent (α : Type u) where
  relay : Relay α
  submissions : List Underway := []
  /-- Matched frames that wait for room. -/
  parked : List (Matched α) := []
  /-- The ids of all the frames that were ever accepted. -/
  accepted : List Nat := []

/-- What a step is, as far as ids are concerned. -/
inductive Event (α : Type u) where
  | registered (t : Ticket) (user : α)
  | accepted (t : Ticket)
  | withdrawn (t : Ticket)
  | delivered (item : Item)
  | forgotten
  | other

/-- Whether an event may be one of a submission. -/
def Event.IsSubmission : Event α → Prop
  | .delivered _ | .forgotten => False
  | _ => True

namespace Concurrent

/-- A relay at the start, at which nothing is under way. -/
def new (s : Settings) (ingestMax : Nat) : Concurrent α := { relay := .new s ingestMax }

/-- The entries that wait. -/
abbrev pending (w : Concurrent α) : Pending α := w.relay.bridge.pending

/-- The ids of the submissions under way. -/
def tickets (w : Concurrent α) : List Nat := w.submissions.map (·.ticket.id)

/-- One step of one thread. -/
inductive Step (w : Concurrent α) : Event α → Concurrent α → Prop where
  -- A submission begins.
  | register (frame : HandleId) (user : α) {t : Ticket} {r : Relay α}
    (h : w.relay.register frame user = (.registered t, r)) :
    w.Step (.registered t user)
      { w with relay := r, submissions := ⟨t, .registered⟩ :: w.submissions }
  | turnAway {frame : HandleId} {user : α} {r : Relay α}
    (h : w.relay.register frame user = (.turnedAway, r)) : w.Step .other { w with relay := r }
  | fail {frame : HandleId} {user : α} {e : Error} {r : Relay α}
    (h : w.relay.register frame user = (.failed e, r)) : w.Step .other { w with relay := r }
  -- A registered frame is measured.
  | measure {t : Ticket} {rest : List Underway} {o : Offer} {s : Store}
    (hu : w.submissions.Perm (⟨t, .registered⟩ :: rest))
    (h : w.relay.store.measure t.frame = (some o, s)) :
    w.Step .other
      { w with relay := { w.relay with store := s }, submissions := ⟨t, .offered o⟩ :: rest }
  -- A registered frame cannot be read any more.
  | unmeasured {t : Ticket} {rest : List Underway} {s : Store}
    (hu : w.submissions.Perm (⟨t, .registered⟩ :: rest))
    (h : w.relay.store.measure t.frame = (none, s)) :
    w.Step .other
      { w with relay := { w.relay with store := s }, submissions := ⟨t, .refused⟩ :: rest }
  -- The ingest accepts an offer.
  | accept {t : Ticket} {o : Offer} {rest : List Underway} {p : Ingest} {s : Store}
    (hu : w.submissions.Perm (⟨t, .offered o⟩ :: rest))
    (h : w.relay.ingest.settle? w.relay.store o = some (.ok, p, s)) :
    w.Step (.accepted t)
      { w with
        relay := { store := s, ingest := p, bridge := w.relay.bridge.confirm t.size }
        submissions := rest
        accepted := t.id :: w.accepted }
  -- The ingest refuses an offer.
  | refuse {t : Ticket} {o : Offer} {rest : List Underway} {flow : Flow} {p : Ingest} {s : Store}
    (hu : w.submissions.Perm (⟨t, .offered o⟩ :: rest))
    (h : w.relay.ingest.settle? w.relay.store o = some (flow, p, s)) (hflow : flow ≠ .ok) :
    w.Step .other
      { w with
        relay := { w.relay with store := s, ingest := p }
        submissions := ⟨t, .refused⟩ :: rest }
  -- A refused submission takes its registration back.
  | withdraw {t : Ticket} {rest : List Underway}
    (hu : w.submissions.Perm (⟨t, .refused⟩ :: rest)) :
    w.Step (.withdrawn t)
      { w with
        relay := { w.relay with bridge := w.relay.bridge.withdraw t.id }
        submissions := rest }
  -- A delivery comes to its end.
  | deliver {item : Item} {result : Except Error Unit} {r : Relay α}
    (h : w.relay.deliver item = (.done result, r)) : w.Step (.delivered item) { w with relay := r }
  -- A delivery has taken its entry and waits for room.
  | park {item : Item} {m : Matched α} {r : Relay α} (h : w.relay.deliver item = (.waits m, r)) :
    w.Step (.delivered item) { w with relay := r, parked := m :: w.parked }
  -- A delivery that waited comes to its end.
  | publish {m : Matched α} {rest : List (Matched α)} {r : Relay α}
    (hm : w.parked.Perm (m :: rest)) (h : w.relay.publish? m = some r) :
    w.Step .other { w with relay := r, parked := rest }
  | reset : w.Step .forgotten { w with relay := w.relay.resetPending.2 }
  -- Something that has nothing to do with the entries.
  | aside (c : Call α) {a : Answer α} {r : Relay α} (hc : c.IsAside)
    (h : w.relay.call? c = some (a, r)) : w.Step .other { w with relay := r }

/-- One state can come after another. -/
def Reaches (w w' : Concurrent α) : Prop := ReflTransGen (fun w w' => ∃ e, w.Step e w') w w'

/-! ## What a step does -/

/-- What a step does to the entries and to the ids held. -/
inductive Effect (w w' : Concurrent α) : Event α → Prop where
  | registered {t : Ticket} {timing : Timing} {user : α} (hid : t.id = w.pending.nextId)
    (hpending : w'.pending = (w.relay.bridge.enter timing user).pending)
    (htickets : w'.tickets = t.id :: w.tickets) (haccepted : w'.accepted = w.accepted) :
    w.Effect w' (.registered t user)
  | accepted {t : Ticket} (hpending : w'.pending = w.pending)
    (htickets : w.tickets.Perm (t.id :: w'.tickets))
    (haccepted : w'.accepted = t.id :: w.accepted) : w.Effect w' (.accepted t)
  | withdrawn {t : Ticket} (hpending : w'.pending = w.pending.withdraw t.id)
    (htickets : w.tickets.Perm (t.id :: w'.tickets)) (haccepted : w'.accepted = w.accepted) :
    w.Effect w' (.withdrawn t)
  -- The sample's id is looked for among the entries.
  | resolved {x : Sample} {c : Content} {id : Nat} (hc : w.relay.store.content? x.frame = some c)
    (hid : c.info.id = some id) (hpending : w'.pending = (w.pending.resolve id).2)
    (htickets : w'.tickets = w.tickets) (haccepted : w'.accepted = w.accepted) :
    w.Effect w' (.delivered (.sample x))
  -- The item never gets as far as that.
  | ignored {item : Item} (hpending : w'.pending = w.pending)
    (htickets : w'.tickets = w.tickets) (haccepted : w'.accepted = w.accepted) :
    w.Effect w' (.delivered item)
  | forgotten (hpending : w'.pending = w.pending.reset) (htickets : w'.tickets = w.tickets)
    (haccepted : w'.accepted = w.accepted) : w.Effect w' .forgotten
  | other (hpending : w'.pending = w.pending) (htickets : w'.tickets.Perm w.tickets)
    (haccepted : w'.accepted = w.accepted) : w.Effect w' .other

end Concurrent

namespace Relay

/-- A publication that waited ends as one that did not have to. -/
theorem publish_of_publish? {r r' : Relay α} {m : Matched α} (h : r.publish? m = some r') :
    r.publish m = (.done (.ok ()), r') := by rw [publish, h]

/-- A publication leaves the entries alone. -/
theorem pending_publish (r : Relay α) (m : Matched α) :
    (r.publish m).2.bridge.pending = r.bridge.pending := by
  have hp := r.publishes_publish m
  generalize r.publish m = publication at hp
  cases hp with
  | placed => rfl
  | dropped => exact Bridge.pending_dropOutput r.bridge
  | waits => rfl

/-- A delivery looks for the id of its sample among the entries, or does not get as far as that. -/
theorem pending_deliver (r : Relay α) (item : Item) :
    (r.deliver item).2.bridge.pending = r.bridge.pending ∨
    ∃ x c id, item = .sample x ∧ r.store.content? x.frame = some c ∧ c.info.id = some id ∧
      (r.deliver item).2.bridge.pending = (r.bridge.pending.resolve id).2 := by
  cases item with
  | endOfStream => exact .inl rfl
  | sample x =>
    have hd := r.delivers_deliver x
    generalize r.deliver (.sample x) = delivery at hd
    cases hd with
    | unreadable => exact .inl rfl
    | uncorrelated => exact .inl (Bridge.pending_dropUncorrelated r.bridge)
    | unmatched hc hid => exact .inr ⟨x, _, _, rfl, hc, hid, rfl⟩
    | outOfOrder hc hid => exact .inr ⟨x, _, _, rfl, hc, hid, rfl⟩
    | matched hc hid hr hm hf hd =>
      refine .inr ⟨x, _, _, rfl, hc, hid, ?_⟩
      rw [hd, pending_publish]
      rfl

/-- A registration leaves what was configured. -/
theorem limits_register (r : Relay α) (frame : HandleId) (user : α) :
    (r.register frame user).2.bridge.limits = r.bridge.limits := by
  have hr := r.registers_register frame user
  generalize r.register frame user = registration at hr
  cases hr with
  | failed => rfl
  | turnedAway => rfl
  | registered => exact Bridge.limits_enter ..

/-- A delivery leaves what was configured. -/
theorem limits_deliver (r : Relay α) (item : Item) :
    (r.deliver item).2.bridge.limits = r.bridge.limits := by
  cases item with
  | endOfStream => rfl
  | sample x =>
    have hd := r.delivers_deliver x
    generalize r.deliver (.sample x) = delivery at hd
    cases hd with
    | unreadable => rfl
    | uncorrelated => exact Bridge.limits_dropUncorrelated r.bridge
    | unmatched => rfl
    | outOfOrder => rfl
    | matched hc hid hr hm hf hd =>
      rw [hd, limits_publish]
      rfl

end Relay

namespace Concurrent

/-- The id of a submission under way is among those under way. -/
theorem tickets_perm {w : Concurrent α} {u : Underway} {rest : List Underway}
    (h : w.submissions.Perm (u :: rest)) :
    w.tickets.Perm (u.ticket.id :: rest.map (·.ticket.id)) :=
  List.Perm.map (fun u : Underway => u.ticket.id) h

/-- Every step has one of the seven effects. -/
theorem effect_of_step {w w' : Concurrent α} {e : Event α} (h : w.Step e w') : w.Effect w' e := by
  cases h with
  | register frame user h =>
    have hr := w.relay.registers_register frame user
    rw [h] at hr
    cases hr with
    | registered hfull hinfo hstamped => exact .registered rfl rfl rfl rfl
  | @turnAway frame user r h =>
    have hr := w.relay.registers_register frame user
    rw [h] at hr
    cases hr with
    | turnedAway hfull => exact .other rfl (.refl _) rfl
  | @fail frame user e r h =>
    have hr := w.relay.registers_register frame user
    rw [h] at hr
    cases hr with
    | failed hbad => exact .other rfl (.refl _) rfl
  | measure hu h => exact .other rfl (tickets_perm hu).symm rfl
  | unmeasured hu h => exact .other rfl (tickets_perm hu).symm rfl
  | accept hu h => exact .accepted rfl (tickets_perm hu) rfl
  | refuse hu h hflow => exact .other rfl (tickets_perm hu).symm rfl
  | withdraw hu => exact .withdrawn rfl (tickets_perm hu) rfl
  | @deliver item result r h =>
    have hd := w.relay.pending_deliver item
    rw [h] at hd
    rcases hd with hsame | ⟨x, c, id, rfl, hc, hid, hpending⟩
    · exact .ignored hsame rfl rfl
    · exact .resolved hc hid hpending rfl rfl
  | @park item m r h =>
    have hd := w.relay.pending_deliver item
    rw [h] at hd
    rcases hd with hsame | ⟨x, c, id, rfl, hc, hid, hpending⟩
    · exact .ignored hsame rfl rfl
    · exact .resolved hc hid hpending rfl rfl
  | @publish m rest r hm h =>
    have hp := w.relay.pending_publish m
    rw [Relay.publish_of_publish? h] at hp
    exact .other hp (.refl _) rfl
  | reset => exact .forgotten rfl rfl rfl
  -- whatever the call is, it leaves the entries and is no submission
  | aside c hc h => exact .other (Relay.untouched_of_isAside hc h).pending (.refl _) rfl

/-- No step changes what was configured. -/
theorem limits_of_step {w w' : Concurrent α} {e : Event α} (h : w.Step e w') :
    w'.relay.bridge.limits = w.relay.bridge.limits := by
  have hregister := w.relay.limits_register
  cases h with
  | register frame user h =>
    have hr := hregister frame user
    rwa [h] at hr
  | @turnAway frame user r h =>
    have hr := hregister frame user
    rwa [h] at hr
  | @fail frame user e r h =>
    have hr := hregister frame user
    rwa [h] at hr
  | measure => rfl
  | unmeasured => rfl
  | accept => rfl
  | refuse => rfl
  | withdraw => rfl
  | @deliver item result r h =>
    have hd := w.relay.limits_deliver item
    rwa [h] at hd
  | @park item m r h =>
    have hd := w.relay.limits_deliver item
    rwa [h] at hd
  | @publish m rest r hm h =>
    have hp := w.relay.limits_publish m
    rwa [Relay.publish_of_publish? h] at hp
  | reset => rfl
  | aside c hc h => exact (Relay.untouched_of_isAside hc h).limits

/-- What was configured is what the settings said. -/
theorem limits_of_reaches {s : Settings} {ingestMax : Nat} {w : Concurrent α}
    (h : (Concurrent.new s ingestMax).Reaches w) :
    w.relay.bridge.limits = (s.discardPolicy, s.maxInputQueue.toNat, s.maxPending.toNat) := by
  induction h with
  | refl => rfl
  | tail _ hstep ih =>
    obtain ⟨e, hstep⟩ := hstep
    rw [limits_of_step hstep, ih]

/-- A bridge stays as its settings made it. -/
theorem configured_of_reaches {s : Settings} {ingestMax : Nat} {w : Concurrent α}
    (h : (Concurrent.new s ingestMax).Reaches w) :
    w.relay.bridge.policy = s.discardPolicy ∧
    w.relay.bridge.maxInput = s.maxInputQueue.toNat ∧
    w.relay.bridge.maxPending = s.maxPending.toNat := by
  have hlimits := limits_of_reaches h
  simpa only [Bridge.limits, Prod.mk.injEq] using hlimits

/-! ## No id is held twice -/

/-- The ids held: by submissions under way, and by frames that were accepted. -/
def held (w : Concurrent α) : List Nat := w.tickets ++ w.accepted

/-- The ids held differ, and the next id is above them and above the entries. -/
structure Separate (w : Concurrent α) : Prop where
  ascending : w.pending.Ascending
  nodup : w.held.Nodup
  below : ∀ id ∈ w.held, id < w.pending.nextId

/-- At the start no id is held. -/
theorem Separate.new (s : Settings) (ingestMax : Nat) :
    (Concurrent.new s ingestMax : Concurrent α).Separate where
  ascending := .empty
  nodup := .nil
  below _ hid := absurd hid List.not_mem_nil

/-- As long as the ids held stay the same, entries can only be taken away. -/
theorem Separate.of_perm {w w' : Concurrent α} (h : w.Separate) (hperm : w'.held.Perm w.held)
    (hasc : w'.pending.Ascending) (hnext : w'.pending.nextId = w.pending.nextId) :
    w'.Separate where
  ascending := hasc
  nodup := hperm.nodup_iff.2 h.nodup
  below id hid := by
    rw [hnext]
    exact h.below id (hperm.mem_iff.1 hid)

/-- No effect makes two hold the same id. -/
theorem separate_of_effect {w w' : Concurrent α} {e : Event α} (h : w.Separate)
    (heffect : w.Effect w' e) : w'.Separate := by
  cases heffect with
  | @registered t timing user hid hpending htickets haccepted =>
    have hheld : w'.held = t.id :: w.held := by rw [held, htickets, haccepted]; rfl
    have hnext : w'.pending.nextId = w.pending.nextId + 1 := by rw [hpending, Bridge.nextId_enter]
    constructor
    · rw [hpending]
      exact Bridge.ascending_enter h.ascending timing user
    · rw [hheld, List.nodup_cons]
      -- the new id is the next one, above everything held
      refine ⟨fun hmem => ?_, h.nodup⟩
      have hlt := h.below _ hmem
      omega
    · intro id hmem
      rw [hheld] at hmem
      rcases List.mem_cons.1 hmem with rfl | hmem
      · omega
      · have hlt := h.below id hmem
        omega
  | @accepted t hpending htickets haccepted =>
    -- the id passes from the submission to the frame
    refine h.of_perm ?_ (by rw [hpending]; exact h.ascending) (by rw [hpending])
    rw [held, held, haccepted]
    exact List.perm_middle.trans (htickets.symm.append_right w.accepted)
  | @withdrawn t hpending htickets haccepted =>
    have hheld : w.held.Perm (t.id :: w'.held) := by
      rw [held, held, haccepted]
      exact htickets.append_right w.accepted
    -- the id given back was held once, so nobody else has it
    have hnodup := hheld.nodup_iff.1 h.nodup
    obtain ⟨hne, hrest⟩ := List.nodup_cons.1 hnodup
    constructor
    · rw [hpending]
      exact h.ascending.withdraw t.id
    · exact hrest
    · intro id hmem
      have hlt := h.below id (hheld.mem_iff.2 (List.mem_cons_of_mem _ hmem))
      have hid : id ≠ t.id := fun heq => hne (heq ▸ hmem)
      rw [hpending, Pending.nextId_withdraw]
      -- if the id given back is the greatest, the others are below it
      split <;> omega
  | resolved hc hid hpending htickets haccepted =>
    refine h.of_perm (by rw [held, held, htickets, haccepted]) ?_ ?_
    · rw [hpending]
      exact h.ascending.resolve _
    · rw [hpending, Pending.nextId_resolve]
  | ignored hpending htickets haccepted =>
    exact h.of_perm (by rw [held, held, htickets, haccepted])
      (by rw [hpending]; exact h.ascending) (by rw [hpending])
  | forgotten hpending htickets haccepted =>
    refine h.of_perm (by rw [held, held, htickets, haccepted]) ?_ (by rw [hpending]; rfl)
    rw [hpending]
    exact .reset _
  | other hpending htickets haccepted =>
    refine h.of_perm ?_ (by rw [hpending]; exact h.ascending) (by rw [hpending])
    rw [held, held, haccepted]
    exact htickets.append_right w.accepted

/-- No step makes two hold the same id. -/
theorem separate_of_step {w w' : Concurrent α} {e : Event α} (h : w.Separate)
    (hstep : w.Step e w') : w'.Separate := separate_of_effect h (effect_of_step hstep)

/-- The ids held stay different, whatever comes after. -/
theorem separate_of_reaches {w w' : Concurrent α} (h : w.Separate) (hreach : w.Reaches w') :
    w'.Separate := by
  induction hreach with
  | refl => exact h
  | tail _ hstep ih =>
    obtain ⟨e, hstep⟩ := hstep
    exact separate_of_step ih hstep

/-- A frame that was accepted stays so. -/
theorem accepted_subset_of_effect {w w' : Concurrent α} {e : Event α} (h : w.Effect w' e) :
    w.accepted ⊆ w'.accepted := by
  intro id hid
  cases h with
  | accepted hpending htickets haccepted =>
    rw [haccepted]
    exact List.mem_cons_of_mem _ hid
  | registered _ _ _ haccepted => rwa [haccepted]
  | withdrawn _ _ haccepted => rwa [haccepted]
  | resolved _ _ _ _ haccepted => rwa [haccepted]
  | ignored _ _ haccepted => rwa [haccepted]
  | forgotten _ _ haccepted => rwa [haccepted]
  | other _ _ haccepted => rwa [haccepted]

/-- Whatever comes after, frames that were accepted stay so. -/
theorem accepted_subset_of_reaches {w w' : Concurrent α} (hreach : w.Reaches w') :
    w.accepted ⊆ w'.accepted := by
  induction hreach with
  | refl => exact List.Subset.refl _
  | tail _ hstep ih =>
    obtain ⟨e, hstep⟩ := hstep
    exact List.Subset.trans ih (accepted_subset_of_effect (effect_of_step hstep))

/-! ## Calls one after the other -/

/-- What can be reached can be left by another step. -/
theorem Reaches.step {w w' w'' : Concurrent α} {e : Event α} (h : w.Reaches w')
    (hstep : w'.Step e w'') : w.Reaches w'' := h.tail ⟨e, hstep⟩

/-- One step of a submission, which leaves the matched frames alone. -/
def SubmissionStep (w w' : Concurrent α) : Prop :=
  ∃ e, e.IsSubmission ∧ w.Step e w' ∧ w'.parked = w.parked ∧
    w'.relay.bridge.output.items = w.relay.bridge.output.items

/-- A step that is not one of a submission delivers or forgets something, ends a delivery that waited,
    or is a call that has nothing to do with the entries. -/
theorem submissionStep_cases {w w' : Concurrent α} {e : Event α} (h : w.Step e w') :
    w.SubmissionStep w' ∨ ¬e.IsSubmission ∨
      (∃ m rest r, w.parked.Perm (m :: rest) ∧ w.relay.publish? m = some r ∧
        w' = { w with relay := r, parked := rest }) ∨
      ∃ c a r, c.IsAside ∧ w.relay.call? c = some (a, r) ∧ w' = { w with relay := r } := by
  have hone : e.IsSubmission → w'.parked = w.parked →
      w'.relay.bridge.output = w.relay.bridge.output → w.SubmissionStep w' := by
    intro he hparked houtput
    exact ⟨e, he, h, hparked, congrArg BoundedQueue.items houtput⟩
  have hregister : ∀ {frame user registration r},
      w.relay.register frame user = (registration, r) → r.bridge.output = w.relay.bridge.output := by
    intro frame user registration r hregistered
    have houtput := w.relay.output_register frame user
    rwa [hregistered] at houtput
  cases h with
  | register _ _ h => exact .inl (hone trivial rfl (hregister h))
  | turnAway h => exact .inl (hone trivial rfl (hregister h))
  | fail h => exact .inl (hone trivial rfl (hregister h))
  | measure | unmeasured | refuse => exact .inl (hone trivial rfl rfl)
  | accept => exact .inl (hone trivial rfl (Bridge.output_confirm ..))
  | withdraw => exact .inl (hone trivial rfl (Bridge.output_withdraw ..))
  | deliver | park | reset => exact .inr (.inl id)
  | publish hm hpublish => exact .inr (.inr (.inl ⟨_, _, _, hm, hpublish, rfl⟩))
  | aside c hc hcall => exact .inr (.inr (.inr ⟨c, _, _, hc, hcall, rfl⟩))

/-- Only submissions went on from one state to another. -/
def Submits (w w' : Concurrent α) : Prop := ReflTransGen SubmissionStep w w'

/-- Submissions can go on by another step of one of them. -/
theorem Submits.step {w w' w'' : Concurrent α} {e : Event α} (h : w.Submits w')
    (hstep : w'.Step e w'') (he : e.IsSubmission) (hparked : w''.parked = w'.parked)
    (houtput : w''.relay.bridge.output = w'.relay.bridge.output) : w.Submits w'' :=
  h.tail ⟨e, he, hstep, hparked, congrArg BoundedQueue.items houtput⟩

/-- A refused submission takes its registration back. -/
theorem Submits.withdraw {w w' : Concurrent α} {t : Ticket} {rest : List Underway}
    (h : w.Submits w') (hu : w'.submissions = ⟨t, .refused⟩ :: rest) :
    w.Submits { w' with
      relay := { w'.relay with bridge := w'.relay.bridge.withdraw t.id }
      submissions := rest } :=
  h.step (.withdraw (hu ▸ .refl _)) trivial rfl (Bridge.output_withdraw ..)

/-- What submissions lead to can be reached. -/
theorem Submits.reaches {w w' : Concurrent α} (h : w.Submits w') : w.Reaches w' := by
  induction h with
  | refl => exact .refl
  | tail _ hstep ih =>
    obtain ⟨e, -, hstep, -⟩ := hstep
    exact ih.step hstep

/-- A submission goes on step by step, to its end unless it waits at the ingest. -/
theorem submits_of_submit {w : Concurrent α} {frame : HandleId} {user : α} {result : Submission}
    {r : Relay α} (h : w.relay.submit frame user = (result, r)) :
    ∃ submissions accepted, w.Submits { w with relay := r, submissions, accepted } ∧
      ∀ answer, result = .done answer → submissions = w.submissions := by
  have hreg := w.relay.registers_register frame user
  unfold Relay.submit at h
  generalize hregistration : w.relay.register frame user = registration at hreg h
  cases hreg with
  | failed =>
    cases h
    exact ⟨_, _, .step .refl (.fail hregistration) trivial rfl rfl, fun _ _ => rfl⟩
  | turnedAway =>
    cases h
    exact ⟨_, _, .step .refl (.turnAway hregistration) trivial rfl rfl, fun _ _ => rfl⟩
  | registered =>
    have hbegun := Submits.step .refl (.register _ _ hregistration) trivial rfl
      (Bridge.output_enter ..)
    simp only [Relay.measure] at h
    generalize hmeasure : Store.measure _ _ = measured at h
    rcases measured with ⟨_ | o, s⟩
    · cases h
      -- a frame that cannot be measured is refused before the ingest is asked
      have hrefused := hbegun.step (.unmeasured (.refl _) hmeasure) trivial rfl rfl
      exact ⟨_, _, hrefused.withdraw rfl, fun _ _ => rfl⟩
    · have hmeasured := hbegun.step (.measure (.refl _) hmeasure) trivial rfl rfl
      simp only [Relay.resume?] at h
      generalize hsettle : Ingest.settle? _ _ _ = settled at h
      rcases settled with _ | ⟨flow, p, s'⟩
      · -- the submission waits here, with its frame measured
        cases h
        exact ⟨_, _, hmeasured, nofun⟩
      · by_cases hflow : flow = .ok
        · cases hflow
          cases h
          have haccepted := hmeasured.step (.accept (.refl _) hsettle) trivial rfl
            (Bridge.output_confirm ..)
          exact ⟨_, _, haccepted, fun _ _ => rfl⟩
        · have hrefused := hmeasured.step (.refuse (.refl _) hsettle hflow) trivial rfl rfl
          have hwithdrawn := hrefused.withdraw rfl
          -- every answer but the acceptance is treated the same way
          cases flow with
          | ok => exact absurd rfl hflow
          | flushing | ended | error =>
            cases h
            exact ⟨_, _, hwithdrawn, fun _ _ => rfl⟩

/-- A submission that was carried out to its end, step by step. -/
theorem reaches_of_submit {w : Concurrent α} {frame : HandleId} {user : α}
    {result : Except Error Bool} {r : Relay α}
    (h : w.relay.submit frame user = (.done result, r)) :
    ∃ accepted, w.Reaches { w with relay := r, accepted } := by
  obtain ⟨submissions, accepted, hsubmits, hdone⟩ := submits_of_submit h
  cases hdone result rfl
  exact ⟨accepted, hsubmits.reaches⟩

/-- What a call leads to that was carried out can be reached. -/
theorem reaches_of_call? {w : Concurrent α} {c : Call α} {a : Answer α} {r : Relay α}
    (h : w.relay.call? c = some (a, r)) :
    ∃ accepted, w.Reaches { w with relay := r, accepted } := by
  have haside : c.IsAside → ∃ accepted, w.Reaches { w with relay := r, accepted } :=
    fun hc => ⟨w.accepted, .single ⟨_, .aside c hc h⟩⟩
  -- a submission takes several steps, every other call takes one
  cases c with
  | submit frame user =>
    simp only [Relay.call?] at h
    rcases hs : w.relay.submit frame user with ⟨result | ⟨t, o⟩, r'⟩
    · rw [hs] at h
      cases h
      exact reaches_of_submit hs
    · rw [hs] at h
      cases h
  | deliver item =>
    simp only [Relay.call?] at h
    rcases hd : w.relay.deliver item with ⟨result | m, r'⟩
    · rw [hd] at h
      cases h
      exact ⟨w.accepted, .single ⟨_, .deliver hd⟩⟩
    · rw [hd] at h
      cases h
  | resetPending =>
    cases h
    exact ⟨w.accepted, .single ⟨_, .reset⟩⟩
  | pop => exact haside trivial
  | clear => exact haside trivial
  | setDraining draining => exact haside trivial
  | pull => exact haside trivial
  | setFlushing flushing => exact haside trivial
  | endStream => exact haside trivial
  | elsewhere store => exact haside trivial

/-- What a run of calls leads to can be reached. -/
theorem reaches_of_run {s : Settings} {ingestMax : Nat} {turns : List (Turn α)} {r : Relay α}
    (run : Run (.new s ingestMax) turns r) :
    ∃ accepted, (Concurrent.new s ingestMax).Reaches { relay := r, accepted } := by
  induction run with
  | start => exact ⟨[], .refl⟩
  | turn run h ih =>
    obtain ⟨accepted, hreach⟩ := ih
    obtain ⟨accepted', hcall⟩ := reaches_of_call? (w := { relay := _, accepted }) h
    exact ⟨accepted', hreach.trans hcall⟩

/-- With valid settings there is always room for one entry. -/
theorem maxPending_pos_of_run {s : Settings} {ingestMax : Nat} {turns : List (Turn α)}
    {r : Relay α} (hs : s.validate = .ok ()) (run : Run (.new s ingestMax) turns r) :
    0 < r.bridge.maxPending := by
  obtain ⟨accepted, hreach⟩ := reaches_of_run run
  obtain ⟨-, -, hmaxPending⟩ := configured_of_reaches hreach
  rw [hmaxPending]
  exact (Settings.validate_eq_ok_iff.1 hs).room.1

/-! ## The ids of any number of submissions -/

/-- In every state that can be reached, entries ascend and are below the next id, no two of the
    submissions under way and of the frames ever accepted have the same id, and no submission from
    then on gets the id of a frame that was accepted. -/
theorem ids_of_reaches {s : Settings} {ingestMax : Nat} {w : Concurrent α}
    (h : (Concurrent.new s ingestMax).Reaches w) :
    w.pending.entries.Pairwise (fun a b => a.id < b.id) ∧
    (∀ e ∈ w.pending.entries, e.id < w.pending.nextId) ∧
    (w.submissions.map (·.ticket.id) ++ w.accepted).Nodup ∧
    ∀ w', w.Reaches w' → ∀ frame user t r,
      w'.relay.register frame user = (.registered t, r) → t.id ∉ w.accepted := by
  have hw := separate_of_reaches (.new s ingestMax) h
  refine ⟨hw.ascending.sorted, hw.ascending.below, hw.nodup, ?_⟩
  intro w' hreach frame user t r hregister hmem
  have hw' := separate_of_reaches hw hreach
  -- the id is still held, and a registration gives out the next one only
  have hheld : t.id ∈ w'.held :=
    List.mem_append_right _ (accepted_subset_of_reaches hreach hmem)
  have hlt := hw'.below t.id hheld
  cases effect_of_step (.register _ _ hregister) with
  | registered hid => omega

/-- Two frames of one byte each. -/
def twoFrames : Store :=
  ((Store.newBuffer {} { bytes := ⟨#[1]⟩ }).2.newBuffer { bytes := ⟨#[2]⟩ }).2

/-- Two submissions begin, and the ingest accepts the first while the second is still under way. -/
theorem ids_of_two_submissions : ∃ w : Concurrent Nat, (new {} 64).Reaches w ∧
    w.tickets = [1] ∧ w.accepted = [0] ∧
      (w.submissions.map (·.ticket.id) ++ w.accepted).Nodup ∧
      ∀ w', w.Reaches w' → ∀ frame user t r,
        w'.relay.register frame user = (.registered t, r) → t.id ∉ w.accepted := by
  obtain ⟨w, hreach, htickets, haccepted⟩ : ∃ w : Concurrent Nat,
      (new {} 64).Reaches w ∧ w.tickets = [1] ∧ w.accepted = [0] := by
    have hstart : (new {} 64 : Concurrent Nat).Reaches (new {} 64) := .refl
    have hopen := hstart.step (.aside (.setFlushing false) trivial rfl)
    have hframes := hopen.step (.aside (.elsewhere twoFrames) trivial rfl)
    have hfirst := hframes.step (.register 0 7 rfl)
    have hsecond := hfirst.step (.register 1 8 rfl)
    have hmeasured := hsecond.step (.measure (.swap ..) rfl)
    exact ⟨_, hmeasured.step (.accept (.refl _) rfl), rfl, rfl⟩
  have h := ids_of_reaches hreach
  exact ⟨w, hreach, htickets, haccepted, h.2.2⟩

end Concurrent

/-- Room for one entry, which makes way if need be. -/
def oneEntry : Settings :=
  { discardPolicy := .discardOutput, maxOutputQueue := 1, maxInputQueue := 1, maxPending := 1 }

/-- One-byte frames that carry the ids given, or none, under the handles from 0 on. -/
def framesWith (ids : List (Option Nat)) : Store :=
  ids.foldl (fun s id => (s.newBuffer { bytes := ⟨#[1]⟩, info := { id } }).2) {}

end MediaBridge
