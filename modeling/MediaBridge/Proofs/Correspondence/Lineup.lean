import Mathlib.Data.List.Forall2
import MediaBridge.Proofs.Boundary.QueuedBytes
import MediaBridge.Proofs.Buffer.Marks
import MediaBridge.Proofs.Correspondence.Interleaving
import MediaBridge.Proofs.Trail

/-! # The ids in the ingest

A submission gets its id when it is registered, and its frame carries the id into the ingest.  Any number
of threads submit, and between the two steps of one of them the others go on: the ingest accepts
submissions in whatever order they come, which need not be that of their ids.

The id of a frame is that of its buffer, and a frame that was given away may share its buffer with a
handle that somebody kept.  So `Goes` asks of those who submit, and of those who only work with buffers,
not to put another id on a frame that was given away.  Everybody else cannot (`goes_of_step`).

* `register_cases`, `quiet_deliver`, `quiet_of_isAside`  what puts an id on a frame;
* `lined_of_goes`      the queued frames carry ids in the order in which they were accepted;
* `inTurn_of_effect`   the ids accepted ascend while no submission overtakes an older one;
* `stamps_of_trail`    the ids on the queued frames.
-/

namespace MediaBridge

variable {α : Type u}

/-- Taking the payload of a sample puts an id on no frame but the copy. -/
theorem Store.faithful_takePayload (s : Store) (frame : HandleId) :
    s.Faithful (s.takePayload frame).2 := by
  unfold takePayload
  cases hv : s.view frame with
  | error e => exact s.faithful_drop frame
  | ok viewed =>
    obtain ⟨v, s₁⟩ := viewed
    have hview := faithful_view hv
    have hdrop : ∀ {s₂ : Store}, s.Faithful s₂ → s.Faithful ((s₂.drop v).drop frame) :=
      fun h => (h.trans (faithful_drop ..)).trans (faithful_drop ..)
    simp only
    cases s₁.info v with
    | error e => exact hdrop hview
    | ok info =>
      simp only
      cases info.id with
      | none => exact hdrop hview
      | some id =>
        have hcopy := hview.trans (s₁.faithful_deepCopy v)
        simp only
        cases hc : s₁.deepCopy v with
        | mk result s₂ =>
          rw [hc] at hcopy
          cases result <;> exact hdrop hcopy

namespace Relay

/-- No frame got another id, and none came into the ingest. -/
structure Quiet (r r' : Relay α) : Prop where
  faithful : r.store.Faithful r'.store
  queue : r'.ingest.queue <:+ r.ingest.queue

variable {r r' r'' : Relay α}

/-- Two quiet steps are quiet together. -/
theorem Quiet.trans (h : r.Quiet r') (h' : r'.Quiet r'') : r.Quiet r'' :=
  ⟨h.faithful.trans h'.faithful, h'.queue.trans h.queue⟩

/-- A step that leaves the ingest and puts no id on a frame is quiet. -/
theorem Quiet.of_same (hstore : r.store.Faithful r'.store) (hingest : r'.ingest = r.ingest) :
    r.Quiet r' :=
  ⟨hstore, hingest ▸ List.suffix_refl _⟩

/-- A submission that is registered marks its frame, and any other leaves all frames alone. -/
theorem register_cases (r : Relay α) (frame : HandleId) (user : α) :
    (∃ t s i r', r.register frame user = (.registered t, r') ∧ t.frame = frame ∧
      r.store.Faithful s ∧ s.updateInfo frame (·.stamped i t.id) = .ok r'.store ∧
      r'.ingest = r.ingest) ∨
    (∀ t, (r.register frame user).1 ≠ .registered t) ∧ r.Quiet (r.register frame user).2 := by
  have hsize := r.store.faithful_size frame
  unfold register
  cases hs : r.store.size frame with
  | mk result s =>
    rw [hs] at hsize
    cases result with
    | error e => exact .inr ⟨nofun, .of_same (hsize.trans (Store.faithful_drop ..)) rfl⟩
    | ok size =>
      have hunmap := hsize.trans (Store.faithful_unmap _ frame)
      have hdrop := hunmap.trans (Store.faithful_drop _ frame)
      simp only
      -- until the id is put on the frame every way out is quiet
      cases (s.unmap frame).info frame with
      | error e => exact .inr ⟨nofun, .of_same hdrop rfl⟩
      | ok info =>
        simp only
        split
        · exact .inr ⟨nofun, .of_same hdrop rfl⟩
        · cases hu : (s.unmap frame).updateInfo frame
              (·.stamped info.timing r.bridge.pending.nextId) with
          | error e => exact .inr ⟨nofun, .of_same hdrop rfl⟩
          | ok s' => exact .inl ⟨_, _, _, _, rfl, rfl, hunmap, hu, rfl⟩

/-- A publication that does not wait is quiet. -/
theorem quiet_publish? {m : Matched α} (h : r.publish? m = some r') : r.Quiet r' := by
  obtain ⟨⟨kept, bridge⟩, -, heq⟩ := Option.map_eq_some_iff.1 h
  cases kept <;> cases heq
  · exact .of_same (Store.faithful_drop ..) rfl
  · exact .of_same (.refl _) rfl

/-- A publication is quiet, also if it waits. -/
theorem quiet_publish (r : Relay α) (m : Matched α) : r.Quiet (r.publish m).2 := by
  unfold publish
  cases h : r.publish? m with
  | none => exact .of_same (.refl _) rfl
  | some r' => exact quiet_publish? h

/-- Matching a copy is quiet: the copy has its id already. -/
theorem quiet_matchCopy (r : Relay α) (copy : HandleId) (id : Nat) :
    r.Quiet (r.matchCopy copy id).2 := by
  have hsize := r.store.faithful_size copy
  unfold matchCopy
  cases hs : r.store.size copy with
  | mk result s =>
    rw [hs] at hsize
    have hdrop : ∀ {s' : Store}, r.store.Faithful s' → r.store.Faithful (s'.drop copy) :=
      fun h => h.trans (Store.faithful_drop ..)
    cases result with
    | error e => exact .of_same (hdrop hsize) rfl
    | ok size =>
      have hunmap := hsize.trans (Store.faithful_unmap _ copy)
      simp only
      cases r.bridge.resolve id size with
      | mk resolution bridge =>
        cases resolution with
        | unmatched => exact .of_same (hdrop hunmap) rfl
        | outOfOrder oldest => exact .of_same (hdrop hunmap) rfl
        | found entry =>
          simp only
          cases ht : (s.unmap copy).setTiming copy entry.timing with
          | error e => exact .of_same (hdrop hunmap) rfl
          | ok s' =>
            have htimed := hunmap.trans
              (Store.faithful_updateInfo (f := (·.withTiming entry.timing)) (fun _ => rfl) ht)
            have hfound : r.Quiet { r with store := s', bridge } := .of_same htimed rfl
            exact hfound.trans (quiet_publish ..)

/-- A delivery is quiet, whatever it comes to. -/
theorem quiet_deliver (r : Relay α) (item : Item) : r.Quiet (r.deliver item).2 := by
  cases item with
  | endOfStream => exact .of_same (.refl _) rfl
  | sample x =>
    have htaken := r.store.faithful_takePayload x.frame
    unfold deliver
    simp only
    cases ht : r.store.takePayload x.frame with
    | mk result s =>
      rw [ht] at htaken
      cases result with
      | error e =>
        simp only
        split <;> exact .of_same htaken rfl
      | ok payload =>
        cases payload with
        | none => exact .of_same htaken rfl
        | some found =>
          have hmatched : r.Quiet { r with store := s } := .of_same htaken rfl
          exact hmatched.trans (quiet_matchCopy ..)

/-- A call that has nothing to do with the entries is quiet, unless it is made by others. -/
theorem quiet_of_isAside {c : Call α} {a : Answer α} (hc : c.IsAside)
    (h : r.call? c = some (a, r')) : r.Quiet r' ∨ ∃ store, r' = { r with store } := by
  cases c with
  | submit | deliver | resetPending => exact hc.elim
  | pop =>
    simp only [call?] at h
    cases hp : r.pop? with
    | none =>
      rw [hp] at h
      cases h
      exact .inl (.of_same (.refl _) rfl)
    | some popped =>
      rw [hp] at h
      cases h
      obtain ⟨x, -, heq⟩ := Option.map_eq_some_iff.1 hp
      rw [← heq]
      exact .inl (.of_same (.refl _) rfl)
  | pull =>
    simp only [call?] at h
    cases hp : r.pull? with
    | none =>
      rw [hp] at h
      cases h
      exact .inl (.of_same (.refl _) rfl)
    | some pulled =>
      rw [hp] at h
      cases h
      obtain ⟨⟨frame, p, s⟩, hpull, heq⟩ := Option.map_eq_some_iff.1 hp
      obtain ⟨rest, hqueue, rfl, rfl⟩ := Ingest.pull_cases hpull
      rw [← heq]
      refine .inl ⟨(r.store.faithful_size _).trans (Store.faithful_unmap ..), ?_⟩
      rw [hqueue]
      exact List.suffix_cons ..
  | clear =>
    cases h
    exact .inl (.of_same (Store.faithful_dropAll ..) rfl)
  | setDraining draining =>
    cases h
    exact .inl (.of_same (.refl _) rfl)
  | setFlushing flushing =>
    cases h
    cases flushing with
    | true => exact .inl ⟨Store.faithful_dropAll .., List.nil_suffix⟩
    | false => exact .inl ⟨.refl _, List.suffix_refl _⟩
  | endStream =>
    cases h
    exact .inl ⟨.refl _, List.suffix_refl _⟩
  | elsewhere store =>
    cases h
    exact .inr ⟨store, rfl⟩

end Relay

/-- A frame is offered under its own handle. -/
def Underway.Sound (u : Underway) : Prop := ∀ o, u.stage = .offered o → o.frame = u.ticket.frame

/-- A frame is measured under its own handle. -/
theorem Store.frame_of_measure {s s' : Store} {h : HandleId} {o : Offer}
    (hm : s.measure h = (some o, s')) : o.frame = h := by
  unfold measure at hm
  cases hs : s.size h with
  | mk result s₁ =>
    rw [hs] at hm
    cases result <;> cases hm
    rfl

namespace Concurrent

/-- The frames that were given away: those of the submissions under way, and the queued ones. -/
def given (w : Concurrent α) : List HandleId :=
  w.submissions.map (·.ticket.frame) ++ w.relay.ingest.queue

/-- The ids that can be read on the queued frames, from the oldest on. -/
def stamps (w : Concurrent α) : List Nat := w.relay.ingest.queue.filterMap w.relay.store.idOf?

/-- What a step is, and the ids of the submissions that were under way. -/
structure Move (α : Type u) where
  event : Event α
  underway : List Nat

/-- Whether the ingest accepts a submission while an older one is under way. -/
def Move.overtakes (m : Move α) : Bool :=
  match m.event with
  | .accepted t => m.underway.any (· < t.id)
  | _ => false

/-- One step of one thread, by which no frame that was given away gets another id. -/
structure Goes (w : Concurrent α) (m : Move α) (w' : Concurrent α) : Prop where
  step : w.Step m.event w'
  underway : m.underway = w.tickets
  /-- What is submitted does not share its buffer with a frame that was given away. -/
  apart : ∀ t user, m.event = .registered t user →
    ∀ h ∈ w.given, w'.relay.store.Apart t.frame h
  /-- Who works with the buffers only leaves the frames alone that were given away. -/
  others : ∀ store, w' = { w with relay := { w.relay with store } } →
    ∀ h ∈ w.given, ∀ id, w.relay.store.Marked h id → store.Marked h id

/-- One buffer with two frames. -/
def sharedFrames : Store := ((Store.newFrame {} ⟨#[1]⟩).2.own 0).2

/-- Without what `Goes` asks, one thread is enough for an id to be queued twice: the second of two frames
    that share a buffer puts its id on both of them. -/
theorem stamps_of_shared : ∃ w : Concurrent Nat, Attains Step (new {} 64) w ∧ w.accepted = [1, 0] ∧
    w.stamps = [1, 1] := by
  have hstart : Attains Step (new {} 64 : Concurrent Nat) (new {} 64) := .refl _
  have hopen := hstart.step (.aside (.setFlushing false) trivial rfl)
  have hframes := hopen.step (.aside (.elsewhere sharedFrames) trivial rfl)
  have hfirst := ((hframes.step (.register 0 7 rfl)).step (.measure (.refl _) rfl)).step
    (.accept (.refl _) rfl)
  have hsecond := ((hfirst.step (.register 1 8 rfl)).step (.measure (.refl _) rfl)).step
    (.accept (.refl _) rfl)
  exact ⟨_, hsecond, rfl, rfl⟩

/-! ## What a step does to the frames -/

/-- What a step does to the frames that were given away. -/
inductive Passage (w w' : Concurrent α) : Event α → Prop where
  | registered {t : Ticket} {user : α} {s : Store} {i : Timing}
    (hsubmissions : w'.submissions = ⟨t, .registered⟩ :: w.submissions)
    (haccepted : w'.accepted = w.accepted) (hs : w.relay.store.Faithful s)
    (hu : s.updateInfo t.frame (·.stamped i t.id) = .ok w'.relay.store)
    (hqueue : w'.relay.ingest.queue = w.relay.ingest.queue) : w.Passage w' (.registered t user)
  | accepted {t : Ticket} {o : Offer} {rest : List Underway}
    (hu : w.submissions.Perm (⟨t, .offered o⟩ :: rest)) (hsubmissions : w'.submissions = rest)
    (haccepted : w'.accepted = t.id :: w.accepted) (hstore : w'.relay.store = w.relay.store)
    (hqueue : w'.relay.ingest.queue = w.relay.ingest.queue ++ [o.frame]) :
    w.Passage w' (.accepted t)
  -- Others worked with the buffers.
  | elsewhere {e : Event α} {store : Store} (h : w' = { w with relay := { w.relay with store } }) :
    w.Passage w' e
  -- No frame was marked, and none came into the queue.
  | quiet {e : Event α} (haccepted : w'.accepted = w.accepted) (hquiet : w.relay.Quiet w'.relay)
    (hsubmissions : ∀ u' ∈ w'.submissions, ∃ u ∈ w.submissions,
      u'.ticket = u.ticket ∧ (u.Sound → u'.Sound)) : w.Passage w' e

variable {w w' : Concurrent α}

/-- The submissions under way are the same. -/
theorem Passage.of_same {e : Event α} {r : Relay α} {parked : List (Matched α)}
    (hquiet : w.relay.Quiet r) : w.Passage { w with relay := r, parked } e :=
  .quiet rfl hquiet fun u hu => ⟨u, hu, rfl, id⟩

/-- One submission goes on. -/
theorem Passage.of_stage {e : Event α} {r : Relay α} {t : Ticket} {stage stage' : Stage}
    {rest : List Underway} (hu : w.submissions.Perm (⟨t, stage⟩ :: rest))
    (hstage : ∀ o, stage' = .offered o → o.frame = t.frame) (hquiet : w.relay.Quiet r) :
    w.Passage { w with relay := r, submissions := ⟨t, stage'⟩ :: rest } e := by
  refine .quiet rfl hquiet fun u' hu' => ?_
  rcases List.mem_cons.1 hu' with rfl | hrest
  · exact ⟨_, hu.mem_iff.2 List.mem_cons_self, rfl, fun _ => hstage⟩
  · exact ⟨u', hu.mem_iff.2 (List.mem_cons_of_mem _ hrest), rfl, id⟩

/-- Every step does one of these to the frames that were given away. -/
theorem passage_of_step {e : Event α} (h : w.Step e w') : w.Passage w' e := by
  cases h with
  | @register frame user t r h =>
    -- ⟨hne, -⟩
    rcases w.relay.register_cases frame user with ⟨t', s, i, r', hr, rfl, hs, hu, hi⟩ | ⟨hne, -⟩
    · rw [h] at hr
      cases hr
      exact .registered rfl rfl hs hu (congrArg Ingest.queue hi)
    · rw [h] at hne
      exact absurd rfl (hne t)
  | @turnAway frame user r h =>
    rcases w.relay.register_cases frame user with ⟨t', s, i, r', hr, -⟩ | ⟨-, hquiet⟩
    · rw [h] at hr
      cases hr
    · rw [h] at hquiet
      exact .of_same hquiet
  | @fail frame user e r h =>
    rcases w.relay.register_cases frame user with ⟨t', s, i, r', hr, -⟩ | ⟨-, hquiet⟩
    · rw [h] at hr
      cases hr
    · rw [h] at hquiet
      exact .of_same hquiet
  | @measure t rest o s hu h =>
    have hframe := Store.frame_of_measure h
    have hmeasure := w.relay.store.faithful_measure t.frame
    rw [h] at hmeasure
    refine .of_stage hu (fun o' ho' => ?_) (.of_same hmeasure rfl)
    cases ho'
    exact hframe
  | @unmeasured t rest s hu h =>
    have hmeasure := w.relay.store.faithful_measure t.frame
    rw [h] at hmeasure
    exact .of_stage hu nofun (.of_same hmeasure rfl)
  | accept hu h =>
    obtain ⟨-, rfl, rfl⟩ | ⟨hflow, -⟩ := Ingest.settle?_cases h
    · exact .accepted hu rfl rfl rfl (Ingest.queue_accept ..)
    · exact absurd rfl hflow
  | refuse hu h hflow =>
    obtain ⟨hok, -⟩ | ⟨-, rfl, rfl⟩ := Ingest.settle?_cases h
    · exact absurd hok hflow
    · exact .of_stage hu nofun (.of_same (Store.faithful_drop ..) rfl)
  | withdraw hu =>
    refine .quiet rfl (.of_same (.refl _) rfl) fun u hrest => ?_
    exact ⟨u, hu.mem_iff.2 (List.mem_cons_of_mem _ hrest), rfl, id⟩
  | @deliver item result r h =>
    have hquiet := w.relay.quiet_deliver item
    rw [h] at hquiet
    exact .of_same hquiet
  | @park item m r h =>
    have hquiet := w.relay.quiet_deliver item
    rw [h] at hquiet
    exact .of_same hquiet
  | publish hm h => exact .of_same (Relay.quiet_publish? h)
  | reset => exact .of_same (.of_same (.refl _) rfl)
  | aside c hc h =>
    rcases Relay.quiet_of_isAside hc h with hquiet | ⟨store, rfl⟩
    · exact .of_same hquiet
    · exact .elsewhere rfl

/-- Only submissions that are registered, and those who only work with buffers, could put another id on
    a frame that was given away. -/
theorem goes_of_step {e : Event α} (h : w.Step e w') :
    (∃ t user, e = .registered t user) ∨
      (∃ store, w' = { w with relay := { w.relay with store } }) ∨ w.Goes ⟨e, w.tickets⟩ w' := by
  have hgoes : (∀ t user, e ≠ .registered t user) → w.relay.store.Faithful w'.relay.store →
      w.Goes ⟨e, w.tickets⟩ w' := by
    refine fun hne hs => ⟨h, rfl, fun t user he => absurd he (hne t user), ?_⟩
    rintro store rfl _ _ id hm
    exact hm.faithful hs
  cases passage_of_step h with
  | registered => exact .inl ⟨_, _, rfl⟩
  | accepted hu hsubmissions haccepted hstore hqueue =>
    exact .inr (.inr (hgoes nofun (hstore ▸ .refl _)))
  | elsewhere heq => exact .inr (.inl ⟨_, heq⟩)
  | quiet haccepted hquiet hsubmissions =>
    by_cases hregistered : ∃ t user, e = .registered t user
    · exact .inl hregistered
    · exact .inr (.inr (hgoes (fun t user he => hregistered ⟨t, user, he⟩) hquiet.faithful))

/-- Others may do anything to the buffers but put an id on one that a frame shares that was given away. -/
theorem Goes.elsewhere (op : Store.Op)
    (hop : ∀ g id, op = .setId g id → ∀ h ∈ w.given, w.relay.store.Apart g h) :
    w.Goes ⟨.other, w.tickets⟩
      { w with relay := { w.relay with store := w.relay.store.perform op } } := by
  refine ⟨.aside (.elsewhere _) trivial rfl, rfl, nofun, fun store heq h hh id hm => ?_⟩
  have hstore : w.relay.store.perform op = store := congrArg (·.relay.store) heq
  rw [← hstore]
  exact hm.perform fun g id' he => hop g id' he h hh

/-! ## The marks on the queued frames -/

/-- The queued frames are marked with ids in the order in which these were accepted. -/
structure Lined (w : Concurrent α) : Prop where
  sound : ∀ u ∈ w.submissions, u.Sound
  marked : ∀ u ∈ w.submissions, w.relay.store.Marked u.ticket.frame u.ticket.id
  queued : ∃ ids, ids <:+ w.accepted.reverse ∧
    List.Forall₂ w.relay.store.Marked w.relay.ingest.queue ids

/-- At the start nothing is queued and nothing under way. -/
theorem lined_new (s : Settings) (ingestMax : Nat) : (new s ingestMax : Concurrent α).Lined where
  sound := nofun
  marked := nofun
  queued := ⟨[], List.nil_suffix, .nil⟩

/-- The last frames of the queue are marked with the last of the ids. -/
theorem marked_of_suffix {s : Store} {queue rest : List HandleId} {ids : List Nat}
    (h : List.Forall₂ s.Marked queue ids) (hrest : rest <:+ queue) :
    ∃ later, later <:+ ids ∧ List.Forall₂ s.Marked rest later := by
  rw [List.suffix_iff_eq_drop] at hrest
  exact ⟨_, List.drop_suffix .., hrest ▸ List.forall₂_drop _ h⟩

/-- The marks of the frames that were given away pass from one store to another. -/
theorem marked_of_given {s : Store} {ids : List Nat}
    (hkeep : ∀ h ∈ w.given, ∀ id, w.relay.store.Marked h id → s.Marked h id)
    (hqueued : List.Forall₂ w.relay.store.Marked w.relay.ingest.queue ids) :
    List.Forall₂ s.Marked w.relay.ingest.queue ids := by
  have hgiven : ∀ h ∈ w.relay.ingest.queue, h ∈ w.given := fun _ => List.mem_append_right _
  exact ((List.forall₂_and_left ..).2 ⟨hgiven, hqueued⟩).imp fun h id ⟨hh, hm⟩ => hkeep h hh id hm

/-- The frame of a submission under way was given away. -/
theorem mem_given {u : Underway} (hu : u ∈ w.submissions) : u.ticket.frame ∈ w.given :=
  List.mem_append_left _ (List.mem_map_of_mem hu)

/-- What is registered is marked, and shares its buffer with nothing that was marked before. -/
theorem marked_of_registered {t : Ticket} {s s' : Store} {i : Timing}
    (hs : w.relay.store.Faithful s) (hu : s.updateInfo t.frame (·.stamped i t.id) = .ok s')
    (hapart : ∀ h ∈ w.given, s'.Apart t.frame h) :
    ∀ h ∈ w.given, ∀ id, w.relay.store.Marked h id → s'.Marked h id := by
  intro h hh id hm
  obtain ⟨b, owning, x, -, -, rfl⟩ := Store.eq_setInfoOf_of_updateInfo hu
  exact (hm.faithful hs).updateInfo (hapart h hh) hu

/-- The queued frames stay marked in the order in which they were accepted. -/
theorem lined_of_goes {m : Move α} (h : w.Lined) (hgoes : w.Goes m w') : w'.Lined := by
  obtain ⟨ids, hids, hqueued⟩ := h.queued
  have hpassage := passage_of_step hgoes.step
  have hapart := hgoes.apart
  generalize m.event = e at hpassage hapart
  cases hpassage with
  | @registered t user s i hsubmissions haccepted hs hu hqueue =>
    have hkeep := marked_of_registered hs hu (hapart t user rfl)
    refine ⟨?_, ?_, ids, by rwa [haccepted], by rw [hqueue]; exact marked_of_given hkeep hqueued⟩
    · rw [hsubmissions]
      exact List.forall_mem_cons.2 ⟨nofun, h.sound⟩
    · rw [hsubmissions]
      exact List.forall_mem_cons.2 ⟨Store.marked_updateInfo (fun _ => rfl) hu,
        fun u hmem => hkeep _ (mem_given hmem) _ (h.marked u hmem)⟩
  | @accepted t o rest hu hsubmissions haccepted hstore hqueue =>
    have hfirst := hu.mem_iff.2 List.mem_cons_self
    -- the submission accepted is gone, and its frame is the last of the queue now
    have hrest : ∀ u ∈ w'.submissions, u ∈ w.submissions := by
      intro u hmem
      rw [hsubmissions] at hmem
      exact hu.mem_iff.2 (List.mem_cons_of_mem _ hmem)
    refine ⟨fun u hmem => h.sound u (hrest u hmem), ?_, ids ++ [t.id], ?_, ?_⟩
    · rw [hstore]
      exact fun u hmem => h.marked u (hrest u hmem)
    · obtain ⟨before, hbefore⟩ := hids
      refine ⟨before, ?_⟩
      rw [haccepted, List.reverse_cons, ← hbefore, List.append_assoc]
    · rw [hqueue, hstore, h.sound _ hfirst o rfl]
      exact List.rel_append hqueued (.cons (h.marked _ hfirst) .nil)
  | @elsewhere _ store heq =>
    have hkeep := hgoes.others store heq
    have hmarked := marked_of_given hkeep hqueued
    rw [heq]
    exact ⟨h.sound, fun u hmem => hkeep _ (mem_given hmem) _ (h.marked u hmem), ids, hids, hmarked⟩
  | quiet haccepted hquiet hsubmissions =>
    -- frames may have been taken out at the front
    obtain ⟨later, hlater, hmarked⟩ := marked_of_suffix hqueued hquiet.queue
    refine ⟨fun u' hmem => ?_, fun u' hmem => ?_, later, ?_, ?_⟩
    · obtain ⟨u, hold, -, hsound⟩ := hsubmissions u' hmem
      exact hsound (h.sound u hold)
    · obtain ⟨u, hold, hticket, -⟩ := hsubmissions u' hmem
      rw [hticket]
      exact (h.marked u hold).faithful hquiet.faithful
    · rw [haccepted]
      exact hlater.trans hids
    · exact hmarked.imp fun _ _ hm => hm.faithful hquiet.faithful

/-- The ids that can be read on marked frames are among the marks. -/
theorem sublist_of_marked {s : Store} {queue : List HandleId} {ids : List Nat}
    (h : List.Forall₂ s.Marked queue ids) : (queue.filterMap s.idOf?).Sublist ids := by
  induction h with
  | nil => exact .slnil
  | @cons frame id _ _ hm _ ih =>
    -- hsome
    rcases hm.idOf? with hnone | hsome
    · rw [List.filterMap_cons_none hnone]
      exact ih.cons _
    · rw [List.filterMap_cons_some hsome]
      exact ih.cons_cons _

/-- Each of several marked frames has one of the marks. -/
theorem exists_mark_of_mem {s : Store} {queue : List HandleId} {ids : List Nat}
    (h : List.Forall₂ s.Marked queue ids) {frame : HandleId} (hframe : frame ∈ queue) :
    ∃ id ∈ ids, s.Marked frame id := by
  induction h with
  | nil => exact absurd hframe List.not_mem_nil
  | cons hm _ ih =>
    rcases List.mem_cons.1 hframe with rfl | hrest
    · exact ⟨_, List.mem_cons_self, hm⟩
    · obtain ⟨id, hid, hmarked⟩ := ih hrest
      exact ⟨id, List.mem_cons_of_mem _ hid, hmarked⟩

/-! ## The order in which the ingest accepts -/

/-- The ingest accepted the submissions in the order of their ids. -/
structure InTurn (w : Concurrent α) : Prop where
  accepted : w.accepted.Pairwise (· > ·)
  before : ∀ a ∈ w.accepted, ∀ id ∈ w.tickets, a < id

/-- The ids accepted go on ascending unless the step overtakes an older submission. -/
theorem inTurn_of_effect {m : Move α} (h : w.InTurn) (hw : w.Separate)
    (hm : m.underway = w.tickets) (hturn : m.overtakes = false) (heffect : w.Effect w' m.event) :
    w'.InTurn := by
  unfold Move.overtakes at hturn
  rw [hm] at hturn
  generalize m.event = e at hturn heffect
  have hmono : w'.accepted = w.accepted → (∀ id ∈ w'.tickets, id ∈ w.tickets) → w'.InTurn := by
    intro haccepted htickets
    refine ⟨haccepted ▸ h.accepted, fun a ha id hid => ?_⟩
    exact h.before a (haccepted ▸ ha) id (htickets id hid)
  cases heffect with
  | @registered t timing user hid hpending htickets haccepted =>
    refine ⟨haccepted ▸ h.accepted, fun a ha id hmem => ?_⟩
    rw [haccepted] at ha
    rw [htickets] at hmem
    rcases List.mem_cons.1 hmem with rfl | hold
    · -- every id that was ever accepted is below the next one
      rw [hid]
      exact hw.below a (List.mem_append_right _ ha)
    · exact h.before a ha id hold
  | @accepted t hpending htickets haccepted =>
    -- what does not overtake is the oldest under way
    have hleast : ∀ id ∈ w.tickets, t.id ≤ id := by
      simpa only [List.any_eq_false, decide_eq_true_eq, Nat.not_lt] using hturn
    have hfirst : t.id ∈ w.tickets := htickets.mem_iff.2 List.mem_cons_self
    have hnodup := htickets.nodup_iff.1 (List.nodup_append.1 hw.nodup).1
    have hrest : t.id ∉ w'.tickets := (List.nodup_cons.1 hnodup).1
    constructor
    · rw [haccepted]
      exact List.pairwise_cons.2 ⟨fun a ha => h.before a ha t.id hfirst, h.accepted⟩
    · intro a ha id hid
      rw [haccepted] at ha
      have hold : id ∈ w.tickets := htickets.mem_iff.2 (List.mem_cons_of_mem _ hid)
      rcases List.mem_cons.1 ha with rfl | ha
      · have hne : id ≠ t.id := fun heq => hrest (heq ▸ hid)
        have hle := hleast id hold
        omega
      · exact h.before a ha id hold
  | withdrawn hpending htickets haccepted =>
    exact hmono haccepted fun id hid => htickets.mem_iff.2 (List.mem_cons_of_mem _ hid)
  | resolved _ _ _ htickets haccepted => exact hmono haccepted fun id hid => htickets ▸ hid
  | ignored _ htickets haccepted => exact hmono haccepted fun id hid => htickets ▸ hid
  | forgotten _ htickets haccepted => exact hmono haccepted fun id hid => htickets ▸ hid
  | other _ htickets haccepted => exact hmono haccepted fun id hid => htickets.mem_iff.1 hid

/-- A submission that has no other beside it does not overtake one. -/
theorem Goes.not_overtakes {m : Move α} (h : w.Goes m w') (hlen : m.underway.length ≤ 1) :
    m.overtakes = false := by
  have heffect := effect_of_step h.step
  have hunderway := h.underway
  unfold Move.overtakes
  generalize m.event = e at heffect
  cases heffect with
  | @accepted t hpending htickets haccepted =>
    rw [hunderway] at hlen ⊢
    have hfirst : t.id ∈ w.tickets := htickets.mem_iff.2 List.mem_cons_self
    have hone := Nat.le_antisymm hlen (List.length_pos_of_mem hfirst)
    obtain ⟨id, hall⟩ := List.length_eq_one_iff.1 hone
    rw [hall, List.mem_singleton] at hfirst
    show w.tickets.any (· < t.id) = false
    rw [hall, hfirst]
    simp only [List.any_cons, List.any_nil, Nat.lt_irrefl, decide_false, Bool.or_false]
  | _ => rfl

/-- The queued frames are marked in the order of acceptance after any steps. -/
theorem lined_of_trail {s : Settings} {ingestMax : Nat} {moves : List (Move α)}
    (h : Trail Goes (new s ingestMax) moves w) : w.Lined :=
  h.keeps lined_of_goes (lined_new s ingestMax)

/-- No id is held twice after any steps. -/
theorem separate_of_trail {s : Settings} {ingestMax : Nat} {moves : List (Move α)}
    (h : Trail Goes (new s ingestMax) moves w) : w.Separate :=
  h.keeps (fun hw hgoes => separate_of_step hw hgoes.step) (.new s ingestMax)

/-- The ids accepted ascend if no step overtook an older submission. -/
theorem inTurn_of_trail {s : Settings} {ingestMax : Nat} {moves : List (Move α)}
    (h : Trail Goes (new s ingestMax) moves w) (hturn : ∀ m ∈ moves, m.overtakes = false) :
    w.InTurn := by
  induction h with
  | refl => exact ⟨.nil, nofun⟩
  | tail htrail hgoes ih =>
    obtain ⟨hearlier, hlast⟩ := List.forall_mem_append.1 hturn
    exact inTurn_of_effect (ih hearlier) (separate_of_trail htrail) hgoes.underway
      (hlast _ List.mem_cons_self) (effect_of_step hgoes.step)

/-- No step overtakes an older submission if there was never more than one. -/
theorem not_overtakes_of_trail {s : Settings} {ingestMax : Nat} {moves : List (Move α)}
    (h : Trail Goes (new s ingestMax) moves w) (hlen : ∀ m ∈ moves, m.underway.length ≤ 1) :
    ∀ m ∈ moves, m.overtakes = false := by
  induction h with
  | refl => exact nofun
  | tail _ hgoes ih =>
    obtain ⟨hearlier, hlast⟩ := List.forall_mem_append.1 hlen
    refine List.forall_mem_append.2 ⟨ih hearlier, List.forall_mem_singleton.2 ?_⟩
    exact hgoes.not_overtakes (hlast _ List.mem_cons_self)

/-- Every queued frame that can be read carries the id of a submission that was accepted.  The ids are
    queued in the order in which the submissions were accepted, and no id twice.  They ascend if no
    submission was accepted while an older one was under way, and so if there was never more than one
    under way. -/
theorem stamps_of_trail {s : Settings} {ingestMax : Nat} {moves : List (Move α)}
    (h : Trail Goes (new s ingestMax) moves w) :
    (∀ frame ∈ w.relay.ingest.queue, ∀ i, w.relay.store.info frame = .ok i →
      ∃ id ∈ w.accepted, i.id = some id) ∧
    w.stamps.Sublist w.accepted.reverse ∧ w.stamps.Nodup ∧
    ((∀ m ∈ moves, m.overtakes = false) → w.stamps.Pairwise (· < ·)) ∧
    ((∀ m ∈ moves, m.underway.length ≤ 1) → w.stamps.Pairwise (· < ·)) := by
  obtain ⟨ids, hids, hqueued⟩ := (lined_of_trail h).queued
  have hsublist : w.stamps.Sublist w.accepted.reverse :=
    (sublist_of_marked hqueued).trans hids.sublist
  have hascend : (∀ m ∈ moves, m.overtakes = false) → w.stamps.Pairwise (· < ·) := by
    intro hturn
    have haccepted := (inTurn_of_trail h hturn).accepted
    exact (List.pairwise_reverse.2 haccepted).sublist hsublist
  refine ⟨?_, hsublist, ?_, hascend, fun hlen => hascend (not_overtakes_of_trail h hlen)⟩
  · intro frame hframe i hi
    obtain ⟨id, hid, hmarked⟩ := exists_mark_of_mem hqueued hframe
    exact ⟨id, List.mem_reverse.1 (hids.subset hid), hmarked.info hi⟩
  · -- no id was accepted twice, and the queued ones are some of those
    have hnodup := (List.nodup_append.1 (separate_of_trail h).nodup).2.1
    exact ((List.reverse_perm _).nodup_iff.2 hnodup).sublist hsublist

/-! ## Two submissions -/

/-- Whatever is done while no frame is given away. -/
theorem Goes.of_nothing_given {e : Event α} (hstep : w.Step e w') (hgiven : w.given = []) :
    w.Goes ⟨e, w.tickets⟩ w' := by
  refine ⟨hstep, rfl, fun _ _ _ h hh => ?_, fun _ _ h hh => ?_⟩ <;>
  · rw [hgiven] at hh
    exact absurd hh List.not_mem_nil

/-- A step of a submission is not one of others. -/
theorem Goes.of_submission {e : Event α} (hstep : w.Step e w')
    (hapart : ∀ t user, e = .registered t user → ∀ h ∈ w.given, w'.relay.store.Apart t.frame h)
    (hne : w'.submissions ≠ w.submissions) : w.Goes ⟨e, w.tickets⟩ w' :=
  ⟨hstep, rfl, hapart, fun _ heq => absurd (congrArg submissions heq) hne⟩

/-- Two frames were registered, one after the other. -/
def registeredTwice : Relay Nat :=
  let opened : Relay Nat :=
    { Relay.new {} 64 with store := twoFrames, ingest := { maxBytes := 64, flushing := false } }
  ((opened.register 0 7).2.register 1 8).2

/-- And both are offered to the ingest. -/
def bothOffered : Concurrent Nat where
  relay :=
    { registeredTwice with store := ((registeredTwice.store.measure 1).2.measure 0).2 }
  submissions := [⟨⟨0, 1, 0⟩, .offered ⟨0, 1⟩⟩, ⟨⟨1, 1, 1⟩, .offered ⟨1, 1⟩⟩]

/-- It takes six steps to come to that, and none of them overtakes. -/
theorem trail_bothOffered : ∃ moves, Trail Goes (new {} 64) moves bothOffered ∧
    ∀ m ∈ moves, m.overtakes = false := by
  have hopen := Trail.refl.tail (Goes.of_nothing_given
    (w := (new {} 64 : Concurrent Nat)) (.aside (.setFlushing false) trivial rfl) rfl)
  have hframes := hopen.tail (Goes.of_nothing_given (.aside (.elsewhere twoFrames) trivial rfl) rfl)
  have hfirst := hframes.tail (Goes.of_nothing_given (.register 0 7 rfl) rfl)
  have hsecond := hfirst.tail (Goes.of_submission (.register 1 8 rfl) ?apart nofun)
  have hmeasured := hsecond.tail (Goes.of_submission (.measure (.refl _) rfl) nofun nofun)
  have hboth := hmeasured.tail (Goes.of_submission (.measure (.swap ..) rfl) nofun nofun)
  case apart =>
    -- the frames are two buffers
    intro t user he h hh a b ha hb
    cases he
    cases List.mem_singleton.1 hh
    cases ha
    cases hb
    decide
  exact ⟨_, hboth, by decide⟩

/-- The ingest accepts the first of them first. -/
theorem stamps_of_bothOffered : ∃ moves, ∃ w : Concurrent Nat, Trail Goes (new {} 64) moves w ∧
    (∀ m ∈ moves, m.overtakes = false) ∧ w.stamps = [0, 1] ∧ w.stamps.Pairwise (· < ·) := by
  obtain ⟨moves, htrail, hturn⟩ := trail_bothOffered
  have hfirst := htrail.tail (Goes.of_submission (.accept (.refl _) rfl) nofun nofun)
  have hboth := hfirst.tail (Goes.of_submission (.accept (.refl _) rfl) nofun nofun)
  refine ⟨_, _, hboth, ?inturn, rfl, (stamps_of_trail hboth).2.2.2.1 ?inturn⟩
  refine List.forall_mem_append.2 ⟨List.forall_mem_append.2 ⟨hturn, ?_⟩, ?_⟩ <;>
  · exact List.forall_mem_singleton.2 rfl

/-- The ingest accepts the second of them first. -/
theorem not_stamps_ascending :
    ¬∀ (s : Settings) (ingestMax : Nat) (moves : List (Move Nat)) (w : Concurrent Nat),
      Trail Goes (new s ingestMax) moves w → w.stamps.Pairwise (· < ·) := by
  intro h
  obtain ⟨moves, htrail, -⟩ := trail_bothOffered
  have hsecond := htrail.tail (Goes.of_submission (.accept (.swap ..) rfl) nofun nofun)
  have hboth := hsecond.tail (Goes.of_submission (.accept (.refl _) rfl) nofun nofun)
  exact absurd (h _ _ _ _ hboth) (by decide)

end Concurrent

end MediaBridge
