import MediaBridge.Proofs.Correspondence.Outcomes

/-! # Runs of completed calls

A bridge and its ingest are worked on by calls.  In a run each call is carried out to its end before
the next one begins; a call that has to wait for room is not part of a run until there is room.
Between calls others may do whatever they like to the buffers.

A run is recorded by its turns, each with the relay before and after it, so that what a turn did can
be read off the two relays: `Admits` and `Places` look at nothing else.

* `course_of_call?`  the thirteen ways in which a call can go;
* `effect_of_call?`  a turn admits a frame, places a pair, or does neither and adds no entry.
-/

namespace MediaBridge

variable {α : Type u}

/-- What is done to a bridge and its ingest. -/
inductive Call (α : Type u) where
  | submit (frame : HandleId) (user : α)
  | deliver (item : Item)
  | pop
  | clear
  | resetPending
  | setDraining (draining : Bool)
  | pull
  | setFlushing (flushing : Bool)
  | endStream
  /-- Others work with the buffers, in whatever way. -/
  | elsewhere (store : Store)

/-- What a call gives back. -/
inductive Answer (α : Type u) where
  | submitted (result : Except Error Bool)
  | delivered (result : Except Error Unit)
  | popped (m : Option (Matched α))
  | pulled (frame : Option HandleId)
  | forgotten (entries : Nat)
  | done

/-- Carries a call out to its end; none if it would have to wait. -/
def Relay.call? (r : Relay α) : Call α → Option (Answer α × Relay α)
  | .submit frame user =>
    match r.submit frame user with
    | (.done result, r) => some (.submitted result, r)
    | (.waits .., _) => none
  | .deliver item =>
    match r.deliver item with
    | (.done result, r) => some (.delivered result, r)
    | (.waits _, _) => none
  | .pop =>
    match r.pop? with
    | some (m, r) => some (.popped m, r)
    | none => some (.popped none, r)
  | .clear => some (.done, r.clear)
  | .resetPending => some (.forgotten r.resetPending.1, r.resetPending.2)
  | .setDraining draining => some (.done, r.setDraining draining)
  | .pull =>
    match r.pull? with
    | some (h, r) => some (.pulled h, r)
    | none => some (.pulled none, r)
  | .setFlushing flushing => some (.done, r.setFlushing flushing)
  | .endStream => some (.done, r.endStream)
  | .elsewhere store => some (.done, { r with store })

/-- Whether a call is neither a submission nor a delivery, and leaves the entries alone. -/
def Call.IsAside : Call α → Prop
  | .submit .. | .deliver _ | .resetPending => False
  | _ => True

/-! ## How a call goes -/

namespace Relay

/-- Entries, counters, what was configured and what was ever pushed are the same, and nothing was
    added to the output. -/
structure Untouched (r r' : Relay α) : Prop where
  pending : r'.bridge.pending = r.bridge.pending
  health : r'.bridge.health = r.bridge.health
  limits : r'.bridge.limits = r.bridge.limits
  totalPushed : r'.ingest.totalPushed = r.ingest.totalPushed
  output : r'.bridge.output.items.length ≤ r.bridge.output.items.length

/-- How a call goes: the answer it gives and the relay it leaves. -/
inductive Course (r : Relay α) : Call α → Answer α → Relay α → Prop where
  -- The frame cannot be read, or its buffer is gone.
  | failed {frame : HandleId} {user : α} {e : Error} {s : Store} :
    r.Course (.submit frame user) (.submitted (.error e)) { r with store := s }
  -- Too many frames are in flight.
  | turnedAway {frame : HandleId} {user : α} {s : Store} :
    r.Course (.submit frame user) (.submitted (.ok false))
      { r with store := s, bridge := r.bridge.reject }
  -- The ingest refused the frame after it was registered.
  | refused {frame : HandleId} {user : α} {s : Store} {info : FrameInfo} :
    r.Course (.submit frame user) (.submitted (.ok false))
      { r with
        store := s
        bridge := (r.bridge.enter info.timing user).withdraw r.bridge.pending.nextId }
  -- The frame is queued at the ingest, and carries the id of its entry.
  | accepted {frame : HandleId} {user : α} {s : Store} {info : FrameInfo} {o : Offer} {size : Nat}
    (hinfo : r.store.info frame = .ok info)
    (hstamped : s.info frame = .ok (info.stamped info.timing r.bridge.pending.nextId)) :
    r.Course (.submit frame user) (.submitted (.ok true))
      { store := s
        ingest := r.ingest.accept o
        bridge := (r.bridge.enter info.timing user).confirm size }
  -- The sample's frame cannot be read.
  | unreadable {x : Sample} {e : Error} {s : Store} (hr : ¬r.store.Readable x.frame) :
    r.Course (.deliver (.sample x)) (.delivered (.ok ()))
      { r with store := s, bridge := r.bridge.dropUnreadable e }
  -- The sample carries no id.
  | uncorrelated {x : Sample} {c : Content} {s : Store} (hc : r.store.content? x.frame = some c)
    (hid : c.info.id = none) :
    r.Course (.deliver (.sample x)) (.delivered (.ok ()))
      { r with store := s, bridge := r.bridge.dropUncorrelated }
  -- Nothing is pending for the sample's id.
  | unmatched {x : Sample} {c : Content} {id : Nat} {s : Store}
    (hc : r.store.content? x.frame = some c) (hid : c.info.id = some id)
    (hr : r.store.Readable x.frame) (hm : (r.bridge.pending.resolve id).1.result = .unmatched) :
    r.Course (.deliver (.sample x)) (.delivered (.ok ()))
      { r with store := s, bridge := (r.bridge.resolve id c.bytes.size).2.dropUnmatched id }
  -- The sample's id is smaller than every one pending, and that must not happen.
  | outOfOrder {x : Sample} {c : Content} {id oldest : Nat} {s : Store}
    (hc : r.store.content? x.frame = some c) (hid : c.info.id = some id)
    (hr : r.store.Readable x.frame)
    (hm : (r.bridge.pending.resolve id).1.result = .outOfOrder oldest) :
    r.Course (.deliver (.sample x)) (.delivered (.error (.orderingViolation id oldest)))
      { r with store := s, bridge := (r.bridge.resolve id c.bytes.size).2 }
  -- The entry was found, and its pair is the last one in the output queue.
  | placed {x : Sample} {c : Content} {id : Nat} {e : PendingEntry α} {s : Store} {copy : HandleId}
    (hc : r.store.content? x.frame = some c) (hid : c.info.id = some id)
    (hr : r.store.Readable x.frame) (hm : (r.bridge.pending.resolve id).1.result = .found e)
    (hshown : s.content? copy = some { c with info := c.info.withTiming e.timing }) :
    r.Course (.deliver (.sample x)) (.delivered (.ok ()))
      { r with
        store := s
        bridge := { (r.bridge.resolve id c.bytes.size).2 with
          output := r.bridge.output.append ⟨copy, e.user⟩ }.count .delivered 1 }
  -- The entry was found, and there was no room for its pair.
  | dropped {x : Sample} {c : Content} {id : Nat} {e : PendingEntry α} {s : Store}
    (hc : r.store.content? x.frame = some c) (hid : c.info.id = some id)
    (hr : r.store.Readable x.frame) (hm : (r.bridge.pending.resolve id).1.result = .found e) :
    r.Course (.deliver (.sample x)) (.delivered (.ok ()))
      { r with store := s, bridge := (r.bridge.resolve id c.bytes.size).2.dropOutput }
  | endOfStream : r.Course (.deliver .endOfStream) (.delivered (.ok ())) r
  | reset : r.Course .resetPending (.forgotten r.bridge.pending.length) r.resetPending.2
  -- Something that has nothing to do with the entries.
  | aside {c : Call α} {a : Answer α} {r' : Relay α} (hc : c.IsAside)
    (hsubmitted : ∀ result, a ≠ .submitted result) (hdelivered : ∀ result, a ≠ .delivered result)
    (hsame : r.Untouched r') : r.Course c a r'

/-- A call that changed nothing. -/
theorem Untouched.refl (r : Relay α) : r.Untouched r := ⟨rfl, rfl, rfl, rfl, Nat.le_refl _⟩

/-- Taking a pair from the output leaves the entries alone. -/
theorem untouched_pop? {r r' : Relay α} {m : Matched α} (h : r.pop? = some (m, r')) :
    r.Untouched r' := by
  obtain ⟨⟨m', output⟩, hpop, heq⟩ := Option.map_eq_some_iff.1 h
  cases heq
  refine ⟨rfl, rfl, rfl, rfl, ?_⟩
  rw [BoundedQueue.items_pop? hpop]
  exact Nat.le_succ _

/-- Taking a frame from the ingest leaves the bridge alone. -/
theorem untouched_pull? {r r' : Relay α} {frame : HandleId} (h : r.pull? = some (frame, r')) :
    r.Untouched r' := by
  obtain ⟨⟨frame', ingest, store⟩, hpull, heq⟩ := Option.map_eq_some_iff.1 h
  cases heq
  refine ⟨rfl, rfl, rfl, ?_, Nat.le_refl _⟩
  unfold Ingest.pull at hpull
  split at hpull
  · exact nomatch hpull
  · cases hpull
    rfl

/-- Flushing empties the ingest, but what was ever pushed stays counted. -/
theorem untouched_setFlushing (r : Relay α) (flushing : Bool) :
    r.Untouched (r.setFlushing flushing) := by
  refine ⟨rfl, rfl, rfl, ?_, Nat.le_refl _⟩
  cases flushing <;> rfl

/-- A submission that came to its end went in one of the first four ways. -/
theorem course_of_submits {r r' : Relay α} {frame : HandleId} {user : α}
    {result : Except Error Bool} (h : r.Submits frame user (.done result, r')) :
    r.Course (.submit frame user) (.submitted result) r' := by
  cases h with
  | failed hbad => exact .failed
  | turnedAway hfull => exact .turnedAway
  | refused hfull hinfo => exact .refused
  | accepted hfull hinfo hstamped ho => exact .accepted hinfo hstamped

/-- The delivery of a sample that came to its end went in one of the next six. -/
theorem course_of_delivers {r r' : Relay α} {x : Sample} {result : Except Error Unit}
    (h : r.Delivers x (.done result, r')) :
    r.Course (.deliver (.sample x)) (.delivered result) r' := by
  cases h with
  | unreadable hr => exact .unreadable hr
  | uncorrelated hc hid => exact .uncorrelated hc hid
  | unmatched hc hid hr hm => exact .unmatched hc hid hr hm
  | outOfOrder hc hid hr hm => exact .outOfOrder hc hid hr hm
  | @matched s c id e copy b d hc hid hr hm hf hd =>
    -- a result that found its entry goes on to be published, which may still fail for want of room
    have hpub := publishes_publish
      { r with store := s, bridge := (r.bridge.resolve id c.bytes.size).2 } ⟨copy, e.user⟩
    rw [← hd] at hpub
    cases hpub with
    | placed => exact .placed hc hid hr hm hf.content?
    | dropped => exact .dropped hc hid hr hm

/-- Every call that was carried out went in one of the thirteen ways. -/
theorem course_of_call? {r r' : Relay α} {call : Call α} {a : Answer α}
    (h : r.call? call = some (a, r')) : r.Course call a r' := by
  cases call with
  | submit frame user =>
    have hs := r.submits_submit frame user
    simp only [call?] at h
    -- a submission that waits is no call of a run, so only the finished ones are left
    generalize r.submit frame user = submission at hs h
    obtain ⟨result | ⟨t, o⟩, r''⟩ := submission
    · cases h
      exact course_of_submits hs
    · exact nomatch h
  | deliver item =>
    simp only [call?] at h
    cases item with
    | endOfStream =>
      cases h
      exact .endOfStream
    | sample x =>
      have hd := r.delivers_deliver x
      generalize r.deliver (.sample x) = delivery at hd h
      obtain ⟨result | m, r''⟩ := delivery
      · cases h
        exact course_of_delivers hd
      · exact nomatch h
  | pop =>
    simp only [call?] at h
    cases hp : r.pop? with
    | none =>
      rw [hp] at h
      cases h
      exact .aside trivial nofun nofun (.refl r)
    | some popped =>
      rw [hp] at h
      cases h
      exact .aside trivial nofun nofun (untouched_pop? hp)
  | pull =>
    simp only [call?] at h
    cases hp : r.pull? with
    | none =>
      rw [hp] at h
      cases h
      exact .aside trivial nofun nofun (.refl r)
    | some pulled =>
      rw [hp] at h
      cases h
      exact .aside trivial nofun nofun (untouched_pull? hp)
  | resetPending =>
    cases h
    exact .reset
  | clear =>
    cases h
    exact .aside trivial nofun nofun ⟨rfl, rfl, rfl, rfl, Nat.zero_le _⟩
  | setDraining draining =>
    cases h
    exact .aside trivial nofun nofun ⟨rfl, rfl, rfl, rfl, Nat.le_refl _⟩
  | setFlushing flushing =>
    cases h
    exact .aside trivial nofun nofun (r.untouched_setFlushing flushing)
  | endStream =>
    cases h
    exact .aside trivial nofun nofun ⟨rfl, rfl, rfl, rfl, Nat.le_refl _⟩
  | elsewhere store =>
    cases h
    exact .aside trivial nofun nofun ⟨rfl, rfl, rfl, rfl, Nat.le_refl _⟩

/-- Neither the entries nor the counters are touched, nor what was configured. -/
theorem untouched_of_isAside {r r' : Relay α} {c : Call α} {a : Answer α} (hc : c.IsAside)
    (h : r.call? c = some (a, r')) : r.Untouched r' := by
  cases course_of_call? h with
  | aside _ _ _ hsame => exact hsame
  | _ => exact hc.elim

end Relay

/-! ## Turns and runs -/

/-- A call that was carried out, with the relay before and after it. -/
structure Turn (α : Type u) where
  before : Relay α
  call : Call α
  answer : Answer α
  after : Relay α

/-- The turns that lead from one relay to another, oldest first. -/
inductive Run (r₀ : Relay α) : List (Turn α) → Relay α → Prop where
  | start : Run r₀ [] r₀
  | turn {turns : List (Turn α)} {r r' : Relay α} {c : Call α} {a : Answer α}
    (run : Run r₀ turns r) (h : r.call? c = some (a, r')) :
    Run r₀ (turns ++ [⟨r, c, a, r'⟩]) r'

/-- Carries calls out one after the other; none if one of them would have to wait. -/
def Relay.turns? (r : Relay α) : List (Call α) → Option (List (Turn α) × Relay α)
  | [] => some ([], r)
  | c :: rest =>
    match r.call? c with
    | none => none
    | some (a, r') => (r'.turns? rest).map fun (turns, last) => (⟨r, c, a, r'⟩ :: turns, last)

/-- Every turn of a run went in one of the thirteen ways. -/
theorem Run.course {r₀ r : Relay α} {turns : List (Turn α)} (run : Run r₀ turns r) :
    ∀ t ∈ turns, t.before.Course t.call t.answer t.after := by
  induction run with
  | start => exact fun t ht => absurd ht List.not_mem_nil
  | turn run h ih =>
    intro t ht
    rcases List.mem_append.1 ht with hold | hnew
    · exact ih t hold
    · rw [List.mem_singleton.1 hnew]
      exact Relay.course_of_call? h

/-- A run can be continued by calls that are carried out. -/
theorem Run.append {r₀ r r' : Relay α} {prior turns : List (Turn α)} {calls : List (Call α)}
    (run : Run r₀ prior r) (h : r.turns? calls = some (turns, r')) :
    Run r₀ (prior ++ turns) r' := by
  induction calls generalizing prior r turns with
  | nil =>
    cases h
    rw [List.append_nil]
    exact run
  | cons c rest ih =>
    -- the first of the calls ends the run so far, and the others go on from there
    rw [Relay.turns?] at h
    cases hc : r.call? c with
    | none => rw [hc] at h; exact nomatch h
    | some done =>
      obtain ⟨a, r₁⟩ := done
      rw [hc] at h
      obtain ⟨⟨turns', last⟩, hrest, heq⟩ := Option.map_eq_some_iff.1 h
      cases heq
      have hrun := ih (run.turn hc) hrest
      rwa [List.append_assoc, List.singleton_append] at hrun

/-- Calls that are carried out one after the other make a run. -/
theorem run_of_turns? {r r' : Relay α} {calls : List (Call α)} {turns : List (Turn α)}
    (h : r.turns? calls = some (turns, r')) : Run r turns r' := by
  have hrun := Run.start.append h
  rwa [List.nil_append] at hrun

namespace Turn

/-- A frame with a timing was submitted and accepted, and it left with an id. -/
def Admits (t : Turn α) (id : Nat) (timing : Timing) (user : α) : Prop :=
  ∃ frame info, t.call = .submit frame user ∧ t.answer = .submitted (.ok true) ∧
    t.before.store.info frame = .ok info ∧ info.timing = timing ∧
    t.after.store.info frame = .ok (info.stamped timing id)

/-- A sample with a content was delivered, and it carried an id. -/
def Carries (t : Turn α) (id : Nat) (c : Content) : Prop :=
  ∃ x, t.call = .deliver (.sample x) ∧ t.before.store.content? x.frame = some c ∧
    c.info.id = some id

/-- A pair came last into the output queue. -/
def Places (t : Turn α) (m : Matched α) : Prop :=
  t.after.bridge.output.items = t.before.bridge.output.items ++ [m]

/-- What a turn did, as far as entries and pairs are concerned. -/
inductive Effect (t : Turn α) : Prop where
  -- A frame was admitted, and has the youngest entry.
  | admitted {timing : Timing} {user : α}
    (ha : t.Admits t.before.bridge.pending.nextId timing user) (hp : ∀ m, ¬t.Places m)
    (hpending : t.after.bridge.pending = (t.before.bridge.enter timing user).pending)
  -- A pair was placed, made of the entry found and of the content of the sample.
  | placed {id : Nat} {c : Content} {m : Matched α} {e : PendingEntry α}
    (ha : ∀ id timing user, ¬t.Admits id timing user) (hc : t.Carries id c) (hp : t.Places m)
    (hm : (t.before.bridge.pending.resolve id).1.result = .found e) (huser : m.user = e.user)
    (hshown : t.after.store.content? m.frame =
      some { c with info := c.info.withTiming e.timing })
    (hpending : t.after.bridge.pending = (t.before.bridge.pending.resolve id).2)
  -- Neither; at most entries were taken away.
  | quiet (ha : ∀ id timing user, ¬t.Admits id timing user) (hp : ∀ m, ¬t.Places m)
    (hnext : t.after.bridge.pending.nextId = t.before.bridge.pending.nextId)
    (hentries : t.before.bridge.pending.Ascending → t.after.bridge.pending.Ascending ∧
      t.after.bridge.pending.entries ⊆ t.before.bridge.pending.entries)

/-- Only a submission that was accepted admits a frame. -/
theorem not_admits_of_answer {t : Turn α} (h : t.answer ≠ .submitted (.ok true)) (id : Nat)
    (timing : Timing) (user : α) : ¬t.Admits id timing user := by
  rintro ⟨frame, info, -, hanswer, -⟩
  exact h hanswer

/-- A turn that adds nothing to the output places no pair. -/
theorem not_places_of_items {t : Turn α}
    (h : t.after.bridge.output.items.length ≤ t.before.bridge.output.items.length)
    (m : Matched α) : ¬t.Places m := by
  intro hp
  rw [Places] at hp
  rw [hp, List.length_append, List.length_singleton] at h
  omega

/-- A turn that neither answers a submission nor touches the entries, nor adds to the output. -/
theorem Effect.idle {t : Turn α} (ha : t.answer ≠ .submitted (.ok true))
    (ho : t.after.bridge.output.items.length ≤ t.before.bridge.output.items.length)
    (hpending : t.after.bridge.pending = t.before.bridge.pending) : t.Effect := by
  refine .quiet (not_admits_of_answer ha) (not_places_of_items ho) (by rw [hpending]) fun h => ?_
  · rw [hpending]
    exact ⟨h, fun e he => he⟩

end Turn

/-! ## Entries after a registration -/

namespace Bridge

/-- Entries still ascend after a registration. -/
theorem ascending_enter {b : Bridge α} (h : b.pending.Ascending) (timing : Timing) (user : α) :
    (b.enter timing user).pending.Ascending := by
  rw [pending_enter]
  split
  · exact (h.register timing user).evict
  · exact h.register timing user

/-- The entries after a registration are older ones and the new one. -/
theorem mem_entries_enter {b : Bridge α} {timing : Timing} {user : α} {e : PendingEntry α}
    (h : e ∈ (b.enter timing user).pending.entries) :
    e ∈ b.pending.entries ∨ e = b.pending.nextEntry timing user := by
  have hmem : e ∈ (b.pending.register timing user).entries := by
    rcases b.pending_enter_cases timing user with ⟨-, heq⟩ | ⟨f, rest, hentries, -, heq⟩
    · rwa [heq] at h
    · rw [heq] at h
      rw [hentries]
      exact List.mem_cons_of_mem _ h
  rcases List.mem_append.1 hmem with h | h
  · exact .inl h
  · exact .inr (List.mem_singleton.1 h)

/-- A registration that is withdrawn gives its id back. -/
theorem nextId_withdraw_enter (b : Bridge α) (timing : Timing) (user : α) :
    ((b.enter timing user).withdraw b.pending.nextId).pending.nextId = b.pending.nextId := by
  rw [pending_withdraw, Pending.nextId_withdraw, nextId_enter, if_pos rfl]

/-- It leaves no entry that was not there before. -/
theorem entries_withdraw_enter {b : Bridge α} (h : b.pending.Ascending) (timing : Timing)
    (user : α) :
    ((b.enter timing user).withdraw b.pending.nextId).pending.entries ⊆ b.pending.entries := by
  have henter := ascending_enter h timing user
  intro e he
  -- the new entry has the id that is given back, so what is left was there before
  rw [pending_withdraw, Pending.entries_withdraw henter.sorted] at he
  obtain ⟨hmem, hne⟩ := List.mem_filter.1 he
  rcases mem_entries_enter hmem with hold | rfl
  · exact hold
  · have hid : (b.pending.nextEntry timing user).id ≠ b.pending.nextId := by simpa using hne
    exact absurd rfl hid

end Bridge

/-! ## The effect of every call -/

namespace Turn

/-- A turn that took entries for a result, and placed nothing. -/
theorem Effect.taken {t : Turn α} {id : Nat} (ha : t.answer ≠ .submitted (.ok true))
    (ho : t.after.bridge.output.items.length ≤ t.before.bridge.output.items.length)
    (hpending : t.after.bridge.pending = (t.before.bridge.pending.resolve id).2) : t.Effect := by
  refine .quiet (not_admits_of_answer ha) (not_places_of_items ho) ?_ fun h => ?_
  · rw [hpending, Pending.nextId_resolve]
  · rw [hpending]
    exact ⟨h.resolve id, Pending.entries_resolve_subset h id⟩

/-- Every call that was carried out has one of the three effects. -/
theorem effect_of_call? {r r' : Relay α} {call : Call α} {a : Answer α}
    (h : r.call? call = some (a, r')) : (⟨r, call, a, r'⟩ : Turn α).Effect := by
  cases Relay.course_of_call? h with
  | failed => exact .idle nofun (Nat.le_refl _) rfl
  | turnedAway => exact .idle nofun (Nat.le_refl _) rfl
  | @refused frame user s info =>
    refine .quiet (not_admits_of_answer nofun) (not_places_of_items ?_)
      (r.bridge.nextId_withdraw_enter ..) fun h => ?_
    · simp only [Bridge.output_withdraw, Bridge.output_enter, Nat.le_refl]
    · exact ⟨(Bridge.ascending_enter h info.timing user).withdraw _,
        Bridge.entries_withdraw_enter h info.timing user⟩
  | @accepted frame user s info o size hinfo hstamped =>
    refine .admitted ⟨frame, info, rfl, rfl, hinfo, rfl, hstamped⟩ (not_places_of_items ?_)
      (Bridge.pending_confirm ..)
    simp only [Bridge.output_confirm, Bridge.output_enter, Nat.le_refl]
  | unreadable => exact .idle nofun (Nat.le_refl _) rfl
  | uncorrelated =>
    refine .idle nofun ?_ (Bridge.pending_dropUncorrelated r.bridge)
    simp only [Bridge.output_dropUncorrelated, Nat.le_refl]
  | unmatched => exact .taken nofun (Nat.le_refl _) rfl
  | outOfOrder => exact .taken nofun (Nat.le_refl _) rfl
  | placed hc hid hr hm hshown =>
    exact .placed (not_admits_of_answer nofun) ⟨_, rfl, hc, hid⟩ rfl hm rfl hshown rfl
  | dropped =>
    refine .taken nofun ?_ (Bridge.pending_dropOutput _)
    simp only [Bridge.output_dropOutput, Bridge.output_resolve, Nat.le_refl]
  | endOfStream => exact .idle nofun (Nat.le_refl _) rfl
  | reset =>
    refine .quiet (not_admits_of_answer nofun) (not_places_of_items (Nat.le_refl _)) rfl
      fun _ => ⟨.reset _, ?_⟩
    exact List.nil_subset _
  | aside _ hsubmitted _ hsame => exact .idle (hsubmitted _) hsame.output hsame.pending

end Turn

end MediaBridge
