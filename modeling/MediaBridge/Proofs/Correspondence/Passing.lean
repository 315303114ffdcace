import MediaBridge.Proofs.Correspondence.Giveback

/-! # A frame on its way

What becomes of a frame that is submitted without fail, and of a result that comes back and finds its
entry and room for it.  In between the frame bears what it was submitted with and the id that it got.

* `register_of_bears`, `measure_of_bears`, `resume?_of_accepted`  the steps of a submission;
* `takePayload_of_held`, `matchCopy_of_fresh`                    the steps of a delivery;
* `resolve_entriesFrom`                                          which entry a result finds.
-/

namespace MediaBridge

variable {α : Type u}

namespace Store

variable {s : Store} {frame : HandleId} {b : BufferId} {c : Content}

/-- The payload of a sample that is held and carries an id is taken without fail. -/
theorem takePayload_of_held {id : Nat} (hs : s.Held frame b c) (hid : c.info.id = some id) :
    ∃ copy b' s', s.takePayload frame = (.ok (some (copy, id)), s') ∧ s'.Fresh copy b' c ∧
      s.handles.next ≤ copy ∧ s.buffers.next ≤ b' ∧ Only frame b s s' := by
  have htaken := s.taken_takePayload frame
  have honly : Only frame b s (s.takePayload frame).2 :=
    s.only_takePayload fun t ht => hs.buffer_of_target ht
  cases ht : s.takePayload frame with
  | mk result s' =>
    rw [ht] at htaken honly
    -- a frame that is held and carries an id rules out every course but the last
    cases htaken with
    | dead hc => cases hs.content?.symm.trans hc
    | untagged hc hid' =>
      cases hs.content?.symm.trans hc
      cases hid.symm.trans hid'
    | locked hc hid' hr => exact absurd hs.readable hr
    | copied hc hid' hr hf =>
      cases hs.content?.symm.trans hc
      cases hid.symm.trans hid'
      have hnew := next_le_of_takePayload ht (congrArg Handle.target hf.handle)
      exact ⟨_, _, s', rfl, hf, hnew.1, hnew.2, honly⟩

end Store

/-! ## Entries -/

/-- What is known of a frame that was submitted: who submitted what, and how it was stamped. -/
structure Shipment (α : Type u) where
  frame : HandleId
  user : α
  /-- The timing that the frame was stamped with, its offset still open. -/
  timing : Timing

namespace Shipment

/-- The timing of the `i`th frame. -/
def timingAt (x : Shipment α) (i : Nat) : Timing := { x.timing with offset := i }

/-- What the `i`th frame carries. -/
def infoAt (x : Shipment α) (i : Nat) : FrameInfo := { timing := x.timingAt i, id := some i }

/-- What the `i`th frame leaves behind. -/
def entry (x : Shipment α) (i : Nat) : PendingEntry α := ⟨i, x.timingAt i, x.user⟩

/-- What several frames leave behind, the first of them being the `i`th. -/
def entriesFrom (i : Nat) (xs : List (Shipment α)) : List (PendingEntry α) :=
  (xs.zipIdx i).map fun p => p.1.entry p.2

/-- Every frame leaves one entry. -/
@[simp] theorem length_entriesFrom (i : Nat) (xs : List (Shipment α)) :
    (entriesFrom i xs).length = xs.length := by
  rw [entriesFrom, List.length_map, List.length_zipIdx]

/-- Frames that come later leave their entries behind those of the earlier ones. -/
theorem entriesFrom_append (i : Nat) (xs ys : List (Shipment α)) :
    entriesFrom i (xs ++ ys) = entriesFrom i xs ++ entriesFrom (i + xs.length) ys := by
  rw [entriesFrom, List.zipIdx_append, List.map_append]
  rfl

/-- The ids of the entries are below that of the next frame. -/
theorem lt_of_mem_entriesFrom {i : Nat} {xs : List (Shipment α)} {e : PendingEntry α}
    (he : e ∈ entriesFrom i xs) : e.id < i + xs.length := by
  obtain ⟨p, hp, rfl⟩ := List.mem_map.1 he
  exact (List.mem_zipIdx hp).2.1

/-- A result finds its entry, and those before it are passed over. -/
theorem resolve_entriesFrom {p : Pending α} {i : Nat} {before after : List (Shipment α)}
    {x : Shipment α} (hp : p.entries = entriesFrom i (before ++ x :: after)) :
    p.resolve (i + before.length) =
      (⟨.found (x.entry (i + before.length)), before.length⟩,
        { p with entries := entriesFrom (i + before.length + 1) after }) := by
  have hsplit : p.entries = entriesFrom i before ++
      x.entry (i + before.length) :: entriesFrom (i + before.length + 1) after := by
    rw [hp, entriesFrom_append]
    rfl
  -- what is older than the result is all that stands before its entry
  have hbefore : ∀ e ∈ entriesFrom i before, decide (e.id < i + before.length) = true :=
    fun e he => decide_eq_true (lt_of_mem_entriesFrom he)
  have hfound : ¬(fun e : PendingEntry α => decide (e.id < i + before.length))
      (x.entry (i + before.length)) = true := by simp [entry]
  unfold Pending.resolve
  rw [hsplit, List.takeWhile_append_of_pos hbefore, List.dropWhile_append_of_pos hbefore,
    List.takeWhile_cons_of_neg (p := fun e : PendingEntry α => e.id < i + before.length) hfound,
    List.dropWhile_cons_of_neg (p := fun e : PendingEntry α => e.id < i + before.length) hfound]
  simp only [List.append_nil, length_entriesFrom]
  exact if_pos rfl

end Shipment

namespace Relay

variable {r r' : Relay α} {frame : HandleId} {b : BufferId} {m : Mapping} {c : Content}

/-- What a step of a submission leaves alone. -/
structure Proceeds (r r' : Relay α) (frame : HandleId) (b : BufferId) : Prop where
  only : Store.Only frame b r.store r'.store
  sound : r.store.Sound → r'.store.Sound
  undisturbed : r.store.Sound → ∀ p, Store.Undisturbed p r.store r'.store

namespace Proceeds

/-- Operations through a frame leave everything else alone. -/
theorem of_ops {ops : List Store.Op} (hops : ∀ op ∈ ops, op.through = some frame)
    (hlt : frame < r.store.handles.next)
    (hb : ∀ t, (r.store.handle frame).target = some t → t.buffer = b)
    (hstore : r'.store = r.store.performAll ops) : r.Proceeds r' frame b where
  only := by
    rw [hstore]
    exact Store.only_performAll hops hlt hb
  sound := by
    rw [hstore]
    exact fun hs => hs.performAll ops
  undisturbed := by
    rw [hstore]
    exact fun hs => (hs.through ops fun op hop => hops op hop ▸ Option.some_ne_none frame).2.1

/-- And so does a change of its info. -/
theorem informed {r'' : Relay α} {f : FrameInfo → FrameInfo} (h : r.Proceeds r' frame b)
    (hu : r'.store.updateInfo frame f = .ok r''.store)
    (hb : ∀ t, (r'.store.handle frame).target = some t → t.buffer = b) :
    r.Proceeds r'' frame b where
  only := h.only.trans (Store.only_updateInfo hu hb)
  sound := fun hs => (h.sound hs).updateInfo hu
  undisturbed := fun hs p =>
    (h.undisturbed hs p).trans (Store.undisturbed_updateInfo (h.sound hs) hu)

/-- So does measuring it. -/
theorem of_measured (hb : r.store.Bears frame b m c)
    (hstore : r'.store = (r.store.size frame).2.unmap frame) : r.Proceeds r' frame b :=
  .of_ops (by simp [Store.Op.through]) hb.lt_handles (fun _ ht => hb.buffer_of_target ht)
    (hstore.trans (rfl : _ = r.store.performAll [.size frame, .unmap frame]))

end Proceeds

/-- A submission that is registered stamps its frame with the next id, and makes the entry for it.
    -/
theorem register_of_bears {user : α} {t : Ticket} (hb : r.store.Bears frame b m c)
    (h : r.register frame user = (.registered t, r')) :
    t.id = r.bridge.pending.nextId ∧ t.frame = frame ∧ r'.ingest = r.ingest ∧
      r'.bridge = r.bridge.enter c.info.timing user ∧
      r'.store.Bears frame b .unmapped
        { c with info := c.info.stamped c.info.timing r.bridge.pending.nextId } ∧
      r.Proceeds r' frame b := by
  have hunmapped := hb.unmap_size
  have hmeasured : r.Proceeds { r with store := (r.store.size frame).2.unmap frame } frame b :=
    .of_measured hb rfl
  unfold register at h
  cases hs : r.store.size frame with
  | mk result s =>
    rw [hs] at h hunmapped hmeasured
    cases result with
    | error e => cases h
    | ok size =>
      simp only [hunmapped.info] at h
      -- a full input would have turned the frame away
      split at h
      · cases h
      · obtain ⟨s', hu, hbears⟩ := hunmapped.updateInfo
          (·.stamped c.info.timing r.bridge.pending.nextId)
        simp only [hu] at h
        cases h
        exact ⟨rfl, rfl, rfl, rfl, hbears,
          hmeasured.informed hu fun t ht => hunmapped.buffer_of_target ht⟩

/-- A frame that was measured is offered as it is. -/
theorem measure_of_bears {t : Ticket} {o : Offer} (hb : r.store.Bears t.frame b .unmapped c)
    (h : r.measure t = (some o, r')) :
    o.frame = t.frame ∧ r'.ingest = r.ingest ∧ r'.bridge = r.bridge ∧
      r'.store.Held t.frame b c ∧ r.Proceeds r' t.frame b := by
  have hmeasured : r.Proceeds { r with store := (r.store.size t.frame).2.unmap t.frame }
      t.frame b := .of_measured hb rfl
  unfold measure Store.measure Store.size at h
  unfold Store.size at hmeasured
  cases hr : r.store.mapRead t.frame with
  | mk result s =>
    rw [hr] at h hmeasured
    cases result with
    | error e => cases h
    | ok bytes =>
      cases h
      exact ⟨rfl, rfl, rfl, (Store.held_of_mapRead hb hr).2, hmeasured⟩

/-- A submission that is accepted puts its frame into the ingest. -/
theorem resume?_of_accepted {t : Ticket} {o : Offer} (h : r.resume? t o = some (true, r')) :
    r' = { r with ingest := r.ingest.accept o, bridge := r.bridge.confirm t.size } := by
  rcases r.resume?_cases t o with ⟨-, heq⟩ | ⟨-, heq⟩ | heq
  · cases heq.symm.trans h
  · cases heq.symm.trans h
    rfl
  · cases heq.symm.trans h

/-- The copy of a result that finds its entry, and room for it, is published with the timing of the
    entry. -/
theorem matchCopy_of_fresh {copy : HandleId} {id : Nat} {e : PendingEntry α}
    (hf : r.store.Fresh copy b c) (hpolicy : r.bridge.policy = .discardOutput)
    (hroom : r.bridge.output.items.length < r.bridge.output.capacity)
    (hm : (r.bridge.pending.resolve id).1.result = .found e) :
    ∃ r', r.matchCopy copy id = (.done (.ok ()), r') ∧ r'.ingest = r.ingest ∧
      r'.store.Fresh copy b { c with info := c.info.withTiming e.timing } ∧ r.Proceeds r' copy b ∧
      r'.bridge.policy = r.bridge.policy ∧ r'.bridge.maxPending = r.bridge.maxPending ∧
      r'.bridge.pending = (r.bridge.pending.resolve id).2 ∧
      r'.bridge.output = r.bridge.output.append ⟨copy, e.user⟩ ∧
      r'.bridge.health.value .stale = r.bridge.health.value .stale +
        UInt64.ofNat (r.bridge.pending.resolve id).1.stale := by
  obtain ⟨ops, hops, hstore⟩ := r.store_matchCopy copy id
  have hcopy : (r.store.handle copy).target = some ⟨b, true⟩ := by rw [hf.handle]
  have hproceeds : r.Proceeds (r.matchCopy copy id).2 copy b := by
    refine .of_ops hops (Store.lt_next_of_target hcopy) (fun t ht => ?_) hstore
    cases ht.symm.trans hcopy
    rfl
  obtain ⟨s₁, hsize, hf₁⟩ := hf.size
  obtain ⟨s₂, hset, hf₂⟩ := hf₁.setTiming e.timing
  obtain ⟨bridge, hbridge⟩ : ∃ bridge, bridge = (r.bridge.resolve id c.bytes.size).2 := ⟨_, rfl⟩
  have hresolve : r.bridge.resolve id c.bytes.size = (.found e, bridge) := by
    rw [hbridge, ← hm]
    rfl
  -- looking for the entry leaves the output, so there is still room
  have hpush : bridge.output.tryPush ⟨copy, e.user⟩ =
      some (r.bridge.output.append ⟨copy, e.user⟩) :=
    BoundedQueue.tryPush_eq_some_iff.2 ⟨hbridge ▸ hroom, hbridge ▸ rfl⟩
  have hpublish : bridge.publish? ⟨copy, e.user⟩ = some (true,
      { bridge with output := r.bridge.output.append ⟨copy, e.user⟩ }.count .delivered 1) := by
    have hpolicy' : bridge.policy = .discardOutput := hbridge ▸ hpolicy
    simp only [Bridge.publish?, hpolicy', hpush]
  have hmatch : r.matchCopy copy id = (.done (.ok ()),
      { r with
        store := s₂
        bridge := { bridge with
          output := r.bridge.output.append ⟨copy, e.user⟩ }.count .delivered 1 }) := by
    simp only [matchCopy, hsize, hresolve, hset, publish, publish?, hpublish, Option.map_some]
  rw [hmatch] at hproceeds
  subst hbridge
  exact ⟨_, hmatch, rfl, hf₂, hproceeds, rfl, rfl, rfl, rfl, rfl⟩

end Relay

end MediaBridge
