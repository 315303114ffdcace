import MediaBridge.Correspondence.Relay
import MediaBridge.Proofs.Buffer.Content

/-! # Copies of samples

A bridge copies the frame of a sample through a view and lets both go at once.  The copy is fresh: one
handle owns its buffer and nobody else knows of it, it is not mapped, and no pool lent it.  What the
bridge then does to the copy keeps it fresh.

* `taken_takePayload`  what a sample with a given content comes to;
* `Fresh.size`         the size of a fresh frame is taken without fail, and leaves it fresh;
* `Fresh.setTiming`    its timing is set without fail, and nothing else changes.
-/

namespace MediaBridge.Store

/-- Whether a view of a frame could be mapped readable: the frame is alive, and nobody maps it
    writable. -/
def Readable (s : Store) (h : HandleId) : Prop := ∃ b, s.live? h = some b ∧ s.lock b ≠ .writer

/-- The handle alone owns the buffer, which is unlocked and not lent, and does not map it. -/
structure Fresh (s : Store) (h : HandleId) (b : BufferId) (c : Content) : Prop where
  handle : s.handle h = { target := some ⟨b, true⟩ }
  buffer : s.buffers.get? b = some { bytes := c.bytes, info := c.info }

/-- A live handle that maps nothing reads its buffer if it gets the lock. -/
theorem mapRead_of_tryRead {s : Store} {h : HandleId} {b : BufferId} {l : Lock}
    (hu : (s.handle h).mapping = .unmapped) (hl : s.live? h = some b)
    (hr : (s.lock b).tryRead = some l) :
    s.mapRead h = (.ok (s.bytes b), s.mapped h b .readable l) := by
  simp only [mapRead, if_pos hu, hl, hr]

/-! ## Working with a fresh frame -/

namespace Fresh

variable {s : Store} {h : HandleId} {b : BufferId} {c : Content}

/-- A fresh frame is live. -/
theorem live? (hf : s.Fresh h b c) : s.live? h = some b := by
  refine live?_eq_some_iff.2 ⟨⟨true, by rw [hf.handle]⟩, ?_⟩
  rw [isAlive, hf.buffer]
  rfl

/-- A fresh frame shows what it was made with. -/
theorem content? (hf : s.Fresh h b c) : s.content? h = some c := by
  rw [Store.content?, hf.handle, Option.bind_some, contentOf?, hf.buffer]
  rfl

/-- The size of a fresh frame is that of its bytes, and unmapping the frame makes it fresh again. -/
theorem size (hf : s.Fresh h b c) :
    ∃ s', s.size h = (.ok c.bytes.size, s') ∧ (s'.unmap h).Fresh h b c := by
  have hlock : s.lock b = .readers 0 := by rw [lock, hf.buffer]; rfl
  have hbytes : s.bytes b = c.bytes := by rw [bytes, hf.buffer]; rfl
  have hread := mapRead_of_tryRead (s := s) (l := .readers 1) (by rw [hf.handle]) hf.live?
    (by rw [hlock]; rfl)
  refine ⟨s.mapped h b .readable (.readers 1), by rw [Store.size, hread, hbytes], ?_⟩
  -- the one reader is recorded at the handle and at the buffer
  have hget : (s.mapped h b .readable (.readers 1)).handles.get? h =
      some { target := some ⟨b, true⟩, mapping := .readable } := by
    have hold := get?_handles_of_target (t := ⟨b, true⟩) (by rw [hf.handle])
    rw [mapped, Table.get?_update, if_pos rfl, hold, hf.handle]
    rfl
  have hbuffer : (s.mapped h b .readable (.readers 1)).buffers.get? b =
      some { bytes := c.bytes, info := c.info, lock := .readers 1 } := by
    rw [mapped, Table.get?_update, if_pos rfl, hf.buffer]
    rfl
  generalize s.mapped h b .readable (.readers 1) = u at hget hbuffer
  have hhandle : u.handle h = { target := some ⟨b, true⟩, mapping := .readable } := by
    rw [Store.handle, hget]
    rfl
  -- when it leaves the buffer stays, since it has an owner
  have hleft : (u.buffers.update b fun y => { y with lock := y.lock.leave .readable }).get? b =
      some { bytes := c.bytes, info := c.info } := by
    rw [Table.get?_update, if_pos rfl, hbuffer]
    rfl
  constructor
  · simp only [unmap, hhandle, reduceCtorEq, if_false]
    rw [Store.handle, handles_sweep, Table.get?_set, if_pos rfl, hget]
    rfl
  · simp only [unmap, hhandle, reduceCtorEq, if_false, sweep, hleft]
    rw [if_neg (by simp)]
    exact hleft

/-- The timing of a fresh frame can be set. -/
theorem setTiming (hf : s.Fresh h b c) (t : Timing) :
    ∃ s', s.setTiming h t = .ok s' ∧
      s'.Fresh h b { c with info := c.info.withTiming t } := by
  have hinfo : s.infoOf b = c.info := by rw [infoOf, hf.buffer]; rfl
  refine ⟨s.setInfoOf b (c.info.withTiming t), ?_, hf.handle, ?_⟩
  · simp only [Store.setTiming, updateInfo, hf.live?, hinfo]
  · rw [setInfoOf, Table.get?_update, if_pos rfl, hf.buffer]
    rfl

/-- A fresh frame stays fresh when another handle of another buffer is dropped. -/
theorem drop_of_ne (hf : s.Fresh h b c) {h' : HandleId} (hne : h ≠ h')
    (hb : ∀ t, (s.handle h').target = some t → b ≠ t.buffer) : (s.drop h').Fresh h b c where
  handle := by rw [handle_drop_of_ne s hne, hf.handle]
  buffer := by rw [get?_buffers_drop_of_ne s hb, hf.buffer]

end Fresh

/-! ## Making a copy -/

/-- A live buffer is in the table, so a new one gets another key. -/
theorem ne_next_of_isAlive {s : Store} {b : BufferId} (ha : s.isAlive b) : s.buffers.next ≠ b := by
  intro he
  have hnone := s.buffers.get?_of_next_le (Nat.le_of_eq he)
  rw [isAlive, hnone] at ha
  cases ha

/-- A handle that refers to something is in the table, so a new one gets a greater key. -/
theorem lt_next_of_target {s : Store} {h : HandleId} {t : Target}
    (ht : (s.handle h).target = some t) : h < s.handles.next :=
  Table.lt_next_of_get? (get?_handles_of_target ht)

/-- Borrowing a buffer adds one handle, and leaves the others alone. -/
@[simp] theorem handle_borrow (s : Store) (b : BufferId) (h : HandleId) :
    (s.borrow b).2.handle h =
      if h = s.handles.next then { target := some ⟨b, false⟩ } else s.handle h := by
  simp only [borrow, addHandle, handle, Table.get?_add]
  split <;> rfl

/-- A new buffer comes with the next handle. -/
@[simp] theorem fst_newBuffer (s : Store) (x : Buffer) : (s.newBuffer x).1 = s.handles.next := rfl

/-- A new buffer leaves the handles alone that were there. -/
theorem handle_newBuffer_of_ne (s : Store) (x : Buffer) {h : HandleId} (hne : h ≠ s.handles.next) :
    (s.newBuffer x).2.handle h = s.handle h := by
  simp only [newBuffer, addHandle, handle]
  rw [Table.get?_add, if_neg hne]

/-- A buffer that was just made is fresh. -/
theorem fresh_newBuffer (s : Store) (c : Content) :
    (s.newBuffer { bytes := c.bytes, info := c.info }).2.Fresh s.handles.next s.buffers.next c where
  handle := by
    simp only [newBuffer, addHandle, handle]
    rw [Table.get?_add, if_pos rfl]
    rfl
  buffer := by
    simp only [newBuffer, addHandle, Table.fst_add]
    rw [Table.get?_add, if_pos rfl]

/-- While somebody writes to a buffer no copy of it can be made. -/
theorem deepCopy_of_locked {s : Store} {h : HandleId} {b : BufferId}
    (hu : (s.handle h).mapping = .unmapped) (hl : s.live? h = some b)
    (hlock : s.lock b = .writer) : s.deepCopy h = (.error (.map .read .heldWritable), s) := by
  have hread : s.mapRead h = (.error (.map .read .heldWritable), s) := by
    simp only [mapRead, if_pos hu, hl, hlock, Lock.tryRead]
  simp only [deepCopy, info, hl, hread]

/-- The copy of an unmapped handle that is alive and not locked out. -/
theorem deepCopy_of_readable {s : Store} {h : HandleId} {b : BufferId}
    (hu : (s.handle h).mapping = .unmapped) (hl : s.live? h = some b)
    (hlock : s.lock b ≠ .writer) :
    ∃ s', s.deepCopy h = (.ok s.handles.next, s') ∧
      s'.Fresh s.handles.next s.buffers.next ⟨s.bytes b, s.infoOf b⟩ ∧
      ∀ h', h' ≠ s.handles.next → (s'.handle h').target = (s.handle h').target := by
  obtain ⟨l, hr⟩ : ∃ l, (s.lock b).tryRead = some l := by
    cases hc : s.lock b with
    | readers n => exact ⟨_, rfl⟩
    | writer => exact absurd hc hlock
  have hread := mapRead_of_tryRead hu hl hr
  -- the store just before the new buffer is made hands out the same keys as the one before
  have hnexth : ((s.mapped h b .readable l).unmap h).handles.next = s.handles.next := by
    rw [next_handles_unmap]
    rfl
  have hnextb : ((s.mapped h b .readable l).unmap h).buffers.next = s.buffers.next := by
    rw [next_buffers_unmap]
    rfl
  have htarget : ∀ h', (((s.mapped h b .readable l).unmap h).handle h').target =
      (s.handle h').target := by
    intro h'
    have hm := target_mapRead s h h'
    rw [hread] at hm
    rw [target_unmap]
    exact hm
  have heq : s.deepCopy h = (.ok s.handles.next, (((s.mapped h b .readable l).unmap h).newBuffer
      { bytes := s.bytes b, info := s.infoOf b }).2) := by
    simp only [deepCopy, info, hl, hread, hu, if_true, fst_newBuffer, hnexth]
  refine ⟨_, heq, ?_, fun h' hne => ?_⟩
  · rw [← hnexth, ← hnextb]
    exact fresh_newBuffer _ ⟨s.bytes b, s.infoOf b⟩
  · rw [handle_newBuffer_of_ne _ _ (by rw [hnexth]; exact hne), htarget]

/-! ## Taking the payload of a sample -/

/-- What a sample comes to, by what its frame shows and by whether it can be read. -/
inductive Taken (s : Store) (frame : HandleId) :
    Except Error (Option (HandleId × Nat)) × Store → Prop where
  -- The frame refers to nothing.
  | dead {s' : Store} (hc : s.content? frame = none) : s.Taken frame (.error .bufferReleased, s')
  -- The frame carries no id.
  | untagged {s' : Store} {c : Content} (hc : s.content? frame = some c) (hid : c.info.id = none) :
    s.Taken frame (.ok none, s')
  -- Somebody maps the frame writable.
  | locked {s' : Store} {c : Content} {id : Nat} (hc : s.content? frame = some c)
    (hid : c.info.id = some id) (hr : ¬s.Readable frame) :
    s.Taken frame (.error (.map .read .heldWritable), s')
  -- There is a fresh copy.
  | copied {s' : Store} {c : Content} {id : Nat} {copy : HandleId} {b : BufferId}
    (hc : s.content? frame = some c) (hid : c.info.id = some id) (hr : s.Readable frame)
    (hf : s'.Fresh copy b c) : s.Taken frame (.ok (some (copy, id)), s')

/-- Taking the payload of a sample comes to one of the four. -/
theorem taken_takePayload (s : Store) (frame : HandleId) : s.Taken frame (s.takePayload frame) := by
  cases hl : s.live? frame with
  | none =>
    have hview : s.view frame = .error .bufferReleased := by rw [view, hl]
    simp only [takePayload, hview]
    exact .dead (content?_eq_none_iff.2 hl)
  | some b =>
    have hc := content?_of_live? hl
    obtain ⟨⟨owning, ht⟩, ha⟩ := live?_eq_some_iff.1 hl
    have hview : s.view frame = .ok (s.handles.next, (s.borrow b).2) := by simp only [view, hl]; rfl
    -- the view is a new handle of the same buffer, and the buffers are those before
    have hv : (s.borrow b).2.handle s.handles.next = { target := some ⟨b, false⟩ } := by
      rw [handle_borrow, if_pos rfl]
    have hlv : (s.borrow b).2.live? s.handles.next = some b :=
      live?_eq_some_iff.2 ⟨⟨false, by rw [hv]⟩, ha⟩
    have hu : ((s.borrow b).2.handle s.handles.next).mapping = .unmapped := by rw [hv]
    have hinfo : (s.borrow b).2.info s.handles.next = .ok (s.infoOf b) := by
      simp only [info, hlv]
      rfl
    -- the id decides whether a copy is tried at all
    cases hid : (s.infoOf b).id with
    | none =>
      simp only [takePayload, hview, hinfo, hid]
      exact .untagged hc hid
    | some id =>
      by_cases hlock : s.lock b = .writer
      · have hcopy := deepCopy_of_locked hu hlv hlock
        simp only [takePayload, hview, hinfo, hid, hcopy]
        refine .locked hc hid ?_
        rintro ⟨b', hl', hlock'⟩
        rw [hl] at hl'
        cases hl'
        exact hlock' hlock
      · obtain ⟨u, hcopy, hf, htarget⟩ := deepCopy_of_readable hu hlv hlock
        simp only [takePayload, hview, hinfo, hid, hcopy]
        have hlt := lt_next_of_target ht
        -- the view and the sample's frame refer to the old buffer, the copy to a new one
        have hnev : (s.borrow b).2.handles.next ≠ s.handles.next := Nat.succ_ne_self _
        have hneb : (s.borrow b).2.buffers.next ≠ b := ne_next_of_isAlive ha
        have hfv : (u.drop s.handles.next).Fresh (s.borrow b).2.handles.next
            (s.borrow b).2.buffers.next ⟨s.bytes b, s.infoOf b⟩ := by
          refine hf.drop_of_ne hnev fun t htv => ?_
          rw [htarget _ hnev.symm, hv] at htv
          cases htv
          exact hneb
        refine .copied hc hid ⟨b, hl, hlock⟩ (hfv.drop_of_ne ?_ fun t htf => ?_)
        · exact Nat.ne_of_gt (Nat.lt_succ_of_lt hlt)
        · have hne : frame ≠ s.handles.next := Nat.ne_of_lt hlt
          rw [handle_drop_of_ne u hne, htarget _ (Nat.ne_of_lt (Nat.lt_succ_of_lt hlt)),
            handle_borrow, if_neg hne, ht] at htf
          cases htf
          exact hneb

end MediaBridge.Store
