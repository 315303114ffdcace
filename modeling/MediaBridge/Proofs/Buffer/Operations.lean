import MediaBridge.Proofs.Buffer.Copy

/-! # Operations on a store

Any number of threads work with the buffers of a store, each through handles of its own.  `Op` lists
what they can do, and `Op.through` says through which handle they do it.

The size of a buffer is fixed when it is made.  `Kept` says that every buffer that is still there has
kept its size, and that none came back that was gone; since identifiers are handed out only once, what
was measured through a handle stays true of it, whatever is done through others.  `Faithful` says that
the ids are still the same as well, and that every handle has the buffer that it had, or none.

* `faithful_perform` an operation that attaches no id keeps all that;
* `kept_perform`     every operation keeps the sizes.
-/

namespace MediaBridge.Store

/-- What can be done to a store. -/
inductive Op where
  | newFrame (bytes : ByteArray)
  | newReference (bytes : ByteArray)
  | newPool (size capacity : Nat)
  | acquire (p : PoolId)
  | dropPool (p : PoolId)
  | view (h : HandleId)
  | reference (h : HandleId)
  /-- A handle that owns the buffer of a reference. -/
  | own (r : ReferenceId)
  /-- A handle that borrows the buffer of a reference. -/
  | borrow (r : ReferenceId)
  | dropReference (r : ReferenceId)
  | mapRead (h : HandleId)
  | mapWrite (h : HandleId)
  | write (h : HandleId) (start : Nat) (new : ByteArray)
  | unmap (h : HandleId)
  | size (h : HandleId)
  | deepCopy (h : HandleId)
  | setTiming (h : HandleId) (t : Timing)
  | setId (h : HandleId) (id : Nat)
  | release (h : HandleId)
  | drop (h : HandleId)

/-- The handle through which an operation is done. -/
def Op.through : Op → Option HandleId
  | .newFrame _ | .newReference _ | .newPool .. | .acquire _ | .dropPool _ | .own _ | .borrow _
  | .dropReference _ => none
  | .view h | .reference h | .mapRead h | .mapWrite h | .write h .. | .unmap h | .size h | .deepCopy h
  | .setTiming h _ | .setId h _ | .release h | .drop h => some h

/-- The store after an operation, whether or not it succeeded. -/
def perform (s : Store) : Op → Store
  | .newFrame bytes => (s.newFrame bytes).2
  | .newReference bytes => (s.newReference bytes).2
  | .newPool size capacity => (s.newPool size capacity).2
  | .acquire p => ((s.acquire p).map (·.2)).getD s
  | .dropPool p => s.dropPool p
  | .view h => ((s.view h).toOption.map (·.2)).getD s
  | .reference h => ((s.reference h).toOption.map (·.2)).getD s
  | .own r => ((s.references.get? r).map fun b => (s.own b).2).getD s
  | .borrow r => ((s.references.get? r).map fun b => (s.borrow b).2).getD s
  | .dropReference r => s.dropReference r
  | .mapRead h => (s.mapRead h).2
  | .mapWrite h => (s.mapWrite h).2
  | .write h start new => (s.write h start new).2
  | .unmap h => s.unmap h
  | .size h => (s.size h).2
  | .deepCopy h => (s.deepCopy h).2
  | .setTiming h t => (s.setTiming h t).toOption.getD s
  | .setId h id => (s.setId h id).toOption.getD s
  | .release h => s.release h
  | .drop h => s.drop h

/-- The store after several operations, in order. -/
def performAll (s : Store) (ops : List Op) : Store := ops.foldl perform s

/-! ## Sizes and ids -/

/-- Handles and references refer to buffers that were made. -/
structure Placed (s : Store) : Prop where
  handles : ∀ h t, (s.handle h).target = some t → t.buffer < s.buffers.next
  references : ∀ r b, s.references.get? r = some b → b < s.buffers.next

/-- Nothing refers to anything at the start. -/
theorem placed_empty : Placed {} where
  handles := nofun
  references := nofun

/-- Buffers may come and go, but none comes back, and none changes its size. -/
structure Kept (s s' : Store) : Prop where
  next : s.buffers.next ≤ s'.buffers.next
  size : ∀ b x', b < s.buffers.next → s'.buffers.get? b = some x' →
    ∃ x, s.buffers.get? b = some x ∧ x'.bytes.size = x.bytes.size
  placed : s.Placed → s'.Placed

/-- Besides, no buffer gets another id, and no handle another buffer. -/
structure Faithful (s s' : Store) : Prop extends s.Kept s' where
  handles : s.handles.next ≤ s'.handles.next
  target : ∀ h t, h < s.handles.next → (s'.handle h).target = some t → (s.handle h).target = some t
  id : ∀ b x', b < s.buffers.next → s'.buffers.get? b = some x' →
    ∃ x, s.buffers.get? b = some x ∧ x'.info.id = x.info.id

section

variable {s s' s'' : Store}

namespace Kept

/-- Nothing happened. -/
theorem refl (s : Store) : s.Kept s where
  next := Nat.le_refl _
  size := fun _ x' _ hx' => ⟨x', hx', rfl⟩
  placed := id

/-- Sizes that stay the same twice stay the same. -/
theorem trans (h : s.Kept s') (h' : s'.Kept s'') : s.Kept s'' where
  next := Nat.le_trans h.next h'.next
  size := by
    intro b x'' hb hx''
    -- a buffer that is there in the end was there in between, since none comes back
    obtain ⟨x', hx', hsize'⟩ := h'.size b x'' (Nat.lt_of_lt_of_le hb h.next) hx''
    obtain ⟨x, hx, hsize⟩ := h.size b x' hb hx'
    exact ⟨x, hx, hsize'.trans hsize⟩
  placed := fun hs => h'.placed (h.placed hs)

/-- One buffer was changed in place. -/
theorem update (s : Store) {b : BufferId} {f : Buffer → Buffer}
    (hf : ∀ x, s.buffers.get? b = some x → (f x).bytes.size = x.bytes.size) :
    s.Kept { s with buffers := s.buffers.update b f } where
  next := Nat.le_refl _
  size := by
    intro b' x' _ hx'
    simp only [Table.get?_update] at hx'
    split at hx'
    · -- the changed buffer is the one that was there
      rename_i heq
      obtain ⟨x, hx, hxf⟩ := Option.map_eq_some_iff.1 hx'
      rw [heq] at hx ⊢
      exact ⟨x, hx, by rw [← hxf, hf x hx]⟩
    · exact ⟨x', hx', rfl⟩
  placed := fun hs => ⟨hs.handles, hs.references⟩

end Kept

namespace Faithful

/-- What is still there was there before, with the same size and the same id. -/
theorem of_buffers (hnext : s.buffers.next ≤ s'.buffers.next)
    (hbuffers : ∀ b x', b < s.buffers.next → s'.buffers.get? b = some x' →
      ∃ x, s.buffers.get? b = some x ∧ x'.bytes.size = x.bytes.size ∧ x'.info.id = x.info.id)
    (hhandles : s.handles.next ≤ s'.handles.next)
    (htarget : ∀ h t, h < s.handles.next → (s'.handle h).target = some t →
      (s.handle h).target = some t) (hplaced : s.Placed → s'.Placed) : s.Faithful s' where
  next := hnext
  size := by
    intro b x' hb hx'
    obtain ⟨x, hx, hsize, -⟩ := hbuffers b x' hb hx'
    exact ⟨x, hx, hsize⟩
  placed := hplaced
  handles := hhandles
  target := htarget
  id := by
    intro b x' hb hx'
    obtain ⟨x, hx, -, hid⟩ := hbuffers b x' hb hx'
    exact ⟨x, hx, hid⟩

/-- Nothing happened. -/
theorem refl (s : Store) : s.Faithful s :=
  .of_buffers (Nat.le_refl _) (fun _ x' _ hx' => ⟨x', hx', rfl, rfl⟩) (Nat.le_refl _)
    (fun _ _ _ ht => ht) fun hs => hs

/-- What is kept twice is kept. -/
theorem trans (h : s.Faithful s') (h' : s'.Faithful s'') : s.Faithful s'' where
  toKept := h.toKept.trans h'.toKept
  handles := Nat.le_trans h.handles h'.handles
  target := by
    intro g t hg ht
    exact h.target g t hg (h'.target g t (Nat.lt_of_lt_of_le hg h.handles) ht)
  id := by
    intro b x'' hb hx''
    obtain ⟨x', hx', hid'⟩ := h'.id b x'' (Nat.lt_of_lt_of_le hb h.next) hx''
    obtain ⟨x, hx, hid⟩ := h.id b x' hb hx'
    exact ⟨x, hx, hid'.trans hid⟩

/-- The buffers were not touched, and nothing refers to a buffer it did not refer to. -/
theorem of_same (hbuffers : s'.buffers = s.buffers) (hnext : s'.handles.next = s.handles.next)
    (hhandles : ∀ h t, (s'.handle h).target = some t → (s.handle h).target = some t)
    (hreferences : ∀ r b, s'.references.get? r = some b → s.references.get? r = some b) :
    s.Faithful s' := by
  refine .of_buffers (Nat.le_of_eq (by rw [hbuffers])) ?_ (Nat.le_of_eq hnext.symm)
    (fun h t _ => hhandles h t) ?_
  · intro b x' _ hx'
    rw [hbuffers] at hx'
    exact ⟨x', hx', rfl, rfl⟩
  · -- nothing refers to more than it did, and nothing new was made
    intro hs
    constructor
    · intro h t ht
      rw [hbuffers]
      exact hs.handles h t (hhandles h t ht)
    · intro r b hb
      rw [hbuffers]
      exact hs.references r b (hreferences r b hb)

/-- One buffer was changed in place. -/
theorem update (s : Store) {b : BufferId} {f : Buffer → Buffer}
    (hf : ∀ x, s.buffers.get? b = some x →
      (f x).bytes.size = x.bytes.size ∧ (f x).info.id = x.info.id) :
    s.Faithful { s with buffers := s.buffers.update b f } := by
  refine .of_buffers (Nat.le_refl _) ?_ (Nat.le_refl _) (fun _ _ _ ht => ht)
    fun hs => ⟨hs.handles, hs.references⟩
  intro b' x' _ hx'
  simp only [Table.get?_update] at hx'
  split at hx'
  · -- only this buffer has changed, and the change keeps its size and its id
    rename_i heq
    obtain ⟨x, hx, hxf⟩ := Option.map_eq_some_iff.1 hx'
    rw [heq] at hx ⊢
    rw [← hxf]
    exact ⟨x, hx, hf x hx⟩
  · exact ⟨x', hx', rfl, rfl⟩

/-- A buffer was made. -/
theorem add (s : Store) (x : Buffer) : s.Faithful { s with buffers := (s.buffers.add x).2 } := by
  refine .of_buffers (Nat.le_succ _) ?_ (Nat.le_refl _) (fun _ _ _ ht => ht) ?_
  · -- a buffer that was there before is not the new one
    intro b x' hb hx'
    simp only [Table.get?_add, if_neg (Nat.ne_of_lt hb)] at hx'
    exact ⟨x', hx', rfl, rfl⟩
  · intro hs
    constructor
    · intro h t ht
      exact Nat.lt_succ_of_lt (hs.handles h t ht)
    · intro r b hb
      exact Nat.lt_succ_of_lt (hs.references r b hb)

/-- A buffer was removed. -/
theorem erase (s : Store) (b : BufferId) :
    s.Faithful { s with buffers := s.buffers.erase b } := by
  refine .of_buffers (Nat.le_refl _) ?_ (Nat.le_refl _) (fun _ _ _ ht => ht)
    fun hs => ⟨hs.handles, hs.references⟩
  intro b' x' _ hx'
  simp only [Table.get?_erase] at hx'
  split at hx'
  · -- the removed buffer is not there, so nothing is to be said of it
    exact nomatch hx'
  · exact ⟨x', hx', rfl, rfl⟩

/-- A handle was made that refers to a buffer that is there. -/
theorem addHandle (s : Store) {x : Handle}
    (hx : s.Placed → ∀ t, x.target = some t → t.buffer < s.buffers.next) :
    s.Faithful (s.addHandle x).2 := by
  refine .of_buffers (Nat.le_refl _) (fun _ x' _ hx' => ⟨x', hx', rfl, rfl⟩) (Nat.le_succ _) ?_ ?_
  · -- the new handle was not there before
    intro h t hlt ht
    simpa only [Store.addHandle, handle, Table.get?_add, if_neg (Nat.ne_of_lt hlt)] using ht
  · intro hs
    constructor
    · intro h t ht
      simp only [Store.addHandle, handle, Table.get?_add] at ht
      split at ht
      · exact hx hs t ht
      · exact hs.handles h t ht
    · exact hs.references

end Faithful

end

/-! ## Buffers and their owners -/

/-- Removing a buffer that nobody needs is faithful. -/
theorem faithful_sweep (s : Store) (b : BufferId) : s.Faithful (s.sweep b) := by
  unfold sweep
  split
  · exact .refl s
  · split
    · exact .erase s b
    · exact .refl s

/-- A payload that goes home leaves the buffers alone. -/
theorem faithful_recycle (s : Store) (x : Buffer) : s.Faithful (s.recycle x) := by
  unfold recycle
  split
  · exact .refl s
  · exact .of_same rfl rfl (fun _ _ ht => ht) (fun _ _ hb => hb)

/-- So does the loss of an owner, but for the count and perhaps the buffer as a whole. -/
theorem faithful_disown (s : Store) (b : BufferId) : s.Faithful (s.disown b) := by
  unfold disown
  cases hx : s.buffers.get? b with
  | none => exact .refl s
  | some x =>
    -- the buffer counts one owner less, and may then go altogether
    have hleft : s.Faithful { s with
        buffers := s.buffers.set b { x with owners := x.owners - 1 } } := by
      apply Faithful.update
      intro y hy
      rw [hx] at hy
      cases hy
      exact ⟨rfl, rfl⟩
    simp only
    split
    · exact (hleft.trans (faithful_recycle _ x)).trans (faithful_sweep _ b)
    · exact hleft

/-- Another owner changes neither size nor id. -/
theorem faithful_adopt (s : Store) (b : BufferId) : s.Faithful (s.adopt b) :=
  .update s fun _ _ => ⟨rfl, rfl⟩

/-- A new buffer comes with a handle that refers to it. -/
theorem faithful_newBuffer (s : Store) (x : Buffer) : s.Faithful (s.newBuffer x).2 := by
  have hmade := Faithful.add s x
  refine hmade.trans (.addHandle _ ?_)
  intro _ t ht
  cases ht
  exact Nat.lt_succ_self _

/-- A new reference to a buffer that was made is faithful. -/
theorem faithful_addReference {s : Store} {b : BufferId} (hb : s.Placed → b < s.buffers.next) :
    s.Faithful { s with references := (s.references.add b).2 } := by
  refine .of_buffers (Nat.le_refl _) (fun _ x' _ hx' => ⟨x', hx', rfl, rfl⟩) (Nat.le_refl _)
    (fun _ _ _ ht => ht) ?_
  intro hs
  constructor
  · exact hs.handles
  · intro r b' hr
    simp only [Table.get?_add] at hr
    split at hr
    · cases hr
      exact hb hs
    · exact hs.references r b' hr

/-- A new buffer may come with a reference instead. -/
theorem faithful_newReference (s : Store) (bytes : ByteArray) :
    s.Faithful (s.newReference bytes).2 := by
  have hmade := Faithful.add s { bytes }
  exact hmade.trans (faithful_addReference fun _ => Nat.lt_succ_self _)

/-- A new handle may borrow a buffer that was made. -/
theorem faithful_borrow {s : Store} {b : BufferId} (hb : s.Placed → b < s.buffers.next) :
    s.Faithful (s.borrow b).2 := by
  apply Faithful.addHandle
  intro hs t ht
  cases ht
  exact hb hs

/-- A new handle may own a buffer that was made. -/
theorem faithful_own {s : Store} {b : BufferId} (hb : s.Placed → b < s.buffers.next) :
    s.Faithful (s.own b).2 := by
  -- adopting the buffer leaves everything that refers to buffers alone
  have hadopt : (s.adopt b).Placed → s.Placed := fun hs => ⟨hs.handles, hs.references⟩
  refine (s.faithful_adopt b).trans (.addHandle _ ?_)
  intro hs t ht
  cases ht
  exact hb (hadopt hs)

/-! ## Mapping -/

/-- A handle was changed, and refers to nothing new. -/
theorem faithful_updateHandle (s : Store) {h : HandleId} {f : Handle → Handle}
    (hf : ∀ x, s.handles.get? h = some x → ∀ t, (f x).target = some t → x.target = some t) :
    s.Faithful { s with handles := s.handles.update h f } := by
  refine .of_same rfl rfl ?_ fun _ _ hb => hb
  intro g t ht
  simp only [handle, Table.get?_update] at ht
  split at ht
  · -- the handle that was changed may have lost its buffer, and got no other
    rename_i heq
    rw [heq] at ht ⊢
    unfold handle
    cases hx : s.handles.get? h with
    | none => rw [hx] at ht; cases ht
    | some x => rw [hx] at ht; exact hf x hx t ht
  · exact ht

/-- Taking a lock changes neither size nor id. -/
theorem faithful_mapped (s : Store) (h : HandleId) (b : BufferId) (m : Mapping) (l : Lock) :
    s.Faithful (s.mapped h b m l) := by
  have hlocked : s.Faithful { s with buffers := s.buffers.update b fun x => { x with lock := l } } :=
    .update s fun _ _ => ⟨rfl, rfl⟩
  exact hlocked.trans (faithful_updateHandle _ fun _ _ _ ht => ht)

/-- Giving a lock back changes neither size nor id, even if the buffer goes with it. -/
theorem faithful_unmap (s : Store) (h : HandleId) : s.Faithful (s.unmap h) := by
  simp only [unmap]
  split
  · exact .refl s
  · rename_i t ht
    split
    · exact .refl s
    · have hlocked : s.Faithful { s with
          buffers := s.buffers.update t.buffer fun y =>
            { y with lock := y.lock.leave (s.handle h).mapping } } := .update s fun _ _ => ⟨rfl, rfl⟩
      -- the lock, the handle and the buffer change one after the other
      refine (hlocked.trans (faithful_updateHandle _ ?_)).trans (faithful_sweep _ t.buffer)
      intro x hx t' ht'
      have hget := get?_handles_of_target ht
      rw [hget] at hx
      cases hx
      exact ht'

/-- Reading is faithful, whether or not it succeeds. -/
theorem faithful_mapRead (s : Store) (h : HandleId) : s.Faithful (s.mapRead h).2 := by
  unfold mapRead
  split
  · split
    · exact .refl s
    · split
      · exact .refl s
      · exact s.faithful_mapped ..
  · exact .refl s

/-- Mapping for writing is faithful, whether or not it succeeds. -/
theorem faithful_mapWrite (s : Store) (h : HandleId) : s.Faithful (s.mapWrite h).2 := by
  unfold mapWrite
  split
  · exact .refl s
  · -- the handle gives up what it mapped before it asks for the lock
    simp only
    split
    · exact s.faithful_unmap h
    · split
      · exact s.faithful_unmap h
      · exact (s.faithful_unmap h).trans (faithful_mapped ..)

/-- Measuring is reading. -/
theorem faithful_size (s : Store) (h : HandleId) : s.Faithful (s.size h).2 := by
  rw [snd_size]
  exact s.faithful_mapRead h

/-- The bytes of a buffer that is there are its own. -/
theorem bytes_of_get? {s : Store} {b : BufferId} {x : Buffer} (hx : s.buffers.get? b = some x) :
    s.bytes b = x.bytes := by
  rw [bytes, hx]
  rfl

/-- A handle that takes a lock keeps its buffer. -/
theorem target_mapped (s : Store) (h g : HandleId) (b : BufferId) (m : Mapping) (l : Lock) :
    ((s.mapped h b m l).handle g).target = (s.handle g).target := by
  simp only [mapped, handle, Table.get?_update]
  split
  · cases s.handles.get? g <;> rfl
  · rfl

/-- The bytes that a handle shows when it is mapped writable are those of its buffer. -/
theorem bytes_of_mapWrite {s s' : Store} {h : HandleId} {bytes : ByteArray} {t : Target} {x : Buffer}
    (hm : s.mapWrite h = (.ok bytes, s')) (ht : (s'.handle h).target = some t)
    (hx : s'.buffers.get? t.buffer = some x) : bytes = x.bytes := by
  unfold mapWrite at hm
  split at hm
  · -- the handle was mapped writable before, and shows what it showed
    obtain ⟨hbytes, hsame⟩ := Prod.ext_iff.1 hm
    cases hsame
    rw [mappedBytes, ht] at hbytes
    rw [← bytes_of_get? hx]
    exact (Except.ok.inj hbytes).symm
  · simp only at hm
    cases hl : (s.unmap h).live? h with
    | none =>
      rw [hl] at hm
      exact nomatch (Prod.ext_iff.1 hm).1
    | some b =>
      rw [hl] at hm
      simp only at hm
      -- without the lock there are no bytes to show
      cases hr : ((s.unmap h).lock b).tryWrite with
      | none =>
        rw [hr] at hm
        exact nomatch (Prod.ext_iff.1 hm).1
      | some l =>
        rw [hr] at hm
        cases hm
        obtain ⟨⟨owning, htarget⟩, -⟩ := live?_eq_some_iff.1 hl
        rw [target_mapped, htarget] at ht
        cases ht
        simp only [mapped, Table.get?_update, if_true] at hx
        obtain ⟨y, hy, hxy⟩ := Option.map_eq_some_iff.1 hx
        rw [bytes_of_get? hy, ← hxy]

/-- Bytes are overwritten in place, so there are as many as before. -/
theorem faithful_write (s : Store) (h : HandleId) (start : Nat) (new : ByteArray) :
    s.Faithful (s.write h start new).2 := by
  have hkept := s.faithful_mapWrite h
  unfold write
  cases hm : s.mapWrite h with
  | mk result s₁ =>
    rw [hm] at hkept
    cases result with
    | error e => exact hkept
    | ok old =>
      simp only
      split
      · exact hkept
      · rename_i t ht
        -- what is overwritten is what the handle was shown
        refine hkept.trans (.update _ ?_)
        intro x hx
        refine ⟨?_, rfl⟩
        show (Bytes.patched old start new).size = _
        rw [Bytes.size_patched, bytes_of_mapWrite hm ht hx]

/-! ## Letting go -/

/-- A handle that is released refers to nothing any more, and the rest is as it was. -/
theorem faithful_release (s : Store) (h : HandleId) : s.Faithful (s.release h) := by
  have hkept := s.faithful_unmap h
  simp only [release]
  generalize s.unmap h = s₁ at hkept
  split
  · exact hkept
  · have hforgot : s.Faithful { s₁ with handles := s₁.handles.set h { target := none } } :=
      hkept.trans (faithful_updateHandle _ fun _ _ _ ht => by cases ht)
    split
    · exact hforgot.trans (faithful_disown ..)
    · exact hforgot

/-- Dropping a handle forgets it altogether. -/
theorem faithful_drop (s : Store) (h : HandleId) : s.Faithful (s.drop h) := by
  refine (s.faithful_release h).trans (.of_same rfl rfl ?_ fun _ _ hb => hb)
  intro g t ht
  simp only [drop, handle, Table.get?_erase] at ht
  split at ht
  · cases ht
  · exact ht

/-- The same for any number of handles. -/
theorem faithful_dropAll (s : Store) (hs : List HandleId) : s.Faithful (s.dropAll hs) := by
  induction hs generalizing s with
  | nil => exact .refl s
  | cons h rest ih => exact (s.faithful_drop h).trans (ih (s.drop h))

/-- A reference that is dropped takes at most its buffer along. -/
theorem faithful_dropReference (s : Store) (r : ReferenceId) : s.Faithful (s.dropReference r) := by
  unfold dropReference
  split
  · exact .refl s
  · rename_i b hb
    -- the reference goes first, and then its buffer loses an owner
    have hforgot : s.Faithful { s with references := s.references.erase r } := by
      refine .of_same rfl rfl (fun _ _ ht => ht) ?_
      intro r' b' hb'
      simp only [Table.get?_erase] at hb'
      split at hb'
      · exact nomatch hb'
      · exact hb'
    exact hforgot.trans (faithful_disown ..)

/-! ## Any operation -/

/-- What a live handle refers to was made. -/
theorem lt_next_of_live? {s : Store} {h : HandleId} {b : BufferId} (hs : s.Placed)
    (hl : s.live? h = some b) : b < s.buffers.next := by
  obtain ⟨⟨owning, ht⟩, -⟩ := live?_eq_some_iff.1 hl
  exact hs.handles h _ ht

/-- Copying reads, perhaps unmaps, and makes one new buffer. -/
theorem faithful_deepCopy (s : Store) (h : HandleId) : s.Faithful (s.deepCopy h).2 := by
  have hkept := s.faithful_mapRead h
  unfold deepCopy
  split
  · exact .refl s
  · simp only
    cases hm : s.mapRead h with
    | mk result s₁ =>
      rw [hm] at hkept
      cases result with
      | error e => exact hkept
      | ok bytes =>
        simp only
        split
        · exact (hkept.trans (faithful_unmap ..)).trans (faithful_newBuffer ..)
        · exact hkept.trans (faithful_newBuffer ..)

/-- A change of an info keeps the size. -/
theorem kept_updateInfo {s s' : Store} {h : HandleId} {f : FrameInfo → FrameInfo}
    (hu : s.updateInfo h f = .ok s') : s.Kept s' := by
  unfold updateInfo at hu
  split at hu
  · exact nomatch hu
  · cases hu
    exact .update s fun _ _ => rfl

/-- If it keeps the id as well, it is faithful. -/
theorem faithful_updateInfo {s s' : Store} {h : HandleId} {f : FrameInfo → FrameInfo}
    (hf : ∀ i, (f i).id = i.id) (hu : s.updateInfo h f = .ok s') : s.Faithful s' := by
  unfold updateInfo at hu
  split at hu
  · exact nomatch hu
  · cases hu
    refine .update s fun x hx => ⟨rfl, ?_⟩
    show (f (s.infoOf _)).id = _
    rw [hf, infoOf, hx]
    rfl

/-- What a pool lends becomes a new buffer. -/
theorem faithful_acquire {s s' : Store} {p : PoolId} {h : HandleId}
    (ha : s.acquire p = some (h, s')) : s.Faithful s' := by
  unfold acquire at ha
  split at ha
  · exact nomatch ha
  · rename_i bytes pool hp
    -- the pool gives its payload away, which no buffer notices
    have hlent : s.Faithful { s with pools := s.pools.set p pool } :=
      .of_same rfl rfl (fun _ _ ht => ht) (fun _ _ hb => hb)
    have heq := congrArg Prod.snd (Option.some.inj ha)
    simp only at heq
    rw [← heq]
    exact hlent.trans (faithful_newBuffer ..)

/-- A view is a new handle that borrows. -/
theorem faithful_view {s s' : Store} {h v : HandleId} (hv : s.view h = .ok (v, s')) :
    s.Faithful s' := by
  unfold view at hv
  cases hl : s.live? h with
  | none =>
    rw [hl] at hv
    cases hv
  | some b =>
    rw [hl] at hv
    cases hv
    exact faithful_borrow fun hs => lt_next_of_live? hs hl

/-- An operation that attaches no id keeps the ids of buffers. -/
theorem faithful_perform (s : Store) {op : Op} (hop : ∀ h id, op ≠ .setId h id) :
    s.Faithful (s.perform op) := by
  -- one lemma above for each function; attaching an id is left out by assumption
  cases op with
  | newFrame bytes => exact s.faithful_newBuffer _
  | newReference bytes => exact s.faithful_newReference bytes
  | newPool size capacity => exact .of_same rfl rfl (fun _ _ ht => ht) (fun _ _ hb => hb)
  | dropPool p => exact .of_same rfl rfl (fun _ _ ht => ht) (fun _ _ hb => hb)
  | acquire p =>
    rw [perform]
    cases ha : s.acquire p with
    | none => exact .refl s
    | some acquired => exact faithful_acquire ha
  | view h =>
    rw [perform]
    cases hv : s.view h with
    | error e => exact .refl s
    | ok viewed => exact faithful_view hv
  | reference h =>
    rw [perform, reference]
    cases hl : s.live? h with
    | none => exact .refl s
    | some b =>
      have hb : (s.adopt b).Placed → b < (s.adopt b).buffers.next := by
        intro hs
        exact lt_next_of_live? (s := s) ⟨hs.handles, hs.references⟩ hl
      exact (s.faithful_adopt b).trans (faithful_addReference hb)
  | own r =>
    rw [perform]
    cases hr : s.references.get? r with
    | none => exact .refl s
    | some b => exact faithful_own fun hs => hs.references r b hr
  | borrow r =>
    rw [perform]
    cases hr : s.references.get? r with
    | none => exact .refl s
    | some b => exact faithful_borrow fun hs => hs.references r b hr
  | dropReference r => exact s.faithful_dropReference r
  | mapRead h => exact s.faithful_mapRead h
  | mapWrite h => exact s.faithful_mapWrite h
  | write h start new => exact s.faithful_write h start new
  | unmap h => exact s.faithful_unmap h
  | size h => exact s.faithful_size h
  | deepCopy h => exact s.faithful_deepCopy h
  | setTiming h t =>
    rw [perform]
    cases hu : s.setTiming h t with
    | error e => exact .refl s
    | ok s' => exact faithful_updateInfo (f := (·.withTiming t)) (fun _ => rfl) hu
  | setId h id => exact absurd rfl (hop h id)
  | release h => exact s.faithful_release h
  | drop h => exact s.faithful_drop h

/-- Every operation keeps the sizes of buffers. -/
theorem kept_perform (s : Store) (op : Op) : s.Kept (s.perform op) := by
  -- attaching an id is the one operation that is not faithful
  by_cases hop : ∃ h id, op = .setId h id
  · obtain ⟨h, id, rfl⟩ := hop
    rw [perform]
    cases hu : s.setId h id with
    | error e => exact .refl s
    | ok s' => exact kept_updateInfo hu
  · exact (s.faithful_perform fun h id heq => hop ⟨h, id, heq⟩).toKept

/-! ## Other handles -/

/-- A handle that takes a lock leaves the others alone. -/
theorem handle_mapped_of_ne (s : Store) {h g : HandleId} (hne : g ≠ h) (b : BufferId) (m : Mapping)
    (l : Lock) : (s.mapped h b m l).handle g = s.handle g := by
  simp only [mapped, handle, Table.get?_update, if_neg hne]

/-- Changing an info changes no handle. -/
theorem handle_updateInfo {s s' : Store} {h : HandleId} {f : FrameInfo → FrameInfo}
    (hu : s.updateInfo h f = .ok s') (g : HandleId) : s'.handle g = s.handle g := by
  unfold updateInfo at hu
  split at hu
  · exact nomatch hu
  · cases hu
    rfl

/-- A pool that lends a buffer adds a handle, and leaves the others alone. -/
theorem handle_acquire_of_ne {s s' : Store} {p : PoolId} {h g : HandleId}
    (ha : s.acquire p = some (h, s')) (hnew : g ≠ s.handles.next) : s'.handle g = s.handle g := by
  unfold acquire at ha
  split at ha
  · exact nomatch ha
  · rename_i bytes pool hp
    have heq := congrArg Prod.snd (Option.some.inj ha)
    simp only at heq
    rw [← heq]
    exact handle_newBuffer_of_ne { s with pools := s.pools.set p pool } _ hnew

end MediaBridge.Store
