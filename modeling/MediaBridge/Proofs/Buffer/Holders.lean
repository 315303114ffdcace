import MediaBridge.Proofs.Buffer.Effects

/-! # Who holds the locks

The lock of a buffer is held by the handles that map it.  The lock knows how many readers there are, or
that there is a writer, and every handle knows how it maps its own buffer.  `Orderly` says that they agree.
It does not matter for this how many handles and references there are, or which of them own the buffer; a
lock may outlive the last owner, for as long as somebody maps the buffer.

* `Orderly.mapped`, `Orderly.leave`  a lock changes with the handle that takes it or gives it back;
* `Orderly.of_same`                  and with nothing else.
-/

namespace MediaBridge

/-- How many hold a lock in this way. -/
def Lock.held : Lock → Mapping → Nat
  | readers n, .readable => n
  | writer, .writable => 1
  | _, _ => 0

/-- The handle maps the buffer in this way. -/
def Handle.Maps (x : Handle) (b : BufferId) (m : Mapping) : Prop :=
  x.mapping = m ∧ x.target.map (·.buffer) = some b

instance (x : Handle) (b : BufferId) (m : Mapping) : Decidable (x.Maps b m) :=
  inferInstanceAs (Decidable (_ ∧ _))

/-- A handle with a buffer maps that one, if any. -/
theorem Handle.maps_iff {x : Handle} {t : Target} (ht : x.target = some t) {b : BufferId}
    {m : Mapping} : x.Maps b m ↔ x.mapping = m ∧ t.buffer = b := by
  simp only [Maps, ht, Option.map_some, Option.some.injEq]

/-- A handle that maps nothing maps no buffer in any way that counts. -/
theorem Handle.not_maps {x : Handle} {b : BufferId} {m : Mapping} (hx : x.mapping = .unmapped)
    (hm : m ≠ .unmapped) : ¬x.Maps b m := fun hmaps => hm (hmaps.1.symm.trans hx)

namespace Lock

variable {l l' : Lock}

/-- One more holds a lock that was taken for reading. -/
theorem held_tryRead (h : l.tryRead = some l') (m : Mapping) :
    l'.held m = l.held m + if m = .readable then 1 else 0 := by
  obtain ⟨n, rfl, rfl⟩ := tryRead_eq_some_iff.1 h
  cases m <;> rfl

/-- One more holds a lock that was taken for writing. -/
theorem held_tryWrite (h : l.tryWrite = some l') (m : Mapping) :
    l'.held m = l.held m + if m = .writable then 1 else 0 := by
  obtain ⟨rfl, rfl⟩ := tryWrite_eq_some_iff.1 h
  cases m <;> rfl

/-- Whoever holds a lock can give it back. -/
theorem held_leave {m : Mapping} (hm : 0 < l.held m) (m' : Mapping) :
    (l.leave m).held m' + (if m' = m then 1 else 0) = l.held m' := by
  -- a lock that is held in one way is not held in the other
  cases l with
  | readers n =>
    cases m with
    | readable =>
      have hn : 0 < n := hm
      cases m' with
      | readable => exact Nat.sub_add_cancel hn
      | unmapped | writable => rfl
    | unmapped | writable => exact absurd hm (Nat.lt_irrefl 0)
  | writer =>
    cases m with
    | writable => cases m' <;> rfl
    | unmapped | readable => exact absurd hm (Nat.lt_irrefl 0)

/-- A lock that nobody holds cannot be given back. -/
@[simp] theorem leave_free (m : Mapping) : free.leave m = free := by
  cases m <;> rfl

/-- A lock is not taken for writing just if nobody holds it so. -/
theorem ne_writer_iff : l ≠ .writer ↔ l.held .writable = 0 := by
  cases l with
  | readers n => exact iff_of_true nofun rfl
  | writer => exact iff_of_false (absurd rfl) Nat.one_ne_zero

/-- A lock is free just if nobody holds it in either way. -/
theorem eq_free_iff : l = free ↔ l.held .readable = 0 ∧ l.held .writable = 0 := by
  cases l with
  | readers n => simp only [free, readers.injEq, held, and_true]
  | writer =>
    refine iff_of_false ?_ fun h => Nat.one_ne_zero h.2
    intro h
    cases h

end Lock

namespace Store

/-- How many handles map a buffer in this way. -/
def holders (s : Store) (b : BufferId) (m : Mapping) : Nat := s.handles.count fun x => x.Maps b m

/-- Locks and handles agree, and a handle that was released maps nothing. -/
structure Orderly (s : Store) : Prop where
  locks : ∀ b m, m ≠ .unmapped → s.holders b m = (s.lock b).held m
  released : ∀ h, (s.handle h).target = none → (s.handle h).mapping = .unmapped

/-- Without handles and buffers there is nothing to disagree about. -/
theorem orderly_empty : Orderly {} where
  locks := by
    intro b m hm
    cases m with
    | unmapped => exact absurd rfl hm
    | readable | writable => rfl
  released := fun _ _ => rfl

/-! ## Locks of other buffers -/

section

variable {s s' : Store} {b : BufferId}

/-- A buffer that is changed in place keeps its lock, if the change does not concern it. -/
theorem lock_update {f : Buffer → Buffer}
    (hf : ∀ x, s.buffers.get? b = some x → (f x).lock = x.lock) (b' : BufferId) :
    ({ s with buffers := s.buffers.update b f } : Store).lock b' = s.lock b' := by
  simp only [lock, Table.get?_update]
  split
  · rename_i heq
    rw [heq]
    cases hx : s.buffers.get? b with
    | none => rfl
    | some x => exact hf x hx
  · rfl

/-- A new buffer is not locked, as if it had not been there. -/
theorem lock_add {x : Buffer} (hx : x.lock = .free) (b' : BufferId) :
    ({ s with buffers := (s.buffers.add x).2 } : Store).lock b' = s.lock b' := by
  simp only [lock, Table.get?_add]
  split
  · rename_i heq
    rw [heq, s.buffers.get?_of_next_le (Nat.le_refl _)]
    exact hx
  · rfl

/-- A buffer that is removed is not locked. -/
@[simp] theorem lock_sweep (s : Store) (b b' : BufferId) : (s.sweep b).lock b' = s.lock b' := by
  unfold sweep
  split
  · rfl
  · rename_i x hx
    split
    · rename_i hdead
      simp only [lock, Table.get?_erase]
      split
      · rename_i heq
        rw [heq, hx]
        exact hdead.2.symm
      · rfl
    · rfl

/-- The loss of an owner leaves every lock as it is. -/
@[simp] theorem lock_disown (s : Store) (b b' : BufferId) : (s.disown b).lock b' = s.lock b' := by
  unfold disown
  cases hx : s.buffers.get? b with
  | none => rfl
  | some x =>
    -- the buffer that counts one owner less is the same otherwise
    have hleft : ({ s with buffers := s.buffers.set b { x with owners := x.owners - 1 } } :
        Store).lock b' = s.lock b' := by
      refine lock_update ?_ b'
      intro y hy
      rw [hx] at hy
      cases hy
      rfl
    simp only
    split
    · rw [lock_sweep, lock, buffers_recycle]
      exact hleft
    · exact hleft

/-- A lock that was taken is the buffer's lock from then on. -/
theorem lock_mapped (ha : s.isAlive b) (h : HandleId) (m : Mapping) (l : Lock) (b' : BufferId) :
    (s.mapped h b m l).lock b' = if b' = b then l else s.lock b' := by
  simp only [mapped, lock, Table.get?_update]
  split
  · rename_i heq
    rw [heq]
    cases hx : s.buffers.get? b with
    | none =>
      rw [isAlive, hx] at ha
      cases ha
    | some x => rfl
  · rfl

/-- A lock that was given back has lost one mapping, and the others are as before. -/
theorem lock_leave (s : Store) (b : BufferId) (m : Mapping) (handles : Table Handle)
    (b' : BufferId) :
    ({ s with handles, buffers := s.buffers.update b fun y => { y with lock := y.lock.leave m } } :
      Store).lock b' = if b' = b then (s.lock b').leave m else s.lock b' := by
  simp only [lock, Table.get?_update]
  split
  · cases s.buffers.get? b' with
    | none => exact (Lock.leave_free m).symm
    | some x => rfl
  · rfl

/-! ## Holders -/

/-- When a handle with a buffer changes, it is counted for what it is now. -/
theorem holders_update {h : HandleId} {t : Target} (ht : (s.handle h).target = some t)
    (f : Handle → Handle) (buffers : Table Buffer) (b : BufferId) (m : Mapping) :
    ({ s with handles := s.handles.update h f, buffers } : Store).holders b m +
        (if (s.handle h).Maps b m then 1 else 0) =
      s.holders b m + if (f (s.handle h)).Maps b m then 1 else 0 := by
  have hcount := Table.count_update (get?_handles_of_target ht) f fun x => x.Maps b m
  simp only [decide_eq_true_eq] at hcount
  exact hcount

/-- A handle without a buffer holds nothing. -/
theorem holders_erase {h : HandleId} (ht : (s.handle h).target = none) (b : BufferId)
    (m : Mapping) :
    ({ s with handles := s.handles.erase h } : Store).holders b m = s.holders b m := by
  show (s.handles.erase h).count _ = _
  cases hget : s.handles.get? h with
  | none => exact Table.count_erase_of_none hget _
  | some x =>
    rw [handle, hget] at ht
    -- the handle that is forgotten refers to nothing, so it was not counted
    have hnot : ¬x.Maps b m := by
      rintro ⟨-, hmaps⟩
      rw [show x.target = none from ht] at hmaps
      cases hmaps
    have hcount := Table.count_erase hget fun x => x.Maps b m
    rw [if_neg (by simpa using hnot)] at hcount
    exact hcount

/-- Somebody is counted just if some handle maps the buffer. -/
theorem holders_pos_iff {m : Mapping} : 0 < s.holders b m ↔ ∃ h, (s.handle h).Maps b m := by
  constructor
  · intro hpos
    obtain ⟨h, x, hget, hmaps⟩ := Table.exists_of_count_pos hpos
    refine ⟨h, ?_⟩
    rw [handle, hget]
    exact of_decide_eq_true hmaps
  · rintro ⟨h, hmaps⟩
    obtain ⟨t, ht, -⟩ := Option.map_eq_some_iff.1 hmaps.2
    exact Table.count_pos_of_get? (get?_handles_of_target ht) (decide_eq_true hmaps)

end

/-! ## Taking a lock and giving it back -/

namespace Orderly

variable {s s' : Store} {h : HandleId} {b : BufferId}

/-- What happened has nothing to do with locks. -/
theorem of_same (hs : s.Orderly) (hhandles : s'.handles = s.handles)
    (hlock : ∀ b, s'.lock b = s.lock b) : s'.Orderly where
  locks := by
    intro b m hm
    rw [hlock, holders, hhandles]
    exact hs.locks b m hm
  released := by
    intro h
    rw [handle, hhandles]
    exact hs.released h

/-- A new handle that maps nothing changes nothing about locks. -/
theorem addHandle (hs : s.Orderly) {x : Handle} (hx : x.mapping = .unmapped) :
    (s.addHandle x).2.Orderly where
  locks := by
    intro b m hm
    show (s.handles.add x).2.count _ = _
    rw [Table.count_add, if_neg (by simpa using Handle.not_maps hx hm)]
    exact hs.locks b m hm
  released := by
    intro g
    simp only [Store.addHandle, handle, Table.get?_add]
    split
    · exact fun _ => hx
    · exact hs.released g

/-- A new buffer that nobody has locked changes nothing about other locks. -/
theorem newBuffer (hs : s.Orderly) {x : Buffer} (hx : x.lock = .free) :
    (s.newBuffer x).2.Orderly := by
  have hmade : Orderly { s with buffers := (s.buffers.add x).2 } :=
    hs.of_same rfl (lock_add hx)
  exact hmade.addHandle rfl

/-- A handle that mapped nothing has taken the lock. -/
theorem mapped (hs : s.Orderly) {t : Target} {m : Mapping} {l : Lock}
    (ht : (s.handle h).target = some t) (hu : (s.handle h).mapping = .unmapped)
    (ha : s.isAlive t.buffer)
    (hl : ∀ m', l.held m' = (s.lock t.buffer).held m' + if m' = m then 1 else 0) :
    (s.mapped h t.buffer m l).Orderly where
  locks := by
    intro b m' hm'
    -- the handle was not counted before
    have hcount := holders_update ht (fun x => { x with mapping := m }) s.buffers b m'
    rw [if_neg (Handle.not_maps hu hm'), Nat.add_zero] at hcount
    refine hcount.trans ?_
    rw [lock_mapped ha, hs.locks b m' hm']
    -- the lock of the one buffer has changed with the handle, and the others are as before
    by_cases hb : b = t.buffer
    · rw [if_pos hb, hl, hb]
      simp only [Handle.maps_iff (x := { s.handle h with mapping := m }) ht, and_true, eq_comm]
    · have hother : ¬({ s.handle h with mapping := m } : Handle).Maps b m' :=
        fun hmaps => hb ((Handle.maps_iff (x := { s.handle h with mapping := m }) ht).1 hmaps).2.symm
      rw [if_neg hb, if_neg hother, Nat.add_zero]
  released := by
    intro g hg
    rw [target_mapped] at hg
    have hne : g ≠ h := by
      rintro rfl
      rw [ht] at hg
      cases hg
    rw [handle_mapped_of_ne _ hne]
    exact hs.released g hg

/-- One handle was replaced by one that maps nothing. -/
theorem released_set (hs : s.Orderly) {x : Handle} (hx : x.mapping = .unmapped)
    (buffers : Table Buffer) {g : HandleId}
    (hg : (handle { s with handles := s.handles.set h x, buffers } g).target = none) :
    (handle { s with handles := s.handles.set h x, buffers } g).mapping = .unmapped := by
  simp only [handle, Table.get?_set] at hg ⊢
  split
  · cases s.handles.get? g with
    | none => rfl
    | some y => exact hx
  · rename_i hne
    rw [if_neg hne] at hg
    exact hs.released g hg

/-- A handle that mapped its buffer has given the lock back. -/
theorem leave (hs : s.Orderly) {t : Target} (ht : (s.handle h).target = some t)
    (hu : (s.handle h).mapping ≠ .unmapped) :
    Orderly { s with
      handles := s.handles.set h { s.handle h with mapping := .unmapped }
      buffers := s.buffers.update t.buffer fun y =>
        { y with lock := y.lock.leave (s.handle h).mapping } } where
  locks := by
    intro b m hm
    -- the handle is not counted any more
    have hcount := holders_update ht (fun _ => { s.handle h with mapping := .unmapped })
      (s.buffers.update t.buffer fun y => { y with lock := y.lock.leave (s.handle h).mapping }) b m
    rw [if_neg (Handle.not_maps (x := { s.handle h with mapping := .unmapped }) rfl hm),
      Nat.add_zero, hs.locks b m hm] at hcount
    rw [lock_leave]
    by_cases hb : b = t.buffer
    · -- the lock knows of the handle, so it has something to give back
      have hpos : 0 < s.holders t.buffer (s.handle h).mapping :=
        holders_pos_iff.2 ⟨h, (Handle.maps_iff ht).2 ⟨rfl, rfl⟩⟩
      rw [hs.locks t.buffer _ hu, ← hb] at hpos
      have hleave := Lock.held_leave hpos m
      have hmaps : (s.handle h).Maps b m ↔ m = (s.handle h).mapping := by
        rw [Handle.maps_iff ht, and_iff_left hb.symm, eq_comm]
      simp only [hmaps] at hcount
      rw [if_pos hb]
      exact Nat.add_right_cancel (hcount.trans hleave.symm)
    · have hother : ¬(s.handle h).Maps b m :=
        fun hmaps => hb ((Handle.maps_iff ht).1 hmaps).2.symm
      rw [if_neg hother, Nat.add_zero] at hcount
      rw [if_neg hb]
      exact hcount
  released := fun _ hg => hs.released_set rfl _ hg

/-- A handle that gives its mapping up gives the lock back with it. -/
theorem unmap (hs : s.Orderly) (h : HandleId) : (s.unmap h).Orderly := by
  simp only [Store.unmap]
  split
  · exact hs
  · rename_i t ht
    split
    · exact hs
    · rename_i hu
      exact (hs.leave ht hu).of_same (handles_sweep ..) (lock_sweep _ _)

/-- A handle that gave its mapping up maps nothing, with or without a buffer. -/
theorem mapping_unmap (hs : s.Orderly) (h : HandleId) :
    ((s.unmap h).handle h).mapping = .unmapped := by
  cases ht : (s.handle h).target with
  | none => exact (hs.unmap h).released h ((s.target_unmap h h).trans ht)
  | some t => rw [handle_unmap_self ht]

/-! ## Letting go and making -/

/-- A handle that mapped nothing has lost its buffer. -/
theorem forget (hs : s.Orderly) {t : Target} (ht : (s.handle h).target = some t)
    (hu : (s.handle h).mapping = .unmapped) :
    Orderly { s with handles := s.handles.set h { target := none } } where
  locks := by
    intro b m hm
    have hcount := holders_update ht (fun _ => { target := none }) s.buffers b m
    rw [if_neg (Handle.not_maps hu hm), 
      if_neg (Handle.not_maps (x := { target := none }) rfl hm)] at hcount
    exact hcount.trans (hs.locks b m hm)
  released := fun _ hg => hs.released_set rfl _ hg

/-- A buffer from a pool comes with a handle that maps nothing. -/
theorem acquire (hs : s.Orderly) {p : PoolId} (ha : s.acquire p = some (h, s')) : s'.Orderly := by
  unfold Store.acquire at ha
  split at ha
  · cases ha
  · have heq := congrArg Prod.snd (Option.some.inj ha)
    simp only at heq
    rw [← heq]
    refine Orderly.newBuffer ?_ rfl
    exact hs.of_same rfl fun _ => rfl

/-- Another owner has nothing to do with locks. -/
theorem adopt (hs : s.Orderly) (b : BufferId) : (s.adopt b).Orderly :=
  hs.of_same rfl (lock_update fun _ _ => rfl)

end Orderly

end Store

end MediaBridge
