import MediaBridge.Buffer.Store

/-! # What handles show

The content of a live buffer is its bytes and its info.  Mapping and unmapping move locks and never a
content, whichever handle it is done through, and an operation on a handle leaves the other handles
and the buffers that it does not refer to alone.

* `updateInfo_cases`                 a changed info is seen through its handle;
* `content?_unmap`, `content?_size`  mapping changes no content;
* `contentOf?_drop`                  dropping a handle takes at most the buffer it was the last owner of;
* `handle_drop_of_ne`                dropping a handle leaves the others as they were;
* `get?_buffers_drop_of_ne`          and the buffers that it does not refer to.
-/

namespace MediaBridge

variable {α : Type u}

/-- What a table has was given a key before the next one. -/
theorem Table.lt_next_of_get? {t : Table α} {k : Nat} {v : α} (h : t.get? k = some v) :
    k < t.next := by
  by_cases hlt : k < t.next
  · exact hlt
  · rw [t.get?_of_next_le (Nat.not_lt.1 hlt)] at h
    exact nomatch h

/-- The bytes of a frame with what is attached to them. -/
structure Content where
  bytes : ByteArray
  info : FrameInfo

namespace Store

/-- The content of a buffer; none once it has no owner. -/
def contentOf? (s : Store) (b : BufferId) : Option Content :=
  (s.buffers.get? b).bind fun x => if 0 < x.owners then some ⟨x.bytes, x.info⟩ else none

/-- How many own a buffer. -/
def ownersOf (s : Store) (b : BufferId) : Nat := ((s.buffers.get? b).map (·.owners)).getD 0

/-- The content of the buffer that a handle refers to. -/
def content? (s : Store) (h : HandleId) : Option Content :=
  (s.handle h).target.bind fun t => s.contentOf? t.buffer

/-! ## Contents and live handles -/

/-- A handle is live if it refers to a buffer that has an owner. -/
theorem live?_eq_some_iff {s : Store} {h : HandleId} {b : BufferId} :
    s.live? h = some b ↔
      (∃ owning, (s.handle h).target = some ⟨b, owning⟩) ∧ s.isAlive b := by
  unfold live?
  cases ht : (s.handle h).target with
  | none => simp
  | some t =>
    obtain ⟨b', owning⟩ := t
    by_cases ha : s.isAlive b' = true
    · simp only [Option.bind_some, ha, if_true, Option.some.injEq, Target.mk.injEq]
      exact ⟨fun e => ⟨⟨owning, e, rfl⟩, e ▸ ha⟩, fun ⟨⟨_, e, _⟩, _⟩ => e⟩
    · simp only [Option.bind_some, ha, Bool.false_eq_true, if_false, reduceCtorEq, false_iff]
      rintro ⟨⟨o, e⟩, ha'⟩
      cases e
      exact ha ha'

/-- A buffer with an owner shows its bytes and its info. -/
theorem contentOf?_of_isAlive {s : Store} {b : BufferId} (h : s.isAlive b) :
    s.contentOf? b = some ⟨s.bytes b, s.infoOf b⟩ := by
  unfold isAlive at h
  unfold contentOf? bytes infoOf
  cases hb : s.buffers.get? b with
  | none => rw [hb] at h; exact nomatch h
  | some x =>
    rw [hb] at h
    have howners : 0 < x.owners := by simpa using h
    simp [howners]

/-- A buffer shows nothing just if it has no owner. -/
theorem contentOf?_eq_none_iff {s : Store} {b : BufferId} :
    s.contentOf? b = none ↔ s.isAlive b = false := by
  unfold contentOf? isAlive
  cases s.buffers.get? b with
  | none => simp
  | some x => by_cases howners : 0 < x.owners <;> simp [howners]

/-- A live handle shows the bytes and the info of its buffer. -/
theorem content?_of_live? {s : Store} {h : HandleId} {b : BufferId} (hl : s.live? h = some b) :
    s.content? h = some ⟨s.bytes b, s.infoOf b⟩ := by
  obtain ⟨⟨owning, ht⟩, ha⟩ := live?_eq_some_iff.1 hl
  rw [content?, ht]
  exact contentOf?_of_isAlive ha

/-- A handle shows nothing just if it is not live. -/
theorem content?_eq_none_iff {s : Store} {h : HandleId} :
    s.content? h = none ↔ s.live? h = none := by
  constructor
  · intro hc
    cases hl : s.live? h with
    | none => rfl
    | some b => rw [content?_of_live? hl] at hc; exact nomatch hc
  · intro hl
    unfold live? at hl
    unfold content?
    cases ht : (s.handle h).target with
    | none => rfl
    | some t =>
      rw [ht] at hl
      -- a handle that is not live has no buffer, or one without an owner
      by_cases ha : s.isAlive t.buffer = true
      · rw [Option.bind_some, if_pos ha] at hl
        exact nomatch hl
      · rw [Option.bind_some]
        exact contentOf?_eq_none_iff.2 (by simpa using ha)

/-- The info of a frame is part of the content that it shows. -/
theorem info_eq (s : Store) (h : HandleId) :
    s.info h = match s.content? h with
      | some c => .ok c.info
      | none => .error .bufferReleased := by
  unfold info
  cases hl : s.live? h with
  | none => rw [content?_eq_none_iff.2 hl]
  | some b => rw [content?_of_live? hl]

/-- A frame shows one content, and with it one id. -/
theorem content?_unique {s : Store} {h : HandleId} {c c' : Content} {id id' : Nat}
    (hc : s.content? h = some c) (hid : c.info.id = some id) (hc' : s.content? h = some c')
    (hid' : c'.info.id = some id') : c' = c ∧ id' = id := by
  rw [hc] at hc'
  cases hc'
  rw [hid] at hid'
  exact ⟨rfl, (Option.some.inj hid').symm⟩

/-! ## Changing an info -/

/-- An info can be changed if it can be read, and the change is seen. -/
theorem updateInfo_cases (s : Store) (h : HandleId) (f : FrameInfo → FrameInfo) :
    (∃ e, s.info h = .error e ∧ s.updateInfo h f = .error e) ∨
    ∃ i s', s.info h = .ok i ∧ s.updateInfo h f = .ok s' ∧ s'.info h = .ok (f i) := by
  cases hl : s.live? h with
  | none => exact .inl ⟨.bufferReleased, by rw [info, hl], by rw [updateInfo, hl]⟩
  | some b =>
    obtain ⟨htarget, ha⟩ := live?_eq_some_iff.1 hl
    obtain ⟨x, hx, howners⟩ : ∃ x, s.buffers.get? b = some x ∧ 0 < x.owners := by
      unfold isAlive at ha
      cases hx : s.buffers.get? b with
      | none => rw [hx] at ha; exact nomatch ha
      | some x => rw [hx] at ha; exact ⟨x, rfl, by simpa using ha⟩
    -- the buffer keeps everything but its info, so the handle stays alive
    have hset : ∀ i, (s.setInfoOf b i).buffers.get? b = some { x with info := i } := by
      intro i
      rw [setInfoOf, Table.get?_update, if_pos rfl, hx]
      rfl
    have hinfo : ∀ i, (s.setInfoOf b i).infoOf b = i := fun i => by rw [infoOf, hset]; rfl
    have hlive : ∀ i, (s.setInfoOf b i).live? h = some b := by
      refine fun i => live?_eq_some_iff.2 ⟨htarget, ?_⟩
      rw [isAlive, hset]
      simpa using howners
    refine .inr ⟨s.infoOf b, s.setInfoOf b (f (s.infoOf b)), by rw [info, hl],
      by rw [updateInfo, hl], ?_⟩
    simp only [info, hlive, hinfo]

/-! ## Operations on one buffer -/

/-- Removing a buffer that nobody needs touches no handle. -/
@[simp] theorem handles_sweep (s : Store) (b : BufferId) : (s.sweep b).handles = s.handles := by
  unfold sweep
  split
  · rfl
  · split <;> rfl

/-- A payload goes home without any handle being touched. -/
@[simp] theorem handles_recycle (s : Store) (x : Buffer) : (s.recycle x).handles = s.handles := by
  unfold recycle; split <;> rfl

/-- A payload goes home without any buffer being touched, since pools are kept apart from them. -/
@[simp] theorem buffers_recycle (s : Store) (x : Buffer) : (s.recycle x).buffers = s.buffers := by
  unfold recycle; split <;> rfl

/-- A buffer that loses an owner leaves the handles alone. -/
@[simp] theorem handles_disown (s : Store) (b : BufferId) : (s.disown b).handles = s.handles := by
  unfold disown
  split
  · rfl
  · split <;> simp

/-- The identifier of a buffer that was removed is not used again. -/
@[simp] theorem next_buffers_sweep (s : Store) (b : BufferId) :
    (s.sweep b).buffers.next = s.buffers.next := by
  unfold sweep
  split
  · rfl
  · split <;> rfl

/-- Removing a buffer gives nothing back to a pool. -/
@[simp] theorem pools_sweep (s : Store) (b : BufferId) : (s.sweep b).pools = s.pools := by
  unfold sweep
  split
  · rfl
  · split <;> rfl

/-- Removing a buffer touches no reference. -/
@[simp] theorem references_sweep (s : Store) (b : BufferId) :
    (s.sweep b).references = s.references := by
  unfold sweep
  split
  · rfl
  · split <;> rfl

/-- A payload goes home without any reference being touched. -/
@[simp] theorem references_recycle (s : Store) (x : Buffer) :
    (s.recycle x).references = s.references := by
  unfold recycle
  split <;> rfl

/-- A buffer that loses an owner leaves the references alone. -/
@[simp] theorem references_disown (s : Store) (b : BufferId) :
    (s.disown b).references = s.references := by
  unfold disown
  split
  · rfl
  · split <;> simp

/-- At most the one buffer is removed. -/
theorem get?_buffers_sweep_of_ne (s : Store) {b b' : BufferId} (hne : b' ≠ b) :
    (s.sweep b).buffers.get? b' = s.buffers.get? b' := by
  unfold sweep
  split
  · rfl
  · split
    · rw [Table.get?_erase, if_neg hne]
    · rfl

/-- A buffer that loses an owner leaves the others alone. -/
theorem get?_buffers_disown_of_ne (s : Store) {b b' : BufferId} (hne : b' ≠ b) :
    (s.disown b).buffers.get? b' = s.buffers.get? b' := by
  unfold disown
  split
  · rfl
  · split
    · rw [get?_buffers_sweep_of_ne _ hne, buffers_recycle, Table.get?_set, if_neg hne]
    · rw [Table.get?_set, if_neg hne]

/-- Only buffers without an owner are ever removed. -/
theorem contentOf?_sweep (s : Store) (b b' : BufferId) :
    (s.sweep b).contentOf? b' = s.contentOf? b' := by
  by_cases hne : b' = b
  · subst hne
    unfold sweep
    split
    · rfl
    · rename_i x hx
      split
      · -- the buffer that is removed had no owner, and so no content
        rename_i hdead
        unfold contentOf?
        rw [hx, Table.get?_erase, if_pos rfl]
        simp [hdead.1]
      · rfl
  · unfold contentOf?
    rw [get?_buffers_sweep_of_ne s hne]

/-- Removing a buffer takes no owner from it, since it has none. -/
theorem ownersOf_sweep (s : Store) (b b' : BufferId) : (s.sweep b).ownersOf b' = s.ownersOf b' := by
  by_cases hne : b' = b
  · subst hne
    unfold sweep
    split
    · rfl
    · rename_i x hx
      split
      · rename_i hdead
        unfold ownersOf
        rw [hx, Table.get?_erase, if_pos rfl]
        exact hdead.1.symm
      · rfl
  · unfold ownersOf
    rw [get?_buffers_sweep_of_ne s hne]

/-- A change to a lock leaves the owners as they are. -/
theorem ownersOf_update_lock (s : Store) (b b' : BufferId) (f : Lock → Lock)
    (handles : Table Handle) :
    ({ s with handles, buffers := s.buffers.update b fun x => { x with lock := f x.lock } } :
      Store).ownersOf b' = s.ownersOf b' := by
  simp only [ownersOf, Table.get?_update]
  split
  · cases s.buffers.get? b' <;> rfl
  · rfl

/-- What happens to a lock is not seen in a content. -/
theorem contentOf?_update_lock (s : Store) (b b' : BufferId) (f : Lock → Lock)
    (handles : Table Handle) :
    ({ s with handles, buffers := s.buffers.update b fun x => { x with lock := f x.lock } } :
      Store).contentOf? b' = s.contentOf? b' := by
  simp only [contentOf?, Table.get?_update]
  split
  · cases s.buffers.get? b' <;> rfl
  · rfl

/-! ## Mapping and unmapping -/

/-- Unmapping makes no new handle. -/
@[simp] theorem next_handles_unmap (s : Store) (h : HandleId) :
    (s.unmap h).handles.next = s.handles.next := by
  simp only [unmap]
  split
  · rfl
  · split
    · rfl
    · rw [handles_sweep]
      rfl

/-- Unmapping makes no new buffer. -/
@[simp] theorem next_buffers_unmap (s : Store) (h : HandleId) :
    (s.unmap h).buffers.next = s.buffers.next := by
  simp only [unmap]
  split
  · rfl
  · split
    · rfl
    · rw [next_buffers_sweep]
      rfl

/-- Unmapping leaves the other handles alone. -/
theorem handle_unmap_of_ne (s : Store) {h h' : HandleId} (hne : h' ≠ h) :
    (s.unmap h).handle h' = s.handle h' := by
  simp only [unmap]
  split
  · rfl
  · split
    · rfl
    · simp only [handle, handles_sweep, Table.get?_set, if_neg hne]

/-- A handle that refers to something was made and not forgotten. -/
theorem get?_handles_of_target {s : Store} {h : HandleId} {t : Target}
    (ht : (s.handle h).target = some t) : s.handles.get? h = some (s.handle h) := by
  unfold handle at ht ⊢
  cases hg : s.handles.get? h with
  | none => rw [hg] at ht; exact nomatch ht
  | some x => rfl

/-- Unmapping leaves every handle its buffer. -/
theorem target_unmap (s : Store) (h h' : HandleId) :
    ((s.unmap h).handle h').target = (s.handle h').target := by
  -- the handle itself is replaced, by one with the same buffer
  by_cases hne : h' = h
  · subst hne
    simp only [unmap]
    split
    · rfl
    · rename_i t ht
      split
      · rfl
      · have hget := get?_handles_of_target ht
        rw [handle, handles_sweep, Table.get?_set, if_pos rfl, hget]
        rfl
  · rw [handle_unmap_of_ne s hne]

/-- A handle that gave its mapping up maps nothing. -/
theorem handle_unmap_self {s : Store} {h : HandleId} {t : Target}
    (ht : (s.handle h).target = some t) : (s.unmap h).handle h = { target := some t } := by
  have hget := get?_handles_of_target ht
  simp only [unmap, ht]
  split
  · rename_i hu
    cases hh : s.handle h
    rw [hh] at ht hu
    rw [← ht, ← hu]
  · rw [handle, handles_sweep, Table.get?_set, if_pos rfl, hget]
    rfl

/-- No buffer shows anything else when a mapping is given up. -/
theorem contentOf?_unmap (s : Store) (h : HandleId) (b : BufferId) :
    (s.unmap h).contentOf? b = s.contentOf? b := by
  simp only [unmap]
  split
  · rfl
  · split
    · rfl
    · rename_i t _ _
      rw [contentOf?_sweep]
      exact contentOf?_update_lock s t.buffer b (fun l => l.leave (s.handle h).mapping) _

/-- No buffer gains or loses an owner when a mapping is given up. -/
theorem ownersOf_unmap (s : Store) (h : HandleId) (b : BufferId) :
    (s.unmap h).ownersOf b = s.ownersOf b := by
  simp only [unmap]
  split
  · rfl
  · split
    · rfl
    · rename_i t _ _
      rw [ownersOf_sweep]
      exact ownersOf_update_lock s t.buffer b (fun l => l.leave (s.handle h).mapping) _

/-- No handle shows anything else when a mapping is given up. -/
theorem content?_unmap (s : Store) (h h' : HandleId) : (s.unmap h).content? h' = s.content? h' := by
  simp only [content?, target_unmap, contentOf?_unmap]

/-- Unmapping touches only the buffer that the handle refers to. -/
theorem get?_buffers_unmap_of_ne (s : Store) {h : HandleId} {b : BufferId}
    (hb : ∀ t, (s.handle h).target = some t → b ≠ t.buffer) :
    (s.unmap h).buffers.get? b = s.buffers.get? b := by
  simp only [unmap]
  split
  · rfl
  · rename_i t ht
    split
    · rfl
    · rw [get?_buffers_sweep_of_ne _ (hb t ht), Table.get?_update, if_neg (hb t ht)]

/-- Reading leaves every handle its buffer. -/
theorem target_mapRead (s : Store) (h h' : HandleId) :
    ((s.mapRead h).2.handle h').target = (s.handle h').target := by
  unfold mapRead
  repeat' split
  all_goals try rfl
  simp only [mapped, handle, Table.get?_update]
  split
  · cases s.handles.get? h' <;> rfl
  · rfl

/-- Reading changes no content. -/
theorem contentOf?_mapRead (s : Store) (h : HandleId) (b : BufferId) :
    (s.mapRead h).2.contentOf? b = s.contentOf? b := by
  unfold mapRead
  repeat' split
  all_goals try rfl
  rename_i l _
  exact contentOf?_update_lock s _ b (fun _ => l) _

/-- Reading gives no buffer an owner, and takes none from it. -/
theorem ownersOf_mapRead (s : Store) (h : HandleId) (b : BufferId) :
    (s.mapRead h).2.ownersOf b = s.ownersOf b := by
  unfold mapRead
  repeat' split
  all_goals try rfl
  rename_i l _
  exact ownersOf_update_lock s _ b (fun _ => l) _

/-- Reading leaves the other handles alone. -/
theorem handle_mapRead_of_ne (s : Store) {h h' : HandleId} (hne : h' ≠ h) :
    (s.mapRead h).2.handle h' = s.handle h' := by
  unfold mapRead
  repeat' split
  all_goals try rfl
  simp only [mapped, handle, Table.get?_update, if_neg hne]

/-- A frame is measured by being read. -/
theorem snd_size (s : Store) (h : HandleId) : (s.size h).2 = (s.mapRead h).2 := by
  unfold size
  cases s.mapRead h with
  | mk result s' => cases result <;> rfl

/-- Measuring a frame changes nothing that any handle shows. -/
theorem content?_size (s : Store) (h h' : HandleId) : (s.size h).2.content? h' = s.content? h' := by
  simp only [content?, snd_size, target_mapRead, contentOf?_mapRead]

/-- A frame can be measured and its mapping given up again without a trace in any info. -/
theorem info_unmap_size (s : Store) (h h' : HandleId) :
    ((s.size h).2.unmap h).info h' = s.info h' := by
  rw [info_eq, info_eq, content?_unmap, content?_size]

/-! ## Dropping -/

/-- A handle that is released leaves the others alone. -/
theorem handle_release_of_ne (s : Store) {h h' : HandleId} (hne : h' ≠ h) :
    (s.release h).handle h' = s.handle h' := by
  have hset : ∀ u : Store, (u.handles.set h { target := none }).get? h' = u.handles.get? h' :=
    fun u => by rw [Table.get?_set, if_neg hne]
  -- the mapping is given up first, and after that the handle forgets its buffer
  rw [← handle_unmap_of_ne s hne]
  simp only [release]
  split
  · rfl
  · split <;> simp only [handle, handles_disown, hset]

/-- A handle that was released refers to nothing. -/
theorem target_release_self (s : Store) (h : HandleId) : ((s.release h).handle h).target = none := by
  have hset : ∀ u : Store,
      (handle { u with handles := u.handles.set h { target := none } } h).target = none := by
    intro u
    simp only [handle, Table.get?_set, if_true]
    cases u.handles.get? h <;> rfl
  simp only [release]
  split
  · assumption
  · split
    · rw [handle, handles_disown]
      exact hset _
    · exact hset _

/-- Dropping a handle leaves the others alone as well. -/
theorem handle_drop_of_ne (s : Store) {h h' : HandleId} (hne : h' ≠ h) :
    (s.drop h).handle h' = s.handle h' := by
  rw [← handle_release_of_ne s hne]
  simp only [drop, handle, Table.get?_erase, if_neg hne]

/-- A buffer goes with its last owner. -/
theorem contentOf?_disown (s : Store) (b b' : BufferId) :
    (s.disown b).contentOf? b' =
      if b' = b ∧ s.ownersOf b ≤ 1 then none else s.contentOf? b' := by
  by_cases hne : b' = b
  · subst hne
    unfold disown
    cases hx : s.buffers.get? b' with
    | none =>
      simp only [contentOf?, hx, Option.bind_none]
      split <;> rfl
    | some x =>
      have howners : s.ownersOf b' = x.owners := by rw [ownersOf, hx]; rfl
      have hset : (s.buffers.set b' { x with owners := x.owners - 1 }).get? b' =
          some { x with owners := x.owners - 1 } := by
        rw [Table.get?_set, if_pos rfl, hx]
        rfl
      simp only [true_and, howners]
      -- the owner was the last one, or there are others
      by_cases hlast : x.owners ≤ 1
      · have hdead : ¬0 < x.owners - 1 := by omega
        rw [if_pos hlast, contentOf?_sweep, contentOf?, buffers_recycle]
        simp only [if_pos hlast, hset, Option.bind_some, if_neg hdead]
      · have hmore : 0 < x.owners - 1 := by omega
        have hsome : 0 < x.owners := by omega
        simp only [if_neg hlast, contentOf?, hset, hx, Option.bind_some, if_pos hmore, if_pos hsome]
  · rw [contentOf?, get?_buffers_disown_of_ne s hne, if_neg (fun hand => hne hand.1)]
    rfl

/-- What a buffer shows after a handle was dropped: what it showed before, unless the handle was its
    last owner. -/
theorem contentOf?_drop (s : Store) (h : HandleId) (b : BufferId) :
    (s.drop h).contentOf? b =
      if (s.handle h).target = some ⟨b, true⟩ ∧ s.ownersOf b ≤ 1 then none
      else s.contentOf? b := by
  have herase : ∀ u : Store, ({ u with handles := u.handles.erase h } : Store).contentOf? b =
      u.contentOf? b := fun _ => rfl
  rw [drop, herase, release]
  simp only
  rw [target_unmap]
  cases ht : (s.handle h).target with
  | none => simp only [reduceCtorEq, false_and, if_false, contentOf?_unmap]
  | some t =>
    obtain ⟨b', owning⟩ := t
    have hset : ∀ u : Store,
        ({ u with handles := u.handles.set h { target := none } } : Store).contentOf? b =
          u.contentOf? b := fun _ => rfl
    have howners : ∀ u : Store,
        ({ u with handles := u.handles.set h { target := none } } : Store).ownersOf b' =
          u.ownersOf b' := fun _ => rfl
    -- only a handle that owns its buffer can take the content with it
    cases owning with
    | false =>
      simp only [Bool.false_eq_true, if_false, hset, contentOf?_unmap, Option.some.injEq,
        Target.mk.injEq, and_false, false_and]
    | true =>
      simp only [if_true, contentOf?_disown, hset, howners, contentOf?_unmap, ownersOf_unmap,
        Option.some.injEq, Target.mk.injEq, and_true]
      by_cases hb : b = b'
      · subst hb
        simp only [true_and]
      · have hb' : ¬b' = b := fun heq => hb heq.symm
        simp only [hb, hb', false_and, if_false]

/-- Dropping a handle leaves the buffers that it does not refer to as they were. -/
theorem get?_buffers_drop_of_ne (s : Store) {h : HandleId} {b : BufferId}
    (hb : ∀ t, (s.handle h).target = some t → b ≠ t.buffer) :
    (s.drop h).buffers.get? b = s.buffers.get? b := by
  have hunmap := get?_buffers_unmap_of_ne s hb
  simp only [drop, release]
  split
  · exact hunmap
  · rename_i t ht
    rw [target_unmap] at ht
    split
    · rw [get?_buffers_disown_of_ne _ (hb t ht), hunmap]
    · exact hunmap

end Store

end MediaBridge
