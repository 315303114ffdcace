import MediaBridge.Proofs.Buffer.Sharing

/-! # What work through a handle leaves alone

Work through one handle touches that handle and its buffer, and whatever is made on the way.  A frame
with another handle and another buffer bears what it bore before.

* `only_perform`, `only_performAll`  the footprint of work through one handle;
* `Only.performAll`                  and of work that goes on through handles made on the way;
* `Bears.only`, `Held.only`          frames that such work leaves alone;
* `Held.mapRead`                     a frame that is held can be read.
-/

namespace MediaBridge.Store

/-! ## Footprints -/

/-- Of all that was there, only the handle and the buffer may have changed. -/
structure Only (g : HandleId) (b : BufferId) (s s' : Store) : Prop where
  handle : ∀ h, h < s.handles.next → h ≠ g → s'.handle h = s.handle h
  buffer : ∀ b', b' < s.buffers.next → b' ≠ b → s'.buffers.get? b' = s.buffers.get? b'
  handles : s.handles.next ≤ s'.handles.next
  buffers : s.buffers.next ≤ s'.buffers.next

section

variable {s s' s'' : Store} {g h : HandleId} {b b' : BufferId}

namespace Only

/-- Nothing that was done changed anything. -/
theorem refl (g : HandleId) (b : BufferId) (s : Store) : Only g b s s :=
  ⟨fun _ _ _ => rfl, fun _ _ _ => rfl, Nat.le_refl _, Nat.le_refl _⟩

/-- What was made on the way may change freely. -/
theorem trans_of {g' : HandleId} (hs : Only g b s s') (hs' : Only g' b' s' s'')
    (hg : g' = g ∨ s.handles.next ≤ g') (hb : b' = b ∨ s.buffers.next ≤ b') : Only g b s s'' where
  handle := by
    intro h hlt hne
    -- a handle that was there before is none of those that were made on the way
    have hne' : h ≠ g' := by
      rintro rfl
      rcases hg with rfl | hle
      · exact hne rfl
      · exact Nat.not_lt.2 hle hlt
    exact (hs'.handle h (Nat.lt_of_lt_of_le hlt hs.handles) hne').trans (hs.handle h hlt hne)
  buffer := by
    intro c hlt hne
    -- and so for buffers
    have hne' : c ≠ b' := by
      rintro rfl
      rcases hb with rfl | hle
      · exact hne rfl
      · exact Nat.not_lt.2 hle hlt
    exact (hs'.buffer c (Nat.lt_of_lt_of_le hlt hs.buffers) hne').trans (hs.buffer c hlt hne)
  handles := Nat.le_trans hs.handles hs'.handles
  buffers := Nat.le_trans hs.buffers hs'.buffers

/-- Work in two parts has the footprint of both. -/
theorem trans (hs : Only g b s s') (hs' : Only g b s' s'') : Only g b s s'' :=
  hs.trans_of hs' (.inl rfl) (.inl rfl)

end Only

/-- An operation through a handle. -/
theorem only_perform (op : Op) (hop : op.through = some g)
    (hb : ∀ t, (s.handle g).target = some t → t.buffer = b) : Only g b s (s.perform op) where
  handle := fun h hlt hne =>
    s.handle_perform (fun heq => hne (Option.some.inj (heq.symm.trans hop))) hlt
  buffer := by
    intro b' hlt hne
    refine get?_buffers_perform hlt fun hsubject => ?_
    -- the operation is about the buffer of its handle
    rw [Op.subject?_of_through hop] at hsubject
    obtain ⟨t, ht, hbuffer⟩ := Option.map_eq_some_iff.1 hsubject
    exact hne (hbuffer.symm.trans (hb t ht))
  handles := (s.retains_perform op).1
  buffers := (s.kept_perform op).next

/-- An operation that is not done through a handle, and is not about a buffer. -/
theorem only_perform_of_none (op : Op) (hop : op.through = none) (hb : op.subject? s = none) :
    Only g b s (s.perform op) where
  handle := fun _ hlt _ => s.handle_perform (fun heq => nomatch heq.symm.trans hop) hlt
  buffer := fun _ hlt _ => get?_buffers_perform hlt fun heq => nomatch heq.symm.trans hb
  handles := (s.retains_perform op).1
  buffers := (s.kept_perform op).next

/-- Work that goes on through the handle or through handles made on the way, all of the one buffer. -/
theorem Only.performAll (hs : Only g b s s') {ops : List Op}
    (hops : ∀ op ∈ ops, ∃ h, op.through = some h ∧ (h = g ∨ s.handles.next ≤ h) ∧
      h < s'.handles.next ∧ ∀ t, (s'.handle h).target = some t → t.buffer = b) :
    Only g b s (s'.performAll ops) := by
  induction ops generalizing s' with
  | nil => exact hs
  | cons op rest ih =>
    obtain ⟨h, hthrough, hh, -, ht⟩ := hops op List.mem_cons_self
    refine ih (hs.trans_of (only_perform op hthrough ht) hh (.inl rfl)) fun op' hop' => ?_
    -- the handles of later operations are there already, and keep their buffer or lose it
    obtain ⟨h', hthrough', hh', hlt', ht'⟩ := hops op' (List.mem_cons_of_mem _ hop')
    obtain ⟨hnext, htarget⟩ := s'.retains_perform op
    exact ⟨h', hthrough', hh', Nat.lt_of_lt_of_le hlt' hnext, fun t h => ht' t (htarget hlt' h)⟩

/-- Several operations through a handle. -/
theorem only_performAll {ops : List Op} (hops : ∀ op ∈ ops, op.through = some g)
    (hlt : g < s.handles.next) (hb : ∀ t, (s.handle g).target = some t → t.buffer = b) :
    Only g b s (s.performAll ops) :=
  (Only.refl g b s).performAll fun op hop => ⟨g, hops op hop, .inl rfl, hlt, hb⟩

/-- Changing the info of a frame has its footprint in that frame. -/
theorem only_updateInfo {f : FrameInfo → FrameInfo} (hu : s.updateInfo g f = .ok s')
    (hb : ∀ t, (s.handle g).target = some t → t.buffer = b) : Only g b s s' where
  handle := fun h _ _ => handle_updateInfo hu h
  buffer := fun _ _ hne => get?_buffers_updateInfo hu fun t ht heq => hne (heq.trans (hb t ht))
  handles := Nat.le_of_eq (congrArg Table.next (handles_updateInfo hu)).symm
  buffers := (kept_updateInfo hu).next

/-! ## What a frame bears -/

/-- A handle maps a buffer in some way, and the buffer has a content. -/
structure Bears (s : Store) (h : HandleId) (b : BufferId) (m : Mapping) (c : Content) : Prop where
  handle : ∃ owning, s.handle h = { target := some ⟨b, owning⟩, mapping := m }
  content : s.contentOf? b = some c

/-- A handle maps nothing, and nobody keeps it from mapping its buffer readable. -/
structure Held (s : Store) (h : HandleId) (b : BufferId) (c : Content) : Prop
    extends s.Bears h b .unmapped c where
  lock : s.lock b ≠ .writer

variable {m : Mapping} {c : Content}

/-- A buffer with a content is alive, and its bytes and its info are those of the content. -/
theorem of_contentOf? (hc : s.contentOf? b = some c) :
    s.isAlive b ∧ s.bytes b = c.bytes ∧ s.infoOf b = c.info := by
  have halive : s.isAlive b := by
    by_contra hdead
    rw [contentOf?_eq_none_iff.2 (Bool.not_eq_true _ ▸ hdead)] at hc
    cases hc
  have hcontent := contentOf?_of_isAlive halive
  cases hc.symm.trans hcontent
  exact ⟨halive, rfl, rfl⟩

namespace Bears

/-- A handle that bears a frame refers to its buffer. -/
theorem target (hs : s.Bears h b m c) : ∃ owning, (s.handle h).target = some ⟨b, owning⟩ := by
  obtain ⟨owning, heq⟩ := hs.handle
  exact ⟨owning, by rw [heq]⟩

/-- It refers to no other. -/
theorem buffer_of_target (hs : s.Bears h b m c) {t : Target} (ht : (s.handle h).target = some t) :
    t.buffer = b := by
  obtain ⟨owning, heq⟩ := hs.target
  cases ht.symm.trans heq
  rfl

/-- Its handle was made. -/
theorem lt_handles (hs : s.Bears h b m c) : h < s.handles.next := by
  obtain ⟨owning, ht⟩ := hs.target
  exact lt_next_of_target ht

/-- Its buffer was made. -/
theorem lt_buffers (hs : s.Bears h b m c) : b < s.buffers.next := by
  have hcontent := hs.content
  unfold contentOf? at hcontent
  obtain ⟨x, hx, -⟩ := Option.bind_eq_some_iff.1 hcontent
  exact Table.lt_next_of_get? hx

/-- Its buffer is alive. -/
theorem live? (hs : s.Bears h b m c) : s.live? h = some b :=
  live?_eq_some_iff.2 ⟨hs.target, (of_contentOf? hs.content).1⟩

/-- Its info is that of the content. -/
theorem info (hs : s.Bears h b m c) : s.info h = .ok c.info := by
  rw [Store.info, hs.live?]
  exact congrArg Except.ok (of_contentOf? hs.content).2.2

/-- Its content is what the handle sees. -/
theorem content? (hs : s.Bears h b m c) : s.content? h = some c := by
  obtain ⟨owning, ht⟩ := hs.target
  rw [Store.content?, ht]
  exact hs.content

/-- Work through another handle leaves a frame with another buffer alone. -/
theorem only (hs : s.Bears h b m c) (ho : Only g b' s s') (hh : h ≠ g) (hb : b ≠ b') :
    s'.Bears h b m c where
  handle := by
    rw [ho.handle h hs.lt_handles hh]
    exact hs.handle
  content := by
    have hcontent := hs.content
    unfold contentOf? at hcontent ⊢
    rwa [ho.buffer b hs.lt_buffers hb]

/-- A handle that refers to a buffer with a content bears a frame once it maps nothing. -/
theorem unmap_of_target (ht : ∃ owning, (s.handle h).target = some ⟨b, owning⟩)
    (hc : s.contentOf? b = some c) : (s.unmap h).Bears h b .unmapped c where
  handle := by
    obtain ⟨owning, ht⟩ := ht
    exact ⟨owning, handle_unmap_self ht⟩
  content := by rw [contentOf?_unmap, hc]

/-- A frame that gave its mapping up bears what it bore. -/
theorem unmap (hs : s.Bears h b m c) : (s.unmap h).Bears h b .unmapped c :=
  unmap_of_target hs.target hs.content

/-- Also after its size was taken. -/
theorem unmap_size (hs : s.Bears h b m c) : ((s.size h).2.unmap h).Bears h b .unmapped c :=
  unmap_of_target (by rw [snd_size, target_mapRead]; exact hs.target)
    (by rw [snd_size, contentOf?_mapRead]; exact hs.content)

/-- What a mapping shows is the content. -/
theorem bytes_of_mapRead (hs : s.Bears h b m c) {bytes : ByteArray}
    (hr : s.mapRead h = (.ok bytes, s')) : bytes = c.bytes := by
  have hbytes := (of_contentOf? hs.content).2.1
  unfold Store.mapRead at hr
  -- mapping for the first time and mapping again show the same bytes
  split at hr
  · simp only [hs.live?] at hr
    split at hr
    · cases hr
    · cases hr
      exact hbytes
  · obtain ⟨owning, ht⟩ := hs.target
    rw [mappedBytes, ht] at hr
    cases hr
    exact hbytes

/-- The info of a frame can be changed. -/
theorem updateInfo (hs : s.Bears h b m c) (f : FrameInfo → FrameInfo) :
    ∃ s', s.updateInfo h f = .ok s' ∧ s'.Bears h b m { c with info := f c.info } := by
  obtain ⟨halive, hbytes, hinfo⟩ := of_contentOf? hs.content
  refine ⟨s.setInfoOf b (f (s.infoOf b)), by rw [Store.updateInfo, hs.live?], hs.handle, ?_⟩
  have hcontent := hs.content
  unfold contentOf? at hcontent
  obtain ⟨x, hx, howners⟩ := Option.bind_eq_some_iff.1 hcontent
  split at howners
  · rename_i hpos
    cases howners
    rw [contentOf?, setInfoOf, Table.get?_update, if_pos rfl, hx, hinfo]
    exact if_pos hpos
  · cases howners

end Bears

/-- A fresh frame is held. -/
theorem Fresh.held (hf : s.Fresh h b c) : s.Held h b c where
  handle := ⟨true, hf.handle⟩
  content := by
    rw [contentOf?, hf.buffer]
    rfl
  lock := by
    rw [Store.lock, hf.buffer]
    rintro ⟨⟩

/-- Work through another handle leaves a fresh frame alone. -/
theorem Fresh.only (hf : s.Fresh h b c) (ho : Only g b' s s') (hh : h ≠ g) (hb : b ≠ b') :
    s'.Fresh h b c where
  handle := (ho.handle h hf.held.lt_handles hh).trans hf.handle
  buffer := (ho.buffer b hf.held.lt_buffers hb).trans hf.buffer

/-- The lock after a handle gave its mapping up. -/
theorem lock_unmap_self {t : Target} (ht : (s.handle h).target = some t)
    (hm : (s.handle h).mapping ≠ .unmapped) :
    (s.unmap h).lock t.buffer = (s.lock t.buffer).leave (s.handle h).mapping := by
  simp only [unmap, ht, if_neg hm, lock_sweep, lock_leave, if_true]

/-- A handle that was mapped keeps its buffer. -/
theorem handle_mapped_self {t : Target} (ht : (s.handle h).target = some t) (m : Mapping)
    (l : Lock) : (s.mapped h b m l).handle h = { target := some t, mapping := m } := by
  have hget := get?_handles_of_target ht
  rw [mapped, Store.handle, Table.get?_update, if_pos rfl, hget, ← ht]
  rfl

/-- A frame that could be read can be read again once its mapping was given up. -/
theorem held_of_mapRead (hs : s.Bears h b .unmapped c) {bytes : ByteArray}
    (hr : s.mapRead h = (.ok bytes, s')) : s'.Bears h b .readable c ∧ (s'.unmap h).Held h b c := by
  obtain ⟨owning, hhandle⟩ := hs.handle
  have ht : (s.handle h).target = some ⟨b, owning⟩ := by rw [hhandle]
  have hu : (s.handle h).mapping = .unmapped := by rw [hhandle]
  have halive := (of_contentOf? hs.content).1
  have hcontent := s.contentOf?_mapRead h b
  simp only [Store.mapRead, if_pos hu, hs.live?] at hr hcontent
  -- the mapping succeeded, so the lock was free or had readers
  cases hl : (s.lock b).tryRead with
  | none =>
    rw [hl] at hr
    cases hr
  | some l =>
    rw [hl] at hr hcontent
    cases hr
    obtain ⟨n, -, rfl⟩ := Lock.tryRead_eq_some_iff.1 hl
    have hmapped := handle_mapped_self (b := b) ht .readable (.readers (n + 1))
    refine ⟨⟨⟨owning, hmapped⟩, hcontent.trans hs.content⟩,
      ⟨⟨⟨owning, handle_unmap_self (by rw [hmapped])⟩, ?_⟩, ?_⟩⟩
    · rw [contentOf?_unmap]
      exact hcontent.trans hs.content
    · -- the reader that leaves is the one that came
      have hlock := lock_unmap_self (s := s.mapped h b .readable (.readers (n + 1))) (h := h)
        (t := ⟨b, owning⟩) (by rw [hmapped]) (by rw [hmapped]; rintro ⟨⟩)
      rw [hlock, lock_mapped halive, if_pos rfl, hmapped]
      rintro ⟨⟩

/-- Changing the info of a frame takes and frees no lock. -/
theorem lock_updateInfo {f : FrameInfo → FrameInfo} (hu : s.updateInfo h f = .ok s')
    (b : BufferId) : s'.lock b = s.lock b := by
  unfold updateInfo at hu
  split at hu
  · cases hu
  · cases hu
    refine lock_update ?_ b
    exact fun _ _ => rfl

namespace Held

/-- Work through another handle leaves a frame that is held alone. -/
theorem only (hs : s.Held h b c) (ho : Only g b' s s') (hh : h ≠ g) (hb : b ≠ b') :
    s'.Held h b c where
  toBears := hs.toBears.only ho hh hb
  lock := by
    have hlock := hs.lock
    unfold Store.lock at hlock ⊢
    rwa [ho.buffer b hs.lt_buffers hb]

/-- The info of a frame that is held can be changed, and it stays held. -/
theorem updateInfo (hs : s.Held h b c) (f : FrameInfo → FrameInfo) :
    ∃ s', s.updateInfo h f = .ok s' ∧ s'.Held h b { c with info := f c.info } := by
  obtain ⟨s', hu, hbears⟩ := hs.toBears.updateInfo f
  exact ⟨s', hu, hbears, by rw [lock_updateInfo hu]; exact hs.lock⟩

/-- A frame that is held is readable. -/
theorem readable (hs : s.Held h b c) : s.Readable h := ⟨b, hs.live?, hs.lock⟩

/-- A frame that is held can be read. -/
theorem mapRead (hs : s.Held h b c) : ∃ s', s.mapRead h = (.ok c.bytes, s') := by
  obtain ⟨owning, hhandle⟩ := hs.handle
  cases hr : s.mapRead h with
  | mk result s' =>
    cases result with
    | ok bytes => exact ⟨s', by rw [hs.bytes_of_mapRead hr]⟩
    -- an error would mean that somebody maps the buffer writable
    | error e =>
      obtain ⟨bytes, hok⟩ := (mapRead_ok_iff (s := s) (h := h) (by rw [hhandle])).2
        ⟨b, hs.live?, hs.lock⟩
      rw [hr] at hok
      cases hok

/-- Its size can be taken, and then it is held again once it gives the mapping up. -/
theorem size (hs : s.Held h b c) : ∃ s', s.size h = (.ok c.bytes.size, s') ∧
    s'.Bears h b .readable c ∧ (s'.unmap h).Held h b c := by
  obtain ⟨s', hr⟩ := hs.mapRead
  obtain ⟨hbears, hheld⟩ := held_of_mapRead hs.toBears hr
  exact ⟨s', by rw [Store.size, hr], hbears, hheld⟩

end Held

end

end MediaBridge.Store
