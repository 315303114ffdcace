import MediaBridge.Proofs.Buffer.Operations

/-! # What an operation changes

An operation works through at most one handle and is about at most one buffer, and all others it leaves
alone.  `Works` says that of work after which everybody refers to the buffer that he referred to before,
and every function of a store comes to such work once.  `Effect` lists what an operation can come to
besides: something new is made, somebody is given access, or somebody lets go.  This is the only place
where the operations are gone through for what they change; the rest is read off from `Effect`.

* `effect_perform`        what an operation comes to;
* `handle_perform`        it leaves the handles alone through which it is not done;
* `get?_buffers_perform`  and the buffers that it is not about;
* `target_cases`          where a handle can have its buffer from;
* `references_cases`      and where a reference can.
-/

namespace MediaBridge.Store

/-! ## What an operation is about -/

/-- The buffer that an operation is about, if it was there before. -/
def Op.subject? (s : Store) : Op → Option BufferId
  | .own r | .borrow r | .dropReference r => s.references.get? r
  | op => op.through.bind fun h => (s.handle h).target.map (·.buffer)

/-- Whether an operation gives somebody else access to the buffer that it is about. -/
def Op.Shares : Op → Prop
  | .view _ | .reference _ | .own _ | .borrow _ => True
  | _ => False

/-- What is done through a handle is about the buffer of that handle. -/
theorem Op.subject?_of_through {s : Store} {op : Op} {h : HandleId} (hop : op.through = some h) :
    op.subject? s = (s.handle h).target.map (·.buffer) := by
  cases op with
  | newFrame | newReference | newPool | acquire | dropPool | own | borrow | dropReference => cases hop
  | _ =>
    cases hop
    rfl

section

variable {s s' s'' : Store} {h g : HandleId} {b : BufferId}

/-- A live handle refers to its buffer. -/
theorem subject_of_live? (hl : s.live? h = some b) :
    (s.handle h).target.map (·.buffer) = some b := by
  obtain ⟨⟨owning, ht⟩, -⟩ := live?_eq_some_iff.1 hl
  rw [ht, Option.map_some]

/-- A buffer that the handle does not refer to is another one. -/
theorem subject_ne (hb : ∀ t, (s.handle h).target = some t → b ≠ t.buffer) :
    (s.handle h).target.map (·.buffer) ≠ some b := by
  intro hsubject
  obtain ⟨t, ht, hbuffer⟩ := Option.map_eq_some_iff.1 hsubject
  exact hb t ht hbuffer.symm

/-! ## Work that nobody else notices -/

/-- Of all that is there, only the handle and the buffer may have changed, and everybody refers to what
    he referred to before.  Work that is about no buffer may be done to pools instead. -/
structure Works (h? : Option HandleId) (b? : Option BufferId) (s s' : Store) : Prop where
  handle : ∀ g, h? ≠ some g → s'.handle g = s.handle g
  target : ∀ g, (s'.handle g).target = (s.handle g).target
  buffer : ∀ b, b? ≠ some b → s'.buffers.get? b = s.buffers.get? b
  handles : s'.handles.next = s.handles.next
  buffers : s'.buffers.next = s.buffers.next
  references : s'.references = s.references
  pools : ∀ b, b? = some b → s'.pools = s.pools

namespace Works

variable {h? : Option HandleId} {b? : Option BufferId}

/-- Doing nothing is such work. -/
theorem refl (h? : Option HandleId) (b? : Option BufferId) (s : Store) : Works h? b? s s :=
  ⟨fun _ _ => rfl, fun _ => rfl, fun _ _ => rfl, rfl, rfl, rfl, fun _ _ => rfl⟩

/-- Work on the same handle and the same buffer goes on. -/
theorem trans (hs : Works h? b? s s') (hs' : Works h? b? s' s'') : Works h? b? s s'' where
  handle := fun g hg => (hs'.handle g hg).trans (hs.handle g hg)
  target := fun g => (hs'.target g).trans (hs.target g)
  buffer := fun b hb => (hs'.buffer b hb).trans (hs.buffer b hb)
  handles := hs'.handles.trans hs.handles
  buffers := hs'.buffers.trans hs.buffers
  references := hs'.references.trans hs.references
  pools := fun b hb => (hs'.pools b hb).trans (hs.pools b hb)

/-- The buffer was changed in place. -/
theorem update (h? : Option HandleId) (s : Store) (b : BufferId) (f : Buffer → Buffer) :
    Works h? (some b) s { s with buffers := s.buffers.update b f } where
  handle := fun _ _ => rfl
  target := fun _ => rfl
  buffer := fun _ hb => (Table.get?_update ..).trans (if_neg fun heq => hb (congrArg some heq.symm))
  handles := rfl
  buffers := rfl
  references := rfl
  pools := fun _ _ => rfl

/-- The handle was changed, and refers to what it referred to. -/
theorem updateHandle (b? : Option BufferId) {f : Handle → Handle}
    (hf : ∀ x, s.handles.get? h = some x → (f x).target = x.target) :
    Works (some h) b? s { s with handles := s.handles.update h f } where
  handle := by
    intro g hg
    have hne : g ≠ h := fun heq => hg (congrArg some heq.symm)
    simp only [Store.handle, Table.get?_update, if_neg hne]
  target := by
    intro g
    simp only [Store.handle, Table.get?_update]
    split
    · rename_i heq
      rw [heq]
      cases hx : s.handles.get? h with
      | none => rfl
      | some x => exact hf x hx
    · rfl
  buffer := fun _ _ => rfl
  handles := rfl
  buffers := rfl
  references := rfl
  pools := fun _ _ => rfl

/-- The buffer was removed, if nobody needed it any more. -/
theorem sweep (h? : Option HandleId) (s : Store) (b : BufferId) :
    Works h? (some b) s (s.sweep b) where
  handle := fun _ _ => by rw [Store.handle, handles_sweep, Store.handle]
  target := fun _ => by rw [Store.handle, handles_sweep, Store.handle]
  buffer := fun b' hb => get?_buffers_sweep_of_ne s fun heq => hb (congrArg some heq.symm)
  handles := congrArg Table.next (handles_sweep ..)
  buffers := next_buffers_sweep ..
  references := references_sweep ..
  pools := fun _ _ => pools_sweep ..

/-- Pools are no concern of handles and buffers. -/
theorem pooled (h? : Option HandleId) (s : Store) (pools : Table Pool) :
    Works h? none s { s with pools } where
  handle := fun _ _ => rfl
  target := fun _ => rfl
  buffer := fun _ _ => rfl
  handles := rfl
  buffers := rfl
  references := rfl
  pools := nofun

end Works

/-! ## Work through a handle -/

/-- Giving a mapping up is work on the handle and its buffer. -/
theorem works_unmap (s : Store) (h : HandleId) :
    Works (some h) ((s.handle h).target.map (·.buffer)) s (s.unmap h) := by
  simp only [unmap]
  split
  · exact .refl _ _ s
  · rename_i t ht
    split
    · exact .refl _ _ s
    · have hb : (s.handle h).target.map (·.buffer) = some t.buffer := by rw [ht, Option.map_some]
      rw [hb]
      have hunmapped : Works (some h) (some t.buffer) s { s with
          handles := s.handles.set h { s.handle h with mapping := .unmapped } } := by
        refine .updateHandle _ fun x hx => ?_
        rw [handle, hx]
        rfl
      have hleft := hunmapped.trans (.update _ _ t.buffer fun x =>
        { x with lock := x.lock.leave (s.handle h).mapping })
      exact hleft.trans (.sweep ..)

/-- Taking a mapping is work through the handle on its buffer. -/
theorem works_mapped (s : Store) (h : HandleId) (b : BufferId) (m : Mapping) (l : Lock) :
    Works (some h) (some b) s (s.mapped h b m l) := by
  have hmapped : Works (some h) (some b) s
      { s with handles := s.handles.update h fun x => { x with mapping := m } } :=
    .updateHandle _ fun _ _ => rfl
  exact hmapped.trans (.update _ _ b _)

/-- So is reading through it, -/
theorem works_mapRead (s : Store) (h : HandleId) :
    Works (some h) ((s.handle h).target.map (·.buffer)) s (s.mapRead h).2 := by
  unfold mapRead
  split
  · cases hl : s.live? h with
    | none => exact .refl _ _ s
    | some b =>
      rw [subject_of_live? hl]
      simp only
      cases (s.lock b).tryRead with
      | none => exact .refl _ _ s
      | some l => exact s.works_mapped h b .readable l
  · exact .refl _ _ s

/-- mapping it writable, -/
theorem works_mapWrite (s : Store) (h : HandleId) :
    Works (some h) ((s.handle h).target.map (·.buffer)) s (s.mapWrite h).2 := by
  have hunmapped := s.works_unmap h
  unfold mapWrite
  split
  · exact .refl _ _ s
  · simp only
    cases hl : (s.unmap h).live? h with
    | none => exact hunmapped
    | some b =>
      simp only
      cases ((s.unmap h).lock b).tryWrite with
      | none => exact hunmapped
      | some l =>
        refine hunmapped.trans ?_
        rw [← hunmapped.target h, subject_of_live? hl]
        exact works_mapped _ h b .writable l

/-- overwriting its bytes, -/
theorem works_write (s : Store) (h : HandleId) (start : Nat) (new : ByteArray) :
    Works (some h) ((s.handle h).target.map (·.buffer)) s (s.write h start new).2 := by
  have hmapped := s.works_mapWrite h
  unfold write
  cases hw : s.mapWrite h with
  | mk result s₁ =>
    rw [hw] at hmapped
    cases result with
    | error e => exact hmapped
    | ok old =>
      simp only
      split
      · exact hmapped
      · rename_i t ht
        refine hmapped.trans ?_
        rw [← hmapped.target h, ht]
        exact .update _ s₁ t.buffer _

/-- and changing its info. -/
theorem works_updateInfo {f : FrameInfo → FrameInfo} (hu : s.updateInfo h f = .ok s') :
    Works (some h) ((s.handle h).target.map (·.buffer)) s s' := by
  unfold updateInfo at hu
  cases hl : s.live? h with
  | none =>
    rw [hl] at hu
    cases hu
  | some b =>
    rw [hl] at hu
    cases hu
    rw [subject_of_live? hl]
    exact .update _ s b _

/-- A copy is made after some work, or not at all. -/
theorem works_deepCopy (s : Store) (h : HandleId) :
    Works (some h) ((s.handle h).target.map (·.buffer)) s (s.deepCopy h).2 ∨
      ∃ u x, Works (some h) ((s.handle h).target.map (·.buffer)) s u ∧
        (s.deepCopy h).2 = (u.newBuffer x).2 := by
  have hread := s.works_mapRead h
  unfold deepCopy
  split
  · exact .inl (.refl _ _ s)
  · simp only
    cases hm : s.mapRead h with
    | mk result s₁ =>
      rw [hm] at hread
      cases result with
      | error e => exact .inl hread
      | ok bytes =>
        simp only
        split
        · refine .inr ⟨_, _, hread.trans ?_, rfl⟩
          rw [← hread.target h]
          exact s₁.works_unmap h
        · exact .inr ⟨_, _, hread, rfl⟩

/-! ## Letting go -/

/-- A handle has lost its buffer, which may have lost an owner with it. -/
structure Forgets (h : HandleId) (s s' : Store) : Prop where
  handle : ∀ g, g ≠ h → s'.handle g = s.handle g
  target : (s'.handle h).target = none
  buffer : ∀ b, (s.handle h).target.map (·.buffer) ≠ some b →
    s'.buffers.get? b = s.buffers.get? b
  references : s'.references = s.references
  /-- A handle that owns nothing gives nothing back. -/
  pools : (s.handle h).owns = false → s'.pools = s.pools

/-- A release forgets. -/
theorem forgets_release (s : Store) (h : HandleId) : Forgets h s (s.release h) where
  handle := fun g hg => s.handle_release_of_ne hg
  target := s.target_release_self h
  buffer := by
    intro b hb
    refine s.get?_buffers_drop_of_ne fun t ht heq => hb ?_
    rw [ht, heq, Option.map_some]
  references := by
    have hunmapped := (s.works_unmap h).references
    simp only [release]
    split
    · exact hunmapped
    · split
      · exact (references_disown ..).trans hunmapped
      · exact hunmapped
  pools := by
    intro howns
    have hunmapped := s.works_unmap h
    simp only [release]
    cases ht : (s.handle h).target with
    | none => simp only [hunmapped.target, ht]; simp [unmap, ht]
    | some t =>
      rw [Handle.owns, ht, Option.any_some] at howns
      simp only [hunmapped.target, ht, howns, Bool.false_eq_true, if_false]
      exact hunmapped.pools t.buffer (by rw [ht, Option.map_some])

/-- Dropping a handle forgets the handle as well. -/
theorem forgets_drop (s : Store) (h : HandleId) : Forgets h s (s.drop h) where
  handle := fun g hg => s.handle_drop_of_ne hg
  target := by rw [drop, handle, Table.get?_erase, if_pos rfl]; rfl
  buffer := (s.forgets_release h).buffer
  references := (s.forgets_release h).references
  pools := (s.forgets_release h).pools

/-! ## Any operation -/

/-- What an operation comes to. -/
inductive Effect (op : Op) (s : Store) : Store → Prop where
  -- It fails, or works on its buffer.
  | works {s' : Store} (hs : Works op.through (op.subject? s) s s') : Effect op s s'
  -- There is a new buffer, with a handle that owns it.
  | makes {u : Store} (hs : Works op.through (op.subject? s) s u) (x : Buffer) :
    Effect op s (u.newBuffer x).2
  | makesReference (bytes : ByteArray) : Effect op s (s.newReference bytes).2
  -- Another handle has the buffer.
  | shares {u : Store} {b : BufferId} (hs : Works op.through (op.subject? s) s u)
    (hop : op.Shares) (hb : op.subject? s = some b) (owning : Bool) :
    Effect op s (u.addHandle { target := some ⟨b, owning⟩ }).2
  -- A reference owns it.
  | refers {u : Store} {b : BufferId} (hs : Works op.through (op.subject? s) s u)
    (hop : op.Shares) (hb : op.subject? s = some b) :
    Effect op s { u with references := (u.references.add b).2 }
  -- The handle has lost it.
  | forgets {h : HandleId} {s' : Store} (hop : op = .release h ∨ op = .drop h)
    (hs : Forgets h s s') : Effect op s s'
  -- The reference has lost it.
  | dropsReference {r : ReferenceId} {b : BufferId} (hop : op = .dropReference r)
    (hr : s.references.get? r = some b) :
    Effect op s ({ s with references := s.references.erase r }.disown b)

/-- What an operation comes to. -/
theorem effect_perform (s : Store) (op : Op) : Effect op s (s.perform op) := by
  cases op with
  | newFrame bytes => exact .makes (.refl _ _ s) _
  | newReference bytes => exact .makesReference bytes
  | newPool | dropPool => exact .works (.pooled _ s _)
  | acquire p =>
    rw [perform, acquire]
    cases (s.pools.get? p).bind Pool.take? with
    | none => exact .works (.refl _ _ s)
    | some taken => exact .makes (.pooled _ s _) _
  | view h =>
    rw [perform, view]
    cases hl : s.live? h with
    | none => exact .works (.refl _ _ s)
    | some b =>
      have hop : Op.Shares (.view h) := trivial
      exact .shares (.refl _ _ s) hop (subject_of_live? hl) false
  | reference h =>
    rw [perform, reference]
    cases hl : s.live? h with
    | none => exact .works (.refl _ _ s)
    | some b =>
      have hop : Op.Shares (.reference h) := trivial
      have hb : Op.subject? s (.reference h) = some b := subject_of_live? hl
      refine .refers (u := s.adopt b) ?_ hop hb
      rw [hb]
      exact .update _ s b _
  | own r =>
    rw [perform]
    cases hr : s.references.get? r with
    | none => exact .works (.refl _ _ s)
    | some b =>
      have hop : Op.Shares (.own r) := trivial
      have hb : Op.subject? s (.own r) = some b := hr
      refine .shares (u := s.adopt b) ?_ hop hb true
      rw [hb]
      exact .update _ s b _
  | borrow r =>
    rw [perform]
    cases hr : s.references.get? r with
    | none => exact .works (.refl _ _ s)
    | some b =>
      have hop : Op.Shares (.borrow r) := trivial
      exact .shares (.refl _ _ s) hop hr false
  | dropReference r =>
    rw [perform, dropReference]
    cases hr : s.references.get? r with
    | none => exact .works (.refl _ _ s)
    | some b => exact .dropsReference rfl hr
  | mapRead h => exact .works (s.works_mapRead h)
  | mapWrite h => exact .works (s.works_mapWrite h)
  | write h start new => exact .works (s.works_write h start new)
  | unmap h => exact .works (s.works_unmap h)
  | size h =>
    rw [perform, snd_size]
    exact .works (s.works_mapRead h)
  | deepCopy h =>
    rw [perform]
    rcases s.works_deepCopy h with hfailed | ⟨u, x, hs, hcopied⟩
    · exact .works hfailed
    · rw [hcopied]
      refine .makes ?_ x
      exact hs
  | setTiming h t =>
    rw [perform]
    cases hu : s.setTiming h t with
    | error e => exact .works (.refl _ _ s)
    | ok s' => exact .works (works_updateInfo hu)
  | setId h id =>
    rw [perform]
    cases hu : s.setId h id with
    | error e => exact .works (.refl _ _ s)
    | ok s' => exact .works (works_updateInfo hu)
  | release h => exact .forgets (.inl rfl) (s.forgets_release h)
  | drop h => exact .forgets (.inr rfl) (s.forgets_drop h)

/-! ## Who is left alone -/

/-- A new handle leaves the others as they are. -/
theorem handle_addHandle_of_ne (s : Store) {g : HandleId} (hne : g ≠ s.handles.next) (x : Handle) :
    (s.addHandle x).2.handle g = s.handle g := by
  simp only [addHandle, handle, Table.get?_add, if_neg hne]

/-- An operation leaves every handle alone but the one through which it is done. -/
theorem handle_perform (s : Store) {op : Op} {g : HandleId} (hne : op.through ≠ some g)
    (hlt : g < s.handles.next) : (s.perform op).handle g = s.handle g := by
  -- what is made on the way gets a handle that was not there before
  have hnew : ∀ {u : Store}, Works op.through (op.subject? s) s u → g ≠ u.handles.next :=
    fun hs => hs.handles ▸ Nat.ne_of_lt hlt
  have heffect := s.effect_perform op
  generalize s.perform op = s' at heffect
  cases heffect with
  | works hs => exact hs.handle g hne
  | makes hs x => exact (handle_newBuffer_of_ne _ x (hnew hs)).trans (hs.handle g hne)
  | makesReference => rfl
  | shares hs => exact (handle_addHandle_of_ne _ (hnew hs) _).trans (hs.handle g hne)
  | refers hs => exact hs.handle g hne
  | @forgets h _ hop hs =>
    refine hs.handle g fun heq => hne ?_
    rcases hop with rfl | rfl <;> exact congrArg some heq.symm
  | dropsReference => simp only [handle, handles_disown]

/-- An operation changes no buffer but the one that it is about. -/
theorem get?_buffers_perform {op : Op} (hlt : b < s.buffers.next) (hb : op.subject? s ≠ some b) :
    (s.perform op).buffers.get? b = s.buffers.get? b := by
  have heffect := s.effect_perform op
  generalize s.perform op = s' at heffect
  cases heffect with
  | works hs => exact hs.buffer b hb
  | makes hs =>
    have hne : b ≠ _ := hs.buffers ▸ Nat.ne_of_lt hlt
    exact ((Table.get?_add ..).trans (if_neg hne)).trans (hs.buffer b hb)
  | makesReference => exact (Table.get?_add ..).trans (if_neg (Nat.ne_of_lt hlt))
  | shares hs => exact hs.buffer b hb
  | refers hs => exact hs.buffer b hb
  | forgets hop hs =>
    refine hs.buffer b fun heq => hb ?_
    rcases hop with rfl | rfl <;> exact heq
  | dropsReference hop hr =>
    subst hop
    exact get?_buffers_disown_of_ne _ fun heq => hb (heq ▸ hr)

/-- What is overwritten through a handle is the buffer that it refers to. -/
theorem get?_buffers_write (hb : ∀ t, (s.handle h).target = some t → b ≠ t.buffer) (start : Nat)
    (new : ByteArray) : (s.write h start new).2.buffers.get? b = s.buffers.get? b :=
  (s.works_write h start new).buffer b (subject_ne hb)

/-- The info that is changed through a handle is that of its buffer. -/
theorem get?_buffers_updateInfo {f : FrameInfo → FrameInfo} (hu : s.updateInfo h f = .ok s')
    (hb : ∀ t, (s.handle h).target = some t → b ≠ t.buffer) :
    s'.buffers.get? b = s.buffers.get? b :=
  (works_updateInfo hu).buffer b (subject_ne hb)

/-! ## Where handles and references come from -/

/-- A new buffer comes with a new handle, and no other handle refers to it. -/
theorem target_newBuffer (s : Store) (x : Buffer) (g : HandleId) :
    ((s.newBuffer x).2.handle g).target =
      if g = s.handles.next then some ⟨s.buffers.next, true⟩ else (s.handle g).target := by
  simp only [newBuffer, addHandle, handle, Table.get?_add]
  split <;> rfl

/-- A handle that refers to a buffer did so before, or it is new and its buffer is new, or it was made
    to share the buffer. -/
theorem target_cases {op : Op} {g : HandleId} {t : Target}
    (ht : ((s.perform op).handle g).target = some t) :
    (s.handle g).target = some t ∨ (g = s.handles.next ∧
      (t.buffer = s.buffers.next ∨ (op.Shares ∧ op.subject? s = some t.buffer))) := by
  have heffect := s.effect_perform op
  generalize s.perform op = s' at heffect ht
  cases heffect with
  | works hs => exact .inl ((hs.target g).symm.trans ht)
  | makes hs =>
    rw [target_newBuffer, hs.handles, hs.buffers, hs.target] at ht
    split at ht
    · rename_i hg
      cases ht
      exact .inr ⟨hg, .inl rfl⟩
    · exact .inl ht
  | makesReference => exact .inl ht
  | shares hs hop hb =>
    simp only [addHandle, handle, Table.get?_add, hs.handles] at ht
    split at ht
    · rename_i hg
      cases ht
      exact .inr ⟨hg, .inr ⟨hop, hb⟩⟩
    · exact .inl ((hs.target g).symm.trans ht)
  | refers hs => exact .inl ((hs.target g).symm.trans ht)
  | @forgets h _ _ hs =>
    by_cases hg : g = h
    · rw [hg, hs.target] at ht
      cases ht
    · exact .inl ((congrArg Handle.target (hs.handle g hg)).symm.trans ht)
  | dropsReference =>
    simp only [handle, handles_disown] at ht
    exact .inl ht

/-- A reference that owns a buffer did so before, or its buffer is new, or it was made to share it. -/
theorem references_cases {op : Op} {r : ReferenceId}
    (hr : (s.perform op).references.get? r = some b) :
    s.references.get? r = some b ∨ b = s.buffers.next ∨ (op.Shares ∧ op.subject? s = some b) := by
  have heffect := s.effect_perform op
  generalize s.perform op = s' at heffect hr
  cases heffect with
  | works hs => exact .inl (hs.references ▸ hr)
  | makes hs => exact .inl (hs.references ▸ hr)
  | makesReference =>
    have hadded := (Table.get?_add s.references s.buffers.next r).symm.trans hr
    split at hadded
    · cases hadded
      exact .inr (.inl rfl)
    · exact .inl hadded
  | shares hs => exact .inl (hs.references ▸ hr)
  | refers hs hop hb =>
    simp only [Table.get?_add, hs.references] at hr
    split at hr
    · cases hr
      exact .inr (.inr ⟨hop, hb⟩)
    · exact .inl hr
  | forgets _ hs => exact .inl (hs.references ▸ hr)
  | dropsReference =>
    simp only [references_disown, Table.get?_erase] at hr
    split at hr
    · cases hr
    · exact .inl hr

/-- A handle keeps its buffer until it is released or dropped. -/
theorem target_perform (op : Op) {g : HandleId} (hlt : g < s.handles.next)
    (hreleased : op ≠ .release g) (hdropped : op ≠ .drop g) :
    ((s.perform op).handle g).target = (s.handle g).target := by
  have hnew : ∀ {u : Store}, Works op.through (op.subject? s) s u → g ≠ u.handles.next :=
    fun hs => hs.handles ▸ Nat.ne_of_lt hlt
  have heffect := s.effect_perform op
  generalize s.perform op = s' at heffect
  cases heffect with
  | works hs => exact hs.target g
  | makes hs => rw [target_newBuffer, if_neg (hnew hs), hs.target]
  | makesReference => rfl
  | shares hs => rw [handle_addHandle_of_ne _ (hnew hs), hs.target]
  | refers hs => exact hs.target g
  | @forgets h _ hop hs =>
    have hne : g ≠ h := by
      rintro rfl
      exact hop.elim hreleased hdropped
    exact congrArg Handle.target (hs.handle g hne)
  | dropsReference => simp only [handle, handles_disown]

end

end MediaBridge.Store
