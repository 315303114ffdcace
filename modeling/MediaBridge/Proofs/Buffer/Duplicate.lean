import MediaBridge.Proofs.Buffer.Footprint
import MediaBridge.Proofs.Buffer.Places
import MediaBridge.Proofs.Buffer.Sound

/-! # A copy and its original

A handle that maps nothing is mapped for as long as it takes to copy the bytes, and then it gives the
mapping back.  So a copy changes nothing but that there is one more buffer, with one more handle; and if
it fails, nothing changes at all.

From then on the two buffers have nothing in common: whatever is done to the one leaves the other alone,
with all the handles that have it, and the copy was never lent by a pool.

* `unmap_mapped`         a mapping taken and given back leaves the store as it was;
* `copies_deepCopy`      the three ways in which a copy can go;
* `Orderly.copied_iff`   when it succeeds;
* `unaffected_perform`   what is done to one buffer leaves the others alone;
* `pools_perform`        and what is done to one that no pool lent leaves the pools alone;
* `deepCopy_of_ops`      a copy in any store, and whatever comes after it.
-/

namespace MediaBridge

namespace Table

variable {α : Type u}

/-- Changing a value twice in place is changing it once. -/
theorem update_update (t : Table α) (k : Nat) (f g : α → α) :
    (t.update k f).update k g = t.update k fun v => g (f v) := by
  have hcells : ((t.update k f).update k g).cells = (t.update k fun v => g (f v)).cells := by
    simp only [update, List.map_map]
    refine List.map_congr_left fun c _ => ?_
    by_cases heq : c.1 = k
    · simp only [Function.comp_apply, heq, if_true]
    · simp only [Function.comp_apply, heq, if_false]
  unfold update at hcells ⊢
  simp only [Table.mk.injEq, true_and]
  exact hcells

/-- A value that is put back leaves the table as it was. -/
theorem update_eq_self {t : Table α} {k : Nat} {f : α → α} (h : ∀ v, t.get? k = some v → f v = v) :
    t.update k f = t := by
  have hcells : (t.update k f).cells = t.cells := by
    refine (List.map_congr_left fun c hc => ?_).trans (List.map_id _)
    split
    · rename_i heq
      rw [h c.2 (heq ▸ get?_of_mem hc)]
      rfl
    · rfl
  cases t
  simp only [update, Table.mk.injEq, true_and] at hcells ⊢
  exact hcells

end Table

namespace Store

section

variable {s s' : Store} {h : HandleId} {b : BufferId}

/-! ## Mapping for a moment -/

/-- A handle that takes a mapping and gives it back leaves the store as it was. -/
theorem unmap_mapped {l : Lock} (hu : (s.handle h).mapping = .unmapped) (hl : s.live? h = some b)
    (hr : (s.lock b).tryRead = some l) : (s.mapped h b .readable l).unmap h = s := by
  obtain ⟨⟨owning, ht⟩, halive⟩ := live?_eq_some_iff.1 hl
  obtain ⟨n, hlock, rfl⟩ := Lock.tryRead_eq_some_iff.1 hr
  have hhandle := handle_mapped_self (b := b) ht .readable (.readers (n + 1))
  have hhandles : ((s.mapped h b .readable (.readers (n + 1))).handles.set h
      { target := some ⟨b, owning⟩, mapping := .unmapped }) = s.handles := by
    rw [Store.mapped, Table.set, Table.update_update]
    refine Table.update_eq_self fun x hx => ?_
    have hsame : s.handle h = x := by rw [Store.handle, hx]; rfl
    rw [hsame] at hu ht
    rw [← hu, ← ht]
  have hbuffers : ((s.mapped h b .readable (.readers (n + 1))).buffers.update b
      fun y => { y with lock := y.lock.leave .readable }) = s.buffers := by
    rw [Store.mapped, Table.update_update]
    refine Table.update_eq_self fun x hx => ?_
    have hsame : s.lock b = x.lock := by rw [Store.lock, hx]; rfl
    rw [hsame] at hlock
    -- the one reader more is the handle itself
    show { x with lock := .readers (n + 1 - 1) } = x
    rw [Nat.add_sub_cancel, ← hlock]
  simp only [Store.unmap, hhandle, reduceCtorEq, if_false, hhandles, hbuffers]
  -- the buffer has an owner, so it stays
  obtain ⟨x, hx, hpos⟩ : ∃ x, s.buffers.get? b = some x ∧ 0 < x.owners := by
    rw [isAlive] at halive
    cases hx : s.buffers.get? b with
    | none =>
      rw [hx] at halive
      cases halive
    | some x =>
      rw [hx] at halive
      exact ⟨x, rfl, of_decide_eq_true halive⟩
  have hne : x.owners ≠ 0 := Nat.ne_of_gt hpos
  simp only [Store.sweep, Store.mapped, hx, hne, false_and, if_false]

/-- How a copy goes. -/
inductive Copies (s : Store) (h : HandleId) : Except Error HandleId × Store → Prop where
  -- The handle refers to nothing, or to a buffer that has no owner.
  | gone (hl : s.live? h = none) : s.Copies h (.error .bufferReleased, s)
  -- Somebody else maps the buffer writable.
  | locked {b : BufferId} (hl : s.live? h = some b) (hu : (s.handle h).mapping = .unmapped)
    (hlock : s.lock b = .writer) : s.Copies h (.error (.map .read .heldWritable), s)
  -- There is a new buffer.
  | made {b : BufferId} (hl : s.live? h = some b)
    (hread : (s.handle h).mapping ≠ .unmapped ∨ s.lock b ≠ .writer) :
    s.Copies h (.ok s.handles.next,
      (s.newBuffer { bytes := s.bytes b, info := s.infoOf b }).2)

/-- A copy goes in one of these three ways. -/
theorem copies_deepCopy (s : Store) (h : HandleId) : s.Copies h (s.deepCopy h) := by
  cases hl : s.live? h with
  | none =>
    have hcopy : s.deepCopy h = (.error .bufferReleased, s) := by
      simp only [Store.deepCopy, Store.info, hl]
    rw [hcopy]
    exact .gone hl
  | some b =>
    by_cases hu : (s.handle h).mapping = .unmapped
    · cases hr : (s.lock b).tryRead with
      | none =>
        have hlock := Lock.tryRead_eq_none_iff.1 hr
        rw [deepCopy_of_locked hu hl hlock]
        exact .locked hl hu hlock
      | some l =>
        have hcopy : s.deepCopy h =
            (.ok s.handles.next, (s.newBuffer { bytes := s.bytes b, info := s.infoOf b }).2) := by
          simp only [Store.deepCopy, Store.info, hl, mapRead_of_tryRead hu hl hr, hu, if_true,
            unmap_mapped hu hl hr, fst_newBuffer]
        rw [hcopy]
        refine .made hl (.inr fun hlock => ?_)
        rw [Lock.tryRead_eq_none_iff.2 hlock] at hr
        cases hr
    · obtain ⟨⟨owning, ht⟩, -⟩ := live?_eq_some_iff.1 hl
      have hcopy : s.deepCopy h =
          (.ok s.handles.next, (s.newBuffer { bytes := s.bytes b, info := s.infoOf b }).2) := by
        simp only [Store.deepCopy, Store.info, hl, Store.mapRead, Store.mappedBytes, ht, hu, if_false,
          fst_newBuffer]
      rw [hcopy]
      exact .made hl (.inl hu)

/-- A copy succeeds if the buffer has an owner, and the handle maps it already or nobody else maps it
    writable. -/
theorem Orderly.copied_iff (hs : s.Orderly) : (∃ c, (s.deepCopy h).1 = .ok c) ↔
    ∃ t, (s.handle h).target = some t ∧ s.isAlive t.buffer ∧
      ((s.handle h).mapping ≠ .unmapped ∨
        ∀ g, g ≠ h → ¬(s.handle g).Maps t.buffer .writable) := by
  rw [← exists_live?_iff (p := fun b => (s.handle h).mapping ≠ .unmapped ∨
    ∀ g, g ≠ h → ¬(s.handle g).Maps b .writable)]
  have hcopies := s.copies_deepCopy h
  generalize s.deepCopy h = copied at hcopies
  cases hcopies with
  | gone hl =>
    refine iff_of_false ?_ ?_
    · rintro ⟨c, hok⟩
      cases hok
    · rintro ⟨b, hl', -⟩
      cases hl.symm.trans hl'
  | @locked b hl hu hlock =>
    refine iff_of_false ?_ ?_
    · rintro ⟨c, hok⟩
      cases hok
    · rintro ⟨b', hl', hmapped | hnone⟩
      · exact hmapped hu
      · cases hl.symm.trans hl'
        -- the writer is somebody else, since this handle maps nothing
        refine hs.ne_writer_iff.2 (fun g hmaps => ?_) hlock
        by_cases heq : g = h
        · rw [heq] at hmaps
          cases hu.symm.trans hmaps.1
        · exact hnone g heq hmaps
  | @made b hl hread =>
    refine iff_of_true ⟨_, rfl⟩ ⟨b, hl, hread.imp_right fun hlock g _ => ?_⟩
    exact hs.ne_writer_iff.1 hlock g

/-- Nothing that was there before is changed by a copy. -/
theorem deepCopy_keeps (s : Store) (h : HandleId) :
    (∀ g, g ≠ s.handles.next → (s.deepCopy h).2.handle g = s.handle g) ∧
    (∀ b, b ≠ s.buffers.next → (s.deepCopy h).2.buffers.get? b = s.buffers.get? b) ∧
    (s.deepCopy h).2.references = s.references ∧ (s.deepCopy h).2.pools = s.pools := by
  have hcopies := s.copies_deepCopy h
  generalize s.deepCopy h = copied at hcopies
  -- a copy that fails leaves the very store it found
  cases hcopies with
  | gone | locked => exact ⟨fun _ _ => rfl, fun _ _ => rfl, rfl, rfl⟩
  | made =>
    exact ⟨fun g hg => handle_newBuffer_of_ne s _ hg,
      fun b hb => (Table.get?_add ..).trans (if_neg hb), rfl, rfl⟩

/-! ## What is done to another buffer -/

/-- A buffer is as it was, and so are the handles that have it. -/
structure Unaffected (s s' : Store) (b : BufferId) : Prop where
  buffer : s'.buffers.get? b = s.buffers.get? b
  handles : ∀ g t, (s.handle g).target = some t → t.buffer = b → s'.handle g = s.handle g

/-- What is done to one buffer leaves every other one alone. -/
theorem unaffected_perform {op : Op} {b' : BufferId} (hop : op.subject? s = some b)
    (hne : b' ≠ b) (hlt : b' < s.buffers.next) : s.Unaffected (s.perform op) b' where
  buffer := by
    refine get?_buffers_perform hlt fun hsubject => hne ?_
    exact Option.some.inj (hsubject.symm.trans hop)
  handles := by
    intro g t ht hb
    refine s.handle_perform (fun hthrough => hne ?_) (lt_next_of_target ht)
    have hsubject := Op.subject?_of_through (s := s) hthrough
    rw [hop, ht, Option.map_some, hb] at hsubject
    exact (Option.some.inj hsubject).symm

/-- Changing the info of one frame leaves the buffers of others alone. -/
theorem unaffected_updateInfo {g : HandleId} {f : FrameInfo → FrameInfo} {b' : BufferId}
    (hu : s.updateInfo g f = .ok s') (hg : ∀ t, (s.handle g).target = some t → t.buffer ≠ b') :
    s.Unaffected s' b' where
  buffer := get?_buffers_updateInfo hu fun t ht heq => hg t ht heq.symm
  handles := fun g' _ _ _ => handle_updateInfo hu g'

/-- What a buffer that no pool lent leaves behind is nothing to the pools. -/
theorem pools_disown (hb : ∀ x, s.buffers.get? b = some x → x.pool = none) :
    (s.disown b).pools = s.pools := by
  unfold Store.disown
  cases hx : s.buffers.get? b with
  | none => rfl
  | some x =>
    simp only
    split
    · rw [recycle_of_none (hb x hx)]
      exact pools_sweep ..
    · rfl

/-- What is done to a buffer that no pool lent leaves the pools alone. -/
theorem pools_perform {op : Op} (howned : s.Owned) (hop : op.subject? s = some b)
    (hb : ∀ p, ¬s.lends p b) : (s.perform op).pools = s.pools := by
  -- only the loss of the last owner could reach a pool
  have hforsakes : op.Forsakes s b → (s.perform op).pools = s.pools := by
    intro hf
    have hpos : 0 < s.ownersOf b := by
      cases op with
      | release h | drop h => exact howned.pos_of_owning hf
      | dropReference r => exact howned.pos_of_referring hf
      | _ => exact hf.elim
    obtain ⟨x, hx, howners⟩ : ∃ x, s.buffers.get? b = some x ∧ 0 < x.owners := by
      rw [Store.ownersOf] at hpos
      cases hx : s.buffers.get? b with
      | none =>
        rw [hx] at hpos
        cases hpos
      | some x =>
        rw [hx] at hpos
        exact ⟨x, rfl, hpos⟩
    obtain ⟨u, l, hu, hpools, hleft, -⟩ := pools_of_forsakes hf hx howners
    refine hleft.trans ((pools_disown fun y hy => ?_).trans hpools)
    cases hu.symm.trans hy
    cases hp : x.pool with
    | none => rfl
    | some p => exact absurd (lends_iff.2 ⟨x, hx, hp, howners⟩) (hb p)
  have heffect := s.effect_perform op
  generalize s.perform op = s' at hforsakes heffect
  cases heffect with
  | works hs => exact hs.pools b hop
  | makes hs => exact hs.pools b hop
  | makesReference => rfl
  | shares hs => exact hs.pools b hop
  | refers hs => exact hs.pools b hop
  | @forgets h _ hthrough hs =>
    have hsubject : (s.handle h).target.map (·.buffer) = some b := by
      rcases hthrough with rfl | rfl <;> exact hop
    obtain ⟨⟨b', owning⟩, ht, rfl⟩ := Option.map_eq_some_iff.1 hsubject
    cases owning with
    | false => exact hs.pools (by rw [Handle.owns, ht, Option.any_some])
    | true =>
      refine hforsakes ?_
      rcases hthrough with rfl | rfl <;> exact ht
  | dropsReference hdrops hr =>
    subst hdrops
    exact hforsakes hop

/-- What no pool lent no pool comes to have lent. -/
theorem not_lends_of_change {d : Deal} (howned : s.Owned) (h : s.Change d s')
    (hlt : b < s.buffers.next) (hb : ∀ p, ¬s.lends p b) (p : PoolId) : ¬s'.lends p b := by
  -- a change lends new buffers only, and this one was there
  cases turnover_of_change howned h (p := p) with
  | idle _ _ _ hloans =>
    rw [hloans.lends]
    exact hb p
  | stocked _ _ _ hloans =>
    rw [hloans.lends]
    exact hb p
  | lent _ _ _ _ _ hlends =>
    rw [hlends, Bool.or_eq_true, beq_iff_eq]
    rintro (hold | hnew)
    · exact hb p hold
    · exact Nat.ne_of_lt hlt hnew
  | back _ _ _ hlends =>
    rw [hlends, Bool.and_eq_true]
    exact fun hold => hb p hold.1

/-- No chain of changes makes a pool lend a buffer that was there before. -/
theorem not_lends_of_attains (howned : s.Owned) (h : Attains Change s s')
    (hlt : b < s.buffers.next) (hb : ∀ p, ¬s.lends p b) (p : PoolId) : ¬s'.lends p b := by
  obtain ⟨deals, htrail⟩ := h
  have hall : s'.Owned ∧ b < s'.buffers.next ∧ ∀ p, ¬s'.lends p b := by
    induction htrail with
    | refl => exact ⟨howned, hlt, hb⟩
    | tail _ hstep ih =>
      obtain ⟨howned', hlt', hb'⟩ := ih
      exact ⟨owned_of_change howned' hstep, Nat.lt_of_lt_of_le hlt' (next_le_of_change hstep).1,
        not_lends_of_change howned' hstep hlt' hb'⟩
  exact hall.2.2 p

/-! ## The copy and its original -/

/-- Whatever is done to one buffer leaves another one alone. -/
structure Independent (s : Store) (b b' : BufferId) : Prop where
  perform : ∀ op, op.subject? s = some b → s.Unaffected (s.perform op) b'
  updateInfo : ∀ g f s', s.updateInfo g f = .ok s' →
    (s.handle g).target.map (·.buffer) = some b → s.Unaffected s' b'

/-- Two buffers that are not the same are independent. -/
theorem independent_of_ne {b' : BufferId} (hne : b' ≠ b) (hlt : b' < s.buffers.next) :
    s.Independent b b' where
  perform := fun _ hop => unaffected_perform hop hne hlt
  updateInfo := by
    intro g f s' hu hg
    refine unaffected_updateInfo hu fun t ht heq => hne ?_
    rw [ht, Option.map_some, heq] at hg
    exact Option.some.inj hg

/-- What a copy and its original are to each other. -/
structure Separate (s : Store) (h c : HandleId) (b b' : BufferId) : Prop where
  /-- The handles have these buffers, or none. -/
  original : ∀ t, (s.handle h).target = some t → t.buffer = b
  copy : ∀ t, (s.handle c).target = some t → t.buffer = b'
  /-- What is done to the one leaves the other alone. -/
  forth : s.Independent b b'
  back : s.Independent b' b
  /-- No pool lent the copy, and what is done to it is nothing to any pool. -/
  lends : ∀ p, ¬s.lends p b'
  pools : ∀ op, op.subject? s = some b' → (s.perform op).pools = s.pools
  /-- No region of memory is behind both. -/
  memory : ∀ deals, Trail Change {} deals s → ∀ r,
    ¬((Memory.after deals).Keeps s r (.buffer b) ∧ (Memory.after deals).Keeps s r (.buffer b'))

/-- Handles of two buffers are separate if no pool lent the copy. -/
theorem separate_of_ne {c : HandleId} {b' : BufferId} (howned : s.Owned) (hne : b' ≠ b)
    (hb : b < s.buffers.next) (hb' : b' < s.buffers.next)
    (horiginal : ∀ t, (s.handle h).target = some t → t.buffer = b)
    (hcopy : ∀ t, (s.handle c).target = some t → t.buffer = b') (hlends : ∀ p, ¬s.lends p b') :
    s.Separate h c b b' where
  original := horiginal
  copy := hcopy
  forth := independent_of_ne hne hb'
  back := independent_of_ne (Ne.symm hne) hb
  lends := hlends
  pools := fun _ hop => pools_perform howned hop hlends
  memory := by
    rintro deals htrail r ⟨hkeeps, hkeeps'⟩
    -- a region has one place, so both buffers would be the same
    have hsame := (Memory.shows_of_trail htrail).2.unique r _ _ hkeeps hkeeps'
    cases hsame
    exact hne rfl

/-- No buffer is unmade. -/
theorem next_buffers_performAll (s : Store) (ops : List Op) :
    s.buffers.next ≤ (s.performAll ops).buffers.next := by
  induction ops generalizing s with
  | nil => exact Nat.le_refl _
  | cons op rest ih => exact Nat.le_trans (s.kept_perform op).next (ih (s.perform op))

/-- A copy and its original are separate, and stay so. -/
theorem separate_of_copied (hplaced : s.Placed) (howned : s.Owned) (hl : s.live? h = some b)
    (hs' : s' = (s.newBuffer { bytes := s.bytes b, info := s.infoOf b }).2) (later : List Op) :
    (s'.performAll later).Separate h s.handles.next b s.buffers.next := by
  obtain ⟨⟨owning, ht⟩, -⟩ := live?_eq_some_iff.1 hl
  have hlt := hplaced.handles h _ ht
  have hlth := lt_next_of_target ht
  have hfresh : s'.Fresh s.handles.next s.buffers.next ⟨s.bytes b, s.infoOf b⟩ := by
    rw [hs']
    exact s.fresh_newBuffer ⟨s.bytes b, s.infoOf b⟩
  have howned' : s'.Owned := by
    rw [hs']
    exact howned.newBuffer rfl
  have hnext : s'.buffers.next = s.buffers.next + 1 := by rw [hs']; rfl
  have hnexth : s'.handles.next = s.handles.next + 1 := by rw [hs']; rfl
  have hhandle : s'.handle h = s.handle h := by
    rw [hs']
    exact s.handle_newBuffer_of_ne _ (Nat.ne_of_lt hlth)
  have hlends : ∀ p, ¬s'.lends p s.buffers.next := by
    intro p hlent
    obtain ⟨x, hx, hof, -⟩ := lends_iff.1 hlent
    cases hfresh.buffer.symm.trans hx
    cases hof
  have hmade : s.buffers.next < s'.buffers.next := by rw [hnext]; exact Nat.lt_succ_self _
  have hmadeh : s.handles.next < s'.handles.next := by rw [hnexth]; exact Nat.lt_succ_self _
  have hlater := Nat.lt_of_lt_of_le hmade (s'.next_buffers_performAll later)
  -- handles made later are no concern: these two keep their buffers or lose them
  refine separate_of_ne (owned_performAll howned' later) (Nat.ne_of_gt hlt)
    (Nat.lt_trans hlt hlater) hlater ?_ ?_
    (not_lends_of_attains howned' (s'.attains_performAll later) hmade hlends)
  · intro t htarget
    have hold := s'.target_performAll later (Nat.lt_trans hlth hmadeh) htarget
    rw [hhandle, ht] at hold
    cases hold
    rfl
  · intro t htarget
    have hold := s'.target_performAll later hmadeh htarget
    rw [hfresh.handle] at hold
    cases hold
    rfl

/-- A copy through any handle of any store succeeds exactly if the handle was not released, the buffer is
    alive, and the handle maps it already or no other handle maps it writable.  Whether it succeeds or
    not, every handle and every buffer is as it was, and the pools and references too; a copy that fails
    leaves nothing at all.  One that succeeds gives a handle that owns a buffer of its own and does not
    map it.  Nobody maps that buffer, no pool lent it, and it has the bytes and the info of the
    original.  Whatever is done from then on, what is done to one of the two buffers leaves the other
    one alone. -/
theorem deepCopy_of_ops (ops : List Op) (h : HandleId) :
    let s := performAll {} ops
    ((∃ c, (s.deepCopy h).1 = .ok c) ↔
      ∃ t, (s.handle h).target = some t ∧ s.isAlive t.buffer ∧
        ((s.handle h).mapping ≠ .unmapped ∨
          ∀ g, g ≠ h → ¬(s.handle g).Maps t.buffer .writable)) ∧
    ((∀ g, g ≠ s.handles.next → (s.deepCopy h).2.handle g = s.handle g) ∧
      (∀ b, b ≠ s.buffers.next → (s.deepCopy h).2.buffers.get? b = s.buffers.get? b) ∧
      (s.deepCopy h).2.references = s.references ∧ (s.deepCopy h).2.pools = s.pools) ∧
    (∀ e s', s.deepCopy h = (.error e, s') → s' = s) ∧
    ∀ c s', s.deepCopy h = (.ok c, s') → c = s.handles.next ∧
      ∃ b b', s.live? h = some b ∧ b' = s.buffers.next ∧
        s'.handle c = { target := some ⟨b', true⟩, mapping := .unmapped } ∧
        s'.buffers.get? b' = some
          { bytes := s.bytes b, info := s.infoOf b, lock := .free, owners := 1, pool := none } ∧
        ∀ later, (s'.performAll later).Separate h c b b' := by
  intro s
  have hs : s.Sound := sound_empty.performAll ops
  have hcopies := s.copies_deepCopy h
  refine ⟨hs.orderly.copied_iff, s.deepCopy_keeps h, ?_, ?_⟩
  · intro e s' heq
    rw [heq] at hcopies
    cases hcopies with
    | gone | locked => rfl
  · intro c s' heq
    rw [heq] at hcopies
    cases hcopies with
    | @made b hl _ =>
      have hfresh := s.fresh_newBuffer ⟨s.bytes b, s.infoOf b⟩
      exact ⟨rfl, b, _, hl, rfl, hfresh.handle, hfresh.buffer,
        separate_of_copied hs.placed hs.owned hl rfl⟩

/-- A buffer of a pool, which its owner maps writable and which has a view. -/
def written : Store :=
  performAll {} [.newPool 2 1, .acquire 0, .write 0 0 ⟨#[7, 8]⟩, .view 0]

/-- The owner can copy what it maps, and then the two buffers are overwritten for themselves.  The view
    cannot be copied. -/
theorem deepCopy_of_written :
    (∃ s' b', written.deepCopy 0 = (.ok 2, s') ∧ s'.bytes b' = ⟨#[7, 8]⟩ ∧
      (s'.performAll [.write 0 0 ⟨#[9]⟩, .write 2 0 ⟨#[5]⟩]).Separate 0 2 0 b') ∧
    (written.deepCopy 1).2 = written ∧ ∀ c, (written.deepCopy 1).1 ≠ .ok c := by
  obtain ⟨-, -, -, hmade⟩ := deepCopy_of_ops
    [.newPool 2 1, .acquire 0, .write 0 0 ⟨#[7, 8]⟩, .view 0] 0
  obtain ⟨hiff, -, hfailed, -⟩ := deepCopy_of_ops
    [.newPool 2 1, .acquire 0, .write 0 0 ⟨#[7, 8]⟩, .view 0] 1
  have hview : ∀ c, (written.deepCopy 1).1 ≠ .ok c := by
    intro c hok
    obtain ⟨t, ht, -, hmapped | hnone⟩ := hiff.1 ⟨c, hok⟩
    · exact hmapped rfl
    · have ht' : t = ⟨0, false⟩ := (Option.some.inj ht).symm
      rw [ht'] at hnone
      exact hnone 0 (by decide) (by decide)
  obtain ⟨s', hcopy⟩ : ∃ s', written.deepCopy 0 = (.ok 2, s') := ⟨_, rfl⟩
  obtain ⟨-, b, b', hl, -, -, hbuffer, hseparate⟩ := hmade 2 s' hcopy
  have hb : b = 0 := (Option.some.inj hl).symm
  subst hb
  have hbytes : s'.bytes b' = ⟨#[7, 8]⟩ := by
    rw [Store.bytes, hbuffer]
    rfl
  exact ⟨⟨s', b', hcopy, hbytes, hseparate _⟩, hfailed (.map .read .heldWritable) _ rfl, hview⟩

end

end Store

end MediaBridge
