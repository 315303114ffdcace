import MediaBridge.Proofs.Buffer.Footprint
import MediaBridge.Proofs.Pipeline.Circuit

/-! # What a worker makes of a frame

A frame that can be read is held by the worker, readable, together with a pool of its size.  With a
payload from that pool it becomes a sample that bears the transformed bytes and the frame's info, and
nothing else is touched but the frame.

* `copyInto_of_bears`  a payload of the right size is filled without fail;
* `takes_of_step?`     a worker that looks for a frame takes the oldest one, to hold it or lose it;
* `fills_of_step?`      a worker that holds a frame hands on what it made of it;
* `copies_of_step?`    and that bears the frame's id, unless ids are forgotten.
-/

namespace MediaBridge

namespace Store

variable {s : Store} {input output : HandleId} {b b' : BufferId} {c : Content}

/-- A new payload of the right size can be overwritten. -/
theorem write_of_new {old : ByteArray} {p : Option PoolId} (new : ByteArray)
    (ho : s.handle output = { target := some ⟨b', true⟩ })
    (hx : s.buffers.get? b' = some { bytes := old, pool := p }) (hsize : new.size = old.size) :
    ∃ s', s.write output 0 new = (.ok new, s') ∧
      (s'.unmap output).Held output b' ⟨new, {}⟩ := by
  have ht : (s.handle output).target = some ⟨b', true⟩ := by rw [ho]
  have halive : s.isAlive b' := by rw [isAlive, hx]; rfl
  have hl : s.live? output = some b' := live?_eq_some_iff.2 ⟨⟨true, ht⟩, halive⟩
  have hunmap : s.unmap output = s := by simp only [unmap, ho, if_true]
  have hlock : s.lock b' = .free := by rw [lock, hx]; rfl
  have hbytes : s.bytes b' = old := by rw [bytes, hx]; rfl
  have hmap : s.mapWrite output = (.ok old, s.mapped output b' .writable .writer) := by
    rw [mapWrite, if_neg (by rw [ho]; rintro ⟨⟩)]
    simp only [hunmap, hl, hlock, hbytes, Lock.tryWrite]
    rfl
  have hmapped := handle_mapped_self (b := b') ht .writable .writer
  refine ⟨{ s.mapped output b' .writable .writer with
    buffers := (s.mapped output b' .writable .writer).buffers.update b' fun x =>
      { x with bytes := new } }, ?_, ?_⟩
  · simp only [write, hmap, hmapped, Bytes.patched_zero_of_size hsize]
  · have hbuffer : ((s.mapped output b' .writable .writer).buffers.update b' fun x =>
        { x with bytes := new }).get? b' = some { bytes := new, lock := .writer, pool := p } := by
      rw [Table.get?_update, if_pos rfl, mapped, Table.get?_update, if_pos rfl, hx]
      rfl
    generalize hu : ({ s.mapped output b' .writable .writer with
      buffers := (s.mapped output b' .writable .writer).buffers.update b' fun x =>
        { x with bytes := new } } : Store) = u
    have hhandle : u.handle output = { target := some ⟨b', true⟩, mapping := .writable } :=
      hu ▸ hmapped
    have hget : u.buffers.get? b' = some { bytes := new, lock := .writer, pool := p } := hu ▸ hbuffer
    refine ⟨⟨⟨true, handle_unmap_self (by rw [hhandle])⟩, ?_⟩, ?_⟩
    · rw [contentOf?_unmap, contentOf?, hget]
      rfl
    · have hleft := lock_unmap_self (s := u) (h := output) (t := ⟨b', true⟩) (by rw [hhandle])
        (by rw [hhandle]; rintro ⟨⟩)
      rw [hleft, hhandle]
      cases u.lock b' <;> rintro ⟨⟩

/-- A payload of the right size is filled without fail, and nothing else is touched but the frame that
    it is filled from. -/
theorem copyInto_of_bears {old : ByteArray} {p : Option PoolId} (o : LoopbackOptions) (f : Faults)
    (hi : s.Bears input b .readable c) (ho : s.handle output = { target := some ⟨b', true⟩ })
    (hx : s.buffers.get? b' = some { bytes := old, pool := p }) (hsize : c.bytes.size = old.size)
    (hne : input ≠ output) (hb : b ≠ b') :
    ∃ s', s.copyInto o f input output = (.ok (), s') ∧
      s'.Held output b' ⟨o.transformed c.bytes, f.attach c.info {}⟩ ∧ s'.Bears input b .unmapped c ∧
      ∀ u, Only input b u s → u.handles.next ≤ output → u.buffers.next ≤ b' → Only input b u s' := by
  have hread : s.mapRead input = (.ok c.bytes, s) := by
    obtain ⟨owning, hhandle⟩ := hi.handle
    rw [mapRead, if_neg (by rw [hhandle]; rintro ⟨⟩), mappedBytes, hhandle]
    exact congrArg (fun bytes => (Except.ok bytes, s)) (of_contentOf? hi.content).2.1
  obtain ⟨s₁, hwrite, hheld⟩ := write_of_new (o.transformed c.bytes) ho hx
    ((o.size_transformed _).trans hsize)
  have hto : ∀ t, (s.handle output).target = some t → t.buffer = b' := by
    intro t ht
    rw [ho] at ht
    cases ht
    rfl
  have hwritten : Only output b' s s₁ := by
    have honly := only_perform (.write output 0 (o.transformed c.bytes)) rfl hto
    rwa [perform, hwrite] at honly
  have ht₁ : ∀ t, (s₁.handle output).target = some t → t.buffer = b' := by
    have htarget := (s.works_write output 0 (o.transformed c.bytes)).target output
    rw [hwrite] at htarget
    intro t ht
    exact hto t (htarget.symm.trans ht)
  have hleft : Only output b' s₁ (s₁.unmap output) := only_perform (.unmap output) rfl ht₁
  have hi₂ : (s₁.unmap output).Bears input b .readable c :=
    (hi.only hwritten hne hb).only hleft hne hb
  have hunmapped : Only input b (s₁.unmap output) ((s₁.unmap output).unmap input) :=
    only_perform (.unmap input) rfl fun t ht => hi₂.buffer_of_target ht
  have hheld₃ : ((s₁.unmap output).unmap input).Held output b' ⟨o.transformed c.bytes, {}⟩ :=
    hheld.only hunmapped (Ne.symm hne) (Ne.symm hb)
  obtain ⟨s₄, hu, hheld₄⟩ := hheld₃.updateInfo (f.attach c.info)
  have hinformed := only_updateInfo hu fun t ht => hheld₃.buffer_of_target ht
  refine ⟨s₄, ?_, hheld₄, hi₂.unmap.only hinformed hne hb, fun u honly hnew hfresh => ?_⟩
  · simp only [copyInto, hi.info, hread, hwrite, hu]
  · exact (((honly.trans_of hwritten (.inr hnew) (.inr hfresh)).trans_of hleft (.inr hnew)
      (.inr hfresh)).trans hunmapped).trans_of hinformed (.inr hnew) (.inr hfresh)

/-- What a pool of a size lends is a new payload of that size, with a handle of its own. -/
theorem acquire_of_size {h : HandleId} {s' : Store} {p : PoolId} {pool : Pool} (hs : s.Sound)
    (hp : s.pools.get? p = some pool) (ha : s.acquire p = some (h, s')) :
    h = s.handles.next ∧ s'.Sound ∧ (∀ g b, Only g b s s') ∧
      s'.handle h = { target := some ⟨s.buffers.next, true⟩ } ∧
      ∃ bytes, s'.buffers.get? s.buffers.next = some { bytes, pool := some p } ∧
        bytes.size = pool.size := by
  have hperform : s.perform (.acquire p) = s' := by rw [Store.perform, ha]; rfl
  have honly : ∀ g b, Only g b s (s.perform (.acquire p)) :=
    fun g b => only_perform_of_none _ rfl rfl
  have hsound := hs.perform (.acquire p)
  rw [hperform] at honly hsound
  obtain ⟨pool', bytes, left, hp', htake, rfl, rfl⟩ := acquire_cases ha
  cases hp.symm.trans hp'
  exact ⟨rfl, hsound, honly, handle_newBuffer_self .., bytes, get?_buffers_newBuffer_self ..,
    Pool.size_of_take? ((hs.stocked p).uniform pool hp) htake⟩

end Store

namespace Worker

open Store (Only)

/-- The pool that the worker has is there. -/
def Equipped (w : Worker) (s : Store) : Prop :=
  ∀ p, w.pool = some p → ∃ pool, s.pools.get? p = some pool

/-- The worker has a pool of a size. -/
def Fitted (w : Worker) (s : Store) (size : Nat) : Prop :=
  ∃ p pool, w.pool = some p ∧ s.pools.get? p = some pool ∧ pool.size = size

variable {w : Worker} {s s' : Store} {o : LoopbackOptions} {f : Faults} {input : HandleId}
  {b : BufferId} {c : Content} {size : Nat}

/-- A pool that is left alone stays. -/
theorem Equipped.of_undisturbed (hw : w.Equipped s) (h : ∀ p, Store.Undisturbed p s s') :
    w.Equipped s' := by
  intro p hp
  obtain ⟨pool, hget⟩ := hw p hp
  obtain ⟨pool', hget', -⟩ := (h p).pool pool hget
  exact ⟨pool', hget'⟩

/-- And it keeps its size. -/
theorem Fitted.of_undisturbed (hw : w.Fitted s size) (h : ∀ p, Store.Undisturbed p s s') :
    w.Fitted s' size := by
  obtain ⟨p, pool, hp, hget, hsize⟩ := hw
  obtain ⟨pool', hget', hsize', -⟩ := (h p).pool pool hget
  exact ⟨p, pool', hp, hget', hsize'.trans hsize⟩

/-- A fitting pool is there already, or it is made. -/
theorem fitted_fitPool {g : HandleId} (hw : w.Equipped s) (hs : s.Sound) (o : LoopbackOptions)
    (size : Nat) : (w.fitPool o s size).2.Sound ∧ Only g b s (w.fitPool o s size).2 ∧
      (w.fitPool o s size).1.Fitted (w.fitPool o s size).2 size ∧
      (w.fitPool o s size).1.pulled = w.pulled ∧ (w.fitPool o s size).2.buffers = s.buffers ∧
      (w.fitPool o s size).2.handles = s.handles := by
  have hmade : Only g b s (s.perform (.newPool size o.poolCapacity)) :=
    Store.only_perform_of_none _ rfl rfl
  have hsound := hs.perform (.newPool size o.poolCapacity)
  have hnew := s.get?_pools_newPool size o.poolCapacity
  unfold fitPool
  cases hp : w.pool with
  | none => exact ⟨hsound, hmade, ⟨_, _, rfl, hnew, rfl⟩, rfl, rfl, rfl⟩
  | some old =>
    obtain ⟨pool, hget⟩ := hw old hp
    simp only
    split
    · rename_i hfits
      rw [hget, Option.any_some] at hfits
      exact ⟨hs, .refl .., ⟨old, pool, hp, hget, of_decide_eq_true hfits⟩, rfl, rfl, rfl⟩
    · refine ⟨hsound.perform (.dropPool old),
        hmade.trans (Store.only_perform_of_none (.dropPool old) rfl rfl),
        ⟨_, .new size o.poolCapacity, rfl, ?_, rfl⟩, rfl, rfl, rfl⟩
      have hne : s.pools.next ≠ old := Nat.ne_of_gt (Table.lt_next_of_get? hget)
      exact (Table.get?_erase ..).trans ((if_neg hne).trans hnew)

/-- What becomes of a frame that a worker took. -/
inductive Takes (w : Worker) (f : Faults) (input : HandleId) (b : BufferId) (c : Content) :
    Worker → Store → Prop where
  -- The frame is lost.
  | lost {s' : Store} (hdrops : f.drops (w.pulled + 1)) (hequipped : w.Equipped s') :
    w.Takes f input b c { w with pulled := w.pulled + 1 } s'
  -- The frame is held, with a pool of its size.
  | held {w' : Worker} {s' : Store} (hkept : f.drops (w.pulled + 1) = false)
    (hpulled : w'.pulled = w.pulled + 1) (hactivity : w'.activity = .holding input)
    (hbears : s'.Bears input b .readable c) (hfitted : w'.Fitted s' c.bytes.size) :
    w.Takes f input b c w' s'

/-- A worker that takes a frame holds it, unless it is lost. -/
theorem takes_take (hw : w.Equipped s) (hs : s.Sound) (hi : s.Held input b c)
    (o : LoopbackOptions) (f : Faults) :
    w.Takes f input b c (w.take o f s input).1 (w.take o f s input).2 ∧
      (w.take o f s input).2.Sound ∧ Only input b s (w.take o f s input).2 := by
  have hthrough : ∀ op : Store.Op, op.through = some input → Only input b s (s.perform op) :=
    fun op hop => Store.only_perform op hop fun t ht => hi.buffer_of_target ht
  unfold take
  simp only
  split
  · rename_i hdrops
    refine ⟨.lost hdrops ?_, hs.perform (.drop input), hthrough (.drop input) rfl⟩
    exact hw.of_undisturbed fun p =>
      Store.undisturbed_of_through hs (.drop input) rfl
  · rename_i hkept
    obtain ⟨s₁, hsize, hbears, -⟩ := hi.size
    have hsized : s.perform (.size input) = s₁ := by rw [Store.perform, hsize]
    have hs₁ := hs.perform (.size input)
    have honly₁ := hthrough (.size input) rfl
    have hw₁ := hw.of_undisturbed fun p =>
      Store.undisturbed_of_through hs (.size input) rfl
    rw [hsized] at hs₁ honly₁ hw₁
    obtain ⟨hs₂, honly₂, hfitted, hpulled, hbuffers, hhandles⟩ :=
      fitted_fitPool (w := { w with pulled := w.pulled + 1 }) (g := input) (b := b) hw₁ hs₁ o
        c.bytes.size
    simp only [hsize]
    refine ⟨.held (Bool.not_eq_true _ ▸ hkept) hpulled rfl ⟨?_, ?_⟩ ?_, hs₂, honly₁.trans honly₂⟩
    · rw [Store.handle, hhandles]
      exact hbears.handle
    · rw [Store.contentOf?, hbuffers]
      exact hbears.content
    · exact hfitted

/-- A worker that looks for a frame waits until there is one, as long as the stream is not over. -/
theorem pulls_of_step? {p : Ingest} {caps : Option Caps} {waited : Bool} {r : WorkerStep}
    (hpolling : w.activity = .polling) (hended : p.ended = false)
    (h : w.step? o f s p caps waited = some r) :
    ∃ input rest freed, p.queue = input :: rest ∧ r.item = none ∧
      r.ingest = { p with queue := rest, queuedBytes := p.queuedBytes - freed } ∧
      (r.worker, r.store) = w.take o f ((s.size input).2.unmap input) input := by
  unfold step? at h
  simp only [hpolling] at h
  split at h
  · cases h
  · cases hp : p.pull s with
    | none =>
      simp only [hp, Ingest.isDrained, hended, Bool.false_and, Bool.false_eq_true, if_false] at h
      cases h
    | some pulled =>
      obtain ⟨input, ingest, s₁⟩ := pulled
      simp only [hp] at h
      cases h
      obtain ⟨rest, hqueue, rfl, rfl⟩ := Ingest.pull_cases hp
      exact ⟨input, rest, _, hqueue, rfl, rfl, rfl⟩

/-- It takes the oldest one. -/
theorem takes_of_step? {p : Ingest} {rest : List HandleId} {caps : Option Caps} {waited : Bool}
    {r : WorkerStep} (hw : w.Equipped s) (hs : s.Sound) (hpolling : w.activity = .polling)
    (hended : p.ended = false) (hqueue : p.queue = input :: rest) (hi : s.Held input b c)
    (h : w.step? o f s p caps waited = some r) :
    (∃ freed, r.ingest = { p with queue := rest, queuedBytes := p.queuedBytes - freed }) ∧
      r.item = none ∧ w.Takes f input b c r.worker r.store ∧ r.store.Sound ∧
      Only input b s r.store := by
  obtain ⟨input', rest', freed, hqueue', hitem, hingest, htake⟩ :=
    pulls_of_step? hpolling hended h
  cases hqueue.symm.trans hqueue'
  obtain ⟨s₁, hsize, hbears, hheld⟩ := hi.size
  have hsized : s.perform (.size input) = s₁ := by rw [Store.perform, hsize]
  have hs₁ := hs.perform (.size input)
  have honly₁ : Only input b s (s.perform (.size input)) :=
    Store.only_perform _ rfl fun t ht => hi.toBears.buffer_of_target ht
  have hw₁ := hw.of_undisturbed fun q =>
    Store.undisturbed_of_through hs (.size input) rfl
  rw [hsized] at hs₁ honly₁ hw₁
  have honly₂ : Only input b s₁ (s₁.perform (.unmap input)) :=
    Store.only_perform _ rfl fun t ht => hbears.buffer_of_target ht
  have hw₂ := hw₁.of_undisturbed fun q =>
    Store.undisturbed_of_through hs₁ (.unmap input) rfl
  obtain ⟨htakes, hsound, honly₃⟩ := takes_take hw₂ (hs₁.perform (.unmap input)) hheld o f
  rw [hsize] at htake
  obtain ⟨hworker, hstore⟩ := Prod.mk.inj htake
  rw [hworker, hstore]
  exact ⟨⟨freed, hingest⟩, hitem, htakes, hsound, (honly₁.trans honly₂).trans honly₃⟩

/-- A worker that holds a frame hands on what it made of it. -/
theorem fills_of_step? {p : Ingest} {caps : Option Caps} {waited : Bool} {r : WorkerStep}
    (hs : s.Sound) (hholding : w.activity = .holding input) (hbears : s.Bears input b .readable c)
    (hfitted : w.Fitted s c.bytes.size) (h : w.step? o f s p caps waited = some r) :
    ∃ b', r.item = some (.sample ⟨s.handles.next, caps⟩) ∧ r.ingest = p ∧
      r.worker = { w with activity := .delivering } ∧ w.Equipped r.store ∧
      r.store.Held s.handles.next b' ⟨o.transformed c.bytes, f.attach c.info {}⟩ ∧
      r.store.Sole s.handles.next b' ∧ s.buffers.next ≤ b' ∧ r.store.Sound ∧
      Only input b s r.store := by
  obtain ⟨q, pool, hq, hget, hsize⟩ := hfitted
  unfold step? at h
  have hasked : w.pool.bind s.acquire = s.acquire q := by rw [hq]; rfl
  simp only [hholding, hasked] at h
  cases ha : s.acquire q with
  | none =>
    rw [ha] at h
    cases h
  | some acquired =>
    obtain ⟨output, s₁⟩ := acquired
    obtain ⟨rfl, hs₁, honly₁, hhandle, old, hbuffer, hold⟩ :=
      Store.acquire_of_size hs hget ha
    have hne : input ≠ s.handles.next := Nat.ne_of_lt hbears.lt_handles
    have hneb : b ≠ s.buffers.next := Nat.ne_of_lt hbears.lt_buffers
    have hbears₁ := hbears.only (honly₁ s.handles.next s.buffers.next) hne hneb
    obtain ⟨-, -, -, hsole, -, hkept⟩ := Store.acquire_sole hs ha
    have hequipped₁ : w.Equipped s₁ := by
      intro q' hq'
      cases hq.symm.trans hq'
      obtain ⟨pool', hpool', -⟩ := hkept pool hget
      exact ⟨pool', hpool'⟩
    obtain ⟨s₂, hcopy, hheld, hbears₂, honly⟩ := Store.copyInto_of_bears o f hbears₁ hhandle hbuffer
      (hsize.symm.trans hold.symm) hne hneb
    have hleft : ∀ q, Store.Leaves q s.handles.next s₁ s₂ := by
      intro q
      have hleaves := Store.leaves_copyInto (p := q) (g := s.handles.next) hs₁ o f input s.handles.next
      rwa [hcopy] at hleaves
    have hequipped₂ := hequipped₁.of_undisturbed fun q => (hleft q).undisturbed
    have hfilled := honly s (honly₁ input b) (Nat.le_refl _) (Nat.le_refl _)
    have hdropped : Only input b s₂ (s₂.perform (.drop input)) :=
      Store.only_perform (.drop input) rfl fun t ht => hbears₂.buffer_of_target ht
    simp only [ha, hcopy] at h
    cases h
    refine ⟨s.buffers.next, rfl, rfl, rfl, ?_, hheld.only hdropped (Ne.symm hne) (Ne.symm hneb), ?_,
      Nat.le_refl _, (hleft q).sound.perform (.drop input), hfilled.trans hdropped⟩
    · exact hequipped₂.of_undisturbed fun q =>
        Store.undisturbed_of_through (hleft q).sound (.drop input) rfl
    · refine ((hleft q).sole _ hsole).perform (hleft q).sound.placed (.drop input) nofun nofun nofun ?_
      rintro ⟨⟩
      exact hne rfl

/-- While ids are not forgotten, the copy has the timing and the id of the frame. -/
theorem copies_of_step? {p : Ingest} {caps : Option Caps} {waited : Bool} {r : WorkerStep} {id : Nat}
    (hs : s.Sound) (hholding : w.activity = .holding input) (hbears : s.Bears input b .readable c)
    (hfitted : w.Fitted s c.bytes.size) (hid : c.info.id = some id) (hstrips : f.stripsIds = false)
    (h : w.step? o f s p caps waited = some r) :
    ∃ b', r.item = some (.sample ⟨s.handles.next, caps⟩) ∧ r.ingest = p ∧
      r.worker = { w with activity := .delivering } ∧ w.Equipped r.store ∧
      r.store.Held s.handles.next b'
        ⟨o.transformed c.bytes, { timing := c.info.timing, id := some id }⟩ ∧
      s.buffers.next ≤ b' ∧ r.store.Sound ∧ Only input b s r.store := by
  have hinfo : f.attach c.info {} = { timing := c.info.timing, id := some id } := by
    simp only [Faults.attach, hstrips, hid]
    rfl
  obtain ⟨b', hitem, hingest, hworker, hequipped, hheld, -, hrest⟩ :=
    fills_of_step? hs hholding hbears hfitted h
  rw [hinfo] at hheld
  exact ⟨b', hitem, hingest, hworker, hequipped, hheld, hrest⟩

end Worker

end MediaBridge
