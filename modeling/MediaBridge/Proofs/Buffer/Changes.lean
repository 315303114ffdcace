import MediaBridge.Proofs.Buffer.Holders
import MediaBridge.Proofs.Trail

/-! # The single changes of a store

Every operation on a store is a chain of single changes, of which there are only a few kinds.  What is
said of all operations is therefore proved for the changes, once for each kind.  A change is named for
what becomes of payloads: most changes leave them alone, and the others make one, overwrite one, lend
one or give one back.

* `makes_perform`      every operation is a chain of changes that it may make;
* `attains_performAll` any number of operations is a chain of changes;
* `orderly_of_change`  no change breaks the agreement of handles and locks,
* `orderly_performAll` and so no operation does.
-/

namespace MediaBridge

variable {α : Type u}

namespace Table

/-- Replacing a value by what a function makes of it is changing it in place. -/
theorem set_eq_update {t : Table α} {k : Nat} {v : α} (h : t.get? k = some v) (f : α → α) :
    t.set k (f v) = t.update k f := by
  have hcells : (t.set k (f v)).cells = (t.update k f).cells := by
    refine List.map_congr_left fun c hc => ?_
    -- only the cell of this key differs, and it holds what was there
    split
    · rename_i heq
      have hv := get?_of_mem hc
      rw [heq, h] at hv
      cases hv
      rfl
    · rfl
  unfold set update at hcells ⊢
  simp only [Table.mk.injEq, true_and]
  exact hcells

end Table

/-- Taking a lock for a mapping. -/
def Lock.take? (l : Lock) : Mapping → Option Lock
  | .readable => l.tryRead
  | .writable => l.tryWrite
  | .unmapped => none

/-- Taking a lock adds one holder of that kind and no other. -/
theorem Lock.held_take? {l l' : Lock} {m : Mapping} (h : l.take? m = some l') (m' : Mapping) :
    l'.held m' = l.held m' + if m' = m then 1 else 0 := by
  cases m with
  | unmapped => cases h
  | readable => exact held_tryRead h m'
  | writable => exact held_tryWrite h m'

/-- A trail of steps that are also steps of another kind. -/
theorem Trail.mono {σ : Type u} {ι : Type v} {Step Step' : σ → ι → σ → Prop}
    (h : ∀ {s i s'}, Step s i s' → Step' s i s') {names : List ι} {s s' : σ}
    (htrail : Trail Step s names s') : Trail Step' s names s' := by
  induction htrail with
  | refl => exact .refl
  | tail _ hstep ih => exact ih.tail (h hstep)

namespace Store

/-! ## Kinds of changes -/

/-- What becomes of payloads. -/
inductive Deal where
  /-- They stay as and where they are. -/
  | idle
  /-- A buffer was made, with a payload of its own. -/
  | made (b : BufferId) (bytes : ByteArray)
  /-- A pool was made, with payloads of its own. -/
  | stocked (p : PoolId) (size capacity : Nat)
  /-- A pool was given up. -/
  | dropped (p : PoolId)
  /-- A pool lent a payload to a buffer that was made for it. -/
  | lent (p : PoolId) (b : BufferId)
  /-- The payload of a buffer was overwritten. -/
  | edited (b : BufferId) (bytes : ByteArray)
  /-- A buffer lost its last owner, and its payload went home, if the pool was still there. -/
  | returned (p : PoolId) (b : BufferId)
  /-- A buffer lost its last owner while somebody mapped it, so that another payload went home. -/
  | replaced (p : PoolId) (b : BufferId)

/-- Whether no payload was overwritten, no pool given up, and nothing lent. -/
def Deal.IsQuiet : Deal → Prop
  | .dropped _ | .lent .. | .edited .. => False
  | _ => True

/-- What an operation may do with payloads. -/
def Op.Allows : Op → Deal → Prop
  | .dropPool p, .dropped q => q = p
  | .acquire p, .lent q _ => q = p
  | .write .., .edited .. => True
  | _, d => d.IsQuiet

/-- Any operation may do with payloads what is quiet. -/
theorem Op.allows_of_isQuiet (op : Op) {d : Deal} (h : d.IsQuiet) : op.Allows d := by
  cases d with
  | dropped | lent | edited => exact h.elim
  | idle | made | stocked | returned | replaced => cases op <;> exact h

/-- A buffer loses an owner. -/
inductive Disowns (s : Store) (b : BufferId) : Deal → Store → Prop where
  | absent (hx : s.buffers.get? b = none) : s.Disowns b .idle s
  -- It has others.
  | fewer {x : Buffer} (hx : s.buffers.get? b = some x) (hmore : 1 < x.owners) :
    s.Disowns b .idle { s with buffers := s.buffers.set b { x with owners := x.owners - 1 } }
  -- That was the last one, and no pool lent the payload.
  | freed {x : Buffer} (hx : s.buffers.get? b = some x) (hlast : x.owners ≤ 1)
    (hpool : x.pool = none) :
    s.Disowns b .idle
      (sweep { s with buffers := s.buffers.set b { x with owners := x.owners - 1 } } b)
  -- The pool that lent the payload has it back.
  | returned {x : Buffer} {p : PoolId} (hx : s.buffers.get? b = some x) (hlast : x.owners ≤ 1)
    (hpool : x.pool = some p) (hlock : x.lock = .free) :
    s.Disowns b (.returned p b)
      (sweep { s with
        buffers := s.buffers.set b { x with owners := x.owners - 1 }
        pools := s.pools.update p (·.put x.bytes) } b)
  -- Somebody still maps the payload, so the pool has another one instead.
  | replaced {x : Buffer} {p : PoolId} (hx : s.buffers.get? b = some x) (hlast : x.owners ≤ 1)
    (hpool : x.pool = some p) (hlock : x.lock ≠ .free) :
    s.Disowns b (.replaced p b)
      (sweep { s with
        buffers := s.buffers.set b { x with owners := x.owners - 1 }
        pools := s.pools.update p (·.put .empty) } b)

/-- A single change. -/
inductive Change (s : Store) : Deal → Store → Prop where
  -- A handle that mapped nothing takes the lock.
  | map {h : HandleId} {b : BufferId} {m : Mapping} {l : Lock} (hl : s.live? h = some b)
    (hu : (s.handle h).mapping = .unmapped) (hlock : (s.lock b).take? m = some l) :
    s.Change .idle (s.mapped h b m l)
  -- A handle gives the lock back.
  | unmap {h : HandleId} {t : Target} (ht : (s.handle h).target = some t)
    (hm : (s.handle h).mapping ≠ .unmapped) :
    s.Change .idle
      { s with
        handles := s.handles.set h { s.handle h with mapping := .unmapped }
        buffers := s.buffers.update t.buffer fun x =>
          { x with lock := x.lock.leave (s.handle h).mapping } }
  | sweep (b : BufferId) : s.Change .idle (s.sweep b)
  -- Who maps a buffer writable overwrites its bytes.
  | edit {h : HandleId} {t : Target} {bytes : ByteArray} (ht : (s.handle h).target = some t)
    (hm : (s.handle h).mapping = .writable) :
    s.Change (.edited t.buffer bytes)
      { s with buffers := s.buffers.update t.buffer fun x => { x with bytes } }
  | inform (b : BufferId) (i : FrameInfo) : s.Change .idle (s.setInfoOf b i)
  | make (bytes : ByteArray) (info : FrameInfo) :
    s.Change (.made s.buffers.next bytes) (s.newBuffer { bytes, info }).2
  | makeReference (bytes : ByteArray) :
    s.Change (.made s.buffers.next bytes) (s.newReference bytes).2
  | newPool (size capacity : Nat) :
    s.Change (.stocked s.pools.next size capacity) (s.newPool size capacity).2
  | dropPool (p : PoolId) : s.Change (.dropped p) (s.dropPool p)
  | lend {p : PoolId} {h : HandleId} {s' : Store} (ha : s.acquire p = some (h, s')) :
    s.Change (.lent p s.buffers.next) s'
  | borrow (b : BufferId) : s.Change .idle (s.borrow b).2
  | own {r : ReferenceId} {b : BufferId} (hr : s.references.get? r = some b) :
    s.Change .idle (s.own b).2
  | refer {h : HandleId} {b : BufferId} (hl : s.live? h = some b) :
    s.Change .idle { s.adopt b with references := (s.references.add b).2 }
  -- A handle that only borrows its buffer forgets it.
  | forget {h : HandleId} {b : BufferId} (ht : (s.handle h).target = some ⟨b, false⟩)
    (hu : (s.handle h).mapping = .unmapped) :
    s.Change .idle { s with handles := s.handles.set h { target := none } }
  -- A handle that owns its buffer forgets it.
  | leave {h : HandleId} {b : BufferId} {d : Deal} {s' : Store}
    (ht : (s.handle h).target = some ⟨b, true⟩) (hu : (s.handle h).mapping = .unmapped)
    (hd : Disowns { s with handles := s.handles.set h { target := none } } b d s') : s.Change d s'
  | erase {h : HandleId} (ht : (s.handle h).target = none) :
    s.Change .idle { s with handles := s.handles.erase h }
  | dropReference {r : ReferenceId} {b : BufferId} {d : Deal} {s' : Store}
    (hr : s.references.get? r = some b)
    (hd : Disowns { s with references := s.references.erase r } b d s') : s.Change d s'

/-- A new buffer is there. -/
theorem get?_buffers_newBuffer_self (s : Store) (x : Buffer) :
    (s.newBuffer x).2.buffers.get? s.buffers.next = some x :=
  (Table.get?_add ..).trans (if_pos rfl)

/-- The handle that is made with a buffer owns it and does not map it. -/
theorem handle_newBuffer_self (s : Store) (x : Buffer) :
    (s.newBuffer x).2.handle s.handles.next = { target := some ⟨s.buffers.next, true⟩ } := by
  simp only [newBuffer, addHandle, handle, Table.get?_add, if_true]
  rfl

/-- What a pool lends becomes the payload of a new buffer. -/
theorem acquire_cases {s s' : Store} {p : PoolId} {h : HandleId} (ha : s.acquire p = some (h, s')) :
    ∃ pool bytes pool', s.pools.get? p = some pool ∧ pool.take? = some (bytes, pool') ∧
      h = s.handles.next ∧
      s' = (newBuffer { s with pools := s.pools.set p pool' } { bytes, pool := some p }).2 := by
  unfold acquire at ha
  cases hp : s.pools.get? p with
  | none =>
    rw [hp] at ha
    cases ha
  | some pool =>
    rw [hp, Option.bind_some] at ha
    cases ht : pool.take? with
    | none =>
      rw [ht] at ha
      cases ha
    | some taken =>
      rw [ht] at ha
      cases ha
      exact ⟨pool, taken.1, taken.2, rfl, ht, rfl, rfl⟩

/-- A change that overwrites nothing, gives no pool up, and lends nothing. -/
def Spares (s : Store) (d : Deal) (s' : Store) : Prop := s.Change d s' ∧ d.IsQuiet

/-- A buffer that no pool lent gives nothing back. -/
theorem recycle_of_none {x : Buffer} (h : x.pool = none) (s : Store) : s.recycle x = s := by
  rw [recycle, h]

/-- A buffer that a pool lent gives its payload back, or an empty one if somebody still maps it. -/
theorem recycle_of_some {x : Buffer} {p : PoolId} (h : x.pool = some p) (s : Store) :
    s.recycle x =
      { s with pools := s.pools.update p (·.put (if x.lock = .free then x.bytes else .empty)) } := by
  rw [recycle, h]

/-- A buffer that loses its last owner gives its payload back and may go. -/
theorem disown_of_last {s : Store} {b : BufferId} {x : Buffer} (hx : s.buffers.get? b = some x)
    (hlast : x.owners ≤ 1) :
    s.disown b =
      (recycle { s with buffers := s.buffers.set b { x with owners := x.owners - 1 } } x).sweep b := by
  simp only [disown, hx, if_pos hlast]

/-- Taking an owner from a buffer is one of the five. -/
theorem disowns_disown (s : Store) (b : BufferId) : ∃ d, s.Disowns b d (s.disown b) ∧ d.IsQuiet := by
  cases hx : s.buffers.get? b with
  | none =>
    have hsame : s.disown b = s := by simp only [disown, hx]
    rw [hsame]
    exact ⟨.idle, .absent hx, trivial⟩
  | some x =>
    by_cases hlast : x.owners ≤ 1
    · rw [disown_of_last hx hlast]
      -- ⟨p, hpool⟩
      rcases Option.eq_none_or_eq_some x.pool with hpool | ⟨p, hpool⟩
      · rw [recycle_of_none hpool]
        exact ⟨.idle, .freed hx hlast hpool, trivial⟩
      · rw [recycle_of_some hpool]
        by_cases hlock : x.lock = .free
        · rw [if_pos hlock]
          exact ⟨.returned p b, .returned hx hlast hpool hlock, trivial⟩
        · rw [if_neg hlock]
          exact ⟨.replaced p b, .replaced hx hlast hpool hlock, trivial⟩
    · have hfewer : s.disown b =
          { s with buffers := s.buffers.set b { x with owners := x.owners - 1 } } := by
        simp only [disown, hx, if_neg hlast]
      rw [hfewer]
      exact ⟨.idle, .fewer hx (Nat.not_le.1 hlast), trivial⟩

/-- Losing an owner is what the operations do when they take one. -/
theorem Disowns.eq {s s' : Store} {b : BufferId} {d : Deal} (h : s.Disowns b d s') :
    s' = s.disown b := by
  cases h with
  | absent hx => simp only [disown, hx]
  | fewer hx hmore => simp only [disown, hx, if_neg (Nat.not_le.2 hmore)]
  | freed hx hlast hpool => rw [disown_of_last hx hlast, recycle_of_none hpool]
  | returned hx hlast hpool hlock =>
    rw [disown_of_last hx hlast, recycle_of_some hpool, if_pos hlock]
  | replaced hx hlast hpool hlock =>
    rw [disown_of_last hx hlast, recycle_of_some hpool, if_neg hlock]

/-! ## Operations as chains of changes -/

/-- Giving a mapping up is at most two changes: the handle leaves the lock, and a dead buffer may
    go. -/
theorem spares_unmap (s : Store) (h : HandleId) : Attains Spares s (s.unmap h) := by
  simp only [unmap]
  split
  · exact .refl s
  · rename_i t ht
    split
    · exact .refl s
    · rename_i hm
      have hleft : Attains Spares s _ := .one ⟨.unmap ht hm, trivial⟩
      exact hleft.step ⟨.sweep t.buffer, trivial⟩

/-- A handle that was unmapped maps nothing. -/
theorem mapping_unmap_of_target {s : Store} {h : HandleId} {t : Target}
    (ht : ((s.unmap h).handle h).target = some t) :
    ((s.unmap h).handle h).mapping = .unmapped := by
  rw [handle_unmap_self ((s.target_unmap h h).symm.trans ht)]

/-- Mapping for reading takes the lock or changes nothing. -/
theorem spares_mapRead (s : Store) (h : HandleId) : Attains Spares s (s.mapRead h).2 := by
  unfold mapRead
  split
  · rename_i hu
    cases hl : s.live? h with
    | none => exact .refl s
    | some b =>
      simp only
      cases hr : (s.lock b).tryRead with
      | none => exact .refl s
      | some l => exact .one ⟨.map (m := .readable) hl hu hr, trivial⟩
  · exact .refl s

/-- Mapping for writing gives up what was mapped and then takes the lock, if it can. -/
theorem spares_mapWrite (s : Store) (h : HandleId) : Attains Spares s (s.mapWrite h).2 := by
  have hunmapped := s.spares_unmap h
  unfold mapWrite
  split
  · exact .refl s
  · simp only
    cases hl : (s.unmap h).live? h with
    | none => exact hunmapped
    | some b =>
      obtain ⟨⟨owning, ht⟩, -⟩ := live?_eq_some_iff.1 hl
      simp only
      cases hr : ((s.unmap h).lock b).tryWrite with
      | none => exact hunmapped
      | some l =>
        exact hunmapped.step ⟨.map (m := .writable) hl (mapping_unmap_of_target ht) hr, trivial⟩

/-- Changing the info of a frame is a single change. -/
theorem spares_updateInfo {s s' : Store} {h : HandleId} {f : FrameInfo → FrameInfo}
    (hu : s.updateInfo h f = .ok s') : Attains Spares s s' := by
  unfold updateInfo at hu
  split at hu
  · cases hu
  · cases hu
    exact .one ⟨.inform _ _, trivial⟩

/-- A copy maps its original where it has to, and makes one buffer. -/
theorem spares_deepCopy (s : Store) (h : HandleId) : Attains Spares s (s.deepCopy h).2 := by
  have hmapped := s.spares_mapRead h
  unfold deepCopy
  split
  · exact .refl s
  · simp only
    cases hm : s.mapRead h with
    | mk result s₁ =>
      rw [hm] at hmapped
      cases result with
      | error e => exact hmapped
      | ok bytes =>
        simp only
        split
        · exact (hmapped.trans (s₁.spares_unmap h)).step ⟨.make .., trivial⟩
        · exact hmapped.step ⟨.make .., trivial⟩

/-- A release gives the mapping up and then forgets the buffer, with its share of it. -/
theorem spares_release (s : Store) (h : HandleId) : Attains Spares s (s.release h) := by
  have hunmapped := s.spares_unmap h
  simp only [release]
  split
  · exact hunmapped
  · rename_i t ht
    obtain ⟨b, owning⟩ := t
    have hu := mapping_unmap_of_target ht
    cases owning with
    | false => exact hunmapped.step ⟨.forget ht hu, trivial⟩
    | true =>
      obtain ⟨d, hd, hquiet⟩ := disowns_disown
        { s.unmap h with handles := (s.unmap h).handles.set h { target := none } } b
      exact hunmapped.step ⟨.leave ht hu hd, hquiet⟩

/-- A drop is a release after which the handle is removed. -/
theorem spares_drop (s : Store) (h : HandleId) : Attains Spares s (s.drop h) :=
  (s.spares_release h).step ⟨.erase (s.target_release_self h), trivial⟩

/-- Who was given a writable mapping has it. -/
theorem mapping_of_mapWrite {s s' : Store} {h : HandleId} {bytes : ByteArray}
    (hm : s.mapWrite h = (.ok bytes, s')) : (s'.handle h).mapping = .writable := by
  unfold mapWrite at hm
  split at hm
  · rename_i hw
    obtain ⟨-, hsame⟩ := Prod.ext_iff.1 hm
    cases hsame
    exact hw
  · simp only at hm
    cases hl : (s.unmap h).live? h with
    | none =>
      rw [hl] at hm
      cases hm
    | some b =>
      rw [hl] at hm
      simp only at hm
      cases hr : ((s.unmap h).lock b).tryWrite with
      | none =>
        rw [hr] at hm
        cases hm
      | some l =>
        rw [hr] at hm
        cases hm
        obtain ⟨⟨owning, ht⟩, -⟩ := live?_eq_some_iff.1 hl
        rw [mapped, handle, Table.get?_update, if_pos rfl, get?_handles_of_target ht]
        rfl

/-- A change that an operation may make. -/
def Makes (op : Op) (s : Store) (d : Deal) (s' : Store) : Prop := s.Change d s' ∧ op.Allows d

/-- What spares payloads any operation may do. -/
theorem makes_of_spares (op : Op) {s s' : Store} (h : Attains Spares s s') :
    Attains (Makes op) s s' := by
  obtain ⟨deals, htrail⟩ := h
  exact ⟨deals, htrail.mono fun hstep => ⟨hstep.1, op.allows_of_isQuiet hstep.2⟩⟩

/-- A write maps its buffer and then overwrites it. -/
theorem makes_write (s : Store) (h : HandleId) (start : Nat) (new : ByteArray) :
    Attains (Makes (.write h start new)) s (s.write h start new).2 := by
  have hmapped := s.spares_mapWrite h
  unfold write
  cases hm : s.mapWrite h with
  | mk result s₁ =>
    rw [hm] at hmapped
    have hattains := makes_of_spares (.write h start new) hmapped
    cases result with
    | error e => exact hattains
    | ok old =>
      simp only
      split
      · exact hattains
      · rename_i t ht
        exact hattains.step ⟨.edit ht (mapping_of_mapWrite hm), trivial⟩

/-- Every operation is a chain of changes that it may make. -/
theorem makes_perform (s : Store) (op : Op) : Attains (Makes op) s (s.perform op) := by
  cases op with
  | newFrame bytes => exact .one ⟨.make bytes {}, trivial⟩
  | newReference bytes => exact .one ⟨.makeReference bytes, trivial⟩
  | newPool size capacity => exact .one ⟨.newPool size capacity, trivial⟩
  | dropPool p => exact .one ⟨.dropPool p, rfl⟩
  | acquire p =>
    rw [perform]
    cases ha : s.acquire p with
    | none => exact .refl s
    | some acquired => exact .one ⟨.lend ha, rfl⟩
  | view h =>
    rw [perform, view]
    cases s.live? h with
    | none => exact .refl s
    | some b => exact .one ⟨.borrow b, trivial⟩
  | reference h =>
    rw [perform, reference]
    cases hl : s.live? h with
    | none => exact .refl s
    | some b => exact .one ⟨.refer hl, trivial⟩
  | own r =>
    rw [perform]
    cases hr : s.references.get? r with
    | none => exact .refl s
    | some b => exact .one ⟨.own hr, trivial⟩
  | borrow r =>
    rw [perform]
    cases s.references.get? r with
    | none => exact .refl s
    | some b => exact .one ⟨.borrow b, trivial⟩
  -- the only operation besides a release that takes an owner away
  | dropReference r =>
    rw [perform, dropReference]
    cases hr : s.references.get? r with
    | none => exact .refl s
    | some b =>
      obtain ⟨d, hd, hquiet⟩ := disowns_disown { s with references := s.references.erase r } b
      exact .one ⟨.dropReference hr hd, Op.allows_of_isQuiet _ hquiet⟩
  | mapRead h => exact makes_of_spares _ (s.spares_mapRead h)
  | mapWrite h => exact makes_of_spares _ (s.spares_mapWrite h)
  | write h start new => exact s.makes_write h start new
  | unmap h => exact makes_of_spares _ (s.spares_unmap h)
  | size h =>
    rw [perform, snd_size]
    exact makes_of_spares _ (s.spares_mapRead h)
  | deepCopy h => exact makes_of_spares _ (s.spares_deepCopy h)
  | setTiming h t =>
    rw [perform]
    cases hu : s.setTiming h t with
    | error e => exact .refl s
    | ok s' => exact makes_of_spares _ (spares_updateInfo hu)
  | setId h id' =>
    rw [perform]
    cases hu : s.setId h id' with
    | error e => exact .refl s
    | ok s' => exact makes_of_spares _ (spares_updateInfo hu)
  | release h => exact makes_of_spares _ (s.spares_release h)
  | drop h => exact makes_of_spares _ (s.spares_drop h)

/-- So any number of operations is a chain of changes. -/
theorem attains_performAll (s : Store) (ops : List Op) : Attains Change s (s.performAll ops) := by
  induction ops generalizing s with
  | nil => exact .refl s
  | cons op rest ih =>
    -- what the operation may do with payloads is forgotten here
    obtain ⟨deals, htrail⟩ := s.makes_perform op
    have hone : Attains Change s (s.perform op) := ⟨deals, htrail.mono And.left⟩
    exact hone.trans (ih (s.perform op))

/-! ## Locks -/

/-- No change breaks the agreement of handles and locks. -/
theorem orderly_of_change {s s' : Store} {d : Deal} (hs : s.Orderly) (h : s.Change d s') :
    s'.Orderly := by
  cases h with
  | map hl hu hlock =>
    obtain ⟨⟨owning, ht⟩, ha⟩ := live?_eq_some_iff.1 hl
    exact hs.mapped ht hu ha (Lock.held_take? hlock)
  | unmap ht hm => exact hs.leave ht hm
  | sweep b => exact hs.of_same (handles_sweep ..) (lock_sweep _ _)
  | edit | inform => exact hs.of_same rfl (lock_update fun _ _ => rfl)
  | make => exact hs.newBuffer rfl
  | makeReference bytes => exact hs.of_same rfl (lock_add (x := { bytes }) rfl)
  | newPool | dropPool => exact hs.of_same rfl fun _ => rfl
  | lend ha => exact hs.acquire ha
  | borrow => exact hs.addHandle rfl
  | own => exact (hs.adopt _).addHandle rfl
  | refer => exact (hs.adopt _).of_same rfl fun _ => rfl
  | forget ht hu => exact hs.forget ht hu
  | leave ht hu hd =>
    rw [hd.eq]
    exact (hs.forget ht hu).of_same (handles_disown ..) (lock_disown _ _)
  -- a handle without a buffer holds no lock, so it is not missed
  | erase ht =>
    constructor
    · intro b m hm
      exact (holders_erase ht b m).trans (hs.locks b m hm)
    · intro g hg
      simp only [handle, Table.get?_erase] at hg ⊢
      split
      · rfl
      · rename_i hne
        rw [if_neg hne] at hg
        exact hs.released g hg
  | dropReference _ hd =>
    rw [hd.eq]
    exact hs.of_same (handles_disown ..) (lock_disown _ _)

/-- So none of any number of operations breaks it, -/
theorem orderly_performAll {s : Store} (hs : s.Orderly) (ops : List Op) :
    (s.performAll ops).Orderly := by
  obtain ⟨deals, htrail⟩ := s.attains_performAll ops
  exact htrail.keeps orderly_of_change hs

/-- and no single one. -/
theorem orderly_perform {s : Store} (hs : s.Orderly) (op : Op) : (s.perform op).Orderly :=
  orderly_performAll hs [op]

end Store

end MediaBridge
