import MediaBridge.Proofs.Buffer.Access
import MediaBridge.Proofs.Buffer.Lending

/-! # What becomes of payloads

`Moves` says what a change is to the payloads of all buffers and pools at once: which of them are the same,
and what the one that is not comes to.  For a handle that maps its buffer this means that it reads what
it read before, until it overwrites that itself.

* `moves_of_change`         what a change is to payloads;
* `mappedBytes_performAll`  what a handle reads that stays mapped;
-/

namespace MediaBridge.Store

/-- A buffer that is there was there before, with the same payload. -/
def Inherits (s s' : Store) (b : BufferId) : Prop :=
  ∀ x', s'.buffers.get? b = some x' → ∃ x, s.buffers.get? b = some x ∧ x'.bytes = x.bytes

/-- A pool that is there was there before, with the same payloads. -/
def KeepsPools (s s' : Store) : Prop :=
  ∀ p pool, s'.pools.get? p = some pool → s.pools.get? p = some pool

/-- What a change is to payloads. -/
inductive Moves (s : Store) : Deal → Store → Prop where
  | idle {s' : Store} (hbuffers : ∀ b, s.Inherits s' b) (hpools : s.KeepsPools s') : s.Moves .idle s'
  | made {s' : Store} {bytes : ByteArray} (hothers : ∀ b, b ≠ s.buffers.next → s.Inherits s' b)
    (hx : ∀ x, s'.buffers.get? s.buffers.next = some x → x.bytes = bytes)
    (hpools : s'.pools = s.pools) : s.Moves (.made s.buffers.next bytes) s'
  | dropped {s' : Store} {p : PoolId} (hbuffers : s'.buffers = s.buffers)
    (hpools : s.KeepsPools s') : s.Moves (.dropped p) s'
  | stocked {s' : Store} {size capacity : Nat} (hbuffers : s'.buffers = s.buffers)
    (hpools : s'.pools = (s.pools.add (.new size capacity)).2) :
    s.Moves (.stocked s.pools.next size capacity) s'
  | lent {s' : Store} {p : PoolId} {pool pool' : Pool} {bytes : ByteArray}
    (hpool : s.pools.get? p = some pool) (htake : pool.take? = some (bytes, pool'))
    (hothers : ∀ b, b ≠ s.buffers.next → s.Inherits s' b)
    (hx : ∀ x, s'.buffers.get? s.buffers.next = some x → x.bytes = bytes)
    (hpools : s'.pools = s.pools.set p pool') : s.Moves (.lent p s.buffers.next) s'
  | edited {s' : Store} {b : BufferId} {x : Buffer} {bytes : ByteArray}
    (hx : s.buffers.get? b = some x)
    (hbuffers : s'.buffers = s.buffers.update b fun x => { x with bytes })
    (hpools : s'.pools = s.pools) : s.Moves (.edited b bytes) s'
  -- The buffer is gone, and its payload is the pool's again.
  | returned {s' : Store} {p : PoolId} {b : BufferId} {x : Buffer}
    (hx : s.buffers.get? b = some x) (hlent : x.IsLent p) (hgone : s'.buffers.get? b = none)
    (hothers : ∀ b, s.Inherits s' b)
    (hpools : s'.pools = s.pools.update p (·.put x.bytes)) : s.Moves (.returned p b) s'
  -- The buffer is still there with its payload, and the pool has another one.
  | replaced {s' : Store} {p : PoolId} {b : BufferId} (hlent : s.lends p b)
    (hbuffers : ∀ b, s.Inherits s' b)
    (hpools : s'.pools = s.pools.update p (·.put .empty)) : s.Moves (.replaced p b) s'

section

variable {s s' s'' : Store} {b : BufferId}

namespace Inherits

/-- A buffer that is the same has the same payload. -/
theorem of_get? (h : s'.buffers.get? b = s.buffers.get? b) : s.Inherits s' b := by
  intro x hx
  rw [h] at hx
  exact ⟨x, hx, rfl⟩

/-- A payload that is inherited twice is inherited. -/
theorem trans (h : s.Inherits s' b) (h' : s'.Inherits s'' b) : s.Inherits s'' b := by
  intro x'' hx''
  obtain ⟨x', hx', hbytes'⟩ := h' x'' hx''
  obtain ⟨x, hx, hbytes⟩ := h x' hx'
  exact ⟨x, hx, hbytes'.trans hbytes⟩

/-- Something else than the payload of a buffer was changed. -/
theorem of_update {b' : BufferId} {f : Buffer → Buffer}
    (hbuffers : s'.buffers = s.buffers.update b' f) (hf : ∀ x, (f x).bytes = x.bytes)
    (b : BufferId) : s.Inherits s' b := by
  intro x' hx'
  rw [hbuffers, Table.get?_update] at hx'
  split at hx'
  · obtain ⟨x, hx, rfl⟩ := Option.map_eq_some_iff.1 hx'
    exact ⟨x, hx, hf x⟩
  · exact ⟨x', hx', rfl⟩

/-- A buffer has one owner less. -/
theorem of_disowned {b' : BufferId} {x : Buffer} (hx : s.buffers.get? b' = some x)
    (hbuffers : s'.buffers = s.buffers.set b' { x with owners := x.owners - 1 }) (b : BufferId) :
    s.Inherits s' b := by
  intro x' hx'
  rw [hbuffers, Table.get?_set] at hx'
  split at hx'
  · rename_i heq
    rw [heq, hx] at hx'
    cases hx'
    exact ⟨x, heq ▸ hx, rfl⟩
  · exact ⟨x', hx', rfl⟩

/-- A new buffer takes no payload from the others. -/
theorem of_add {x : Buffer} (hbuffers : s'.buffers = (s.buffers.add x).2)
    (hne : b ≠ s.buffers.next) : s.Inherits s' b :=
  of_get? (by rw [hbuffers, Table.get?_add, if_neg hne])

/-- Removing what nobody needs leaves the payloads of all others. -/
theorem sweep (s : Store) (b' b : BufferId) : s.Inherits (s.sweep b') b := by
  unfold Store.sweep
  split
  · exact of_get? rfl
  · split
    · intro x' hx'
      simp only [Table.get?_erase] at hx'
      split at hx'
      · cases hx'
      · exact ⟨x', hx', rfl⟩
    · exact of_get? rfl

end Inherits

/-- A change that was made after handles or references were forgotten. -/
theorem Moves.after {u : Store} {d : Deal} (h : u.Moves d s') (hbuffers : u.buffers = s.buffers)
    (hpools : u.pools = s.pools) : s.Moves d s' := by
  -- only buffers and pools matter, and those are the same
  obtain ⟨buffers, handles, references, pools⟩ := s
  cases hbuffers
  cases hpools
  cases h with
  | idle hbuffers hpools => exact .idle hbuffers hpools
  | made hothers hx hpools => exact .made hothers hx hpools
  | dropped hbuffers hpools => exact .dropped hbuffers hpools
  | stocked hbuffers hpools => exact .stocked hbuffers hpools
  | lent hpool htake hothers hx hpools => exact .lent hpool htake hothers hx hpools
  | edited hx hbuffers hpools => exact .edited hx hbuffers hpools
  | returned hx hlent hgone hothers hpools => exact .returned hx hlent hgone hothers hpools
  | replaced hlent hbuffers hpools => exact .replaced hlent hbuffers hpools

/-- What it is to payloads that a buffer loses an owner. -/
theorem moves_of_disowns {d : Deal} (hb : 0 < s.ownersOf b) (h : s.Disowns b d s') :
    s.Moves d s' := by
  have hpos : ∀ {x}, s.buffers.get? b = some x → 0 < x.owners := by
    intro x hx
    rwa [ownersOf, hx] at hb
  cases h with
  | absent => exact .idle (fun _ => .of_get? rfl) fun _ _ hpool => hpool
  | fewer hx => exact .idle (Inherits.of_disowned hx rfl) fun _ _ hpool => hpool
  | freed hx =>
    refine .idle (fun b' => (Inherits.of_disowned hx rfl b').trans (.sweep _ b b')) ?_
    intro p pool hpool
    rwa [pools_sweep] at hpool
  | @returned x p hx hlast hof hlock =>
    refine .returned hx ⟨hof, hpos hx⟩ ?_
      (fun b' => (Inherits.of_disowned hx rfl b').trans (.sweep _ b b')) (pools_sweep ..)
    -- nobody maps the buffer, so it is removed
    have hleft : x.owners - 1 = 0 := Nat.sub_eq_zero_of_le hlast
    simp [sweep, hx, hleft, hlock]
  | @replaced x p hx hlast hof hlock =>
    exact .replaced (lends_iff.2 ⟨x, hx, hof, hpos hx⟩)
      (fun b' => (Inherits.of_disowned hx rfl b').trans (.sweep _ b b')) (pools_sweep ..)

/-- A buffer that somebody maps is there. -/
theorem Orderly.exists_of_maps (hs : s.Orderly) {g : HandleId} {m : Mapping}
    (hmaps : (s.handle g).Maps b m) (hm : m ≠ .unmapped) : ∃ x, s.buffers.get? b = some x := by
  cases hx : s.buffers.get? b with
  | some x => exact ⟨x, rfl⟩
  | none =>
    have hfree : s.lock b = .free := by
      rw [lock, hx]
      rfl
    exact absurd (hs.eq_free_iff.1 hfree g m hmaps) hm

/-- What a change is to payloads. -/
theorem moves_of_change {d : Deal} (ho : s.Orderly) (hs : s.Owned) (h : s.Change d s') :
    s.Moves d s' := by
  cases h with
  | @map _ _ _ l =>
    exact .idle (.of_update (f := fun x => { x with lock := l }) rfl fun _ => rfl)
      fun _ _ hpool => hpool
  | @unmap h =>
    exact .idle (.of_update (f := fun x => { x with lock := x.lock.leave (s.handle h).mapping }) rfl
      fun _ => rfl) fun _ _ hpool => hpool
  | sweep b =>
    refine .idle (.sweep s b) fun p pool hpool => ?_
    rwa [pools_sweep] at hpool
  | @edit h t bytes ht hm =>
    have hmaps : (s.handle h).Maps t.buffer .writable := (Handle.maps_iff ht).2 ⟨hm, rfl⟩
    obtain ⟨x, hx⟩ := ho.exists_of_maps hmaps nofun
    exact .edited hx rfl rfl
  | inform b i =>
    exact .idle (.of_update (f := fun x => { x with info := i }) rfl fun _ => rfl)
      fun _ _ hpool => hpool
  | make bytes info =>
    refine .made (fun b hne => .of_add (x := { bytes, info }) rfl hne) (fun x hx => ?_) rfl
    rw [get?_buffers_newBuffer_self] at hx
    cases hx
    rfl
  | makeReference bytes =>
    refine .made (fun b hne => .of_add (x := { bytes }) rfl hne) (fun x hx => ?_) rfl
    cases hx.symm.trans ((Table.get?_add ..).trans (if_pos rfl))
    rfl
  | newPool => exact .stocked rfl rfl
  | dropPool p =>
    refine .dropped rfl fun q pool hpool => ?_
    simp only [dropPool, Table.get?_erase] at hpool
    split at hpool
    · cases hpool
    · exact hpool
  | lend ha =>
    obtain ⟨pool, bytes, pool', hpool, htake, -, rfl⟩ := acquire_cases ha
    refine .lent hpool htake (fun b hne => .of_add (x := { bytes, pool := _ }) rfl hne)
      (fun x hx => ?_) rfl
    cases hx.symm.trans (get?_buffers_newBuffer_self { s with pools := _ } _)
    rfl
  | borrow => exact .idle (fun _ => .of_get? rfl) fun _ _ hpool => hpool
  | own | refer =>
    exact .idle (.of_update (f := fun x => { x with owners := x.owners + 1 }) rfl fun _ => rfl)
      fun _ _ hpool => hpool
  | forget => exact .idle (fun _ => .of_get? rfl) fun _ _ hpool => hpool
  -- the handle or reference counted as an owner, so the buffer had one to lose
  | leave ht _ hd => exact (moves_of_disowns (by exact hs.pos_of_owning ht) hd).after rfl rfl
  | erase => exact .idle (fun _ => .of_get? rfl) fun _ _ hpool => hpool
  | dropReference hr hd =>
    exact (moves_of_disowns (by exact hs.pos_of_referring hr) hd).after rfl rfl

/-! ## Reading through a mapping -/

/-- What is not overwritten is the same. -/
theorem inherits_of_attains {P : Deal → Prop} (hP : ∀ b bytes, ¬P (.edited b bytes))
    (ho : s.Orderly) (hs : s.Owned) (h : Attains (fun s d s' => s.Change d s' ∧ P d) s s')
    (hb : b < s.buffers.next) : s.Inherits s' b := by
  obtain ⟨deals, htrail⟩ := h
  have hkept : s'.Orderly ∧ s'.Owned ∧ b < s'.buffers.next ∧ s.Inherits s' b := by
    induction htrail with
    | refl => exact ⟨ho, hs, hb, .of_get? rfl⟩
    | @tail _ d u u' _ hstep ih =>
      obtain ⟨huo, hus, hub, hinherits⟩ := ih
      obtain ⟨hchange, hd⟩ := hstep
      -- a buffer that was there is none of the new ones, and no change in the chain overwrites
      have hone : u.Inherits u' b := by
        cases moves_of_change huo hus hchange with
        | idle hbuffers => exact hbuffers b
        | made hothers => exact hothers b (Nat.ne_of_lt hub)
        | dropped hbuffers | stocked hbuffers => exact .of_get? (by rw [hbuffers])
        | lent _ _ hothers => exact hothers b (Nat.ne_of_lt hub)
        | edited => exact absurd hd (hP _ _)
        | returned _ _ _ hothers => exact hothers b
        | replaced _ hbuffers => exact hbuffers b
      exact ⟨orderly_of_change huo hchange, owned_of_change hus hchange,
        Nat.lt_of_lt_of_le hub (next_le_of_change hchange).1, hinherits.trans hone⟩
  exact hkept.2.2.2

/-- A handle that was made never refers to another buffer. -/
theorem retains_perform (s : Store) (op : Op) :
    s.handles.next ≤ (s.perform op).handles.next ∧
      ∀ {g t}, g < s.handles.next → ((s.perform op).handle g).target = some t →
        (s.handle g).target = some t := by
  -- an id is set in place; every other operation is faithful
  by_cases hop : ∃ h id, op = .setId h id
  · obtain ⟨h, id, rfl⟩ := hop
    have hsame : (s.perform (.setId h id)).handles = s.handles := by
      rw [perform]
      cases hu : s.setId h id with
      | error e => rfl
      | ok s' => exact handles_updateInfo hu
    refine ⟨Nat.le_of_eq (congrArg Table.next hsame.symm), fun _ ht => ?_⟩
    rw [handle, hsame] at ht
    exact ht
  · have hfaithful := s.faithful_perform fun h id heq => hop ⟨h, id, heq⟩
    exact ⟨hfaithful.handles, fun hlt ht => hfaithful.target _ _ hlt ht⟩

/-- The same after any number of operations. -/
theorem target_performAll (s : Store) (ops : List Op) {g : HandleId} {t : Target}
    (hlt : g < s.handles.next) (ht : ((s.performAll ops).handle g).target = some t) :
    (s.handle g).target = some t := by
  induction ops generalizing s with
  | nil => exact ht
  | cons op rest ih =>
    obtain ⟨hnext, htarget⟩ := s.retains_perform op
    exact htarget hlt (ih (s.perform op) (Nat.lt_of_lt_of_le hlt hnext) ht)

/-- Handles and references refer to buffers that were made, after any number of operations. -/
theorem placed_performAll {s : Store} (hs : s.Placed) (ops : List Op) : (s.performAll ops).Placed := by
  induction ops generalizing s with
  | nil => exact hs
  | cons op rest ih => exact ih ((s.kept_perform op).placed hs)

/-- What an operation makes of the bytes that a handle reads, if the handle stays mapped. -/
def Op.overwrite (g : HandleId) : Op → ByteArray → ByteArray
  | .write h start new, bytes => if h = g then Bytes.patched bytes start new else bytes
  | _, bytes => bytes

/-- Only a write through the handle itself changes what it reads. -/
theorem Op.overwrite_of_ne {op : Op} {g : HandleId} (hop : ∀ start new, op ≠ .write g start new)
    (bytes : ByteArray) : op.overwrite g bytes = bytes := by
  cases op with
  | write h start new =>
    refine if_neg fun heq => hop start new ?_
    rw [heq]
  | _ => rfl

/-- A handle that maps its buffer has one. -/
theorem Orderly.maps_of_mapping (hs : s.Orderly) {g : HandleId}
    (hm : (s.handle g).mapping ≠ .unmapped) :
    ∃ t x, (s.handle g).target = some t ∧ (s.handle g).Maps t.buffer (s.handle g).mapping ∧
      s.buffers.get? t.buffer = some x := by
  cases ht : (s.handle g).target with
  | none => exact absurd (hs.released g ht) hm
  | some t =>
    have hmaps : (s.handle g).Maps t.buffer (s.handle g).mapping := (Handle.maps_iff ht).2 ⟨rfl, rfl⟩
    obtain ⟨x, hx⟩ := hs.exists_of_maps hmaps hm
    exact ⟨t, x, rfl, hmaps, hx⟩

/-- What a mapped handle reads are the bytes of its buffer. -/
theorem mappedBytes_of_target {g : HandleId} {t : Target} {x : Buffer}
    (ht : (s.handle g).target = some t) (hx : s.buffers.get? t.buffer = some x) :
    s.mappedBytes g = .ok x.bytes := by
  rw [mappedBytes, ht, ← bytes_of_get? hx]

/-- Nobody else can overwrite what a handle maps. -/
theorem bytes_write {g h : HandleId} {start : Nat} {new : ByteArray} {t : Target} {x x' : Buffer}
    (ho : s.Orderly) (hs : s.Owned) (ht : (s.handle g).target = some t)
    (hx : s.buffers.get? t.buffer = some x)
    (hm' : ((s.write h start new).2.handle g).mapping ≠ .unmapped)
    (hx' : (s.write h start new).2.buffers.get? t.buffer = some x') :
    x'.bytes = (Op.write h start new).overwrite g x.bytes := by
  have hinherits := inherits_of_attains (fun _ _ => id) ho hs (s.spares_mapWrite h)
    (Table.lt_next_of_get? hx)
  have hmapped : (s.mapWrite h).2.Orderly := orderly_perform ho (.mapWrite h)
  have hfails := ho.mapping_mapWrite (h := h)
  have hothers : g ≠ h → (s.mapWrite h).2.handle g = s.handle g :=
    fun hne => (s.works_mapWrite h).handle g fun heq => hne (Option.some.inj heq).symm
  have htarget := ((s.works_mapWrite h).target g).trans ht
  simp only [write] at hm' hx'
  simp only [Op.overwrite]
  cases hw : s.mapWrite h with
  | mk result s₁ =>
    rw [hw] at hinherits hmapped hfails hm' hx' hothers htarget
    cases result with
    | error e =>
      obtain ⟨y, hy, hbytes⟩ := hinherits x' hx'
      cases hx.symm.trans hy
      rw [hbytes, if_neg]
      rintro rfl
      -- who is refused a writable mapping maps nothing any more
      by_cases hwas : (s.handle h).mapping = .writable
      · rw [mapWrite, if_pos hwas, mappedBytes_of_target ht hx] at hw
        cases hw
      · exact hm' (hfails hwas fun _ hok => by cases hok)
    | ok old =>
      have hwritable := mapping_of_mapWrite hw
      simp only at hm' hx'
      cases ht₁ : (s₁.handle h).target with
      | none => cases (hmapped.released h ht₁).symm.trans hwritable
      | some t₁ =>
        simp only [ht₁] at hm' hx'
        have hmaps₁ : (s₁.handle h).Maps t₁.buffer .writable :=
          (Handle.maps_iff ht₁).2 ⟨hwritable, rfl⟩
        -- the writer maps its buffer alone, so `g` is the writer or has another buffer
        by_cases heq : h = g
        · subst heq
          cases ht₁.symm.trans htarget
          rw [Table.get?_update, if_pos rfl] at hx'
          obtain ⟨y, hy, rfl⟩ := Option.map_eq_some_iff.1 hx'
          obtain ⟨z, hz, hbytes⟩ := hinherits y hy
          cases hx.symm.trans hz
          rw [if_pos rfl, bytes_of_mapWrite hw ht₁ hy, hbytes]
        · rw [if_neg heq]
          have hg := hothers (Ne.symm heq)
          simp only at hg
          have hne : t.buffer ≠ t₁.buffer := by
            intro hbuffer
            have hmapsg : (s₁.handle g).Maps t₁.buffer (s₁.handle g).mapping :=
              (Handle.maps_iff (hg ▸ ht)).2 ⟨rfl, hbuffer⟩
            exact heq ((hmapped.maps_iff_of_writable hmaps₁ hm').1 hmapsg).1.symm
          rw [Table.get?_update, if_neg hne] at hx'
          obtain ⟨y, hy, hbytes⟩ := hinherits x' hx'
          cases hx.symm.trans hy
          exact hbytes

/-- A handle that stays mapped reads what it read before, or what it overwrote that with. -/
theorem mappedBytes_perform {g : HandleId} {op : Op} (ho : s.Orderly) (hs : s.Owned)
    (hm : (s.handle g).mapping ≠ .unmapped)
    (hm' : ((s.perform op).handle g).mapping ≠ .unmapped) :
    (s.perform op).mappedBytes g = (s.mappedBytes g).map (op.overwrite g) := by
  obtain ⟨t, x, ht, -, hx⟩ := ho.maps_of_mapping hm
  obtain ⟨t', x', ht', -, hx'⟩ := (orderly_perform ho op).maps_of_mapping hm'
  cases ht.symm.trans ((s.retains_perform op).2 (lt_next_of_target ht) ht')
  rw [mappedBytes_of_target ht hx, mappedBytes_of_target ht' hx']
  refine congrArg Except.ok ?_
  -- a write may overwrite the payload, any other operation passes it on
  by_cases hop : ∃ h start new, op = .write h start new
  · obtain ⟨h, start, new, rfl⟩ := hop
    exact bytes_write ho hs ht hx hm' hx'
  · have hedit : ∀ b bytes, ¬op.Allows (.edited b bytes) := by
      intro b bytes hallows
      cases op with
      | write h start new => exact hop ⟨h, start, new, rfl⟩
      | _ => exact hallows
    obtain ⟨y, hy, hbytes⟩ :=
      inherits_of_attains hedit ho hs (s.makes_perform op) (Table.lt_next_of_get? hx) x' hx'
    cases hx.symm.trans hy
    rw [hbytes, Op.overwrite_of_ne fun start new heq => hop ⟨g, start, new, heq⟩]

/-- The same after any number of operations. -/
theorem mappedBytes_performAll {g : HandleId} {ops : List Op} (ho : s.Orderly) (hs : s.Owned)
    (hm : ∀ n, ((s.performAll (ops.take n)).handle g).mapping ≠ .unmapped) :
    (s.performAll ops).mappedBytes g =
      (s.mappedBytes g).map fun bytes => ops.foldl (fun bytes op => op.overwrite g bytes) bytes := by
  induction ops generalizing s with
  | nil =>
    show s.mappedBytes g = (s.mappedBytes g).map id
    cases s.mappedBytes g <;> rfl
  | cons op rest ih =>
    have howned : (s.perform op).Owned := owned_performAll hs [op]
    have hstep := mappedBytes_perform ho hs (hm 0) (hm 1)
    have hrest := ih (orderly_perform ho op) howned fun n => hm (n + 1)
    refine hrest.trans ?_
    rw [hstep]
    cases s.mappedBytes g <;> rfl

/-! ## The last owner of a buffer that is mapped -/

/-- An operation takes an owner from a buffer. -/
def Op.Forsakes (s : Store) (b : BufferId) : Op → Prop
  | .release h | .drop h => (s.handle h).target = some ⟨b, true⟩
  | .dropReference r => s.references.get? r = some b
  | _ => False

/-- A buffer that has an owner stays when it is unmapped. -/
theorem get?_buffers_unmap_of_alive {x : Buffer} (hx : s.buffers.get? b = some x)
    (hpos : 0 < x.owners) (h : HandleId) :
    ∃ l, (s.unmap h).buffers.get? b = some { x with lock := l } := by
  by_cases hb : ∀ t, (s.handle h).target = some t → b ≠ t.buffer
  · rw [s.get?_buffers_unmap_of_ne hb]
    exact ⟨x.lock, hx⟩
  · simp only [not_forall, not_not] at hb
    obtain ⟨t, ht, rfl⟩ := hb
    simp only [unmap, ht]
    split
    · exact ⟨x.lock, hx⟩
    · refine ⟨x.lock.leave (s.handle h).mapping, ?_⟩
      have hne : x.owners ≠ 0 := Nat.ne_of_gt hpos
      simp [sweep, hx, hne]

/-- What an operation that takes an owner from a buffer does to pools.  The handle that goes has given
    its mapping up before that. -/
theorem pools_of_forsakes {op : Op} (hop : op.Forsakes s b) {x : Buffer}
    (hx : s.buffers.get? b = some x) (hpos : 0 < x.owners) :
    ∃ (u : Store) (l : Lock), u.buffers.get? b = some { x with lock := l } ∧ u.pools = s.pools ∧
      (s.perform op).pools = (u.disown b).pools ∧ (s.perform op).lock b = u.lock b := by
  -- a release is a drop that leaves the handle in its table
  have hreleased : ∀ {h}, (s.handle h).target = some ⟨b, true⟩ →
      ∃ (u : Store) (l : Lock), u.buffers.get? b = some { x with lock := l } ∧ u.pools = s.pools ∧
        (s.release h).pools = (u.disown b).pools ∧ (s.release h).lock b = u.lock b := by
    intro h ht
    obtain ⟨l, hl⟩ := get?_buffers_unmap_of_alive hx hpos h
    have hpools : (s.unmap h).pools = s.pools := by
      simp only [unmap, ht]
      split
      · rfl
      · exact pools_sweep ..
    refine ⟨{ s.unmap h with handles := (s.unmap h).handles.set h { target := none } }, l, hl, hpools,
      ?_⟩
    simp only [release, target_unmap, ht, if_true]
    exact ⟨trivial, lock_disown ..⟩
  cases op with
  | release h => exact hreleased hop
  | drop h => exact hreleased hop
  | dropReference r =>
    refine ⟨{ s with references := s.references.erase r }, x.lock, hx, rfl, ?_⟩
    simp only [perform, dropReference, show s.references.get? r = some b from hop]
    exact ⟨trivial, lock_disown ..⟩
  | _ => exact False.elim hop

/-- When a buffer loses its last owner while somebody maps it, the pool has zeros instead. -/
theorem pools_of_replaced {op : Op} {g : HandleId} {m : Mapping} {p : PoolId} {pool : Pool}
    {x : Buffer} (ho : s.Orderly) (hs : Stocked p s) (hop : op.Forsakes s b)
    (hx : s.buffers.get? b = some x) (hlast : x.owners = 1) (hof : x.pool = some p)
    (hp : s.pools.get? p = some pool) (hmaps : ((s.perform op).handle g).Maps b m)
    (hm : m ≠ .unmapped) :
    (s.perform op).pools.get? p = some { pool with
      free := Bytes.zeros pool.size :: pool.free
      outstanding := pool.outstanding - 1 } := by
  obtain ⟨u, l, hl, hpools, hpools', hlock⟩ :=
    pools_of_forsakes hop hx (Nat.lt_of_lt_of_eq Nat.one_pos hlast.symm)
  -- the handle that still maps the buffer holds its lock
  have hheld : l ≠ .free := by
    intro hfree
    have hnone : (s.perform op).lock b = .free := by
      rw [hlock, lock, hl]
      exact hfree
    exact hm ((orderly_perform ho op).eq_free_iff.1 hnone g m hmaps)
  have hlent : s.lends p b := lends_iff.2 ⟨x, hx, hof, by omega⟩
  have hpos := lentBy_pos hlent
  have hhome := hs.home pool hp
  have hout := hs.outstanding pool hp
  have hleft := disown_of_last (s := u) hl (Nat.le_of_eq hlast)
  rw [hpools', hleft, pools_sweep, recycle_of_some (x := { x with lock := l }) hof]
  simp only [Table.get?_update, if_true, hpools, hp, if_neg hheld, Option.map_some]
  rw [Pool.put_of_room (by omega), Bytes.sized_empty]

/-- And that is what it lends next. -/
theorem acquire_of_zeros {p : PoolId} {pool : Pool} {size : Nat} {rest : List ByteArray}
    (hp : s.pools.get? p = some pool) (hfree : pool.free = Bytes.zeros size :: rest)
    (hroom : pool.outstanding < pool.capacity) :
    ∃ h s' b', s.acquire p = some (h, s') ∧ (s'.handle h).target = some ⟨b', true⟩ ∧
      s.buffers.get? b' = none ∧ s'.bytes b' = Bytes.zeros size := by
  obtain ⟨pool', htake⟩ : ∃ pool', pool.take? = some (Bytes.zeros size, pool') := by
    rw [Pool.take?, if_neg (Nat.not_le.2 hroom), hfree]
    exact ⟨_, rfl⟩
  have ha : s.acquire p = some (newBuffer { s with pools := s.pools.set p pool' }
      { bytes := Bytes.zeros size, pool := some p }) := by rw [acquire, hp, Option.bind_some, htake]
  refine ⟨_, _, s.buffers.next, ha, ?_, s.buffers.get?_of_next_le (Nat.le_refl _), ?_⟩
  · exact congrArg Handle.target (handle_newBuffer_self ..)
  · exact bytes_of_get? (get?_buffers_newBuffer_self ..)

end

end MediaBridge.Store
