import MediaBridge.Proofs.Buffer.Sharing

/-! # What holds of every store

`Sound` puts together what holds of a store whatever was done to it: locks and owners are counted right,
handles refer to buffers that were made, and the books of the pools are right.  `Undisturbed` says that
nobody asked a pool or gave it up, so that it has lent nothing more than before.

* `Sound.perform`        every store is sound;
* `undisturbed_perform`  a pool is disturbed only by asking it or giving it up.
-/

namespace MediaBridge.Store

/-- What holds of a store whatever was done to it. -/
structure Sound (s : Store) : Prop where
  orderly : s.Orderly
  owned : s.Owned
  placed : s.Placed
  stocked : ∀ p, Stocked p s

/-- Nothing is wrong with an empty store. -/
theorem sound_empty : Sound {} := ⟨orderly_empty, owned_empty, placed_empty, stocked_empty⟩

/-- A pool is still there, and has lent nothing more. -/
structure Undisturbed (p : PoolId) (s s' : Store) : Prop where
  lends : ∀ b, s'.lends p b → s.lends p b
  pool : ∀ pool, s.pools.get? p = some pool →
    ∃ pool', s'.pools.get? p = some pool' ∧ pool'.size = pool.size ∧ pool'.capacity = pool.capacity

section

variable {s s' s'' : Store} {p : PoolId}

/-- The books of the pools stay right. -/
theorem stocked_of_change {d : Deal} (howned : s.Owned) (hs : ∀ p, Stocked p s)
    (h : s.Change d s') (p : PoolId) : Stocked p s' :=
  (hs p).of_turnover (next_le_of_change h).2 (turnover_of_change howned h)

namespace Sound

/-- What single changes make of a sound store is sound, if nothing refers to buffers not made. -/
theorem of_attains (hs : s.Sound) (h : Attains Change s s') (hplaced : s'.Placed) : s'.Sound := by
  obtain ⟨deals, htrail⟩ := h
  -- the three are carried along the chain together, since owners are needed for the books
  have hall : s'.Orderly ∧ s'.Owned ∧ ∀ p, Stocked p s' := by
    clear hplaced
    induction htrail with
    | refl => exact ⟨hs.orderly, hs.owned, hs.stocked⟩
    | tail _ hstep ih =>
      obtain ⟨ho, howned, hstocked⟩ := ih
      exact ⟨orderly_of_change ho hstep, owned_of_change howned hstep,
        stocked_of_change howned hstocked hstep⟩
  obtain ⟨ho, howned, hstocked⟩ := hall
  exact ⟨ho, howned, hplaced, hstocked⟩

/-- No operation makes a store unsound. -/
theorem perform (hs : s.Sound) (op : Op) : (s.perform op).Sound :=
  hs.of_attains (s.attains_performAll [op]) ((s.kept_perform op).placed hs.placed)

/-- So no number of operations does. -/
theorem performAll (hs : s.Sound) (ops : List Op) : (s.performAll ops).Sound :=
  hs.of_attains (s.attains_performAll ops) (placed_performAll hs.placed ops)

/-- Changing an info does no harm either, whatever it is changed to. -/
theorem updateInfo (hs : s.Sound) {h : HandleId} {f : FrameInfo → FrameInfo}
    (hu : s.updateInfo h f = .ok s') : s'.Sound := by
  obtain ⟨deals, htrail⟩ := spares_updateInfo hu
  exact hs.of_attains ⟨deals, htrail.mono And.left⟩ ((kept_updateInfo hu).placed hs.placed)

/-- A pool that has lent nothing knows it. -/
theorem outstanding (hs : s.Sound) {pool : Pool} (hp : s.pools.get? p = some pool)
    (hnone : ∀ b, ¬s.lends p b) : pool.outstanding = 0 := by
  have hlent : s.lentBy p = 0 := by
    by_contra hpos
    obtain ⟨b, x, hx, hlent⟩ := Table.exists_of_count_pos (Nat.pos_of_ne_zero hpos)
    exact hnone b (lends_iff.2 ⟨x, hx, of_decide_eq_true hlent⟩)
  exact ((hs.stocked p).outstanding pool hp).trans hlent

/-- A pool that has lent nothing lends. -/
theorem acquire (hs : s.Sound) {pool : Pool} (hp : s.pools.get? p = some pool)
    (hnone : ∀ b, ¬s.lends p b) (hcapacity : 0 < pool.capacity) :
    ∃ h s', s.acquire p = some (h, s') := by
  cases ha : s.acquire p with
  | some acquired => exact ⟨acquired.1, acquired.2, rfl⟩
  | none =>
    -- all its payloads are at home, so one is there to be lent
    have hhome := hs.outstanding hp hnone
    have hlent := (hs.stocked p).outstanding pool hp
    have hfull := ((hs.stocked p).acquire_eq_none_iff hp).1 ha
    omega

end Sound

namespace Undisturbed

/-- Nothing happened to the pool. -/
theorem refl (p : PoolId) (s : Store) : Undisturbed p s s :=
  ⟨fun _ hb => hb, fun pool hp => ⟨pool, hp, rfl, rfl⟩⟩

/-- A pool that is left alone twice is left alone. -/
theorem trans (h : Undisturbed p s s') (h' : Undisturbed p s' s'') : Undisturbed p s s'' where
  lends := fun b hb => h.lends b (h'.lends b hb)
  pool := by
    intro pool hp
    obtain ⟨pool', hp', hsize', hcapacity'⟩ := h.pool pool hp
    obtain ⟨pool'', hp'', hsize'', hcapacity''⟩ := h'.pool pool' hp'
    exact ⟨pool'', hp'', hsize''.trans hsize', hcapacity''.trans hcapacity'⟩

end Undisturbed

/-- A pool is there after a change that does not give it up. -/
theorem pool_of_change {d : Deal} (h : s.Change d s') (hdropped : d ≠ .dropped p) {pool : Pool}
    (hp : s.pools.get? p = some pool) :
    ∃ pool', s'.pools.get? p = some pool' ∧ pool'.size = pool.size ∧
      pool'.capacity = pool.capacity := by
  have hsame : s'.pools = s.pools → ∃ pool', s'.pools.get? p = some pool' ∧
      pool'.size = pool.size ∧ pool'.capacity = pool.capacity := by
    intro heq
    rw [heq]
    exact ⟨pool, hp, rfl, rfl⟩
  -- a payload that comes home changes neither size nor capacity
  have hput : ∀ q bytes (u : Store) {b}, u.pools = s.pools.update q (·.put bytes) →
      ∃ pool', (u.sweep b).pools.get? p = some pool' ∧
        pool'.size = pool.size ∧ pool'.capacity = pool.capacity := by
    intro q bytes u b hu
    rw [pools_sweep, hu, Table.get?_update]
    split
    · rw [hp]
      exact ⟨_, rfl, Pool.size_put .., Pool.capacity_put ..⟩
    · exact ⟨pool, hp, rfl, rfl⟩
  -- only the last owner of a buffer gives something back
  have hparted : ∀ {u : Store} {b}, u.pools = s.pools → u.Disowns b d s' →
      ∃ pool', s'.pools.get? p = some pool' ∧
        pool'.size = pool.size ∧ pool'.capacity = pool.capacity := by
    intro u b hu hd
    cases hd with
    | absent | fewer => exact hsame hu
    | freed => exact hsame ((pools_sweep ..).trans hu)
    | @returned x q => exact hput q x.bytes _ (by rw [hu])
    | @replaced x q => exact hput q .empty _ (by rw [hu])
  cases h with
  | sweep b => exact hsame (pools_sweep ..)
  | newPool size capacity =>
    have hne : p ≠ s.pools.next := Nat.ne_of_lt (Table.lt_next_of_get? hp)
    exact ⟨pool, ((Table.get?_add ..).trans (if_neg hne)).trans hp, rfl, rfl⟩
  | dropPool q =>
    have hne : p ≠ q := fun heq => hdropped (by rw [heq])
    exact ⟨pool, ((Table.get?_erase ..).trans (if_neg hne)).trans hp, rfl, rfl⟩
  | @lend q h _ ha =>
    obtain ⟨pool₁, bytes, pool', hpool, htake, -, rfl⟩ := acquire_cases ha
    by_cases hq : p = q
    · subst hq
      cases hp.symm.trans hpool
      obtain ⟨-, hsize, hcapacity, -, -⟩ := Pool.outstanding_of_take? htake
      refine ⟨pool', ?_, hsize, hcapacity⟩
      refine (Table.get?_set ..).trans ?_
      rw [if_pos rfl, hp]
      rfl
    · exact ⟨pool, ((Table.get?_set ..).trans (if_neg hq)).trans hp, rfl, rfl⟩
  | leave _ _ hd => exact hparted (by exact rfl) hd
  | dropReference _ hd => exact hparted (by exact rfl) hd
  | map | unmap | edit | inform | make | makeReference | borrow | own | refer | forget | erase =>
    exact hsame rfl

/-- A change that neither lends from a pool nor gives it up leaves it undisturbed. -/
theorem undisturbed_of_change {d : Deal} (howned : s.Owned) (h : s.Change d s')
    (hlent : ∀ b, d ≠ .lent p b) (hdropped : d ≠ .dropped p) : Undisturbed p s s' where
  lends := by
    intro b hb
    cases turnover_of_change howned h (p := p) with
    | idle _ _ _ hloans => rwa [hloans.lends] at hb
    | stocked _ _ _ hloans => rwa [hloans.lends] at hb
    | lent hd => exact absurd hd (hlent _)
    | back _ _ _ hlends =>
      rw [hlends, Bool.and_eq_true] at hb
      exact hb.1
  pool := fun _ hp => pool_of_change h hdropped hp

/-- The same for any chain of such changes. -/
theorem undisturbed_of_attains {P : Deal → Prop} (hlent : ∀ b, ¬P (.lent p b))
    (hdropped : ¬P (.dropped p)) (howned : s.Owned)
    (h : Attains (fun s d s' => s.Change d s' ∧ P d) s s') : Undisturbed p s s' := by
  obtain ⟨deals, htrail⟩ := h
  -- what was lent is only known of stores whose owners are counted right
  have hall : s'.Owned ∧ Undisturbed p s s' := by
    induction htrail with
    | refl => exact ⟨howned, .refl p s⟩
    | @tail _ d u u' _ hstep ih =>
      obtain ⟨hchange, hd⟩ := hstep
      have hone : Undisturbed p u u' := by
        refine undisturbed_of_change ih.1 hchange ?_ ?_
        · rintro b rfl
          exact hlent b hd
        · rintro rfl
          exact hdropped hd
      exact ⟨owned_of_change ih.1 hchange, ih.2.trans hone⟩
  exact hall.2

/-- A pool is disturbed only by asking it or giving it up. -/
theorem undisturbed_perform (hs : s.Sound) (op : Op) (hacquire : op ≠ .acquire p)
    (hdrop : op ≠ .dropPool p) : Undisturbed p s (s.perform op) := by
  refine undisturbed_of_attains ?_ ?_ hs.owned (s.makes_perform op)
  · intro b hallows
    cases op with
    | acquire q =>
      cases hallows
      exact hacquire rfl
    | _ => exact hallows
  · intro hallows
    cases op with
    | dropPool q =>
      cases hallows
      exact hdrop rfl
    | _ => exact hallows

/-- What is done through a handle disturbs none. -/
theorem undisturbed_of_through (hs : s.Sound) (op : Op) {g : HandleId}
    (hop : op.through = some g) : Undisturbed p s (s.perform op) := by
  refine undisturbed_perform hs op ?_ ?_
  all_goals
    rintro rfl
    cases hop

/-- Changing an info disturbs no pool. -/
theorem undisturbed_updateInfo (hs : s.Sound) {h : HandleId} {f : FrameInfo → FrameInfo}
    (hu : s.updateInfo h f = .ok s') : Undisturbed p s s' :=
  undisturbed_of_attains (fun _ => id) id hs.owned (spares_updateInfo hu)

end

end MediaBridge.Store
