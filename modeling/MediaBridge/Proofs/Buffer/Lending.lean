import MediaBridge.Proofs.Buffer.Owners

/-! # What pools lend

A pool lends a payload to a buffer and has it back when the buffer loses its last owner, whichever handle
or reference that was, and whoever maps the buffer at that moment.  `Turnover` says what a change can be to
a pool.  `Stocked` says that what the pool has at home and what it lent make up its capacity, and `Recorded`
that of every buffer that it ever lent a payload to, either the buffer still has an owner or the pool has
had something back for it, once.

* `turnover_of_change`  what a change is to a pool;
* `balanced_of_trail`   the books of a pool are right after any changes;
* `lending_of_ops`      what any number of operations comes to.
-/

namespace MediaBridge

/-- A pool lent the payload of the buffer, and the buffer still has an owner. -/
def Buffer.IsLent (x : Buffer) (p : PoolId) : Prop := x.pool = some p ∧ 0 < x.owners

instance (x : Buffer) (p : PoolId) : Decidable (x.IsLent p) := inferInstanceAs (Decidable (_ ∧ _))

namespace Pool

/-- A pool that lends has one payload more out, and one less at home if there was any. -/
theorem outstanding_of_take? {p q : Pool} {bytes : ByteArray} (h : p.take? = some (bytes, q)) :
    q.outstanding = p.outstanding + 1 ∧ q.size = p.size ∧ q.capacity = p.capacity ∧
      p.outstanding < p.capacity ∧ q.free = p.free.tail := by
  unfold take? at h
  split at h
  · cases h
  · split at h
    · rename_i hfree
      cases h
      exact ⟨rfl, rfl, rfl, by omega, by rw [hfree]; rfl⟩
    · rename_i hfree
      cases h
      exact ⟨rfl, rfl, rfl, by omega, by rw [hfree]; rfl⟩

/-- What is lent is the next payload at home, or a new one if there is none. -/
theorem take?_cases {p q : Pool} {bytes : ByteArray} (h : p.take? = some (bytes, q)) :
    (p.free = [] ∧ bytes = Bytes.zeros p.size ∧ q.free = []) ∨ p.free = bytes :: q.free := by
  unfold take? at h
  split at h
  · cases h
  · split at h
    · rename_i hfree
      cases h
      exact .inl ⟨hfree, rfl, hfree⟩
    · rename_i hfree
      cases h
      exact .inr hfree

/-- With room at home a payload is kept, in the size that the pool has. -/
theorem put_of_room {p : Pool} (h : p.free.length < p.capacity * 2) (bytes : ByteArray) :
    p.put bytes =
      { p with free := Bytes.sized bytes p.size :: p.free, outstanding := p.outstanding - 1 } :=
  if_pos h

/-- What comes home does not change the size of a pool. -/
@[simp] theorem size_put (p : Pool) (bytes : ByteArray) : (p.put bytes).size = p.size := by
  unfold put
  split <;> rfl

/-- What comes home does not change the capacity of a pool. -/
@[simp] theorem capacity_put (p : Pool) (bytes : ByteArray) :
    (p.put bytes).capacity = p.capacity := by
  unfold put
  split <;> rfl

end Pool

namespace Store

/-! ## Loans -/

/-- Whether a pool lent a buffer its payload, and the buffer still has an owner. -/
def lends (s : Store) (p : PoolId) (b : BufferId) : Bool :=
  (s.buffers.get? b).any fun x => x.IsLent p

/-- The number of such buffers. -/
def lentBy (s : Store) (p : PoolId) : Nat := s.buffers.count fun x => x.IsLent p

/-- Whether a change is that a pool lends a buffer its payload. -/
def Deal.lends (p : PoolId) (b : BufferId) : Deal → Bool
  | .lent p' b' => p = p' ∧ b = b'
  | _ => false

/-- Whether a change is that a pool has something back for a buffer. -/
def Deal.takesBack (p : PoolId) (b : BufferId) : Deal → Bool
  | .returned p' b' | .replaced p' b' => p = p' ∧ b = b'
  | _ => false

/-- The same payloads of a pool are on loan. -/
structure SameLoans (p : PoolId) (s s' : Store) : Prop where
  lends : ∀ b, s'.lends p b = s.lends p b
  lentBy : s'.lentBy p = s.lentBy p

section

variable {s s' s'' : Store} {p : PoolId} {b : BufferId}

/-- A payload is on loan while its buffer has an owner. -/
theorem lends_iff : s.lends p b ↔ ∃ x, s.buffers.get? b = some x ∧ x.IsLent p := by
  unfold lends
  cases s.buffers.get? b with
  | none => simp
  | some x => simp

/-- What is lent has an owner. -/
theorem isAlive_of_lends (h : s.lends p b) : s.isAlive b := by
  obtain ⟨x, hx, -, howners⟩ := lends_iff.1 h
  rw [isAlive, hx]
  exact decide_eq_true howners

namespace SameLoans

/-- The same loans twice are the same loans. -/
theorem trans (h : SameLoans p s s') (h' : SameLoans p s' s'') : SameLoans p s s'' where
  lends := fun b => (h'.lends b).trans (h.lends b)
  lentBy := h'.lentBy.trans h.lentBy

/-- Buffers that are the same have the same loans. -/
theorem of_same (hbuffers : s'.buffers = s.buffers) : SameLoans p s s' where
  lends := fun b => by rw [Store.lends, hbuffers, Store.lends]
  lentBy := by rw [Store.lentBy, hbuffers, Store.lentBy]

/-- A buffer that is changed in place keeps its loan if it keeps its pool and some owner. -/
theorem of_update {f : Buffer → Buffer} (hbuffers : s'.buffers = s.buffers.update b f)
    (hf : ∀ x, s.buffers.get? b = some x → ((f x).IsLent p ↔ x.IsLent p)) : SameLoans p s s' where
  lends := by
    intro b'
    simp only [Store.lends, hbuffers, Table.get?_update]
    split
    · rename_i heq
      rw [heq]
      cases hx : s.buffers.get? b with
      | none => rfl
      | some x => simp only [Option.map_some, Option.any_some, hf x hx]
    · rfl
  lentBy := by
    rw [Store.lentBy, hbuffers]
    exact Table.count_update_of_same fun x hx => by simp only [hf x hx]

/-- A buffer was made, and its payload is not of the pool. -/
theorem of_add {x : Buffer} (hbuffers : s'.buffers = (s.buffers.add x).2) (hx : x.pool ≠ some p) :
    SameLoans p s s' where
  lends := by
    intro b
    simp only [Store.lends, hbuffers, Table.get?_add]
    split
    · rename_i heq
      rw [heq, s.buffers.get?_of_next_le (Nat.le_refl _)]
      simp [Buffer.IsLent, hx]
    · rfl
  lentBy := by
    rw [Store.lentBy, hbuffers, Table.count_add, if_neg (by simp [Buffer.IsLent, hx])]
    rfl

/-- Removing a buffer that nobody needs ends no loan. -/
theorem sweep (s : Store) (b : BufferId) : SameLoans p s (s.sweep b) := by
  unfold Store.sweep
  split
  · exact of_same rfl
  · rename_i x hx
    split
    · rename_i hdead
      -- what is removed has no owner, so it was not on loan
      have hnot : ¬x.IsLent p := fun hlent => absurd hdead.1 (Nat.ne_of_gt hlent.2)
      constructor
      · intro b'
        simp only [Store.lends, Table.get?_erase]
        split
        · rename_i heq
          rw [heq, hx]
          simp [hnot]
        · rfl
      · have hcount := Table.count_erase hx fun y => y.IsLent p
        rw [if_neg (by simpa using hnot)] at hcount
        exact hcount
    · exact of_same rfl

/-- A loan is not touched by another owner of the buffer. -/
theorem adopt (hb : 0 < s.ownersOf b) : SameLoans p s (s.adopt b) := by
  refine of_update (f := fun x => { x with owners := x.owners + 1 }) rfl fun x hx => ?_
  -- the buffer had an owner before, so it was on loan before if it is now
  have hpos : 0 < x.owners := by rwa [ownersOf, hx] at hb
  simp only [Buffer.IsLent, hpos, Nat.succ_pos]

/-- A buffer lost an owner, and it has others or is not of the pool. -/
theorem of_set {x y : Buffer} (hbuffers : s'.buffers = s.buffers.set b y)
    (hx : s.buffers.get? b = some x) (hy : y.IsLent p ↔ x.IsLent p) : SameLoans p s s' := by
  refine of_update (b := b) (f := fun _ => y) ?_ fun x' hx' => ?_
  · rw [hbuffers, Table.set_eq_update hx fun _ => y]
  · rw [hx] at hx'
    cases hx'
    exact hy

end SameLoans

/-! ## Changes of a pool -/

/-- What a change is to a pool. -/
inductive Turnover (p : PoolId) (s : Store) (d : Deal) (s' : Store) : Prop where
  -- Nothing, unless the pool is given up.
  | idle (hlends : ∀ b, d.lends p b = false) (hback : ∀ b, d.takesBack p b = false)
    (hpool : ∀ pool, s'.pools.get? p = some pool → s.pools.get? p = some pool)
    (hloans : SameLoans p s s')
  -- The pool is made.
  | stocked {size capacity : Nat} (hd : d = .stocked p size capacity) (hnew : p = s.pools.next)
    (hpool : s'.pools.get? p = some (.new size capacity)) (hloans : SameLoans p s s')
  -- It lends a payload to a new buffer.
  | lent {pool pool' : Pool} {bytes : ByteArray} (hd : d = .lent p s.buffers.next)
    (hpool : s.pools.get? p = some pool) (htake : pool.take? = some (bytes, pool'))
    (hpool' : s'.pools.get? p = some pool') (hnext : s.buffers.next < s'.buffers.next)
    (hlends : ∀ b, s'.lends p b = (s.lends p b || b == s.buffers.next))
    (hlentBy : s'.lentBy p = s.lentBy p + 1)
  -- It has something back for a buffer that lost its last owner.
  | back {b : BufferId} {bytes : ByteArray} (hd : d = .returned p b ∨ d = .replaced p b)
    (hlent : s.lends p b) (hpool : s'.pools.get? p = (s.pools.get? p).map (·.put bytes))
    (hlends : ∀ b', s'.lends p b' = (s.lends p b' && b' != b))
    (hlentBy : s'.lentBy p + 1 = s.lentBy p)

/-- A change that leaves payloads alone is nothing to a pool. -/
theorem Turnover.of_idle
    (hpool : ∀ pool, s'.pools.get? p = some pool → s.pools.get? p = some pool)
    (hloans : SameLoans p s s') : Turnover p s .idle s' :=
  .idle (fun _ => rfl) (fun _ => rfl) hpool hloans

/-- A buffer of a pool lost its last owner, and the pool takes something for its payload. -/
theorem turnover_of_last {q : PoolId} {x : Buffer} {bytes : ByteArray} {d : Deal}
    (hd : d = .returned q b ∨ d = .replaced q b)
    (hx : s.buffers.get? b = some x) (howners : 0 < x.owners) (hlast : x.owners ≤ 1)
    (hof : x.pool = some q) (hbuffers : s'.buffers = s.buffers.set b { x with owners := x.owners - 1 })
    (hpools : s'.pools = s.pools.update q (·.put bytes)) : Turnover p s d (s'.sweep b) := by
  have hswept : SameLoans p s' (s'.sweep b) := .sweep s' b
  have hended : ¬({ x with owners := x.owners - 1 } : Buffer).IsLent p :=
    fun hlent => absurd hlent.2 (by simp only; omega)
  -- the pool of the buffer has its payload back, and all other pools have nothing to do with it
  by_cases hq : q = p
  · subst hq
    have hlent : x.IsLent q := ⟨hof, howners⟩
    have hpool : (s'.sweep b).pools.get? q = (s.pools.get? q).map (·.put bytes) := by
      rw [pools_sweep, hpools, Table.get?_update, if_pos rfl]
    refine .back hd (lends_iff.2 ⟨x, hx, hlent⟩) hpool ?_ ?_
    · intro b'
      rw [hswept.lends, lends, hbuffers, Table.get?_set]
      by_cases heq : b' = b
      · rw [heq, if_pos rfl, hx]
        simp [hended]
      · rw [if_neg heq]
        simp [heq, lends]
    · have hcount := Table.count_set hx { x with owners := x.owners - 1 } fun y => y.IsLent q
      rw [if_pos (decide_eq_true hlent), if_neg (by simpa using hended)] at hcount
      rw [hswept.lentBy, lentBy, hbuffers]
      exact hcount
  · have hnot : ¬x.IsLent p := fun hlent => hq (Option.some.inj (hof.symm.trans hlent.1))
    refine .idle ?_ ?_ ?_ (.trans (.of_set hbuffers hx (by simp only [hended, hnot])) hswept)
    · rcases hd with rfl | rfl <;> exact fun _ => rfl
    · rcases hd with rfl | rfl <;> simp [Deal.takesBack, Ne.symm hq]
    · intro pool hpool
      rwa [pools_sweep, hpools, Table.get?_update, if_neg (Ne.symm hq)] at hpool

/-- What it is to a pool that a buffer loses an owner. -/
theorem turnover_of_disowns {d : Deal} (hb : 0 < s.ownersOf b) (h : s.Disowns b d s') :
    Turnover p s d s' := by
  have hpos : ∀ {x}, s.buffers.get? b = some x → 0 < x.owners := by
    intro x hx
    rwa [ownersOf, hx] at hb
  -- only in the last two cases does something come home
  cases h with
  | absent => exact .of_idle (fun _ hpool => hpool) (.of_same rfl)
  | @fewer x hx hmore =>
    refine .of_idle (fun _ hpool => hpool) (.of_set rfl hx ?_)
    simp only [Buffer.IsLent, hpos hx, Nat.sub_pos_of_lt hmore]
  | @freed x hx hlast hof =>
    refine .of_idle (fun pool hpool => ?_) (.trans (.of_set rfl hx ?_) (.sweep _ b))
    · rwa [pools_sweep] at hpool
    · simp only [Buffer.IsLent, hof, reduceCtorEq, false_and]
  | returned hx hlast hof => exact turnover_of_last (.inl rfl) hx (hpos hx) hlast hof rfl rfl
  | replaced hx hlast hof => exact turnover_of_last (.inr rfl) hx (hpos hx) hlast hof rfl rfl

/-- A change that was made after handles or references were forgotten. -/
theorem Turnover.after {u : Store} {d : Deal} (h : Turnover p u d s') (hbuffers : u.buffers = s.buffers)
    (hpools : u.pools = s.pools) : Turnover p s d s' := by
  -- a pool depends on buffers and pools alone, so the other parts of the store may differ
  obtain ⟨buffers, handles, references, pools⟩ := s
  cases hbuffers
  cases hpools
  cases h with
  | idle hlends hback hpool hloans =>
    exact .idle hlends hback hpool ⟨hloans.lends, hloans.lentBy⟩
  | stocked hd hnew hpool hloans => exact .stocked hd hnew hpool ⟨hloans.lends, hloans.lentBy⟩
  | lent hd hpool htake hpool' hnext hlends hlentBy =>
    exact .lent hd hpool htake hpool' hnext hlends hlentBy
  | back hd hlent hpool hlends hlentBy => exact .back hd hlent hpool hlends hlentBy

/-- What a change is to a pool. -/
theorem turnover_of_change {d : Deal} (hs : s.Owned) (h : s.Change d s') : Turnover p s d s' := by
  cases h with
  | @map _ _ _ l =>
    exact .of_idle (fun _ hpool => hpool)
      (.of_update (f := fun x => { x with lock := l }) rfl fun x _ => Iff.rfl)
  | @unmap h =>
    exact .of_idle (fun _ hpool => hpool)
      (.of_update (f := fun x => { x with lock := x.lock.leave (s.handle h).mapping }) rfl
        fun x _ => Iff.rfl)
  | sweep b =>
    refine .of_idle (fun pool hpool => ?_) (.sweep s b)
    rwa [pools_sweep] at hpool
  | @edit _ _ bytes ht hm =>
    exact .idle (fun _ => rfl) (fun _ => rfl) (fun _ hpool => hpool)
      (.of_update (f := fun x => { x with bytes }) rfl fun x _ => Iff.rfl)
  | inform b i =>
    exact .of_idle (fun _ hpool => hpool)
      (.of_update (f := fun x => { x with info := i }) rfl fun x _ => Iff.rfl)
  | make bytes info =>
    exact .idle (fun _ => rfl) (fun _ => rfl) (fun _ hpool => hpool)
      (.of_add (x := { bytes, info }) rfl nofun)
  | makeReference bytes =>
    exact .idle (fun _ => rfl) (fun _ => rfl) (fun _ hpool => hpool)
      (.of_add (x := { bytes }) rfl nofun)
  | newPool size capacity =>
    -- only the pool that is made is concerned
    by_cases hp : p = s.pools.next
    · exact .stocked (by rw [hp]) hp ((Table.get?_add ..).trans (if_pos hp)) (.of_same rfl)
    · refine .idle (fun _ => rfl) (fun _ => rfl) (fun pool hpool => ?_) (.of_same rfl)
      exact ((Table.get?_add ..).trans (if_neg hp)).symm.trans hpool
  | dropPool q =>
    refine .idle (fun _ => rfl) (fun _ => rfl) (fun pool hpool => ?_) (.of_same rfl)
    simp only [dropPool, Table.get?_erase] at hpool
    split at hpool
    · cases hpool
    · exact hpool
  | @lend q h _ ha =>
    obtain ⟨pool, bytes, pool', hpool, htake, -, rfl⟩ := acquire_cases ha
    -- only the pool that lends is concerned
    by_cases hq : p = q
    · subst hq
      refine .lent rfl hpool htake ?_ (Nat.lt_succ_self _) ?_ ?_
      · refine (Table.get?_set ..).trans ?_
        rw [if_pos rfl, hpool]
        rfl
      · intro b
        show ((s.buffers.add _).2.get? b).any _ = _
        rw [Table.get?_add]
        by_cases heq : b = s.buffers.next
        · simp [heq, Buffer.IsLent]
        · simp [heq, lends]
      · refine (Table.count_add ..).trans ?_
        rw [if_pos (decide_eq_true ⟨rfl, Nat.one_pos⟩)]
        rfl
    · refine .idle ?_ (fun _ => rfl) ?_
        (.of_add (x := { bytes, pool := some q }) rfl fun heq => hq (Option.some.inj heq).symm)
      · simp [Deal.lends, hq]
      · intro pool₁ hpool₁
        exact ((Table.get?_set ..).trans (if_neg hq)).symm.trans hpool₁
  | borrow => exact .of_idle (fun _ hpool => hpool) (.of_same rfl)
  | own hr =>
    have hadopt : SameLoans p s (s.adopt _) := .adopt (hs.pos_of_referring hr)
    exact .of_idle (fun _ hpool => hpool) ⟨hadopt.lends, hadopt.lentBy⟩
  | refer hl =>
    have hadopt : SameLoans p s (s.adopt _) := .adopt (isAlive_iff.1 (live?_eq_some_iff.1 hl).2)
    exact .of_idle (fun _ hpool => hpool) ⟨hadopt.lends, hadopt.lentBy⟩
  | forget => exact .of_idle (fun _ hpool => hpool) (.of_same rfl)
  | leave ht _ hd =>
    exact (turnover_of_disowns (by exact hs.pos_of_owning ht) hd).after rfl rfl
  | erase => exact .of_idle (fun _ hpool => hpool) (.of_same rfl)
  | dropReference hr hd =>
    exact (turnover_of_disowns (by exact hs.pos_of_referring hr) hd).after rfl rfl

/-- Keys are handed out in ascending order. -/
theorem next_le_of_change {d : Deal} (h : s.Change d s') :
    s.buffers.next ≤ s'.buffers.next ∧ s.pools.next ≤ s'.pools.next := by
  have hparted : ∀ {u v : Store} {b : BufferId} {d : Deal}, u.Disowns b d v →
      v.buffers.next = u.buffers.next ∧ v.pools.next = u.pools.next := by
    intro u v b d hd
    cases hd with
    | absent | fewer => exact ⟨rfl, rfl⟩
    | freed | returned | replaced =>
      exact ⟨next_buffers_sweep .., (congrArg Table.next (pools_sweep ..)).trans rfl⟩
  cases h with
  | sweep b =>
    exact ⟨Nat.le_of_eq (next_buffers_sweep ..).symm,
      Nat.le_of_eq (congrArg Table.next (pools_sweep ..).symm)⟩
  | make | makeReference => exact ⟨Nat.le_succ _, Nat.le_refl _⟩
  | newPool => exact ⟨Nat.le_refl _, Nat.le_succ _⟩
  | lend ha =>
    obtain ⟨_, _, _, -, -, -, rfl⟩ := acquire_cases ha
    exact ⟨Nat.le_succ _, Nat.le_refl _⟩
  | leave _ _ hd | dropReference _ hd =>
    exact ⟨Nat.le_of_eq (hparted hd).1.symm, Nat.le_of_eq (hparted hd).2.symm⟩
  | map | unmap | edit | inform | dropPool | borrow | own | refer | forget | erase =>
    exact ⟨Nat.le_refl _, Nat.le_refl _⟩

/-! ## What a pool has -/

/-- What a pool has at home and what it lent make up its capacity. -/
structure Stocked (p : PoolId) (s : Store) : Prop where
  /-- A pool that was not made yet has nothing on loan. -/
  unmade : s.pools.next ≤ p → s.lentBy p = 0
  /-- The pool knows how much it lent. -/
  outstanding : ∀ pool, s.pools.get? p = some pool → pool.outstanding = s.lentBy p
  home : ∀ pool, s.pools.get? p = some pool →
    pool.free.length + pool.outstanding = pool.capacity
  uniform : ∀ pool, s.pools.get? p = some pool → pool.Uniform

/-- Nothing is wrong with the books of a pool that was not made. -/
theorem stocked_empty (p : PoolId) : Stocked p {} where
  unmade := fun _ => rfl
  outstanding := nofun
  home := nofun
  uniform := nofun

/-- A pool that lends a buffer its payload has something on loan. -/
theorem lentBy_pos (h : s.lends p b) : 0 < s.lentBy p := by
  obtain ⟨x, hx, hlent⟩ := lends_iff.1 h
  exact Table.count_pos_of_get? hx (decide_eq_true hlent)

/-- Nothing that happens to a pool makes its stock wrong. -/
theorem Stocked.of_turnover {d : Deal} (hs : Stocked p s) (hnext : s.pools.next ≤ s'.pools.next)
    (h : Turnover p s d s') : Stocked p s' := by
  cases h with
  | idle _ _ hpool hloans =>
    constructor
    · exact fun hp => hloans.lentBy.trans (hs.unmade (Nat.le_trans hnext hp))
    · exact fun pool hp => (hs.outstanding pool (hpool pool hp)).trans hloans.lentBy.symm
    · exact fun pool hp => hs.home pool (hpool pool hp)
    · exact fun pool hp => hs.uniform pool (hpool pool hp)
  | @stocked size capacity _ hnew hpool hloans =>
    constructor
    · exact fun hp => hloans.lentBy.trans (hs.unmade (Nat.le_trans hnext hp))
    all_goals
      intro pool hp
      cases hpool.symm.trans hp
    · exact (hloans.lentBy.trans (hs.unmade (Nat.le_of_eq hnew.symm))).symm
    · exact List.length_replicate
    · exact Pool.uniform_new size capacity
  | @lent pool pool' bytes _ hpool htake hpool' _ _ hlentBy =>
    -- one payload went from home to the loans
    obtain ⟨hout, -, hcapacity, hroom, hfree⟩ := Pool.outstanding_of_take? htake
    have hhome := hs.home pool hpool
    constructor
    · intro hp
      have hlt := Table.lt_next_of_get? hpool
      omega
    all_goals
      intro q hq
      cases hpool'.symm.trans hq
    · rw [hout, hlentBy, hs.outstanding pool hpool]
    · rw [hfree, List.length_tail, hout, hcapacity]
      omega
    · exact (hs.uniform pool hpool).of_take? htake
  | @back b bytes _ hlent hpool _ hlentBy =>
    have hpos := lentBy_pos hlent
    -- the pool lent something, so what comes back finds room
    have hput : ∀ q, s'.pools.get? p = some q → ∃ pool, s.pools.get? p = some pool ∧
        q = pool.put bytes ∧
        q = { pool with
          free := Bytes.sized bytes pool.size :: pool.free
          outstanding := pool.outstanding - 1 } := by
      intro q hq
      rw [hpool] at hq
      obtain ⟨pool, hp, rfl⟩ := Option.map_eq_some_iff.1 hq
      have hhome := hs.home pool hp
      have hout := hs.outstanding pool hp
      exact ⟨pool, hp, rfl, Pool.put_of_room (by omega) bytes⟩
    constructor
    · intro hp
      have hunmade := hs.unmade (Nat.le_trans hnext hp)
      omega
    · intro q hq
      obtain ⟨pool, hp, -, rfl⟩ := hput q hq
      have hout := hs.outstanding pool hp
      simp only
      omega
    · intro q hq
      obtain ⟨pool, hp, -, rfl⟩ := hput q hq
      have hhome := hs.home pool hp
      have hout := hs.outstanding pool hp
      simp only [List.length_cons]
      omega
    · intro q hq
      obtain ⟨pool, hp, rfl, -⟩ := hput q hq
      exact (hs.uniform pool hp).put bytes

/-! ## The deals of a pool -/

/-- What the deals with a pool come to for each buffer. -/
structure Recorded (p : PoolId) (deals : List Deal) (s : Store) : Prop where
  /-- A buffer that was not made yet was not lent anything. -/
  unborn : ∀ b, s.buffers.next ≤ b → deals.countP (Deal.lends p b) = 0
  /-- A buffer is lent a payload once. -/
  once : ∀ b, deals.countP (Deal.lends p b) ≤ 1
  /-- For a buffer that was lent a payload, the pool had something back unless the loan is open. -/
  back : ∀ b, deals.countP (Deal.takesBack p b) + (s.lends p b).toNat =
    deals.countP (Deal.lends p b)
  /-- A pool is as it was made. -/
  made : ∀ pool, s.pools.get? p = some pool → .stocked p pool.size pool.capacity ∈ deals

/-- At the start there is nothing to record. -/
theorem recorded_empty (p : PoolId) : Recorded p [] {} where
  unborn := fun _ _ => rfl
  once := fun _ => Nat.zero_le _
  back := fun _ => rfl
  made := nofun

/-- One more deal is counted if it is of the kind. -/
theorem countP_concat (deals : List Deal) (d : Deal) (f : Deal → Bool) :
    (deals ++ [d]).countP f = deals.countP f + (f d).toNat := by
  rw [List.countP_append, List.countP_singleton]
  cases f d <;> rfl

namespace Recorded

variable {deals : List Deal} {d : Deal}

/-- A change with which the pool has nothing to do. -/
theorem idle (hr : Recorded p deals s) (hnext : s.buffers.next ≤ s'.buffers.next)
    (hlends : ∀ b, d.lends p b = false) (hback : ∀ b, d.takesBack p b = false)
    (hloans : SameLoans p s s') (hmade : ∀ pool, s'.pools.get? p = some pool →
      .stocked p pool.size pool.capacity ∈ deals ∨ .stocked p pool.size pool.capacity = d) :
    Recorded p (deals ++ [d]) s' := by
  constructor
  · intro b hle
    rw [countP_concat, hlends, hr.unborn b (Nat.le_trans hnext hle)]
    rfl
  · intro b
    rw [countP_concat, hlends]
    exact hr.once b
  · intro b
    rw [countP_concat, countP_concat, hlends, hback, hloans.lends]
    exact hr.back b
  · intro pool hp
    rcases hmade pool hp with hbefore | hnow
    · exact List.mem_append_left _ hbefore
    · exact List.mem_append_right _ (List.mem_singleton.2 hnow)

/-- A new loan is the first of its buffer. -/
theorem lent (hr : Recorded p deals s) (hnext : s.buffers.next < s'.buffers.next)
    (hlends : ∀ b, s'.lends p b = (s.lends p b || b == s.buffers.next))
    (hmade : ∀ pool, s'.pools.get? p = some pool → .stocked p pool.size pool.capacity ∈ deals) :
    Recorded p (deals ++ [.lent p s.buffers.next]) s' := by
  have hlent : ∀ b, Deal.lends p b (.lent p s.buffers.next) = (b == s.buffers.next) := by
    intro b
    by_cases heq : b = s.buffers.next <;> simp [Deal.lends, heq]
  have hunborn := hr.unborn s.buffers.next (Nat.le_refl _)
  constructor
  · intro b hle
    rw [countP_concat, hlent, hr.unborn b (by omega),
      beq_false_of_ne (Nat.ne_of_gt (Nat.lt_of_lt_of_le hnext hle))]
    rfl
  · intro b
    rw [countP_concat, hlent]
    -- only the new buffer has one loan more, and nothing was taken back for it
    by_cases heq : b = s.buffers.next
    · rw [heq, hunborn, beq_self_eq_true]
      exact Nat.le_refl 1
    · rw [beq_false_of_ne heq]
      exact hr.once b
  · intro b
    rw [countP_concat, countP_concat, hlent, hlends]
    have hback := hr.back b
    by_cases heq : b = s.buffers.next
    · subst heq
      rw [hunborn] at hback ⊢
      have hnone : deals.countP (Deal.takesBack p s.buffers.next) = 0 := by omega
      rw [hnone, beq_self_eq_true, Bool.or_true]
      rfl
    · rw [beq_false_of_ne heq, Bool.or_false]
      exact hback
  · exact fun pool hp => List.mem_append_left _ (hmade pool hp)

/-- A loan that ends was open, and so was not taken back before. -/
theorem takenBack (hr : Recorded p deals s) (hnext : s.buffers.next ≤ s'.buffers.next)
    (hd : d = .returned p b ∨ d = .replaced p b) (hlent : s.lends p b)
    (hlends : ∀ b', s'.lends p b' = (s.lends p b' && b' != b))
    (hmade : ∀ pool, s'.pools.get? p = some pool → .stocked p pool.size pool.capacity ∈ deals) :
    Recorded p (deals ++ [d]) s' := by
  have hnever : ∀ b', Deal.lends p b' d = false := by
    rcases hd with rfl | rfl <;> exact fun _ => rfl
  have htakes : ∀ b', Deal.takesBack p b' d = (b' == b) := by
    intro b'
    rcases hd with rfl | rfl <;> by_cases heq : b' = b <;> simp [Deal.takesBack, heq]
  constructor
  · intro b' hle
    rw [countP_concat, hnever, hr.unborn b' (Nat.le_trans hnext hle)]
    rfl
  · intro b'
    rw [countP_concat, hnever]
    exact hr.once b'
  · intro b'
    rw [countP_concat, countP_concat, hnever, htakes, hlends]
    have hback := hr.back b'
    -- the loan of this buffer was open, and is closed now
    by_cases heq : b' = b
    · subst heq
      rw [hlent, Bool.toNat_true] at hback
      rw [beq_self_eq_true, bne_self_eq_false, Bool.and_false]
      exact hback
    · rw [beq_false_of_ne heq, bne_iff_ne.2 heq, Bool.and_true]
      exact hback
  · exact fun pool hp => List.mem_append_left _ (hmade pool hp)

/-- Nothing that happens to a pool makes its records wrong. -/
theorem of_turnover (hr : Recorded p deals s) (hnext : s.buffers.next ≤ s'.buffers.next)
    (h : Turnover p s d s') : Recorded p (deals ++ [d]) s' := by
  cases h with
  | idle hlends hback hpool hloans =>
    exact hr.idle hnext hlends hback hloans fun pool hp => .inl (hr.made pool (hpool pool hp))
  | stocked hd _ hpool hloans =>
    subst hd
    refine hr.idle hnext (fun _ => rfl) (fun _ => rfl) hloans fun pool hp => ?_
    cases hpool.symm.trans hp
    exact .inr rfl
  | lent hd hpool htake hpool' hnew hlends =>
    subst hd
    refine hr.lent hnew hlends fun pool hp => ?_
    cases hpool'.symm.trans hp
    obtain ⟨-, hsize, hcapacity, -, -⟩ := Pool.outstanding_of_take? htake
    rw [hsize, hcapacity]
    exact hr.made _ hpool
  | back hd hlent hpool hlends =>
    refine hr.takenBack hnext hd hlent hlends fun pool hp => ?_
    rw [hpool] at hp
    obtain ⟨pool', hp', rfl⟩ := Option.map_eq_some_iff.1 hp
    rw [Pool.size_put, Pool.capacity_put]
    exact hr.made pool' hp'

end Recorded

/-- The books of a pool are right after any changes. -/
theorem balanced_of_trail {deals : List Deal} (h : Trail Change {} deals s) (p : PoolId) :
    Stocked p s ∧ Recorded p deals s := by
  -- owners are counted right all along, which the turnover of each change rests on
  have hbooks : s.Owned ∧ Stocked p s ∧ Recorded p deals s := by
    induction h with
    | refl => exact ⟨owned_empty, stocked_empty p, recorded_empty p⟩
    | tail _ hstep ih =>
      obtain ⟨howned, hstocked, hrecorded⟩ := ih
      have hturnover := turnover_of_change howned hstep (p := p)
      obtain ⟨hbuffers, hpools⟩ := next_le_of_change hstep
      exact ⟨owned_of_change howned hstep, hstocked.of_turnover hpools hturnover,
        hrecorded.of_turnover hbuffers hturnover⟩
  exact hbooks.2

end

/-! ## Any operations -/

/-- A payload that a pool lends is the payload of a buffer that was not there before, and it has the
    size that the pool's payloads have. -/
theorem Stocked.acquired {s s' : Store} {p : PoolId} {pool : Pool} {h : HandleId}
    (hs : Stocked p s) (hp : s.pools.get? p = some pool) (ha : s.acquire p = some (h, s')) :
    ∃ b x, s.buffers.get? b = none ∧ (s'.handle h).target = some ⟨b, true⟩ ∧
      s'.buffers.get? b = some x ∧ x.IsLent p ∧ x.bytes.size = pool.size := by
  obtain ⟨q, bytes, q', hq, htake, rfl, rfl⟩ := acquire_cases ha
  cases hp.symm.trans hq
  exact ⟨s.buffers.next, _, s.buffers.get?_of_next_le (Nat.le_refl _),
    congrArg Handle.target (handle_newBuffer_self ..), get?_buffers_newBuffer_self ..,
    ⟨rfl, Nat.one_pos⟩, Pool.size_of_take? (hs.uniform pool hp) htake⟩

/-- A pool refuses just if all that it has is lent. -/
theorem Stocked.acquire_eq_none_iff {s : Store} {p : PoolId} {pool : Pool} (hs : Stocked p s)
    (hp : s.pools.get? p = some pool) : s.acquire p = none ↔ s.lentBy p = pool.capacity := by
  have hnone : s.acquire p = none ↔ pool.take? = none := by
    unfold acquire
    rw [hp, Option.bind_some]
    cases pool.take? <;> simp
  have hhome := hs.home pool hp
  rw [hnone, Pool.take?_eq_none_iff, ← hs.outstanding pool hp]
  omega

/-- Whatever was done to a store, and in whatever order: what a pool has at home and what it lent make
    up its capacity; what it lent is as many buffers as still have an owner; all that it has at home or
    lends is of its size; and it lends nothing more exactly when its whole capacity is lent.  Each buffer
    was lent its payload at most once, and for each the pool had something back once, and not before the
    buffer had lost its last owner. -/
theorem lending_of_ops (ops : List Op) {p : PoolId} {pool : Pool}
    (hp : (performAll {} ops).pools.get? p = some pool) :
    let s := performAll {} ops
    pool.free.length + pool.outstanding = pool.capacity ∧
    pool.outstanding = s.lentBy p ∧
    (∀ b, s.isAlive b ↔ 0 < s.owning b + s.referring b) ∧
    (∀ bytes ∈ pool.free, bytes.size = pool.size) ∧
    (∀ h s', s.acquire p = some (h, s') →
      ∃ b x, s.buffers.get? b = none ∧ (s'.handle h).target = some ⟨b, true⟩ ∧
        s'.buffers.get? b = some x ∧ x.IsLent p ∧ x.bytes.size = pool.size) ∧
    (s.acquire p = none ↔ s.lentBy p = pool.capacity) ∧
    pool.available + pool.outstanding = pool.capacity ∧
    (∃ deals, Trail Change {} deals s) ∧
    ∀ deals, Trail Change {} deals s →
      .stocked p pool.size pool.capacity ∈ deals ∧
      ∀ b, deals.countP (Deal.lends p b) ≤ 1 ∧
        deals.countP (Deal.takesBack p b) + (s.lends p b).toNat =
          deals.countP (Deal.lends p b) := by
  intro s
  -- the operations are a trail of changes, and the books are right after any trail
  obtain ⟨deals, htrail⟩ := attains_performAll {} ops
  obtain ⟨hstocked, -⟩ := balanced_of_trail htrail p
  have howned : s.Owned := owned_performAll owned_empty ops
  have hhome := hstocked.home pool hp
  refine ⟨hhome, hstocked.outstanding pool hp, fun b => ?_, hstocked.uniform pool hp,
    fun h s' ha => hstocked.acquired hp ha, hstocked.acquire_eq_none_iff hp, ?_,
    ⟨deals, htrail⟩, fun deals' htrail' => ?_⟩
  · rw [isAlive_iff, howned b]
  · rw [Pool.available]
    omega
  · obtain ⟨-, hrecorded⟩ := balanced_of_trail htrail' p
    exact ⟨hrecorded.made pool hp, fun b => ⟨hrecorded.once b, hrecorded.back b⟩⟩

/-- A pool of one payload, which a buffer had whose only owner was dropped while a view mapped it. -/
def outlived : Store :=
  performAll {} [.newPool 2 1, .acquire 0, .view 0, .mapRead 1, .drop 0]

/-- The pool has another payload of its size, nothing is on loan any more, and the pool can lend. -/
theorem lending_of_outlived : ∃ pool, outlived.pools.get? 0 = some pool ∧
    outlived.lentBy 0 = 0 ∧ pool.free.length = 1 ∧ (∀ bytes ∈ pool.free, bytes.size = 2) ∧
    outlived.acquire 0 ≠ none ∧
    ∃ deals, Trail Change {} deals outlived ∧ deals.countP (Deal.takesBack 0 0) =
      deals.countP (Deal.lends 0 0) := by
  obtain ⟨pool, hp, hsize, hcapacity⟩ :
      ∃ pool, outlived.pools.get? 0 = some pool ∧ pool.size = 2 ∧ pool.capacity = 1 :=
    ⟨_, rfl, rfl, rfl⟩
  have hnone : outlived.lentBy 0 = 0 := by decide
  obtain ⟨hhome, hout, -, huniform, -, hacquire, -, ⟨deals, htrail⟩, hdeals⟩ := lending_of_ops _ hp
  have hback := ((hdeals deals htrail).2 0).2
  have hclosed : outlived.lends 0 0 = false := by decide
  refine ⟨pool, hp, hnone, ?_, fun bytes hb => (huniform bytes hb).trans hsize, ?_, deals, htrail, ?_⟩
  · have hlent : pool.outstanding = 0 := hout.trans hnone
    omega
  · -- if the pool refused, its one payload would be lent
    intro hfull
    have hlent := hacquire.1 hfull
    rw [hcapacity] at hlent
    exact absurd (hlent.symm.trans hnone) Nat.one_ne_zero
  · have hcount : (outlived.lends 0 0).toNat = 0 := by rw [hclosed]; rfl
    exact (Nat.add_zero _).symm.trans ((congrArg _ hcount).symm.trans hback)

end Store

end MediaBridge
