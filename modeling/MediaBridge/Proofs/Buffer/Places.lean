import MediaBridge.Proofs.Buffer.Payloads

/-! # Where payloads are kept

A store has payloads as values, so nothing in it could be shared by mistake.  Behind them there is memory,
in which a payload has a region of its own that is handed on: from a pool to a buffer that is acquired, and
back to the pool, where the next buffer finds it.  `Memory` keeps track of the regions through all that, and
a write through a mapping goes to the region, whoever else may have it.

What makes the values right is that nobody else has it.  A region goes back to the pool only if nobody maps
the buffer any more; the pool gets a new region otherwise, and the old one stays with the mapping.

* `Apart.follow`    no region is kept in two places;
* `Shows.follow`    what is in the regions is what the store says;
* `storage_of_ops`  so no two buffers meet in memory, however often their payloads were handed on.
-/

namespace MediaBridge

/-- Regions of memory, and where they are kept. -/
structure Memory where
  /-- What is in a region. -/
  bytes : Nat → ByteArray := fun _ => .empty
  /-- The next region that nobody had yet. -/
  next : Nat := 0
  /-- The region with the payload of a buffer. -/
  cell : BufferId → Nat := fun _ => 0
  /-- The regions that a pool has at home, the next one first. -/
  shelf : PoolId → List Nat := fun _ => []
  /-- The size of a pool's payloads. -/
  size : PoolId → Nat := fun _ => 0

/-- Where a region may be kept. -/
inductive Place where
  | buffer (b : BufferId)
  | pool (p : PoolId)

namespace Memory

open Store

/-- A buffer has its payload in a new region. -/
def place (m : Memory) (b : BufferId) (bytes : ByteArray) : Memory :=
  { m with
    bytes := fun r => if r = m.next then bytes else m.bytes r
    next := m.next + 1
    cell := fun b' => if b' = b then m.next else m.cell b' }

/-- A pool has these regions at home. -/
def shelve (m : Memory) (p : PoolId) (regions : List Nat) : Memory :=
  { m with shelf := fun p' => if p' = p then regions else m.shelf p' }

/-- A region has other bytes. -/
def put (m : Memory) (r : Nat) (bytes : ByteArray) : Memory :=
  { m with bytes := fun r' => if r' = r then bytes else m.bytes r' }

/-- A pool gives the first of its regions to a buffer. -/
def lend (m : Memory) (p : PoolId) (b : BufferId) (r : Nat) (rest : List Nat) : Memory :=
  { m with cell := fun b' => if b' = b then r else m.cell b' }.shelve p rest

/-- What a change of the store is in memory. -/
def follow (m : Memory) : Deal → Memory
  | .idle | .dropped _ => m
  | .made b bytes => m.place b bytes
  | .stocked p size capacity =>
    { m with
      bytes := fun r => if m.next ≤ r then Bytes.zeros size else m.bytes r
      next := m.next + capacity
      size := fun p' => if p' = p then size else m.size p'
    }.shelve p (List.range' m.next capacity)
  | .lent p b =>
    match m.shelf p with
    | [] => m.place b (Bytes.zeros (m.size p))
    | r :: rest => m.lend p b r rest
  | .edited b bytes => m.put (m.cell b) bytes
  -- The region goes home, brought to the size of the pool.
  | .returned p b =>
    (m.put (m.cell b) (Bytes.sized (m.bytes (m.cell b)) (m.size p))).shelve p (m.cell b :: m.shelf p)
  -- A new region goes home, and the old one stays where it is.
  | .replaced p _ =>
    { m.put m.next (Bytes.zeros (m.size p)) with next := m.next + 1 }.shelve p (m.next :: m.shelf p)

/-- Memory after some changes. -/
def after (deals : List Deal) : Memory := deals.foldl follow {}

/-- A region is kept in this place. -/
def Keeps (m : Memory) (s : Store) (r : Nat) : Place → Prop
  | .buffer b => (∃ x, s.buffers.get? b = some x) ∧ m.cell b = r
  | .pool p => r ∈ m.shelf p

/-- No region is kept in two places. -/
structure Apart (m : Memory) (s : Store) : Prop where
  unique : ∀ r c c', m.Keeps s r c → m.Keeps s r c' → c = c'
  nodup : ∀ p, (m.shelf p).Nodup
  below : ∀ r c, m.Keeps s r c → r < m.next

/-- What is in the regions is what the store says. -/
structure Shows (m : Memory) (s : Store) : Prop where
  buffers : ∀ b x, s.buffers.get? b = some x → m.bytes (m.cell b) = x.bytes
  pools : ∀ p pool, s.pools.get? p = some pool →
    pool.free = (m.shelf p).map m.bytes ∧ pool.size = m.size p

/-- An empty store keeps nothing. -/
theorem apart_empty : Apart {} {} where
  unique := by
    intro r c c' hc
    cases c with
    | buffer b =>
      obtain ⟨⟨x, hx⟩, -⟩ := hc
      cases hx
    | pool p => cases hc
  nodup := fun _ => .nil
  below := by
    intro r c hc
    cases c with
    | buffer b =>
      obtain ⟨⟨x, hx⟩, -⟩ := hc
      cases hx
    | pool p => cases hc

/-- An empty store has nothing to show. -/
theorem shows_empty : Shows {} {} where
  buffers := nofun
  pools := nofun

/-! ## No region in two places -/

section

variable {m m' : Memory} {s s' : Store} {b : BufferId} {p : PoolId} {r : Nat}

/-- A region that is kept after a change that moved nothing was kept in the same place before. -/
theorem Keeps.of_inherits {c : Place} (h : m'.Keeps s' r c) (hshelf : m'.shelf = m.shelf)
    (hbuffers : ∀ b, c = .buffer b → s.Inherits s' b ∧ m'.cell b = m.cell b) : m.Keeps s r c := by
  cases c with
  | buffer b =>
    obtain ⟨hinherits, hcell⟩ := hbuffers b rfl
    obtain ⟨⟨x', hx'⟩, hr⟩ := h
    obtain ⟨x, hx, -⟩ := hinherits x' hx'
    exact ⟨⟨x, hx⟩, hcell ▸ hr⟩
  | pool p =>
    rw [Keeps, hshelf] at h
    exact h

/-- If some regions went to one place, and all others stayed where they were, no region is in two. -/
theorem Apart.of_moved (ha : m.Apart s) (R : Nat → Prop) (c₀ : Place)
    (hkept : ∀ r c, m'.Keeps s' r c → (c = c₀ ∧ R r ∧ r < m'.next) ∨ (m.Keeps s r c ∧ ¬R r))
    (hnodup : ∀ p, (m'.shelf p).Nodup) (hnext : m.next ≤ m'.next) : m'.Apart s' where
  unique := by
    -- a region that moved is in the one place only, one that did not was in one place before
    intro r c c' hc hc'
    rcases hkept r c hc with ⟨rfl, hr, -⟩ | ⟨hold, hr⟩
    · rcases hkept r c' hc' with ⟨rfl, -⟩ | ⟨-, hr'⟩
      · rfl
      · exact absurd hr hr'
    · rcases hkept r c' hc' with ⟨rfl, hr', -⟩ | ⟨hold', -⟩
      · exact absurd hr' hr
      · exact ha.unique r c c' hold hold'
  nodup := hnodup
  below := by
    intro r c hc
    rcases hkept r c hc with ⟨-, -, hlt⟩ | ⟨hold, -⟩
    · exact hlt
    · exact Nat.lt_of_lt_of_le (ha.below r c hold) hnext

/-- Buffers may be gone, but everything that is kept is where it was. -/
theorem Apart.of_inherits (ha : m.Apart s) (hbuffers : ∀ b, s.Inherits s' b) : m.Apart s' := by
  refine ha.of_moved (fun _ => False) (.pool 0) (fun r c hc => .inr ⟨?_, id⟩) ha.nodup
    (Nat.le_refl _)
  exact hc.of_inherits rfl fun b _ => ⟨hbuffers b, rfl⟩

/-- One region more is kept, a new one. -/
theorem Apart.of_new (ha : m.Apart s) (c₀ : Place)
    (hkept : ∀ r c, m'.Keeps s' r c → (c = c₀ ∧ r = m.next) ∨ m.Keeps s r c)
    (hnodup : ∀ p, (m'.shelf p).Nodup) (hnext : m'.next = m.next + 1) : m'.Apart s' := by
  refine ha.of_moved ((· = m.next)) c₀ (fun r c hc => ?_) hnodup (by omega)
  rcases hkept r c hc with ⟨hplace, hr⟩ | hold
  · exact .inl ⟨hplace, hr, by omega⟩
  · exact .inr ⟨hold, Nat.ne_of_lt (ha.below r c hold)⟩

/-- A buffer has its payload in a new region. -/
theorem Apart.place (ha : m.Apart s) (bytes : ByteArray)
    (hothers : ∀ b', b' ≠ b → s.Inherits s' b') : (m.place b bytes).Apart s' := by
  refine ha.of_new (.buffer b) (fun r c hc => ?_) ha.nodup rfl
  by_cases hplace : c = .buffer b
  · subst hplace
    exact .inl ⟨rfl, hc.2.symm.trans (if_pos rfl)⟩
  · refine .inr (hc.of_inherits rfl fun b' hb' => ?_)
    have hne : b' ≠ b := fun heq => hplace (by rw [hb', heq])
    exact ⟨hothers b' hne, if_neg hne⟩

/-- A pool has these regions at home, and everything else is where it was. -/
theorem keeps_shelve {c : Place} {regions : List Nat} :
    (m.shelve p regions).Keeps s r c ↔ (c = .pool p ∧ r ∈ regions) ∨ (c ≠ .pool p ∧ m.Keeps s r c) := by
  cases c with
  | buffer b => simp [Keeps, shelve]
  | pool q => by_cases hq : q = p <;> simp [Keeps, shelve, hq]

/-- A pool that shelves different regions has no region at home twice. -/
theorem nodup_shelve (hnodup : ∀ q, (m.shelf q).Nodup) {regions : List Nat}
    (hregions : regions.Nodup) (q : PoolId) : ((m.shelve p regions).shelf q).Nodup := by
  simp only [shelve]
  split
  · exact hregions
  · exact hnodup q

/-- A new pool has new regions at home. -/
theorem Apart.stock (ha : m.Apart s) {size capacity : Nat} (hbuffers : s'.buffers = s.buffers) :
    (m.follow (.stocked s.pools.next size capacity)).Apart s' := by
  refine ha.of_moved ((m.next ≤ ·)) (.pool s.pools.next) (fun r c hc => ?_)
    (nodup_shelve ha.nodup List.nodup_range') (Nat.le_add_right ..)
  rcases keeps_shelve.1 hc with ⟨rfl, hmem⟩ | ⟨-, hc⟩
  · obtain ⟨hle, hlt⟩ := List.mem_range'_1.1 hmem
    exact .inl ⟨rfl, hle, hlt⟩
  · have hold : m.Keeps s r c :=
      hc.of_inherits rfl fun b _ => ⟨.of_get? (by rw [hbuffers]), rfl⟩
    exact .inr ⟨hold, Nat.not_le.2 (ha.below r c hold)⟩

/-- A region goes from a pool to a buffer. -/
theorem Apart.lend (ha : m.Apart s) {r₀ : Nat} {rest : List Nat} (hshelf : m.shelf p = r₀ :: rest)
    (hothers : ∀ b', b' ≠ b → s.Inherits s' b') : (m.lend p b r₀ rest).Apart s' := by
  have hnodup := ha.nodup p
  rw [hshelf, List.nodup_cons] at hnodup
  have hhome : ∀ r, r = r₀ ∨ r ∈ rest → m.Keeps s r (.pool p) := by
    intro r hr
    rw [Keeps, hshelf]
    exact List.mem_cons.2 hr
  refine ha.of_moved ((· = r₀)) (.buffer b) (fun r c hc => ?_)
    (nodup_shelve ha.nodup hnodup.2) (Nat.le_refl _)
  rcases keeps_shelve.1 hc with ⟨rfl, hmem⟩ | ⟨hpool, hc⟩
  · -- what stays at home is another region than the one that went
    refine .inr ⟨hhome r (.inr hmem), ?_⟩
    rintro rfl
    exact hnodup.1 hmem
  · by_cases hplace : c = .buffer b
    · subst hplace
      have hr : r = r₀ := hc.2.symm.trans (if_pos rfl)
      exact .inl ⟨rfl, hr, hr ▸ ha.below r₀ _ (hhome r₀ (.inl rfl))⟩
    · have hold : m.Keeps s r c := hc.of_inherits rfl fun b' hb' => by
        have hne : b' ≠ b := fun heq => hplace (by rw [hb', heq])
        exact ⟨hothers b' hne, if_neg hne⟩
      refine .inr ⟨hold, fun hr => hpool ?_⟩
      exact ha.unique r c _ hold (hhome r (.inl hr))

/-- A region goes home when its buffer is gone. -/
theorem Apart.comeHome (ha : m.Apart s) {x : Buffer} (hx : s.buffers.get? b = some x)
    (hgone : s'.buffers.get? b = none) (hothers : ∀ b, s.Inherits s' b) :
    (m.follow (.returned p b)).Apart s' := by
  have hcell : m.Keeps s (m.cell b) (.buffer b) := ⟨⟨x, hx⟩, rfl⟩
  have hnot : m.cell b ∉ m.shelf p := fun hmem => by
    have hsame := ha.unique _ _ (.pool p) hcell hmem
    cases hsame
  refine ha.of_moved ((· = m.cell b)) (.pool p) (fun r c hc => ?_)
    (nodup_shelve ha.nodup (List.nodup_cons.2 ⟨hnot, ha.nodup p⟩)) (Nat.le_refl _)
  -- nobody else has the region that comes home, since the buffer had it alone
  have hother : c ≠ .buffer b → m.Keeps s r c → m.Keeps s r c ∧ r ≠ m.cell b := by
    intro hne hold
    refine ⟨hold, ?_⟩
    rintro rfl
    exact hne (ha.unique _ c _ hold hcell)
  rcases keeps_shelve.1 hc with ⟨rfl, hmem⟩ | ⟨-, hc⟩
  · rcases List.mem_cons.1 hmem with rfl | hmem
    · exact .inl ⟨rfl, rfl, ha.below _ _ hcell⟩
    · exact .inr (hother nofun hmem)
  · have hold : m.Keeps s r c := hc.of_inherits rfl fun b' _ => ⟨hothers b', rfl⟩
    refine .inr (hother ?_ hold)
    rintro rfl
    obtain ⟨⟨x', hx'⟩, -⟩ := hc
    rw [hgone] at hx'
    cases hx'

/-- A new region goes home. -/
theorem Apart.replace (ha : m.Apart s) (hbuffers : ∀ b, s.Inherits s' b) :
    (m.follow (.replaced p b)).Apart s' := by
  have hnot : m.next ∉ m.shelf p := fun hmem => Nat.lt_irrefl _ (ha.below m.next (.pool p) hmem)
  refine ha.of_new (.pool p) (fun r c hc => ?_)
    (nodup_shelve ha.nodup (List.nodup_cons.2 ⟨hnot, ha.nodup p⟩)) rfl
  rcases keeps_shelve.1 hc with ⟨rfl, hmem⟩ | ⟨-, hc⟩
  · rcases List.mem_cons.1 hmem with rfl | hmem
    · exact .inl ⟨rfl, rfl⟩
    · exact .inr hmem
  · exact .inr (hc.of_inherits rfl fun b' _ => ⟨hbuffers b', rfl⟩)

/-- No change brings a region into two places. -/
theorem Apart.follow {d : Deal} (ha : m.Apart s) (h : s.Moves d s') : (m.follow d).Apart s' := by
  cases h with
  | idle hbuffers => exact ha.of_inherits hbuffers
  | dropped hbuffers => exact ha.of_inherits fun b => .of_get? (by rw [hbuffers])
  | made hothers => exact ha.place _ hothers
  | stocked hbuffers => exact ha.stock hbuffers
  | @lent _ p _ _ _ _ _ hothers =>
    simp only [Memory.follow]
    cases hshelf : m.shelf p with
    | nil => exact ha.place _ hothers
    | cons r₀ rest => exact ha.lend hshelf hothers
  | @edited _ b x bytes hx hbuffers =>
    refine ha.of_moved (fun _ => False) (.pool 0) (fun r c hc => .inr ⟨?_, id⟩) ha.nodup
      (Nat.le_refl _)
    cases c with
    | pool p => exact hc
    | buffer b' =>
      obtain ⟨⟨x', hx'⟩, hr⟩ := hc
      refine ⟨?_, hr⟩
      rw [hbuffers, Table.get?_update] at hx'
      split at hx'
      · obtain ⟨y, hy, -⟩ := Option.map_eq_some_iff.1 hx'
        exact ⟨y, hy⟩
      · exact ⟨x', hx'⟩
  | returned hx hlent hgone hothers => exact ha.comeHome hx hgone hothers
  | replaced hlent hbuffers => exact ha.replace hbuffers

/-! ## What is in the regions -/

namespace Shows

/-- Nothing was written to the region of a buffer that is still there. -/
theorem buffer_of_inherits (hs : m.Shows s) (hb : s.Inherits s' b) (hcell : m'.cell b = m.cell b)
    (hbytes : m.Keeps s (m.cell b) (.buffer b) → m'.bytes (m.cell b) = m.bytes (m.cell b))
    (x' : Buffer) (hx' : s'.buffers.get? b = some x') : m'.bytes (m'.cell b) = x'.bytes := by
  obtain ⟨x, hx, hsame⟩ := hb x' hx'
  rw [hcell, hbytes ⟨⟨x, hx⟩, rfl⟩, hs.buffers b x hx, hsame]

/-- Nothing was written to the regions that a pool has at home. -/
theorem pool_of_same (hs : m.Shows s) {pool : Pool} (hp : s.pools.get? p = some pool)
    (hshelf : m'.shelf p = m.shelf p) (hsize : m'.size p = m.size p)
    (hbytes : ∀ r ∈ m.shelf p, m'.bytes r = m.bytes r) :
    pool.free = (m'.shelf p).map m'.bytes ∧ pool.size = m'.size p := by
  obtain ⟨hfree, hpool⟩ := hs.pools p pool hp
  rw [hshelf, hsize, List.map_congr_left hbytes]
  exact ⟨hfree, hpool⟩

/-- A buffer has its payload in a new region. -/
theorem place (hs : m.Shows s) (ha : m.Apart s) {bytes : ByteArray}
    (hothers : ∀ b', b' ≠ b → s.Inherits s' b')
    (hx : ∀ x, s'.buffers.get? b = some x → x.bytes = bytes)
    (hpools : ∀ q pool', s'.pools.get? q = some pool' → ∃ pool, s.pools.get? q = some pool ∧
      pool'.free = pool.free ∧ pool'.size = pool.size) : (m.place b bytes).Shows s' where
  buffers := by
    intro b' x' hx'
    by_cases hne : b' = b
    · subst hne
      simp only [Memory.place, if_true]
      exact (hx x' hx').symm
    · refine hs.buffer_of_inherits (hothers b' hne) (if_neg hne) (fun hkept => ?_) x' hx'
      exact if_neg (Nat.ne_of_lt (ha.below _ _ hkept))
  pools := by
    intro q pool' hq
    obtain ⟨pool, hpool, hfree, hsize⟩ := hpools q pool' hq
    rw [hfree, hsize]
    exact hs.pool_of_same hpool rfl rfl fun r hr => if_neg (Nat.ne_of_lt (ha.below r (.pool q) hr))

/-- A pool has one region more at home, and what is in it is what the store says. -/
theorem putHome (hs : m.Shows s) {R : Nat} {bytes put : ByteArray}
    (hshelf : ∀ q, m'.shelf q = if q = p then R :: m.shelf p else m.shelf q)
    (hcell : m'.cell = m.cell) (hsize : m'.size = m.size)
    (hwritten : m'.bytes R = bytes) (hbytes : ∀ r, r ≠ R → m'.bytes r = m.bytes r)
    (hothers : ∀ b, s.Inherits s' b)
    (hbuffers : ∀ b x', s'.buffers.get? b = some x' → m.cell b ≠ R)
    (hshelves : ∀ q, R ∉ m.shelf q) (hpools : s'.pools = s.pools.update p (·.put put))
    (hput : ∀ pool, s.pools.get? p = some pool →
      pool.free.length < pool.capacity * 2 ∧ Bytes.sized put pool.size = bytes) : m'.Shows s' where
  buffers := by
    intro b x' hx'
    refine hs.buffer_of_inherits (hothers b) (by rw [hcell]) (fun _ => ?_) x' hx'
    exact hbytes _ (hbuffers b x' hx')
  pools := by
    intro q pool' hq
    have hsame : ∀ r ∈ m.shelf q, m'.bytes r = m.bytes r := fun r hr => hbytes r fun heq =>
      hshelves q (heq ▸ hr)
    -- the pool that gets the region has one more at home, the others are as they were
    rw [hpools, Table.get?_update] at hq
    split at hq
    · rename_i heq
      subst heq
      obtain ⟨pool, hpool, rfl⟩ := Option.map_eq_some_iff.1 hq
      obtain ⟨hfree, hpoolSize⟩ := hs.pools q pool hpool
      obtain ⟨hroom, hsized⟩ := hput pool hpool
      rw [hshelf, if_pos rfl, Pool.put_of_room hroom, hsize, List.map_cons, hwritten,
        List.map_congr_left hsame, hsized, hfree]
      exact ⟨rfl, hpoolSize⟩
    · rename_i hne
      exact hs.pool_of_same hq (by rw [hshelf, if_neg hne]) (by rw [hsize]) hsame

/-- A new pool has zeros at home. -/
theorem stock (hs : m.Shows s) (ha : m.Apart s) {size capacity : Nat}
    (hbuffers : s'.buffers = s.buffers) (hpools : s'.pools = (s.pools.add (.new size capacity)).2) :
    (m.follow (.stocked s.pools.next size capacity)).Shows s' := by
  have hkept : ∀ r c, m.Keeps s r c → (if m.next ≤ r then Bytes.zeros size else m.bytes r) =
      m.bytes r := fun r c hc => if_neg (Nat.not_le.2 (ha.below r c hc))
  constructor
  · intro b x' hx'
    refine hs.buffer_of_inherits (.of_get? (by rw [hbuffers])) ?_ (fun hc => ?_) x' hx'
    · rfl
    · exact hkept _ _ hc
  · intro q pool hq
    rw [hpools, Table.get?_add] at hq
    split at hq
    · rename_i heq
      cases hq
      simp only [Memory.follow, shelve, heq, if_true, Pool.new, and_true]
      refine (List.eq_replicate_iff.2 ⟨by simp, fun bytes hmem => ?_⟩).symm
      obtain ⟨r, hr, rfl⟩ := List.mem_map.1 hmem
      exact if_pos (List.mem_range'_1.1 hr).1
    · rename_i hne
      exact hs.pool_of_same hq (if_neg hne) (if_neg hne) fun r hr => hkept r (.pool q) hr

section

variable {pool pool' : Pool} {bytes : ByteArray} (hpool : s.pools.get? p = some pool)
  (htake : pool.take? = some (bytes, pool')) (hothers : ∀ b', b' ≠ b → s.Inherits s' b')
  (hx : ∀ x, s'.buffers.get? b = some x → x.bytes = bytes) (hpools : s'.pools = s.pools.set p pool')

include hpool htake hothers hx hpools

/-- A pool with nothing at home lends zeros. -/
theorem lendNew (hs : m.Shows s) (ha : m.Apart s) (hshelf : m.shelf p = []) :
    (m.place b (Bytes.zeros (m.size p))).Shows s' := by
  obtain ⟨hfree, hsize⟩ := hs.pools p pool hpool
  obtain ⟨-, hsize', -, -, -⟩ := Pool.outstanding_of_take? htake
  rw [hshelf, List.map_nil] at hfree
  rcases Pool.take?_cases htake with ⟨-, hbytes, hfree'⟩ | hcons
  · rw [hsize] at hbytes
    refine hs.place ha hothers (fun x hx' => (hx x hx').trans hbytes) fun q pool₁ hq => ?_
    rw [hpools, Table.get?_set] at hq
    split at hq
    · rename_i heq
      rw [heq] at hq ⊢
      rw [hpool] at hq
      cases hq
      exact ⟨pool, hpool, hfree'.trans hfree.symm, hsize'⟩
    · exact ⟨pool₁, hq, rfl, rfl⟩
  · rw [hfree] at hcons
    cases hcons

/-- A pool with regions at home lends the first. -/
theorem lend (hs : m.Shows s) {r₀ : Nat} {rest : List Nat} (hshelf : m.shelf p = r₀ :: rest) :
    (m.lend p b r₀ rest).Shows s' := by
  obtain ⟨hfree, hsize⟩ := hs.pools p pool hpool
  obtain ⟨-, hsize', -, -, -⟩ := Pool.outstanding_of_take? htake
  rw [hshelf, List.map_cons] at hfree
  have hcons : pool.free = bytes :: pool'.free := by
    rcases Pool.take?_cases htake with ⟨hnil, -⟩ | hcons
    · rw [hfree] at hnil
      cases hnil
    · exact hcons
  rw [hfree, List.cons.injEq] at hcons
  obtain ⟨rfl, hrest⟩ := hcons
  constructor
  · intro b' x' hx'
    show m.bytes (if b' = b then r₀ else m.cell b') = x'.bytes
    by_cases hne : b' = b
    · subst hne
      rw [if_pos rfl]
      exact (hx x' hx').symm
    · rw [if_neg hne]
      exact hs.buffer_of_inherits (hothers b' hne) rfl (fun _ => rfl) x' hx'
  · intro q pool₁ hq
    rw [hpools, Table.get?_set] at hq
    split at hq
    · rename_i heq
      rw [heq, hpool] at hq
      cases hq
      simp only [Memory.lend, shelve, heq, if_true]
      exact ⟨hrest.symm, hsize'.trans hsize⟩
    · rename_i hne
      exact hs.pool_of_same hq (if_neg hne) rfl fun _ _ => rfl

end

/-- What is written to a buffer is written to its region. -/
theorem edit (hs : m.Shows s) (ha : m.Apart s) {x : Buffer} {bytes : ByteArray}
    (hx : s.buffers.get? b = some x)
    (hbuffers : s'.buffers = s.buffers.update b fun x => { x with bytes })
    (hpools : s'.pools = s.pools) : (m.put (m.cell b) bytes).Shows s' := by
  have hcell : m.Keeps s (m.cell b) (.buffer b) := ⟨⟨x, hx⟩, rfl⟩
  constructor
  · intro b' x' hx'
    rw [hbuffers, Table.get?_update] at hx'
    split at hx'
    · rename_i heq
      subst heq
      obtain ⟨y, hy, rfl⟩ := Option.map_eq_some_iff.1 hx'
      exact if_pos rfl
    · rename_i hne
      refine hs.buffer_of_inherits (.of_get? rfl) ?_ (fun hc => ?_) x' hx'
      · rfl
      · -- another buffer has another region
        refine if_neg fun heq => hne ?_
        have hsame := ha.unique _ _ (.buffer b) hc (heq ▸ hcell)
        cases hsame
        rfl
  · intro q pool hq
    rw [hpools] at hq
    refine hs.pool_of_same hq rfl rfl fun r hr => if_neg ?_
    rintro rfl
    have hsame := ha.unique _ _ (.pool q) hcell hr
    cases hsame

/-- No change makes memory differ from the store. -/
theorem follow {d : Deal} (hs : m.Shows s) (ha : m.Apart s) (hstocked : ∀ p, Stocked p s)
    (h : s.Moves d s') : (m.follow d).Shows s' := by
  -- a pool that lent something has room for it
  have hroom : ∀ {p b pool}, s.lends p b → s.pools.get? p = some pool →
      pool.free.length < pool.capacity * 2 := by
    intro p b pool hlent hp
    have hpos := lentBy_pos hlent
    have hhome := (hstocked p).home pool hp
    have hout := (hstocked p).outstanding pool hp
    omega
  cases h with
  | idle hbuffers hpools =>
    constructor
    · exact fun b x' hx' => hs.buffer_of_inherits (hbuffers b) rfl (fun _ => rfl) x' hx'
    · exact fun p pool hp => hs.pools p pool (hpools p pool hp)
  | dropped hbuffers hpools =>
    constructor
    · intro b x' hx'
      exact hs.buffer_of_inherits (.of_get? (by rw [hbuffers])) rfl (fun _ => rfl) x' hx'
    · exact fun p pool hp => hs.pools p pool (hpools p pool hp)
  | made hothers hx hpools =>
    refine hs.place ha hothers hx fun q pool hq => ?_
    rw [hpools] at hq
    exact ⟨pool, hq, rfl, rfl⟩
  | stocked hbuffers hpools => exact hs.stock ha hbuffers hpools
  | @lent _ p _ _ _ hpool htake hothers hx hpools =>
    simp only [Memory.follow]
    cases hshelf : m.shelf p with
    | nil => exact lendNew hpool htake hothers hx hpools hs ha hshelf
    | cons r₀ rest => exact lend hpool htake hothers hx hpools hs hshelf
  | edited hx hbuffers hpools => exact hs.edit ha hx hbuffers hpools
  | @returned _ p b x hx hlent hgone hothers hpools =>
    have hcell : m.Keeps s (m.cell b) (.buffer b) := ⟨⟨x, hx⟩, rfl⟩
    refine hs.putHome (R := m.cell b) (fun q => rfl) rfl rfl (if_pos rfl)
      (fun r hr => if_neg hr) hothers ?_ ?_ hpools fun pool hp => ?_
    · intro b' x' hx' heq
      obtain ⟨y, hy, -⟩ := hothers b' x' hx'
      have hsame := ha.unique _ _ (.buffer b') hcell ⟨⟨y, hy⟩, heq⟩
      cases hsame
      rw [hgone] at hx'
      cases hx'
    · intro q hmem
      have hsame := ha.unique _ _ (.pool q) hcell hmem
      cases hsame
    · refine ⟨hroom (lends_iff.2 ⟨x, hx, hlent⟩) hp, ?_⟩
      rw [(hs.pools p pool hp).2, hs.buffers b x hx]
  | @replaced _ p b hlent hbuffers hpools =>
    refine hs.putHome (R := m.next) (fun q => rfl) rfl rfl (if_pos rfl)
      (fun r hr => if_neg hr) hbuffers ?_ ?_ hpools fun pool hp => ?_
    · intro b' x' hx'
      obtain ⟨y, hy, -⟩ := hbuffers b' x' hx'
      exact Nat.ne_of_lt (ha.below _ (.buffer b') ⟨⟨y, hy⟩, rfl⟩)
    · exact fun q hmem => Nat.lt_irrefl _ (ha.below m.next (.pool q) hmem)
    · exact ⟨hroom hlent hp, by rw [Bytes.sized_empty, (hs.pools p pool hp).2]⟩

end Shows

end

/-- Memory and store agree after any changes. -/
theorem shows_of_trail {deals : List Deal} {s : Store} (h : Trail Change {} deals s) :
    (after deals).Shows s ∧ (after deals).Apart s := by
  have hall : s.Orderly ∧ s.Owned ∧ (after deals).Shows s ∧ (after deals).Apart s := by
    induction h with
    | refl => exact ⟨orderly_empty, owned_empty, shows_empty, apart_empty⟩
    | @tail deals d u u' hbefore hstep ih =>
      obtain ⟨ho, hs, hshows, hapart⟩ := ih
      have hstocked := fun p => (balanced_of_trail hbefore p).1
      have hmoves := moves_of_change ho hs hstep
      have hafter : after (deals ++ [d]) = (after deals).follow d := List.foldl_append ..
      rw [hafter]
      exact ⟨orderly_of_change ho hstep, owned_of_change hs hstep,
        hshows.follow hapart hstocked hmoves, hapart.follow hmoves⟩
  exact hall.2.2

/-- A region is behind a handle. -/
def Reaches (m : Memory) (s : Store) (g : HandleId) (r : Nat) : Prop :=
  ∃ t, (s.handle g).target = some t ∧ m.Keeps s r (.buffer t.buffer)

end Memory

namespace Store

/-- Whatever was done to a store, payloads have regions of memory of their own, and what a handle that was
    made before a payload was lent reaches is never what a handle of that payload's buffer reaches.  A
    handle that stays mapped reads what it read before, or what it overwrote that with, and what it
    overwrites is the payload of its own buffer.  If a buffer loses its last owner while somebody maps it,
    what its pool lends next is zeros. -/
theorem storage_of_ops (ops : List Op) :
    let s := performAll {} ops
    (∃ deals, Trail Change {} deals s) ∧
    (∀ deals, Trail Change {} deals s →
      (Memory.after deals).Shows s ∧ (Memory.after deals).Apart s) ∧
    (∀ p h s', s.acquire p = some (h, s') → ∃ b, (s'.handle h).target = some ⟨b, true⟩ ∧
      ∀ later deals, Trail Change {} deals (s'.performAll later) →
        ∀ g g' t' r, g < s.handles.next →
          ((s'.performAll later).handle g').target = some t' → t'.buffer = b →
          (Memory.after deals).Reaches (s'.performAll later) g r →
          ¬(Memory.after deals).Reaches (s'.performAll later) g' r) ∧
    (∀ g later, (∀ n, ((s.performAll (later.take n)).handle g).mapping ≠ .unmapped) →
      (s.performAll later).mappedBytes g = (s.mappedBytes g).map fun bytes =>
        later.foldl (fun bytes op => op.overwrite g bytes) bytes) ∧
    (∀ g start new b, (∀ t, (s.handle g).target = some t → b ≠ t.buffer) →
      (s.write g start new).2.buffers.get? b = s.buffers.get? b) ∧
    (∀ op b x p pool g m, op.Forsakes s b → s.buffers.get? b = some x → x.owners = 1 →
      x.pool = some p → s.pools.get? p = some pool →
      ((s.perform op).handle g).Maps b m → m ≠ .unmapped →
      ∃ h s' b', (s.perform op).acquire p = some (h, s') ∧
        (s'.handle h).target = some ⟨b', true⟩ ∧ b' ≠ b ∧
        s'.bytes b' = Bytes.zeros pool.size) := by
  intro s
  have hattains : Attains Change {} s := attains_performAll {} ops
  have ho : s.Orderly := orderly_performAll orderly_empty ops
  have howned : s.Owned := owned_performAll owned_empty ops
  refine ⟨hattains, fun deals => Memory.shows_of_trail, ?_, ?_, ?_, ?_⟩
  · intro p h s' ha
    obtain ⟨pool, bytes, pool', -, -, rfl, hs'⟩ := acquire_cases ha
    have ht : (s'.handle s.handles.next).target = some ⟨s.buffers.next, true⟩ := by
      rw [hs']
      exact congrArg Handle.target (handle_newBuffer_self ..)
    refine ⟨s.buffers.next, ht, ?_⟩
    rintro later deals htrail g g' t' r hg ht' hb ⟨t, hgt, hreaches⟩ ⟨t'', hgt'', hreaches'⟩
    -- the handle had its buffer before the payload was lent, so it is another buffer
    have hlt := (faithful_acquire ha).handles
    have hbefore := s'.target_performAll later (Nat.lt_of_lt_of_le hg hlt) hgt
    rw [handle_acquire_of_ne ha (Nat.ne_of_lt hg)] at hbefore
    have hplaced := (placed_performAll placed_empty ops).handles g t hbefore
    have hsame := (Memory.shows_of_trail htrail).2.unique r _ _ hreaches hreaches'
    cases ht'.symm.trans hgt''
    rw [Place.buffer.injEq, hb] at hsame
    exact Nat.lt_irrefl _ (hsame ▸ hplaced)
  · exact fun g later hm => mappedBytes_performAll ho howned hm
  · exact fun g start new b hb => get?_buffers_write hb start new
  · intro op b x p pool g m hop hx hlast hof hp hmaps hm
    obtain ⟨deals, htrail⟩ := hattains
    have hstocked := (balanced_of_trail htrail p).1
    have hlent := lentBy_pos (lends_iff.2 ⟨x, hx, hof, Nat.lt_of_lt_of_eq Nat.one_pos hlast.symm⟩)
    have hhome := hstocked.home pool hp
    have hout := hstocked.outstanding pool hp
    have hpools := pools_of_replaced ho hstocked hop hx hlast hof hp hmaps hm
    obtain ⟨h, s', b', ha, ht, hnone, hbytes⟩ :=
      acquire_of_zeros hpools rfl (by simp only; omega)
    refine ⟨h, s', b', ha, ht, ?_, hbytes⟩
    rintro rfl
    -- the old buffer is still there, since somebody maps it, so the new one is another
    obtain ⟨y, hy⟩ := (orderly_perform ho op).exists_of_maps hmaps hm
    exact absurd (hnone.symm.trans hy) nofun

/-- A pool of one payload, which is lent to a buffer with a view that maps it. -/
def viewed : Store :=
  performAll {} [.newPool 2 1, .acquire 0, .write 0 0 ⟨#[7, 8]⟩, .unmap 0, .view 0, .mapRead 1]

/-- When the buffer loses its owner, the pool lends zeros next, and the view still reads what it read when
    they were overwritten. -/
theorem storage_of_viewed :
    (∃ h s' b', (viewed.drop 0).acquire 0 = some (h, s') ∧
      (s'.handle h).target = some ⟨b', true⟩ ∧ b' ≠ 0 ∧ s'.bytes b' = Bytes.zeros 2) ∧
    (viewed.performAll [.drop 0, .acquire 0, .write 2 0 ⟨#[9, 9]⟩]).mappedBytes 1 =
      .ok ⟨#[7, 8]⟩ := by
  obtain ⟨-, -, -, hreads, -, hzeros⟩ := storage_of_ops
    [.newPool 2 1, .acquire 0, .write 0 0 ⟨#[7, 8]⟩, .unmap 0, .view 0, .mapRead 1]
  have hmapped : ∀ n, ((viewed.performAll
      (List.take n [.drop 0, .acquire 0, .write 2 0 ⟨#[9, 9]⟩])).handle 1).mapping ≠ .unmapped := by
    intro n
    match n with
    | 0 | 1 | 2 => decide
    | n + 3 =>
      rw [List.take_of_length_le (by simp)]
      decide
  refine ⟨?_, (hreads 1 _ hmapped).trans rfl⟩
  exact hzeros (.drop 0) 0 _ 0 _ 1 .readable rfl rfl rfl rfl rfl (by decide) nofun

end Store

end MediaBridge
