import MediaBridge.Buffer.Bytes

/-! # Pools of payloads

A pool lends payloads of one size, at most `capacity` at a time.  A payload that comes back is lent
again before any other, with the bytes it came back with.

* `take?_eq_none_iff` nothing can be lent exactly when everything is lent;
* `size_of_take?`     with slots of the pool's size, so is every payload that is lent.
-/

namespace MediaBridge

/-- A pool of payloads of one size. -/
structure Pool where
  /-- The size of every payload. -/
  size : Nat
  /-- How many payloads may be lent at a time. -/
  capacity : Nat
  /-- Payloads ready to be lent, the next one first. -/
  free : List ByteArray
  /-- How many payloads are lent. -/
  outstanding : Nat
  deriving Inhabited

namespace Pool

/-- A pool with all its payloads at home, zero-filled. -/
def new (size capacity : Nat) : Pool :=
  { size, capacity, free := List.replicate capacity (Bytes.zeros size), outstanding := 0 }

/-- How many payloads can still be lent. -/
def available (p : Pool) : Nat := p.capacity - p.outstanding

/-- Lends a payload, unless all are lent. -/
def take? (p : Pool) : Option (ByteArray × Pool) :=
  if p.outstanding ≥ p.capacity then none
  else match p.free with
    | [] => some (Bytes.zeros p.size, { p with outstanding := p.outstanding + 1 })
    | bytes :: rest =>
      some (bytes, { p with free := rest, outstanding := p.outstanding + 1 })

/-- Takes a payload back, brought to the pool's size.  A pool that has twice its capacity at home
    keeps no more. -/
def put (p : Pool) (bytes : ByteArray) : Pool :=
  if p.free.length < p.capacity * 2 then
    { p with free := Bytes.sized bytes p.size :: p.free, outstanding := p.outstanding - 1 }
  else { p with outstanding := p.outstanding - 1 }

/-- Whether every payload at home has the pool's size. -/
def Uniform (p : Pool) : Prop := ∀ b ∈ p.free, b.size = p.size

/-- All payloads of a new pool have its size. -/
theorem uniform_new (size capacity : Nat) : (new size capacity).Uniform := by
  intro b h
  rw [(List.mem_replicate.1 h).2]
  exact Bytes.size_zeros size

/-- A payload that comes back is brought to the pool's size. -/
theorem Uniform.put {p : Pool} (h : p.Uniform) (bytes : ByteArray) : (p.put bytes).Uniform := by
  unfold Pool.put
  split
  · intro b hb
    rcases List.mem_cons.1 hb with rfl | hb
    · exact Bytes.size_sized ..
    · exact h b hb
  · exact h

/-- Nothing can be lent exactly when everything is lent. -/
@[simp] theorem take?_eq_none_iff {p : Pool} : p.take? = none ↔ p.capacity ≤ p.outstanding := by
  unfold take?
  split
  · simpa using ‹p.outstanding ≥ p.capacity›
  · split <;> simp <;> omega

/-- Lending a payload leaves the others at home. -/
theorem Uniform.of_take? {p q : Pool} {bytes : ByteArray} (h : p.Uniform)
    (e : p.take? = some (bytes, q)) : q.Uniform := by
  unfold take? at e
  split at e
  · exact absurd e (by simp)
  · split at e
    · cases e; exact h
    · rename_i hf
      cases e
      exact fun b hb => h b (by rw [hf]; exact List.mem_cons_of_mem _ hb)

/-- A payload that is lent has the pool's size. -/
theorem size_of_take? {p q : Pool} {bytes : ByteArray} (h : p.Uniform)
    (e : p.take? = some (bytes, q)) : bytes.size = p.size := by
  unfold take? at e
  split at e
  · exact absurd e (by simp)
  · -- a pool with nothing at home makes a new payload
    split at e
    · cases e; exact Bytes.size_zeros ..
    · rename_i hf
      cases e
      exact h _ (by rw [hf]; exact List.mem_cons_self ..)

end Pool

end MediaBridge
