/-! # Runs of bytes

The payloads of frames are byte arrays.  `sized` cuts a payload to a size or fills it up with zeros,
and `patched` overwrites part of it; neither ever changes a size it was not asked to change.
-/

namespace MediaBridge.Bytes

/-- `n` zero bytes. -/
def zeros (n : Nat) : ByteArray := ⟨Array.replicate n 0⟩

/-- `n` times one byte. -/
def filled (n : Nat) (b : UInt8) : ByteArray := ⟨Array.replicate n b⟩

/-- The bytes cut to `n`, or filled up to `n` with zeros. -/
def sized (b : ByteArray) (n : Nat) : ByteArray :=
  ⟨b.data.take n ++ Array.replicate (n - b.data.size) 0⟩

/-- The bytes with those from `start` on replaced by `new`; what would go beyond the end is left
    out. -/
def patched (b : ByteArray) (start : Nat) (new : ByteArray) : ByteArray :=
  ⟨b.data.mapIdx fun i x => if start ≤ i then new.data[i - start]?.getD x else x⟩

/-- Every byte replaced by its complement. -/
def inverted (b : ByteArray) : ByteArray := ⟨b.data.map fun x => ~~~x⟩

/-- The bytes in reverse order. -/
def reversed (b : ByteArray) : ByteArray := ⟨b.data.reverse⟩

@[simp] theorem size_zeros (n : Nat) : (zeros n).size = n := Array.size_replicate

@[simp] theorem size_filled (n : Nat) (b : UInt8) : (filled n b).size = n := Array.size_replicate

@[simp] theorem size_sized (b : ByteArray) (n : Nat) : (sized b n).size = n := by
  simp only [sized, ByteArray.size, Array.take, Array.size_append, Array.size_replicate,
    Array.size_extract]
  omega

@[simp] theorem sized_empty (n : Nat) : sized .empty n = zeros n := by
  change ByteArray.mk (Array.take #[] n ++ Array.replicate (n - 0) 0) = ⟨Array.replicate n 0⟩
  simp

/-- A payload of the right size stays as it is. -/
theorem sized_of_size {b : ByteArray} {n : Nat} (h : b.size = n) : sized b n = b := by
  cases b with
  | mk data =>
    subst h
    simp [sized, ByteArray.size]

@[simp] theorem size_patched (b : ByteArray) (start : Nat) (new : ByteArray) :
    (patched b start new).size = b.size := Array.size_mapIdx

@[simp] theorem size_inverted (b : ByteArray) : (inverted b).size = b.size := Array.size_map ..

@[simp] theorem size_reversed (b : ByteArray) : (reversed b).size = b.size := Array.size_reverse

/-- Overwriting a whole payload leaves the new one. -/
theorem patched_zero_of_size {b new : ByteArray} (h : new.size = b.size) :
    patched b 0 new = new := by
  cases b with
  | mk bd =>
    cases new with
    | mk nd =>
      simp only [ByteArray.size] at h
      simp only [patched, ByteArray.mk.injEq]
      apply Array.ext
      · simp [h]
      · intro i hi hi'
        simp [hi']

end MediaBridge.Bytes
