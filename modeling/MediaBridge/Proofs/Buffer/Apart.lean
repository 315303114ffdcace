import MediaBridge.Proofs.Buffer.Footprint
import MediaBridge.Proofs.Buffer.Marks

/-! # Frames that share no buffer

Frames are made, and then work begins on one after the other.  Work through one of them leaves a frame
alone that shares no buffer with it, and so does work on whatever is made later.

* `Made.away`, `Apart.away`  what work leaves a frame alone;
* `Untouched.only`           a frame that nobody worked on is as it was made;
* `Untouched.setTiming`      and bears what it bore when its timing is set.
-/

namespace MediaBridge.Store

section

variable {s₀ s s' : Store} {frame g : HandleId} {b : BufferId} {bytes : ByteArray}

/-- A frame was there, with a buffer that held these bytes. -/
def Made (s : Store) (frame : HandleId) (b : BufferId) (bytes : ByteArray) : Prop :=
  ∃ m info, s.Bears frame b m ⟨bytes, info⟩

/-- A frame has nothing to do with a handle and a buffer. -/
structure Away (s : Store) (frame g : HandleId) (b : BufferId) : Prop where
  handle : frame ≠ g
  buffer : ∀ t, (s.handle frame).target = some t → t.buffer ≠ b

/-- The buffer of a frame is not one that the frame has nothing to do with. -/
theorem Made.ne (hm : s.Made frame b bytes) {b' : BufferId} (ha : s.Away frame g b') : b ≠ b' := by
  obtain ⟨m, info, hb⟩ := hm
  obtain ⟨owning, ht⟩ := hb.target
  exact ha.buffer _ ht

/-- A frame that was there has its handle and its buffer from before. -/
theorem Made.lt (hm : s.Made frame b bytes) : frame < s.handles.next ∧ b < s.buffers.next := by
  obtain ⟨m, info, hb⟩ := hm
  exact ⟨hb.lt_handles, hb.lt_buffers⟩

/-- Frames that do not share a buffer are away from each other. -/
theorem Apart.away (ha : s.Apart frame g) (hm : s.Made g b bytes) : s.Away frame g b := by
  obtain ⟨m, info, hb⟩ := hm
  obtain ⟨owning, ht⟩ := hb.target
  refine ⟨?_, fun t ht' => ha t _ ht' ht⟩
  rintro rfl
  exact ha _ _ ht ht rfl

/-- Not to share a buffer is mutual. -/
theorem Apart.symm (ha : s.Apart frame g) : s.Apart g frame :=
  fun t u ht hu => Ne.symm (ha u t hu ht)

/-- A frame that was not submitted yet is as it was. -/
structure Untouched (s₀ s : Store) (frame : HandleId) : Prop where
  handle : s.handle frame = s₀.handle frame
  buffer : ∀ t, (s₀.handle frame).target = some t → t.buffer < s₀.buffers.next ∧
    s.buffers.get? t.buffer = s₀.buffers.get? t.buffer
  made : frame < s₀.handles.next

/-- A frame that was there has nothing to do with what was made later. -/
theorem Untouched.away (h : Untouched s₀ s frame) (hg : s₀.handles.next ≤ g)
    (hb : s₀.buffers.next ≤ b) : s₀.Away frame g b where
  handle := Nat.ne_of_lt (Nat.lt_of_lt_of_le h.made hg)
  buffer := fun t ht => Nat.ne_of_lt (Nat.lt_of_lt_of_le (h.buffer t ht).1 hb)

/-- The same of a frame of which only the bytes are known. -/
theorem Made.away (h : s₀.Made frame b bytes) {b' : BufferId} (hg : s₀.handles.next ≤ g)
    (hb : s₀.buffers.next ≤ b') : s₀.Away frame g b' where
  handle := Nat.ne_of_lt (Nat.lt_of_lt_of_le h.lt.1 hg)
  buffer := by
    obtain ⟨m, info, hbears⟩ := id h
    intro t ht
    rw [hbears.buffer_of_target ht]
    exact Nat.ne_of_lt (Nat.lt_of_lt_of_le h.lt.2 hb)

/-- Work on something else leaves a frame untouched. -/
theorem Untouched.only (h : Untouched s₀ s frame) (ho : Only g b s s') (ha : s₀.Away frame g b)
    (hhandles : s₀.handles.next ≤ s.handles.next) (hbuffers : s₀.buffers.next ≤ s.buffers.next) :
    Untouched s₀ s' frame where
  handle := (ho.handle frame (Nat.lt_of_lt_of_le h.made hhandles) ha.handle).trans h.handle
  buffer := by
    intro t ht
    obtain ⟨hlt, heq⟩ := h.buffer t ht
    exact ⟨hlt, (ho.buffer _ (Nat.lt_of_lt_of_le hlt hbuffers) (ha.buffer t ht)).trans heq⟩
  made := h.made

/-- The timing of a frame is set without touching another one, and the frame bears what it bore
    before. -/
theorem Untouched.setTiming (h : Untouched s₀ s frame) {t : Timing}
    (hset : s.setTiming frame t = .ok s') :
    ∃ b bytes m info, s₀.Made frame b bytes ∧ s'.Bears frame b m ⟨bytes, info⟩ ∧ info.timing = t ∧
      Only frame b s s' := by
  obtain ⟨b, owning, x, ht, hx, -⟩ := eq_setInfoOf_of_updateInfo hset
  -- the timing could be set, so the buffer has an owner
  have halive : s.isAlive b := by
    unfold Store.setTiming updateInfo at hset
    cases hl : s.live? frame with
    | none =>
      rw [hl] at hset
      cases hset
    | some b' =>
      obtain ⟨⟨owning', ht'⟩, halive⟩ := live?_eq_some_iff.1 hl
      cases ht.symm.trans ht'
      exact halive
  have hcontent := contentOf?_of_isAlive halive
  have hbears : s.Bears frame b (s.handle frame).mapping ⟨s.bytes b, s.infoOf b⟩ :=
    ⟨⟨owning, by rw [← ht]⟩, hcontent⟩
  have ht₀ : (s₀.handle frame).target = some ⟨b, owning⟩ := h.handle ▸ ht
  obtain ⟨owning', hhandle⟩ := hbears.handle
  -- nobody touched the frame, so it shows the bytes that it was made with
  have hmade : s₀.Made frame b (s.bytes b) := by
    refine ⟨_, s.infoOf b, ⟨owning', h.handle.symm.trans hhandle⟩, ?_⟩
    rw [contentOf?, ← (h.buffer _ ht₀).2]
    exact hcontent
  obtain ⟨s₁, hu, hbears'⟩ := hbears.updateInfo (·.withTiming t)
  cases hu.symm.trans hset
  exact ⟨b, _, _, _, hmade, hbears', rfl, only_updateInfo hu fun t ht => hbears.buffer_of_target ht⟩

end

end MediaBridge.Store
