import MediaBridge.Proofs.Buffer.Effects

/-! # Marked frames

A frame is marked with an id if that is what is read on it for as long as its buffer is there.  The
buffer may have other handles, and through these others may put another id on it.  Nothing else takes
the mark away: not even dropping the frame, since then nothing can be read on it any more.

* `marked_updateInfo`  how a frame is marked;
* `Marked.faithful`    what changes no ids changes no marks;
* `Marked.perform`     nor does an operation on another buffer.
-/

namespace MediaBridge.Store

/-- As long as the buffer of a frame is there, the frame carries an id. -/
structure Marked (s : Store) (h : HandleId) (id : Nat) : Prop where
  made : h < s.handles.next
  placed : ∀ t, (s.handle h).target = some t → t.buffer < s.buffers.next
  id : ∀ t x, (s.handle h).target = some t → s.buffers.get? t.buffer = some x → x.info.id = some id

/-- Two frames do not share a buffer. -/
def Apart (s : Store) (g h : HandleId) : Prop :=
  ∀ t u, (s.handle g).target = some t → (s.handle h).target = some u → t.buffer ≠ u.buffer

/-- The id that can be read on a frame. -/
def idOf? (s : Store) (h : HandleId) : Option Nat := (s.info h).toOption.bind (·.id)

variable {s s' : Store} {g h : HandleId} {id : Nat}

/-- A live handle refers to a buffer that is there. -/
theorem target_of_live? {b : BufferId} (hl : s.live? h = some b) :
    ∃ owning x, (s.handle h).target = some ⟨b, owning⟩ ∧ s.buffers.get? b = some x := by
  obtain ⟨⟨owning, ht⟩, halive⟩ := live?_eq_some_iff.1 hl
  unfold isAlive at halive
  cases hx : s.buffers.get? b with
  | none =>
    rw [hx] at halive
    cases halive
  | some x => exact ⟨owning, x, ht, rfl⟩

/-- The info of a marked frame bears the mark, if it can be read. -/
theorem Marked.info (hm : s.Marked h id) {i : FrameInfo} (hi : s.info h = .ok i) :
    i.id = some id := by
  unfold Store.info at hi
  cases hl : s.live? h with
  | none =>
    rw [hl] at hi
    cases hi
  | some b =>
    rw [hl] at hi
    cases hi
    obtain ⟨owning, x, ht, hx⟩ := target_of_live? hl
    rw [infoOf, hx]
    exact hm.id _ x ht hx

/-- On a marked frame one reads its id or nothing. -/
theorem Marked.idOf? (hm : s.Marked h id) : s.idOf? h = none ∨ s.idOf? h = some id := by
  unfold Store.idOf?
  cases hi : s.info h with
  | error e => exact .inl rfl
  | ok i => exact .inr (hm.info hi)

/-- What is done faithfully takes no mark away. -/
theorem Marked.faithful (hm : s.Marked h id) (hs : s.Faithful s') : s'.Marked h id where
  made := Nat.lt_of_lt_of_le hm.made hs.handles
  placed := by
    intro t ht
    exact Nat.lt_of_lt_of_le (hm.placed t (hs.target h t hm.made ht)) hs.next
  id := by
    -- the buffer was the frame's before, and kept its id
    intro t x' ht hx'
    have htarget := hs.target h t hm.made ht
    obtain ⟨x, hx, hid⟩ := hs.id _ x' (hm.placed t htarget) hx'
    exact hid.trans (hm.id t x htarget hx)

/-- The info of a frame is that of its buffer. -/
theorem eq_setInfoOf_of_updateInfo {f : FrameInfo → FrameInfo} (hu : s.updateInfo h f = .ok s') :
    ∃ b owning x, (s.handle h).target = some ⟨b, owning⟩ ∧ s.buffers.get? b = some x ∧
      s' = s.setInfoOf b (f x.info) := by
  unfold updateInfo at hu
  cases hl : s.live? h with
  | none =>
    rw [hl] at hu
    cases hu
  | some b =>
    rw [hl] at hu
    cases hu
    obtain ⟨owning, x, ht, hx⟩ := target_of_live? hl
    refine ⟨b, owning, x, ht, hx, ?_⟩
    rw [infoOf, hx]
    rfl

/-- A frame is marked by putting an id on it. -/
theorem marked_updateInfo {f : FrameInfo → FrameInfo} (hf : ∀ i, (f i).id = some id)
    (hu : s.updateInfo h f = .ok s') : s'.Marked h id := by
  obtain ⟨b, owning, x, ht, hx, rfl⟩ := eq_setInfoOf_of_updateInfo hu
  -- the frame has one buffer, and that is the one that was changed
  have htarget : ∀ t, (s.handle h).target = some t → t.buffer = b := by
    intro t ht'
    rw [ht] at ht'
    cases ht'
    rfl
  refine ⟨lt_next_of_target ht, fun t ht' => ?_, fun t y ht' hy => ?_⟩
  · have hlt := Table.lt_next_of_get? hx
    rwa [← htarget t ht'] at hlt
  · simp only [setInfoOf, Table.get?_update, if_pos (htarget t ht')] at hy
    obtain ⟨z, -, hzy⟩ := Option.map_eq_some_iff.1 hy
    rw [← hzy]
    exact hf _

/-- Putting an id on a frame leaves the frames that do not share its buffer alone. -/
theorem Marked.updateInfo (hm : s.Marked h id) {f : FrameInfo → FrameInfo} (hapart : s.Apart g h)
    (hu : s.updateInfo g f = .ok s') : s'.Marked h id := by
  obtain ⟨b, owning, x, ht, hx, rfl⟩ := eq_setInfoOf_of_updateInfo hu
  refine ⟨hm.made, hm.placed, fun u y hu hy => ?_⟩
  have hne : u.buffer ≠ b := (hapart _ u ht hu).symm
  simp only [setInfoOf, Table.get?_update, if_neg hne] at hy
  exact hm.id u y hu hy

/-- What others do does not take a mark away, unless they put an id on a frame that shares the buffer. -/
theorem Marked.perform (hm : s.Marked h id) {op : Op}
    (hop : ∀ g id', op = .setId g id' → s.Apart g h) : (s.perform op).Marked h id := by
  -- only putting an id on a frame can take a mark away
  by_cases hset : ∃ g id', op = .setId g id'
  · obtain ⟨g, id', rfl⟩ := hset
    rw [Store.perform]
    cases hu : s.setId g id' with
    | error e => exact hm
    | ok s' => exact hm.updateInfo (hop g id' rfl) hu
  · exact hm.faithful (s.faithful_perform fun g id' heq => hset ⟨g, id', heq⟩)

end MediaBridge.Store
