import MediaBridge.Proofs.Buffer.Payloads

/-! # Who can get at a buffer

Whatever is done to a buffer is done through a handle or a reference that has it.  So a buffer that only
one handle has is safe from everybody who does not work through that handle, and it dies with it.

* `Sole.through_of_subject`  only work through the handle is about the buffer;
* `Sole.perform`             nobody else comes to have it;
* `Sole.ownersOf`            so the handle is its last owner.
-/

namespace MediaBridge

variable {α : Type u}

/-- There is at most one value with a property if there is one key for all of them. -/
theorem Table.count_le_one {t : Table α} {p : α → Bool} {k : Nat}
    (h : ∀ j v, t.get? j = some v → p v → j = k) : t.count p ≤ 1 := by
  cases hk : t.get? k with
  | none =>
    by_contra hmore
    obtain ⟨j, v, hj, hv⟩ := exists_of_count_pos (show 0 < t.count p by omega)
    rw [h j v hj hv, hk] at hj
    cases hj
  | some w =>
    have hrest := count_erase hk p
    have hnone : (t.erase k).count p = 0 := by
      by_contra hmore
      obtain ⟨j, v, hj, hv⟩ := exists_of_count_pos (Nat.pos_of_ne_zero hmore)
      rw [get?_erase] at hj
      split at hj
      · cases hj
      · rename_i hne
        exact hne (h j v hj hv)
    split at hrest <;> omega

namespace Store

section

variable {s : Store} {b : BufferId}

/-! ## Buffers that only one handle has -/

/-- The handle owns the buffer, and nobody else has it. -/
structure Sole (s : Store) (h : HandleId) (b : BufferId) : Prop where
  target : (s.handle h).target = some ⟨b, true⟩
  handles : ∀ g t, (s.handle g).target = some t → t.buffer = b → g = h
  references : ∀ r, s.references.get? r ≠ some b

namespace Sole

variable {h : HandleId}

/-- An operation is about the buffer only if it is done through the handle. -/
theorem through_of_subject (hs : s.Sole h b) {op : Op} (hop : op.subject? s = some b) :
    op.through = some h := by
  have hhandle : ∀ {g}, (s.handle g).target.map (·.buffer) = some b → g = h := by
    intro g hg
    obtain ⟨t, ht, hb⟩ := Option.map_eq_some_iff.1 hg
    exact hs.handles g t ht hb
  -- an operation names its buffer by a handle or by a reference, and only the handle has it
  cases op with
  | newFrame | newReference | newPool | acquire | dropPool => cases hop
  | own r => exact absurd hop (hs.references r)
  | borrow r => exact absurd hop (hs.references r)
  | dropReference r => exact absurd hop (hs.references r)
  | view g | reference g | mapRead g | mapWrite g | write g | unmap g | size g | deepCopy g
  | setTiming g | setId g | release g | drop g => exact congrArg some (hhandle hop)

/-- What only one handle has nobody else comes to have. -/
theorem perform (hs : s.Sole h b) (hplaced : s.Placed) (op : Op) (hview : op ≠ .view h)
    (hreference : op ≠ .reference h) (hrelease : op ≠ .release h) (hdrop : op ≠ .drop h) :
    (s.perform op).Sole h b := by
  have hlt := hplaced.handles h _ hs.target
  have hshares : ¬(op.Shares ∧ op.subject? s = some b) := by
    rintro ⟨hop, hsubject⟩
    have hthrough := hs.through_of_subject hsubject
    cases op with
    | view g => cases hthrough; exact hview rfl
    | reference g => cases hthrough; exact hreference rfl
    | own | borrow => cases hthrough
    | _ => exact hop
  constructor
  · rw [target_perform op (lt_next_of_target hs.target) hrelease hdrop, hs.target]
  · intro g t ht hb
    -- ⟨-, hnew
    rcases target_cases ht with hold | ⟨-, hnew | hshared⟩
    · exact hs.handles g t hold hb
    · exact absurd (hb.symm.trans hnew) (Nat.ne_of_lt hlt)
    · rw [hb] at hshared
      exact absurd hshared hshares
  · intro r hr
    rcases references_cases hr with hold | hnew | hshared
    · exact hs.references r hold
    · exact absurd hnew (Nat.ne_of_lt hlt)
    · exact hshares hshared

/-- Changing the info of a frame gives its buffer to nobody. -/
theorem updateInfo (hs : s.Sole h b) {s' : Store} {g : HandleId} {f : FrameInfo → FrameInfo}
    (hu : s.updateInfo g f = .ok s') : s'.Sole h b := by
  have hhandle := handle_updateInfo hu
  constructor
  · rw [hhandle, hs.target]
  · intro g' t ht
    rw [hhandle] at ht
    exact hs.handles g' t ht
  · intro r
    rw [(works_updateInfo hu).references]
    exact hs.references r

/-- It is the only owner. -/
theorem ownersOf (hs : s.Sole h b) (howned : s.Owned) : s.ownersOf b = 1 := by
  have howning : s.owning b ≤ 1 := by
    refine Table.count_le_one (k := h) fun g x hx hmine => ?_
    have htarget : (s.handle g).target = some ⟨b, true⟩ := by
      rw [handle, hx]
      exact of_decide_eq_true hmine
    exact hs.handles g _ htarget rfl
  -- no reference owns it
  have hreferring : s.referring b = 0 := by
    by_contra hpos
    obtain ⟨r, b', hr, hb'⟩ := Table.exists_of_count_pos (Nat.pos_of_ne_zero hpos)
    exact hs.references r (of_decide_eq_true hb' ▸ hr)
  have hpos := howned.pos_of_owning hs.target
  have hcount := howned b
  omega

end Sole

/-- Nobody but the handle that was made with it has a new buffer. -/
theorem sole_newBuffer (hplaced : s.Placed) (x : Buffer) :
    (s.newBuffer x).2.Sole s.handles.next s.buffers.next where
  target := congrArg Handle.target (handle_newBuffer_self ..)
  handles := by
    intro g t ht hb
    rw [target_newBuffer] at ht
    split at ht
    · assumption
    · exact absurd hb (Nat.ne_of_lt (hplaced.handles g t ht))
  references := fun r hr => Nat.lt_irrefl _ (hplaced.references r _ hr)

end

end Store

end MediaBridge
