import Mathlib.Tactic.ByContra
import MediaBridge.Proofs.Buffer.Changes

/-! # Who can map a buffer

Whether a handle can map its buffer is decided by the lock, and since locks and handles agree, by how the
other handles map it.  A handle that was released maps nothing, and never will.

* `Orderly.mapRead_iff`, `Orderly.mapWrite_iff`  when a buffer can be mapped;
* `Orderly.maps_iff_of_writable`                 who maps a buffer writable is alone;
* `Released.perform`                             a handle that was released stays so;
* `locks_of_ops`                                 what any number of operations comes to.
-/

namespace MediaBridge.Store

/-! ## Who can map a buffer -/

section

variable {s : Store} {h : HandleId} {b : BufferId} {m : Mapping}

/-- A handle is live for a buffer just if it refers to it and the buffer has an owner. -/
theorem exists_live?_iff {p : BufferId → Prop} : (∃ b, s.live? h = some b ∧ p b) ↔
    ∃ t, (s.handle h).target = some t ∧ s.isAlive t.buffer ∧ p t.buffer := by
  constructor
  · rintro ⟨b, hl, hb⟩
    obtain ⟨⟨owning, ht⟩, ha⟩ := live?_eq_some_iff.1 hl
    exact ⟨_, ht, ha, hb⟩
  · rintro ⟨t, ht, ha, hb⟩
    exact ⟨t.buffer, live?_eq_some_iff.2 ⟨⟨t.owning, ht⟩, ha⟩, hb⟩

/-- Giving a mapping up neither ends a buffer nor brings it back. -/
@[simp] theorem isAlive_unmap (s : Store) (h : HandleId) (b : BufferId) :
    (s.unmap h).isAlive b = s.isAlive b := by
  rw [Bool.eq_iff_iff, ← not_iff_not, Bool.not_eq_true, Bool.not_eq_true, ← contentOf?_eq_none_iff,
    ← contentOf?_eq_none_iff, contentOf?_unmap]

/-- Nobody is counted just if no handle maps the buffer. -/
theorem holders_eq_zero_iff : s.holders b m = 0 ↔ ∀ g, ¬(s.handle g).Maps b m := by
  rw [← not_exists, ← holders_pos_iff, Nat.not_lt, Nat.le_zero]

namespace Orderly

/-- A lock is not a writer's just if no handle maps the buffer writable. -/
theorem ne_writer_iff (hs : s.Orderly) :
    s.lock b ≠ .writer ↔ ∀ g, ¬(s.handle g).Maps b .writable := by
  rw [Lock.ne_writer_iff, ← hs.locks b .writable nofun, holders_eq_zero_iff]

/-- A lock is free just if no handle maps the buffer. -/
theorem eq_free_iff (hs : s.Orderly) :
    s.lock b = .free ↔ ∀ g m, (s.handle g).Maps b m → m = .unmapped := by
  rw [Lock.eq_free_iff, ← hs.locks b .readable nofun, ← hs.locks b .writable nofun,
    holders_eq_zero_iff, holders_eq_zero_iff]
  constructor
  · rintro ⟨hreadable, hwritable⟩ g m hmaps
    cases m with
    | unmapped => rfl
    | readable => exact absurd hmaps (hreadable g)
    | writable => exact absurd hmaps (hwritable g)
  · intro hnone
    constructor
    · intro g hmaps
      cases hnone g _ hmaps
    · intro g hmaps
      cases hnone g _ hmaps

/-- Who maps a buffer writable is the only one who maps it. -/
theorem maps_iff_of_writable (hs : s.Orderly) {w g : HandleId}
    (hw : (s.handle w).Maps b .writable) (hm : m ≠ .unmapped) :
    (s.handle g).Maps b m ↔ g = w ∧ m = .writable := by
  have hlock : s.lock b = .writer := by
    by_contra hne
    exact hs.ne_writer_iff.1 hne w hw
  have hholders := hs.locks b m hm
  rw [hlock] at hholders
  constructor
  · -- a writer's lock counts one writer and no reader
    intro hg
    cases m with
    | unmapped => exact absurd rfl hm
    | readable => exact absurd hg (holders_eq_zero_iff.1 hholders g)
    | writable =>
      obtain ⟨t, ht, -⟩ := Option.map_eq_some_iff.1 hw.2
      obtain ⟨t', ht', -⟩ := Option.map_eq_some_iff.1 hg.2
      exact ⟨Table.eq_of_count_eq_one hholders (get?_handles_of_target ht) (decide_eq_true hw)
        (get?_handles_of_target ht') (decide_eq_true hg), rfl⟩
  · rintro ⟨rfl, rfl⟩
    exact hw

/-- A handle that maps nothing can be mapped readable just if nobody writes to its buffer. -/
theorem mapRead_iff (hs : s.Orderly) (hu : (s.handle h).mapping = .unmapped) :
    (∃ bytes, (s.mapRead h).1 = .ok bytes) ↔
      ∃ t, (s.handle h).target = some t ∧ s.isAlive t.buffer ∧
        ∀ g, ¬(s.handle g).Maps t.buffer .writable := by
  rw [mapRead_ok_iff hu, exists_live?_iff]
  simp only [hs.ne_writer_iff]

/-- A handle that gave its mapping up does not stand in its own way. -/
theorem maps_unmap_iff (hs : s.Orderly) :
    (∀ g m, ((s.unmap h).handle g).Maps b m → m = .unmapped) ↔
      ∀ g m, g ≠ h → (s.handle g).Maps b m → m = .unmapped := by
  constructor
  · intro hnone g m hne hmaps
    exact hnone g m (by rwa [handle_unmap_of_ne s hne])
  · intro hnone g m hmaps
    by_cases heq : g = h
    · rw [heq] at hmaps
      exact hmaps.1.symm.trans (hs.mapping_unmap h)
    · exact hnone g m heq (by rwa [handle_unmap_of_ne s heq] at hmaps)

/-- A handle can be mapped writable just if no other handle maps its buffer. -/
theorem mapWrite_iff (hs : s.Orderly) (hw : (s.handle h).mapping ≠ .writable) :
    (∃ bytes, (s.mapWrite h).1 = .ok bytes) ↔
      ∃ t, (s.handle h).target = some t ∧ s.isAlive t.buffer ∧
        ∀ g m, g ≠ h → (s.handle g).Maps t.buffer m → m = .unmapped := by
  -- the handle gives up its own mapping first, so only the others count
  rw [mapWrite_ok_iff hw, exists_live?_iff]
  simp only [target_unmap, isAlive_unmap, (hs.unmap h).eq_free_iff, hs.maps_unmap_iff]

/-- A handle that could not be mapped writable has lost what it mapped before. -/
theorem mapping_mapWrite (hs : s.Orderly) (hw : (s.handle h).mapping ≠ .writable)
    (hfails : ∀ bytes, (s.mapWrite h).1 ≠ .ok bytes) :
    ((s.mapWrite h).2.handle h).mapping = .unmapped := by
  have hunmapped := hs.mapping_unmap h
  simp only [Store.mapWrite, if_neg hw] at hfails ⊢
  cases hl : (s.unmap h).live? h with
  | none => exact hunmapped
  | some b =>
    rw [hl] at hfails
    simp only at hfails ⊢
    cases hr : ((s.unmap h).lock b).tryWrite with
    | none => exact hunmapped
    | some l =>
      rw [hr] at hfails
      exact absurd rfl (hfails _)

end Orderly

end

/-! ## Handles that were released -/

/-- Nothing can be done through a handle. -/
structure Inert (s : Store) (h : HandleId) : Prop where
  mapRead : s.mapRead h = (.error (.map .read .gone), s)
  mapWrite : s.mapWrite h = (.error (.map .write .gone), s)
  write : ∀ start new, s.write h start new = (.error (.map .write .gone), s)
  size : s.size h = (.error (.map .read .gone), s)
  deepCopy : s.deepCopy h = (.error .bufferReleased, s)
  info : s.info h = .error .bufferReleased
  updateInfo : ∀ f, s.updateInfo h f = .error .bufferReleased
  view : s.view h = .error .bufferReleased
  reference : s.reference h = .error .bufferReleased
  unmap : s.unmap h = s
  release : s.release h = s

/-- Through a handle without a buffer nothing can be done. -/
theorem Orderly.inert {s : Store} {h : HandleId} (hs : s.Orderly)
    (ht : (s.handle h).target = none) : s.Inert h := by
  have hu := hs.released h ht
  have hl : s.live? h = none := by rw [live?, ht]; rfl
  have hunmap : s.unmap h = s := by simp only [Store.unmap, ht]
  have hread : s.mapRead h = (.error (.map .read .gone), s) := by
    simp only [Store.mapRead, if_pos hu, hl]
  have hwrite : s.mapWrite h = (.error (.map .write .gone), s) := by
    rw [Store.mapWrite, if_neg (by rw [hu]; decide)]
    simp only [hunmap, hl]
  have hinfo : s.info h = .error .bufferReleased := by rw [Store.info, hl]
  constructor
  · exact hread
  · exact hwrite
  · intro start new
    rw [Store.write, hwrite]
  · rw [Store.size, hread]
  · rw [Store.deepCopy, hinfo]
  · exact hinfo
  · intro f
    rw [Store.updateInfo, hl]
  · rw [Store.view, hl]
  · rw [Store.reference, hl]
  · exact hunmap
  · simp only [Store.release, hunmap, ht]

/-- Changing an info touches no handle. -/
theorem handles_updateInfo {s s' : Store} {h : HandleId} {f : FrameInfo → FrameInfo}
    (hu : s.updateInfo h f = .ok s') : s'.handles = s.handles := by
  unfold updateInfo at hu
  split at hu
  · cases hu
  · cases hu
    rfl

/-- The handle was made, and it was released. -/
def Released (s : Store) (h : HandleId) : Prop :=
  h < s.handles.next ∧ (s.handle h).target = none

namespace Released

variable {s : Store} {h : HandleId}

/-- A handle that was released never refers to a buffer again. -/
theorem perform (hs : s.Released h) (op : Op) : (s.perform op).Released h := by
  by_cases hop : ∃ g id, op = .setId g id
  · obtain ⟨g, id, rfl⟩ := hop
    rw [Store.perform]
    cases hu : s.setId g id with
    | error e => exact hs
    | ok s' =>
      rw [Released, handle, Except.toOption, Option.getD_some, handles_updateInfo hu]
      exact hs
  · -- all other operations are faithful, and give no handle a buffer that it did not have
    have hkept := s.faithful_perform fun g id heq => hop ⟨g, id, heq⟩
    refine ⟨Nat.lt_of_lt_of_le hs.1 hkept.handles, ?_⟩
    cases ht : ((s.perform op).handle h).target with
    | none => rfl
    | some t => exact (hkept.target h t hs.1 ht).symm.trans hs.2

/-- The same after any number of operations. -/
theorem performAll (hs : s.Released h) (ops : List Op) : (s.performAll ops).Released h := by
  induction ops generalizing s with
  | nil => exact hs
  | cons op rest ih => exact ih (hs.perform op)

end Released

/-- Releasing a handle makes it a released one. -/
theorem released_release {s : Store} {h : HandleId} (hlt : h < s.handles.next) :
    (s.release h).Released h :=
  ⟨Nat.lt_of_lt_of_le hlt (s.faithful_release h).handles, s.target_release_self h⟩

/-! ## Any number of operations -/

/-- A buffer is mapped by one handle writable, or by any number of them readable.  The lock of a buffer
    knows how many handles map it in which way, and a handle without a buffer maps nothing.  A handle
    can be mapped readable exactly if it was not released, the buffer is alive, and nobody maps it
    writable; and writable exactly if it was not released, the buffer is alive, and no other handle maps
    it.  If that fails the handle maps nothing.  After a handle was released nothing can be done through
    it any more, whatever else is done. -/
theorem locks_of_ops (ops : List Op) {s : Store} (hs : s = performAll {} ops) :
    (∀ b, (∀ g, ¬(s.handle g).Maps b .writable) ∨
      ∃ w, ∀ g m, m ≠ .unmapped → ((s.handle g).Maps b m ↔ g = w ∧ m = .writable)) ∧
    (∀ b m, m ≠ .unmapped → s.holders b m = (s.lock b).held m) ∧
    (∀ h, (s.handle h).target = none → (s.handle h).mapping = .unmapped) ∧
    (∀ h, (s.handle h).mapping = .unmapped →
      ((∃ bytes, (s.mapRead h).1 = .ok bytes) ↔
        ∃ t, (s.handle h).target = some t ∧ s.isAlive t.buffer ∧
          ∀ g, ¬(s.handle g).Maps t.buffer .writable)) ∧
    (∀ h, (s.handle h).mapping ≠ .writable →
      ((∃ bytes, (s.mapWrite h).1 = .ok bytes) ↔
        ∃ t, (s.handle h).target = some t ∧ s.isAlive t.buffer ∧
          ∀ g m, g ≠ h → (s.handle g).Maps t.buffer m → m = .unmapped) ∧
      ((∀ bytes, (s.mapWrite h).1 ≠ .ok bytes) →
        ((s.mapWrite h).2.handle h).mapping = .unmapped)) ∧
    ∀ h later, h < s.handles.next → ((s.release h).performAll later).Inert h := by
  have horderly : s.Orderly := hs ▸ orderly_performAll orderly_empty ops
  refine ⟨?_, horderly.locks, horderly.released, ?_, ?_, ?_⟩
  · intro b
    by_cases hw : ∃ w, (s.handle w).Maps b .writable
    · obtain ⟨w, hw⟩ := hw
      exact .inr ⟨w, fun g m hm => horderly.maps_iff_of_writable hw hm⟩
    · exact .inl (not_exists.1 hw)
  · intro h hu
    exact horderly.mapRead_iff hu
  · intro h hw
    exact ⟨horderly.mapWrite_iff hw, horderly.mapping_mapWrite hw⟩
  · -- it is released first, and stays so through all that comes later
    intro h later hlt
    have hreleased := (released_release hlt).performAll later
    exact (orderly_performAll (orderly_perform horderly (.release h)) later).inert hreleased.2

/-- A frame with two views that both map it readable. -/
def aliased : Store :=
  performAll {} [.newFrame ⟨#[1]⟩, .view 0, .view 0, .mapRead 1, .mapRead 2]

/-- Neither view can be mapped writable, and the one that tries gives its mapping up.  The frame can be
    released while it is mapped, and then nothing can be done through its handle. -/
theorem locks_of_aliased : (aliased.lock 0).held .readable = 2 ∧
    (∀ bytes, (aliased.mapWrite 1).1 ≠ .ok bytes) ∧
    ((aliased.mapWrite 1).2.handle 1).mapping = .unmapped ∧
    ((aliased.release 0).performAll [.mapWrite 1, .mapRead 2]).Inert 0 := by
  obtain ⟨-, hlocks, -, -, hwrite, hreleased⟩ := locks_of_ops _ (s := aliased) rfl
  obtain ⟨hiff, hleft⟩ := hwrite 1 (by decide)
  -- the other view stands in the way
  have hfails : ∀ bytes, (aliased.mapWrite 1).1 ≠ .ok bytes := by
    intro bytes hok
    obtain ⟨t, ht, -, hothers⟩ := hiff.1 ⟨bytes, hok⟩
    have ht' : t = ⟨0, false⟩ := (Option.some.inj ht).symm
    rw [ht'] at hothers
    cases hothers 2 .readable (by decide) (by decide)
  exact ⟨(hlocks 0 .readable nofun).symm, hfails, hleft hfails, hreleased 0 _ (by decide)⟩

end MediaBridge.Store
