import MediaBridge.Proofs.Buffer.Footprint
import MediaBridge.Proofs.Buffer.Sound
import MediaBridge.Proofs.Correspondence.Lineup

/-! # A sample's reference to its buffer

A bridge that is handed a sample gives the sample's frame back before it looks for the entry: by then
it has a copy of its own, or no use for the sample.  What it does later it does through the copy, whose
buffer is new, so nothing of the sample's buffer is touched again.

* `givesBack_takePayload`  the frame is given back whatever the sample comes to;
* `store_matchCopy`        matching and publishing work through the copy alone;
* `givesBack_deliver`      so the frame is given back for every outcome of a delivery;
* `Sound.through`          and no pool is asked meanwhile, or given up.
-/

namespace MediaBridge

variable {α : Type u}

namespace Store

/-- The handle refers to nothing any more, and of the buffers there were only the one that it owned has
    lost an owner. -/
structure GivesBack (h : HandleId) (s s' : Store) : Prop where
  released : (s'.handle h).target = none
  owners : ∀ b, b < s.buffers.next →
    s'.ownersOf b = s.ownersOf b - if (s.handle h).target = some ⟨b, true⟩ then 1 else 0

section

variable {s s' : Store} {h : HandleId} {b : BufferId}

/-! ## Owners after letting go and after copying -/

/-- A release takes an owner from the buffer that the handle owned. -/
theorem ownersOf_release (s : Store) (h : HandleId) (b : BufferId) : (s.release h).ownersOf b =
    s.ownersOf b - if (s.handle h).target = some ⟨b, true⟩ then 1 else 0 := by
  have hforget : ∀ u : Store, ({ u with handles := u.handles.set h { target := none } } :
      Store).ownersOf b = u.ownersOf b := fun u => rfl
  rw [← s.target_unmap h h, ← s.ownersOf_unmap h b]
  simp only [release]
  generalize s.unmap h = u
  cases ht : (u.handle h).target with
  | none => simp
  | some t =>
    obtain ⟨b', owning⟩ := t
    cases owning with
    | false => simp [hforget]
    | true =>
      have hdisown := ownersOf_disown { u with handles := u.handles.set h { target := none } } b' b
      rw [hforget] at hdisown
      simp only [if_true, Option.some.injEq, Target.mk.injEq, and_true]
      -- the buffer that the handle owned has one owner less, and no other buffer does
      by_cases heq : b = b'
      · subst heq
        rw [hforget] at hdisown
        simp only [true_and] at hdisown
        rw [if_pos rfl]
        split at hdisown <;> omega
      · rw [if_neg fun hand => heq hand.1] at hdisown
        rw [if_neg (Ne.symm heq)]
        exact hdisown

/-- A drop takes an owner from the buffer that the handle owned. -/
theorem ownersOf_drop (s : Store) (h : HandleId) (b : BufferId) : (s.drop h).ownersOf b =
    s.ownersOf b - if (s.handle h).target = some ⟨b, true⟩ then 1 else 0 :=
  s.ownersOf_release h b

/-- A handle that was dropped refers to nothing. -/
theorem target_drop_self (s : Store) (h : HandleId) : ((s.drop h).handle h).target = none := by
  rw [drop, handle, Table.get?_erase, if_pos rfl]
  rfl

/-- A handle that is dropped gives its buffer back. -/
theorem givesBack_drop (s : Store) (h : HandleId) : GivesBack h s (s.drop h) where
  released := s.target_drop_self h
  owners := fun b _ => s.ownersOf_drop h b

/-- A copy leaves the owners of every buffer that was there. -/
theorem ownersOf_deepCopy (s : Store) (h : HandleId) (hb : b < s.buffers.next) :
    (s.deepCopy h).2.ownersOf b = s.ownersOf b := by
  have hread := s.ownersOf_mapRead h b
  have hnext := (s.faithful_mapRead h).next
  have hadded : ∀ (u : Store) (x : Buffer), s.buffers.next ≤ u.buffers.next →
      (u.newBuffer x).2.ownersOf b = u.ownersOf b := by
    intro u x hu
    refine (ownersOf_add x b).trans ?_
    rw [if_neg (Nat.ne_of_lt (Nat.lt_of_lt_of_le hb hu)), Nat.add_zero]
  unfold deepCopy
  split
  · rfl
  · simp only
    cases hm : s.mapRead h with
    | mk result s₁ =>
      rw [hm] at hread hnext
      cases result with
      | error e => exact hread
      | ok bytes =>
        simp only
        split
        · rw [hadded _ _ (by rw [next_buffers_unmap]; exact hnext), ownersOf_unmap, hread]
        · rw [hadded _ _ hnext, hread]

/-- A copy gets the next handle. -/
theorem eq_of_deepCopy {c : HandleId} (hc : s.deepCopy h = (.ok c, s')) : c = s.handles.next := by
  have hread := (s.works_mapRead h).handles
  unfold deepCopy at hc
  split at hc
  · cases hc
  · simp only at hc
    cases hm : s.mapRead h with
    | mk result s₁ =>
      rw [hm] at hread hc
      cases result with
      | error e => cases hc
      | ok bytes =>
        simp only at hc hread
        split at hc
        · rw [fst_newBuffer, next_handles_unmap, hread] at hc
          cases hc
          rfl
        · rw [fst_newBuffer, hread] at hc
          cases hc
          rfl

/-! ## Taking the payload of a sample -/

/-- A view is a new handle that borrows the buffer. -/
theorem view_cases {v : HandleId} (hv : s.view h = .ok (v, s')) :
    ∃ b, s.live? h = some b ∧ v = s.handles.next ∧ s' = (s.borrow b).2 := by
  unfold view at hv
  cases hl : s.live? h with
  | none =>
    rw [hl] at hv
    cases hv
  | some b =>
    rw [hl] at hv
    cases hv
    exact ⟨b, rfl, rfl, rfl⟩

/-- A view and what it was taken of are dropped, whatever was added meanwhile. -/
theorem givesBack_of_view {u : Store} {v : HandleId} (hv : s.view h = .ok (v, s'))
    (howners : ∀ b, b < s.buffers.next → u.ownersOf b = s'.ownersOf b)
    (htarget : ∀ g, g < s'.handles.next → (u.handle g).target = (s'.handle g).target) :
    GivesBack h s ((u.drop v).drop h) := by
  obtain ⟨b, hl, rfl, rfl⟩ := view_cases hv
  obtain ⟨⟨owning, ht⟩, -⟩ := live?_eq_some_iff.1 hl
  have hlt := lt_next_of_target ht
  have hne : h ≠ s.handles.next := Nat.ne_of_lt hlt
  have hview : (u.handle s.handles.next).target = some ⟨b, false⟩ := by
    rw [htarget _ (Nat.lt_succ_self _), handle_borrow, if_pos rfl]
  have hframe : ((u.drop s.handles.next).handle h).target = (s.handle h).target := by
    rw [handle_drop_of_ne u hne, htarget h (Nat.lt_succ_of_lt hlt), handle_borrow, if_neg hne]
  refine ⟨target_drop_self .., fun b' hb' => ?_⟩
  -- the view borrows, so the buffer does not lose an owner with it
  have hdropped : (u.drop s.handles.next).ownersOf b' = u.ownersOf b' := by
    rw [ownersOf_drop, hview, if_neg (by simp), Nat.sub_zero]
  rw [ownersOf_drop, hframe, hdropped, howners b' hb']
  rfl

/-- The frame of a sample is given back whatever the sample comes to. -/
theorem givesBack_takePayload (s : Store) (frame : HandleId) :
    GivesBack frame s (s.takePayload frame).2 := by
  unfold takePayload
  cases hv : s.view frame with
  | error e => exact s.givesBack_drop frame
  | ok viewed =>
    obtain ⟨v, s₁⟩ := viewed
    have hviewed := givesBack_of_view hv (fun _ _ => rfl) fun _ _ => rfl
    simp only
    cases s₁.info v with
    | error e => exact hviewed
    | ok info =>
      simp only
      cases info.id with
      | none => exact hviewed
      | some id =>
        have hnext : s.buffers.next = s₁.buffers.next := by
          obtain ⟨b, -, -, rfl⟩ := view_cases hv
          rfl
        -- the copy owns a buffer of its own, so nothing of the view's is affected
        have hcopied := givesBack_of_view hv
          (fun b hb => s₁.ownersOf_deepCopy v (hnext ▸ hb))
          (fun g hg => target_perform (.deepCopy v) hg nofun nofun)
        simp only
        cases hc : s₁.deepCopy v with
        | mk result s₂ =>
          rw [hc] at hcopied
          cases result <;> exact hcopied

/-- The copy of a sample is new, and so is its buffer. -/
theorem next_le_of_takePayload {frame copy : HandleId} {id : Nat} {t : Target}
    (htaken : s.takePayload frame = (.ok (some (copy, id)), s'))
    (ht : (s'.handle copy).target = some t) :
    s.handles.next ≤ copy ∧ s.buffers.next ≤ t.buffer := by
  unfold takePayload at htaken
  cases hv : s.view frame with
  | error e =>
    rw [hv] at htaken
    cases htaken
  | ok viewed =>
    obtain ⟨v, s₁⟩ := viewed
    simp only [hv] at htaken
    obtain ⟨b, hl, rfl, rfl⟩ := view_cases hv
    cases hinfo : (s.borrow b).2.info s.handles.next with
    | error e =>
      rw [hinfo] at htaken
      cases htaken
    | ok info =>
      simp only [hinfo] at htaken
      cases hid : info.id with
      | none =>
        rw [hid] at htaken
        cases htaken
      | some id' =>
        simp only [hid] at htaken
        cases hc : (s.borrow b).2.deepCopy s.handles.next with
        | mk result s₂ =>
          rw [hc] at htaken
          cases result with
          | error e => cases htaken
          | ok c =>
            cases htaken
            cases eq_of_deepCopy hc
            -- what the copy refers to it has referred to since it was made
            obtain ⟨⟨owning, hframe⟩, -⟩ := live?_eq_some_iff.1 hl
            have hlt := lt_next_of_target hframe
            have hview : (s.borrow b).2.handles.next ≠ s.handles.next := Nat.succ_ne_self _
            have hne : (s.borrow b).2.handles.next ≠ frame :=
              Nat.ne_of_gt (Nat.lt_succ_of_lt hlt)
            rw [handle_drop_of_ne _ hne, handle_drop_of_ne _ hview] at ht
            have hcopied : (((s.borrow b).2.perform (.deepCopy s.handles.next)).handle
                (s.borrow b).2.handles.next).target = some t := by rw [perform, hc]; exact ht
            rcases target_cases hcopied with hold | ⟨-, hbuffer | ⟨hshares, -⟩⟩
            · exact absurd (lt_next_of_target hold) (Nat.lt_irrefl _)
            · exact ⟨Nat.le_succ _, Nat.le_of_eq hbuffer.symm⟩
            · exact hshares.elim

/-- The operations that a sample's payload is taken with: through its frame, and through a view of it if
    it has one. -/
theorem store_takePayload (s : Store) (frame : HandleId) :
    (s.takePayload frame).2 = s.performAll [.drop frame] ∨
    ∃ b, s.live? frame = some b ∧ ((s.takePayload frame).2 =
        s.performAll [.view frame, .drop s.handles.next, .drop frame] ∨
      (s.takePayload frame).2 = s.performAll
        [.view frame, .deepCopy s.handles.next, .drop s.handles.next, .drop frame]) := by
  unfold takePayload
  cases hv : s.view frame with
  | error e => exact .inl rfl
  | ok viewed =>
    obtain ⟨v, s₁⟩ := viewed
    obtain ⟨b, hl, rfl, -⟩ := view_cases hv
    have hviewed : s.perform (.view frame) = s₁ := by rw [perform, hv]; rfl
    subst hviewed
    refine .inr ⟨b, hl, ?_⟩
    simp only
    cases (s.perform (.view frame)).info s.handles.next with
    | error e => exact .inl rfl
    | ok info =>
      simp only
      cases info.id with
      | none => exact .inl rfl
      | some id =>
        have hcopied : ((s.perform (.view frame)).deepCopy s.handles.next).2 =
            (s.perform (.view frame)).perform (.deepCopy s.handles.next) := rfl
        refine .inr ?_
        simp only
        cases hc : (s.perform (.view frame)).deepCopy s.handles.next with
        | mk result s₂ =>
          rw [hc] at hcopied
          subst hcopied
          cases result <;> rfl

/-- All of them are done through handles. -/
theorem through_takePayload (s : Store) (frame : HandleId) :
    ∃ ops : List Op, (∀ op ∈ ops, op.through ≠ none) ∧
      (s.takePayload frame).2 = s.performAll ops := by
  rcases s.store_takePayload frame with heq | ⟨b, -, heq | heq⟩
  · exact ⟨_, by simp [Op.through], heq⟩
  · exact ⟨_, by simp [Op.through], heq⟩
  · exact ⟨_, by simp [Op.through], heq⟩

/-- Taking the payload of a sample touches the frame of the sample alone. -/
theorem only_takePayload {frame : HandleId}
    (hb : ∀ t, (s.handle frame).target = some t → t.buffer = b) :
    Only frame b s (s.takePayload frame).2 := by
  rcases s.store_takePayload frame with heq | ⟨b', hl, hcases⟩
  · rw [heq]
    exact only_perform (.drop frame) rfl hb
  · obtain ⟨⟨owning, hframe⟩, -⟩ := live?_eq_some_iff.1 hl
    obtain rfl : b' = b := hb _ hframe
    have hlt := lt_next_of_target hframe
    have hview : s.perform (.view frame) = (s.borrow b').2 := by
      rw [perform, view, hl]
      rfl
    have hviewed : Only frame b' s (s.borrow b').2 := hview ▸ only_perform (.view frame) rfl hb
    -- what follows is done through the frame and through the view, which both have the one buffer
    have hthrough : ∀ h, h = frame ∨ h = s.handles.next → (h = frame ∨ s.handles.next ≤ h) ∧
        h < (s.borrow b').2.handles.next ∧
        ∀ t, ((s.borrow b').2.handle h).target = some t → t.buffer = b' := by
      rintro h (rfl | rfl)
      · refine ⟨.inl rfl, Nat.lt_succ_of_lt hlt, fun t ht => ?_⟩
        rw [handle_borrow, if_neg (Nat.ne_of_lt hlt)] at ht
        exact hb t ht
      · refine ⟨.inr (Nat.le_refl _), Nat.lt_succ_self _, fun t ht => ?_⟩
        rw [handle_borrow, if_pos rfl] at ht
        cases ht
        rfl
    have hrest : ∀ ops : List Op,
        (∀ op ∈ ops, ∃ h, op.through = some h ∧ (h = frame ∨ h = s.handles.next)) →
        Only frame b' s ((s.borrow b').2.performAll ops) := by
      intro ops hops
      refine hviewed.performAll fun op hop => ?_
      obtain ⟨h, hop', hh⟩ := hops op hop
      exact ⟨h, hop', hthrough h hh⟩
    rcases hcases with heq | heq
    · rw [heq, performAll, List.foldl_cons, hview]
      exact hrest [.drop s.handles.next, .drop frame] (by simp [Op.through])
    · rw [heq, performAll, List.foldl_cons, hview]
      exact hrest [.deepCopy s.handles.next, .drop s.handles.next, .drop frame]
        (by simp [Op.through])

/-! ## Working through handles -/

/-- What is done through handles leaves a store sound and disturbs no pool. -/
theorem Sound.through (hs : s.Sound) (ops : List Op) (hops : ∀ op ∈ ops, op.through ≠ none) :
    (s.performAll ops).Sound ∧ (∀ p, Undisturbed p s (s.performAll ops)) ∧
      s.handles.next ≤ (s.performAll ops).handles.next := by
  induction ops generalizing s with
  | nil => exact ⟨hs, fun p => .refl p s, Nat.le_refl _⟩
  | cons op rest ih =>
    have hthrough := hops op List.mem_cons_self
    have hone : ∀ p, Undisturbed p s (s.perform op) := by
      intro p
      -- the operations that touch a pool of themselves are done through no handle
      refine undisturbed_perform hs op ?_ ?_
      · rintro rfl
        exact hthrough rfl
      · rintro rfl
        exact hthrough rfl
    obtain ⟨hsound, hrest, hnext⟩ :=
      ih (hs.perform op) fun op' hop' => hops op' (List.mem_cons_of_mem _ hop')
    exact ⟨hsound, fun p => (hone p).trans (hrest p), Nat.le_trans (s.retains_perform op).1 hnext⟩

/-- What touches only a new buffer takes nothing of that back. -/
theorem GivesBack.only {s'' : Store} {g : HandleId} {b' : BufferId} (hs : GivesBack h s s')
    (hkept : s.Kept s') (hh : h < s'.handles.next) (ho : Only g b' s' s'') (hg : h ≠ g)
    (hb' : s.buffers.next ≤ b') : GivesBack h s s'' where
  released := by
    rw [ho.handle h hh hg]
    exact hs.released
  owners := by
    intro b hb
    have hne : b ≠ b' := Nat.ne_of_lt (Nat.lt_of_lt_of_le hb hb')
    rw [← hs.owners b hb, ownersOf, ho.buffer b (Nat.lt_of_lt_of_le hb hkept.next) hne]
    rfl

end

end Store

namespace Relay

open Store (Op)

/-! ## Samples that come to nothing -/

/-- A sample without a copy is done with, and nothing is matched or published. -/
theorem deliver_of_not_copied (r : Relay α) (x : Sample)
    (h : ∀ copy id, (r.store.takePayload x.frame).1 ≠ .ok (some (copy, id))) :
    ∃ result bridge, r.deliver (.sample x) =
        (.done result, { r with store := (r.store.takePayload x.frame).2, bridge }) ∧
      bridge.pending = r.bridge.pending ∧ bridge.output = r.bridge.output := by
  unfold deliver
  simp only
  cases ht : r.store.takePayload x.frame with
  | mk result s =>
    rw [ht] at h
    cases result with
    | error e =>
      simp only
      split
      · exact ⟨_, _, rfl, rfl, rfl⟩
      · exact ⟨_, _, rfl, rfl, rfl⟩
    | ok payload =>
      cases payload with
      | none => exact ⟨_, _, rfl, Bridge.pending_noteIf .., Bridge.output_dropUncorrelated _⟩
      | some copied => exact absurd rfl (h copied.1 copied.2)

/-- A sample with a copy is matched when its frame was given back. -/
theorem deliver_of_copied {r : Relay α} {x : Sample} {copy : HandleId} {id : Nat} {s : Store}
    (h : r.store.takePayload x.frame = (.ok (some (copy, id)), s)) :
    r.deliver (.sample x) = ({ r with store := s } : Relay α).matchCopy copy id := by
  simp only [deliver, h]

/-! ## Matching and publishing -/

/-- A publication does nothing to the buffers, or it drops the frame. -/
theorem store_publish? {r r' : Relay α} {m : Matched α} (h : r.publish? m = some r') :
    ∃ ops : List Op, (∀ op ∈ ops, op.through = some m.frame) ∧
      r'.store = r.store.performAll ops := by
  obtain ⟨⟨taken, bridge⟩, -, rfl⟩ := Option.map_eq_some_iff.1 h
  cases taken with
  | true => exact ⟨[], nofun, rfl⟩
  | false => exact ⟨[.drop m.frame], by simp [Op.through], rfl⟩

/-- A publication works through the frame, also if it waits. -/
theorem store_publish (r : Relay α) (m : Matched α) :
    ∃ ops : List Op, (∀ op ∈ ops, op.through = some m.frame) ∧
      (r.publish m).2.store = r.store.performAll ops := by
  unfold publish
  cases hp : r.publish? m with
  | none => exact ⟨[], nofun, rfl⟩
  | some r' => exact store_publish? hp

/-- Matching and publishing work through the copy. -/
theorem store_matchCopy (r : Relay α) (copy : HandleId) (id : Nat) :
    ∃ ops : List Op, (∀ op ∈ ops, op.through = some copy) ∧
      (r.matchCopy copy id).2.store = r.store.performAll ops := by
  have hsized : (r.store.size copy).2 = r.store.perform (.size copy) := rfl
  unfold matchCopy
  cases hs : r.store.size copy with
  | mk result s =>
    rw [hs] at hsized
    subst hsized
    cases result with
    | error e => exact ⟨[.size copy, .drop copy], by simp [Op.through], rfl⟩
    | ok size =>
      have hdropped : ∃ ops : List Op, (∀ op ∈ ops, op.through = some copy) ∧
          (((r.store.perform (.size copy)).unmap copy).drop copy) = r.store.performAll ops :=
        ⟨[.size copy, .unmap copy, .drop copy], by simp [Op.through], rfl⟩
      simp only
      cases r.bridge.resolve id size with
      | mk found bridge =>
        cases found with
        | unmatched => exact hdropped
        | outOfOrder oldest => exact hdropped
        | found entry =>
          simp only
          cases ht : ((r.store.perform (.size copy)).unmap copy).setTiming copy entry.timing with
          | error e => exact hdropped
          | ok s' =>
            have htimed : ((r.store.perform (.size copy)).unmap copy).perform
                (.setTiming copy entry.timing) = s' :=
              congrArg (fun set : Except Error Store => set.toOption.getD _) ht
            obtain ⟨ops, hops, heq⟩ :=
              store_publish { r with store := s', bridge } ⟨copy, entry.user⟩
            refine ⟨[.size copy, .unmap copy, .setTiming copy entry.timing] ++ ops,
              List.forall_mem_append.2 ⟨by simp [Op.through], hops⟩, ?_⟩
            rw [heq, ← htimed]
            rfl

/-- The frame of a sample is given back for every outcome of a delivery. -/
theorem givesBack_deliver (r : Relay α) (x : Sample) :
    Store.GivesBack x.frame r.store (r.deliver (.sample x)).2.store := by
  have hgiven := r.store.givesBack_takePayload x.frame
  have hkept := (r.store.faithful_takePayload x.frame).toKept
  have hhandles := (r.store.faithful_takePayload x.frame).handles
  have htaken := r.store.taken_takePayload x.frame
  unfold deliver
  simp only
  cases ht : r.store.takePayload x.frame with
  | mk result s =>
    rw [ht] at hgiven hkept hhandles htaken
    cases htaken with
    | dead hc => exact hgiven
    | untagged hc hid => exact hgiven
    | locked hc hid hr => exact hgiven
    | @copied _ c id copy b hc hid hr hf =>
      obtain ⟨b', hl, -⟩ := hr
      obtain ⟨⟨owning, hframe⟩, -⟩ := Store.live?_eq_some_iff.1 hl
      have hcopy : (s.handle copy).target = some ⟨b, true⟩ := by rw [hf.handle]
      obtain ⟨ops, hops, heq⟩ := store_matchCopy { r with store := s } copy id
      simp only
      rw [heq]
      refine hgiven.only hkept
        (Nat.lt_of_lt_of_le (Store.lt_next_of_target hframe) hhandles)
        (Store.only_performAll hops (Store.lt_next_of_target hcopy) ?_) ?_
        (Store.next_le_of_takePayload ht hcopy).2
      · intro t htarget
        cases htarget.symm.trans hcopy
        rfl
      · -- the copy has a buffer and the frame has none any more
        rintro rfl
        cases hgiven.released.symm.trans hcopy

end Relay

end MediaBridge
