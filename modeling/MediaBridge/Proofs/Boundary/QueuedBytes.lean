import Mathlib.Algebra.GroupWithZero.Nat
import Mathlib.Logic.Relation
import MediaBridge.Boundary.Ingest
import MediaBridge.Proofs.Buffer.Effects

/-! # The byte count of an ingest

An ingest counts the bytes of its queued frames.  A frame is measured twice for that: when it is pushed,
and again when it is pulled.  In between others work with the buffer, and may keep the ingest from
reading it: then the pull takes nothing off the count.

`Sound` says what is true at every point nevertheless.  A frame that can be read has the size it had
when it was pushed, so what the count has beyond the queued frames is exactly what such pulls left in it.

* `holds_measure`            what a push measures;
* `Store.Holds.size`         stays the size of what can be read;
* `sound_of_step`            no step breaks the invariant;
* `queuedBytes_of_reaches`   the count at every point.
-/

namespace MediaBridge

open Relation (ReflTransGen)

/-! ## A measured frame -/

namespace Store

/-- The frame is not mapped, and as long as its buffer is there it has the size that was measured. -/
def Holds (s : Store) (o : Offer) : Prop :=
  ∃ t, s.handle o.frame = { target := some t } ∧ t.buffer < s.buffers.next ∧
    ∀ x, s.buffers.get? t.buffer = some x → x.bytes.size = o.size

/-- A measured frame stays one if its handle is left alone and its buffer keeps its size. -/
theorem Holds.kept {s s' : Store} {o : Offer} (h : s.Holds o) (hk : s.Kept s')
    (hsame : s'.handle o.frame = s.handle o.frame) : s'.Holds o := by
  obtain ⟨t, ht, hlt, hsize⟩ := h
  refine ⟨t, hsame.trans ht, Nat.lt_of_lt_of_le hlt hk.next, ?_⟩
  intro x' hx'
  obtain ⟨x, hx, heq⟩ := hk.size _ x' hlt hx'
  exact heq.trans (hsize x hx)

/-- The handle of a measured frame is there. -/
theorem Holds.lt_next {s : Store} {o : Offer} (h : s.Holds o) : o.frame < s.handles.next := by
  obtain ⟨t, ht, -⟩ := h
  exact lt_next_of_target (t := t) (by rw [ht])

/-- A handle that can be measured has a buffer, and the size is that buffer's.  The buffer is alive,
    unless the handle maps it already. -/
theorem target_of_size {s s' : Store} {h : HandleId} {n : Nat} (hs : s.size h = (.ok n, s')) :
    ∃ t, (s.handle h).target = some t ∧ n = (s.bytes t.buffer).size ∧
      ((s.handle h).mapping = .unmapped → s.isAlive t.buffer = true) := by
  unfold size mapRead at hs
  -- a handle that is mapped already reads through its mapping; any other needs a live buffer and
  -- its lock
  by_cases hu : (s.handle h).mapping = .unmapped
  · rw [if_pos hu] at hs
    cases hl : s.live? h with
    | none =>
      rw [hl] at hs
      cases hs
    | some b =>
      rw [hl] at hs
      obtain ⟨⟨owning, ht⟩, ha⟩ := live?_eq_some_iff.1 hl
      simp only at hs
      cases hr : (s.lock b).tryRead with
      | none =>
        rw [hr] at hs
        cases hs
      | some l =>
        rw [hr] at hs
        exact ⟨⟨b, owning⟩, ht, (Except.ok.inj (Prod.ext_iff.1 hs).1).symm, fun _ => ha⟩
  · rw [if_neg hu, mappedBytes] at hs
    cases ht : (s.handle h).target with
    | none =>
      rw [ht] at hs
      cases hs
    | some t =>
      rw [ht] at hs
      exact ⟨t, rfl, (Except.ok.inj (Prod.ext_iff.1 hs).1).symm, fun h => absurd h hu⟩

/-- Frames that can be read have the size that was measured. -/
theorem Holds.size {s s' : Store} {o : Offer} {n : Nat} (h : s.Holds o)
    (hs : s.size o.frame = (.ok n, s')) : n = o.size := by
  obtain ⟨t, ht, -, hsize⟩ := h
  obtain ⟨t', ht', hn, halive⟩ := target_of_size hs
  rw [ht] at ht' halive
  cases ht'
  have ha := halive rfl
  unfold isAlive at ha
  cases hx : s.buffers.get? t.buffer with
  | none =>
    rw [hx] at ha
    exact nomatch ha
  | some x => rw [hn, bytes_of_get? hx, hsize x hx]

/-- Measuring a frame loses nothing of what is in the store. -/
theorem faithful_measure (s : Store) (h : HandleId) : s.Faithful (s.measure h).2 := by
  have hkept := s.faithful_size h
  unfold measure
  cases hs : s.size h with
  | mk result s₁ =>
    rw [hs] at hkept
    cases result with
    | error e => exact hkept.trans (faithful_drop ..)
    | ok n => exact hkept.trans (faithful_unmap ..)

/-- Asking for the size of a frame leaves the other handles alone. -/
theorem handle_size_of_ne (s : Store) {h g : HandleId} (hne : g ≠ h) :
    (s.size h).2.handle g = s.handle g := by
  rw [snd_size]
  exact s.handle_mapRead_of_ne hne

/-- Measuring a frame leaves the other handles alone. -/
theorem handle_measure_of_ne (s : Store) {h g : HandleId} (hne : g ≠ h) :
    (s.measure h).2.handle g = s.handle g := by
  have hsame := s.handle_size_of_ne hne
  unfold measure
  cases hs : s.size h with
  | mk result s₁ =>
    rw [hs] at hsame
    cases result with
    | error e => exact (handle_drop_of_ne _ hne).trans hsame
    | ok n => exact (handle_unmap_of_ne _ hne).trans hsame

/-- What is offered to the ingest has the size that is offered with it. -/
theorem holds_measure {s s' : Store} {h : HandleId} {o : Offer} (hp : s.Placed)
    (hm : s.measure h = (some o, s')) : o.frame = h ∧ s'.Holds o := by
  have hkept := (s.faithful_measure h).toKept
  rw [hm] at hkept
  unfold measure at hm
  cases hs : s.size h with
  | mk result s₁ =>
    rw [hs] at hm
    cases result with
    | error e => exact nomatch (Prod.ext_iff.1 hm).1
    | ok n =>
      cases hm
      obtain ⟨t, ht, hn, -⟩ := target_of_size hs
      have ht₁ : (s₁.handle h).target = some t := by
        have hsame := s.target_mapRead h h
        rw [← snd_size, hs] at hsame
        exact hsame.trans ht
      have hlt := hp.handles h t ht
      refine ⟨rfl, t, handle_unmap_self ht₁, Nat.lt_of_lt_of_le hlt hkept.next, ?_⟩
      intro x' hx'
      obtain ⟨x, hx, hsize⟩ := hkept.size _ x' hlt hx'
      rw [hsize, hn, bytes_of_get? hx]

/-- Dropping some handles leaves the others alone. -/
theorem handle_dropAll_of_notMem (s : Store) {hs : List HandleId} {g : HandleId} (hg : g ∉ hs) :
    (s.dropAll hs).handle g = s.handle g := by
  induction hs generalizing s with
  | nil => rfl
  | cons h rest ih =>
    have hne : g ≠ h := fun heq => hg (heq ▸ List.mem_cons_self)
    have hrest : g ∉ rest := fun hmem => hg (List.mem_cons_of_mem _ hmem)
    exact (ih (s.drop h) hrest).trans (s.handle_drop_of_ne hne)

end Store

/-! ## The ingest and those around it -/

/-- An ingest with its store, and what is to be known of the frames that it was given. -/
structure Metered where
  store : Store := {}
  ingest : Ingest
  /-- The frames that were measured, and that the ingest has not answered for yet. -/
  offers : List Offer := []
  /-- The queued frames, oldest first, each with the size that it had when it was pushed. -/
  queued : List Offer := []
  /-- The frames that could not be read when they were pulled, since the ingest was last closed. -/
  unread : List Offer := []

namespace Metered

/-- An ingest that nothing was pushed into yet, and a store without buffers. -/
def new (maxBytes : Nat) : Metered := { ingest := { maxBytes } }

/-- The frames that were given away to the ingest. -/
def held (w : Metered) : List HandleId := (w.offers ++ w.queued).map (·.frame)

/-- The bytes of queued frames. -/
def bytes (os : List Offer) : Nat := (os.map (·.size)).sum

@[simp] theorem bytes_nil : bytes [] = 0 := rfl

@[simp] theorem bytes_cons (o : Offer) (os : List Offer) : bytes (o :: os) = o.size + bytes os := by
  simp only [bytes, List.map_cons, List.sum_cons]

@[simp] theorem bytes_append (os os' : List Offer) : bytes (os ++ os') = bytes os + bytes os' := by
  simp only [bytes, List.map_append, List.sum_append]

/-- Only empty frames have no bytes together. -/
theorem bytes_eq_zero_iff (os : List Offer) : bytes os = 0 ↔ ∀ o ∈ os, o.size = 0 := by
  simp only [bytes, List.sum_eq_zero_iff_forall_eq_nat, List.forall_mem_map]

/-- The oldest frame, if it cannot be read at this moment. -/
def unreadable (w : Metered) : List Offer :=
  w.queued.head?.toList.filter fun o => (w.store.size o.frame).1.toOption.isNone

/-- One step of somebody who pushes or pulls, of whoever closes or ends the ingest, or of somebody
    else who works with the buffers. -/
inductive Step (w : Metered) : Metered → Prop where
  -- A push measures its frame, which the ingest owns from then on.
  | measure (h : HandleId) {o : Offer} {s : Store} (hfree : h ∉ w.held)
    (hm : w.store.measure h = (some o, s)) : w.Step { w with store := s, offers := o :: w.offers }
  -- The frame cannot be read.
  | unmeasured (h : HandleId) {s : Store} (hfree : h ∉ w.held)
    (hm : w.store.measure h = (none, s)) : w.Step { w with store := s }
  -- A push ends with the frame in the queue.
  | accept {o : Offer} {rest : List Offer} {p : Ingest} {s : Store}
    (ho : w.offers.Perm (o :: rest)) (h : w.ingest.settle? w.store o = some (.ok, p, s)) :
    w.Step { w with store := s, ingest := p, offers := rest, queued := w.queued ++ [o] }
  -- A push ends with another answer.
  | refuse {o : Offer} {rest : List Offer} {flow : Flow} {p : Ingest} {s : Store}
    (ho : w.offers.Perm (o :: rest)) (h : w.ingest.settle? w.store o = some (flow, p, s))
    (hflow : flow ≠ .ok) : w.Step { w with store := s, ingest := p, offers := rest }
  | pull {h : HandleId} {p : Ingest} {s : Store} (hp : w.ingest.pull w.store = some (h, p, s)) :
    w.Step
      { w with store := s, ingest := p, queued := w.queued.tail, unread := w.unread ++ w.unreadable }
  | close :
    w.Step
      { w with
        store := (w.ingest.setFlushing w.store true).2
        ingest := (w.ingest.setFlushing w.store true).1
        queued := []
        unread := [] }
  | reopen :
    w.Step
      { w with
        store := (w.ingest.setFlushing w.store false).2
        ingest := (w.ingest.setFlushing w.store false).1 }
  | endStream : w.Step { w with ingest := w.ingest.endStream }
  -- Somebody else works with the buffers, through a handle of his own.
  | elsewhere (op : Store.Op) (hop : ∀ h ∈ w.held, op.through ≠ some h) :
    w.Step { w with store := w.store.perform op }

/-- One state can come after another. -/
def Reaches (w w' : Metered) : Prop := ReflTransGen Step w w'

/-! ## The invariant -/

/-- What is true at every point. -/
structure Sound (w : Metered) : Prop where
  placed : w.store.Placed
  /-- No frame was given away twice. -/
  nodup : w.held.Nodup
  holds : ∀ o ∈ w.offers ++ w.queued, w.store.Holds o
  queue : w.ingest.queue = w.queued.map (·.frame)
  count : w.ingest.queuedBytes = bytes w.queued + bytes w.unread

/-- The invariant holds before anything was pushed. -/
theorem sound_new (maxBytes : Nat) : (new maxBytes).Sound where
  placed := Store.placed_empty
  nodup := .nil
  holds := fun _ ho => absurd ho List.not_mem_nil
  queue := rfl
  count := rfl

variable {w w' : Metered}

/-- Some of the frames held are gone, and to the others nothing happened. -/
theorem Sound.of_perm (hw : w.Sound) (gone : List Offer) (hk : w.store.Kept w'.store)
    (hperm : (w.offers ++ w.queued).Perm (gone ++ (w'.offers ++ w'.queued)))
    (hsame : ∀ h ∈ w.held, h ∉ gone.map (·.frame) → w'.store.handle h = w.store.handle h)
    (hqueue : w'.ingest.queue = w'.queued.map (·.frame))
    (hbytes : w'.ingest.queuedBytes = bytes w'.queued + bytes w'.unread) : w'.Sound := by
  have hheld : w.held.Perm ((gone ++ (w'.offers ++ w'.queued)).map (·.frame)) := hperm.map _
  rw [List.map_append] at hheld
  obtain ⟨-, hnodup, hdisjoint⟩ := List.nodup_append.1 (hheld.nodup_iff.1 hw.nodup)
  refine ⟨hk.placed hw.placed, hnodup, ?_, hqueue, hbytes⟩
  intro o ho
  have hold : o ∈ w.offers ++ w.queued := hperm.mem_iff.2 (List.mem_append_right _ ho)
  -- no frame is held twice, so one that is still held is none of those that are gone
  have hleft : o.frame ∉ gone.map (·.frame) := by
    intro hgone
    exact hdisjoint _ hgone _ (List.mem_map_of_mem ho) rfl
  exact (hw.holds o hold).kept hk (hsame _ (List.mem_map_of_mem hold) hleft)

/-- A push measures a frame that nobody else has given away. -/
theorem Sound.measure (hw : w.Sound) {h : HandleId} {o : Offer} {s : Store} (hfree : h ∉ w.held)
    (hm : w.store.measure h = (some o, s)) :
    Sound { w with store := s, offers := o :: w.offers } := by
  have hkept := (w.store.faithful_measure h).toKept
  have hother : ∀ {g : HandleId}, g ≠ h → s.handle g = w.store.handle g := by
    intro g hne
    have hsame := w.store.handle_measure_of_ne hne
    rwa [hm] at hsame
  rw [hm] at hkept
  obtain ⟨hframe, ho⟩ := Store.holds_measure hw.placed hm
  constructor
  · exact hkept.placed hw.placed
  · show (o.frame :: w.held).Nodup
    rw [hframe]
    exact List.nodup_cons.2 ⟨hfree, hw.nodup⟩
  · intro o' ho'
    rcases List.mem_cons.1 ho' with heq | hold
    · rw [heq]
      exact ho
    · have hne : o'.frame ≠ h := by
        intro heq
        exact hfree (heq ▸ List.mem_map_of_mem hold)
      exact (hw.holds o' hold).kept hkept (hother hne)
  · exact hw.queue
  · exact hw.count

/-- A frame that cannot be read is not given away. -/
theorem Sound.unmeasured (hw : w.Sound) {h : HandleId} {s : Store} (hfree : h ∉ w.held)
    (hm : w.store.measure h = (none, s)) : Sound { w with store := s } := by
  have hkept := (w.store.faithful_measure h).toKept
  rw [hm] at hkept
  refine hw.of_perm [] hkept (.refl _) ?_ hw.queue hw.count
  intro g hg _
  have hne : g ≠ h := fun heq => hfree (heq ▸ hg)
  have hsame := w.store.handle_measure_of_ne hne
  rwa [hm] at hsame

/-- An accepted frame moves from the offers to the queue, and its size into the count. -/
theorem Sound.accept (hw : w.Sound) {o : Offer} {rest : List Offer} {p : Ingest} {s : Store}
    (ho : w.offers.Perm (o :: rest)) (h : w.ingest.settle? w.store o = some (.ok, p, s)) :
    Sound { w with store := s, ingest := p, offers := rest, queued := w.queued ++ [o] } := by
  obtain ⟨-, rfl, rfl⟩ | ⟨hflow, -⟩ := Ingest.settle?_cases h
  case inr => exact absurd rfl hflow
  have hperm : (w.offers ++ w.queued).Perm (rest ++ (w.queued ++ [o])) := by
    have hlast : (rest ++ (w.queued ++ [o])).Perm (o :: (rest ++ w.queued)) := by
      rw [← List.append_assoc]
      exact List.perm_append_singleton o (rest ++ w.queued)
    exact (ho.append_right w.queued).trans hlast.symm
  refine hw.of_perm [] (.refl _) hperm (fun _ _ _ => rfl) ?_ ?_
  · simp only [Ingest.queue_accept, hw.queue, List.map_append, List.map_cons, List.map_nil]
  · have hbytes := hw.count
    simp only [Ingest.accept, bytes_append, bytes_cons, bytes_nil]
    omega

/-- A refused frame is dropped, and the count stays. -/
theorem Sound.refuse (hw : w.Sound) {o : Offer} {rest : List Offer} {flow : Flow} {p : Ingest}
    {s : Store} (ho : w.offers.Perm (o :: rest))
    (h : w.ingest.settle? w.store o = some (flow, p, s)) (hflow : flow ≠ .ok) :
    Sound { w with store := s, ingest := p, offers := rest } := by
  obtain ⟨hok, -⟩ | ⟨-, rfl, rfl⟩ := Ingest.settle?_cases h
  case inl => exact absurd hok hflow
  refine hw.of_perm [o] (w.store.faithful_drop _).toKept (ho.append_right w.queued) ?_ hw.queue hw.count
  intro g _ hg
  exact w.store.handle_drop_of_ne fun heq => hg (by simp [heq])

/-- What a pull takes off the count and what it leaves in it is the size of the frame. -/
theorem Sound.freed_add_unreadable {o : Offer} {rest : List Offer} (hw : w.Sound)
    (hqueued : w.queued = o :: rest) :
    (w.store.size o.frame).1.toOption.getD 0 + bytes w.unreadable = o.size := by
  have ho : w.store.Holds o := by
    refine hw.holds o (List.mem_append_right _ ?_)
    rw [hqueued]
    exact List.mem_cons_self
  simp only [unreadable, hqueued, List.head?_cons, Option.toList_some]
  cases hs : w.store.size o.frame with
  | mk result s =>
    cases result with
    | ok n =>
      -- what can be read measures what it measured when it was pushed
      have hn := ho.size hs
      simpa [hs, Except.toOption] using hn
    | error e => simp [hs, Except.toOption]

/-- A pulled frame leaves the queue, and its size the count if it can be read. -/
theorem Sound.pull (hw : w.Sound) {h : HandleId} {p : Ingest} {s : Store}
    (hp : w.ingest.pull w.store = some (h, p, s)) :
    Sound { w with
      store := s, ingest := p, queued := w.queued.tail, unread := w.unread ++ w.unreadable } := by
  obtain ⟨frames, hqueue, rfl, rfl⟩ := Ingest.pull_cases hp
  rw [hw.queue] at hqueue
  obtain ⟨o, rest, hqueued, rfl, rfl⟩ := List.map_eq_cons_iff.1 hqueue
  have hperm : (w.offers ++ w.queued).Perm ([o] ++ (w.offers ++ w.queued.tail)) := by
    rw [hqueued]
    exact List.perm_middle
  have hkept := ((w.store.faithful_size o.frame).trans (Store.faithful_unmap _ o.frame)).toKept
  refine hw.of_perm [o] hkept hperm ?_ ?_ ?_
  · intro g _ hg
    have hne : g ≠ o.frame := fun heq => hg (by simp [heq])
    exact (Store.handle_unmap_of_ne _ hne).trans (w.store.handle_size_of_ne hne)
  · rw [hqueued, List.tail_cons]
  · have hbytes := hw.count
    have hfreed := hw.freed_add_unreadable hqueued
    rw [hqueued, bytes_cons] at hbytes
    simp only [hqueued, List.tail_cons, bytes_append]
    omega

/-- Closing the ingest empties the queue and the count. -/
theorem Sound.close (hw : w.Sound) :
    Sound { w with
      store := (w.ingest.setFlushing w.store true).2
      ingest := (w.ingest.setFlushing w.store true).1
      queued := []
      unread := [] } := by
  have hperm : (w.offers ++ w.queued).Perm (w.queued ++ (w.offers ++ [])) := by
    rw [List.append_nil]
    exact List.perm_append_comm
  refine hw.of_perm w.queued (w.store.faithful_dropAll _).toKept hperm ?_ rfl rfl
  intro g _ hg
  rw [← hw.queue] at hg
  exact w.store.handle_dropAll_of_notMem hg

/-- Nobody can change the size of a frame that was measured. -/
theorem Sound.elsewhere (hw : w.Sound) {op : Store.Op} (hop : ∀ h ∈ w.held, op.through ≠ some h) :
    Sound { w with store := w.store.perform op } := by
  refine hw.of_perm [] (w.store.kept_perform op) (.refl _) ?_ hw.queue hw.count
  intro g hg _
  obtain ⟨o, ho, heq⟩ := List.mem_map.1 hg
  have hlt := (hw.holds o ho).lt_next
  rw [heq] at hlt
  exact w.store.handle_perform (hop g hg) hlt

/-- No step breaks the invariant. -/
theorem sound_of_step (hw : w.Sound) (h : w.Step w') : w'.Sound := by
  -- opening the ingest and ending its stream touch neither frames nor count
  cases h with
  | measure h hfree hm => exact hw.measure hfree hm
  | unmeasured h hfree hm => exact hw.unmeasured hfree hm
  | accept ho h => exact hw.accept ho h
  | refuse ho h hflow => exact hw.refuse ho h hflow
  | pull hp => exact hw.pull hp
  | close => exact hw.close
  | reopen => exact ⟨hw.placed, hw.nodup, hw.holds, hw.queue, hw.count⟩
  | endStream => exact ⟨hw.placed, hw.nodup, hw.holds, hw.queue, hw.count⟩
  | elsewhere op hop => exact hw.elsewhere hop

/-- The invariant holds at every point. -/
theorem sound_of_reaches (hw : w.Sound) (h : w.Reaches w') : w'.Sound := by
  induction h with
  | refl => exact hw
  | tail _ hstep ih => exact sound_of_step ih hstep

/-! ## The count -/

/-- The count is the size of the queued frames, and of those that could not be read when they were pulled
    since the ingest was last closed.  So it is the size of the queued frames alone exactly if there were
    none of these, or only empty ones. -/
theorem queuedBytes_of_reaches {maxBytes : Nat} (h : (new maxBytes).Reaches w) :
    w.ingest.queue = w.queued.map (·.frame) ∧
      w.ingest.queuedBytes = bytes w.queued + bytes w.unread ∧
      (w.ingest.queuedBytes = bytes w.queued ↔ ∀ o ∈ w.unread, o.size = 0) := by
  have hw := sound_of_reaches (sound_new maxBytes) h
  refine ⟨hw.queue, hw.count, ?_⟩
  rw [hw.count, ← bytes_eq_zero_iff]
  omega

/-- A frame of four bytes, with a view of it. -/
def viewed : Store := (Store.perform {} (.newFrame ⟨#[1, 2, 3, 4]⟩)).perform (.view 0)

/-- The frame was pushed, somebody mapped the view writable, and the frame was pulled. -/
def leaked : Metered where
  store := (((viewed.measure 0).2.perform (.mapWrite 1)).size 0).2.unmap 0
  ingest := { maxBytes := 4, queuedBytes := 4, flushing := false, totalPushed := 1 }
  unread := [⟨0, 4⟩]

/-- Each of these was a step. -/
theorem reaches_leaked : (new 4).Reaches leaked := by
  have hopen : (new 4).Step { new 4 with ingest := (new 4).ingest.reopen } := .reopen
  refine .head hopen ?_
  refine .head (.elsewhere (.newFrame ⟨#[1, 2, 3, 4]⟩) nofun) ?_
  refine .head (.elsewhere (.view 0) nofun) ?_
  have hmeasure : viewed.measure 0 = (some ⟨0, 4⟩, (viewed.measure 0).2) := rfl
  refine .head (.measure 0 nofun hmeasure) ?_
  refine .head (.accept (.refl _) rfl) ?_
  refine .head (.elsewhere (.mapWrite 1) (by decide)) ?_
  exact .single (.pull rfl)

/-- Its ingest holds nothing, and lets every push wait. -/
theorem queuedBytes_of_leaked :
    (new 4).Reaches leaked ∧ leaked.ingest.queue = [] ∧ leaked.ingest.queuedBytes = 0 + 4 ∧
      leaked.ingest.answer? = none := by
  obtain ⟨hqueue, hcount, -⟩ := queuedBytes_of_reaches reaches_leaked
  exact ⟨reaches_leaked, hqueue, hcount, by decide⟩

/-- So the count is not always the size of the queued frames. -/
theorem not_queuedBytes_eq :
    ¬∀ (maxBytes : Nat) (w : Metered), (new maxBytes).Reaches w →
      w.ingest.queuedBytes = bytes w.queued := by
  intro h
  exact absurd (h 4 leaked reaches_leaked) (by decide)

end Metered

end MediaBridge
