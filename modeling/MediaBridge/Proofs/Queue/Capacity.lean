import MediaBridge.Queue
import MediaBridge.Proofs.Trail

/-! # The capacity of a queue, with others at work

One thread pushes and may wait for room, one takes items out, and one controls the queue: it clears it,
and turns draining on and off.  The items are behind a lock, which a push gives back while it waits.
The drain flag is not: a push reads it once to end its wait and once more after that, and between the
two the flag may be written.

A push that ends its wait at a full queue, since that drains, and then finds that it does not drain any
more, adds its item to the full queue.  Nothing else makes a queue too long.

* `trail_of_push`         a push that nobody disturbs does what `BoundedQueue.push` says;
* `within_of_step`        how much longer a step can make the queue;
* `swept_of_step`         what a queue is like after it was cleared while it drained;
* `length_le_of_trail`    what the number of items is bounded by;
* `attains_of_items`      what it is not bounded by.
-/

namespace MediaBridge

variable {α : Type u}

/-- How far a push got. -/
inductive Pushing (α : Type u) where
  | idle
  /-- It waits, and does not hold the lock. -/
  | waits (x : α)
  /-- It holds the lock, and is about to see whether it has to wait. -/
  | looks (x : α)
  /-- Its wait is over. -/
  | leaves (x : α)
  /-- It has read the drain flag for the second time. -/
  | decided (draining : Bool) (x : α)

/-- Whether a push holds the lock. -/
def Pushing.holdsLock : Pushing α → Bool
  | .idle | .waits _ => false
  | .looks _ | .leaves _ | .decided .. => true

/-- Whether a push will add its item if the drain flag stays as it is. -/
def Pushing.goesIn (draining : Bool) : Pushing α → Bool
  | .leaves _ => !draining
  | .decided read _ => !read
  | _ => false

/-- A queue with those who work on it. -/
structure Contended (α : Type u) where
  queue : BoundedQueue α
  push : Pushing α := .idle
  /-- Whether draining was turned on, and those who wait are yet to be told. -/
  waking : Bool := false
  /-- Whether the last thing that the controlling thread did was to clear the queue. -/
  cleared : Bool := false

/-- What a step is. -/
inductive Deed where
  | called
  | locked
  | looked
  | read
  | ended
  | popped
  | cleared
  | drained
  | woken
  /-- Draining was turned off: whether the queue had just been cleared, and whether a push had ended its
      wait at a full queue. -/
  | resumed (cleared torn : Bool)
  deriving DecidableEq, Repr

namespace Contended

/-- Whether a push has ended its wait at a full queue, and is yet to read the flag again. -/
def isTorn (w : Contended α) : Bool :=
  match w.push with
  | .leaves _ => w.queue.isFull
  | _ => false

/-- One step of one thread.  Every reading and every writing of the drain flag is a step. -/
inductive Step (w : Contended α) : Deed → Contended α → Prop where
  -- The push.
  | call (x : α) (h : w.push = .idle) : w.Step .called { w with push := .waits x }
  | lock {x : α} (h : w.push = .waits x) : w.Step .locked { w with push := .looks x }
  | look {x : α} (h : w.push = .looks x) :
    w.Step .looked
      { w with push := if w.queue.mustWait w.queue.draining then .waits x else .leaves x }
  | read {x : α} (h : w.push = .leaves x) :
    w.Step .read { w with push := .decided w.queue.draining x }
  | accept {draining : Bool} {x : α} {q : BoundedQueue α} (h : w.push = .decided draining x)
    (hs : w.queue.settle draining x = .accepted q) :
    w.Step .ended { w with queue := q, push := .idle }
  | refuse {draining : Bool} {x : α} (h : w.push = .decided draining x)
    (hs : w.queue.settle draining x = .refused) : w.Step .ended { w with push := .idle }
  -- The thread that takes items out.
  | pop {x : α} {q : BoundedQueue α} (hfree : w.push.holdsLock = false)
    (h : w.queue.pop? = some (x, q)) : w.Step .popped { w with queue := q }
  -- The thread that controls the queue.
  | clear (hfree : w.push.holdsLock = false) (hw : w.waking = false) :
    w.Step .cleared { w with queue := w.queue.clear, cleared := true }
  | drain (hw : w.waking = false) :
    w.Step .drained { w with queue := w.queue.setDraining true, waking := true, cleared := false }
  | wake (hfree : w.push.holdsLock = false) (hw : w.waking = true) :
    w.Step .woken { w with waking := false }
  | resume (hw : w.waking = false) :
    w.Step (.resumed w.cleared w.isTorn)
      { w with queue := w.queue.setDraining false, cleared := false }

/-! ## A push that nobody disturbs -/

/-- The steps of one push, taken one after the other, are one look at the queue. -/
theorem trail_of_push (q : BoundedQueue α) (x : α) :
    match q.push x with
    | .accepted q' => Trail Step { queue := q } [.called, .locked, .looked, .read, .ended] { queue := q' }
    | .refused => Trail Step { queue := q } [.called, .locked, .looked, .read, .ended] { queue := q }
    | .waits => Trail Step { queue := q } [.called, .locked, .looked] { queue := q, push := .waits x } := by
  have hlooks := Trail.refl.tail (Step.call (w := { queue := q }) x rfl) |>.tail (.lock rfl)
  have hlooked := hlooks.tail (.look rfl)
  unfold BoundedQueue.push
  split
  · rename_i q' h
    split at h
    · cases h
    · rename_i hw
      rw [if_neg hw] at hlooked
      exact (hlooked.tail (.read rfl)).tail (.accept rfl h)
  · rename_i h
    split at h
    · cases h
    · rename_i hw
      rw [if_neg hw] at hlooked
      exact (hlooked.tail (.read rfl)).tail (.refuse rfl h)
  · rename_i h
    split at h
    · rename_i hw
      rwa [if_pos hw] at hlooked
    · unfold BoundedQueue.settle at h
      split at h <;> cases h

/-! ## What can make the queue too long -/

/-- A push is torn exactly if it is to go on and there is no room for its item. -/
theorem isTorn_iff {w : Contended α} :
    w.isTorn ↔ (∃ x, w.push = .leaves x) ∧ w.queue.capacity ≤ w.queue.items.length := by
  unfold isTorn
  split
  · rename_i x h
    simp only [BoundedQueue.isFull_iff, Pushing.leaves.injEq, exists_eq', true_and, h]
  · rename_i h
    simp only [Bool.false_eq_true, false_iff, not_and]
    rintro ⟨x, hx⟩
    exact absurd hx (h x)

/-- A push that does not hold the lock will look at the queue again. -/
theorem goesIn_of_free {p : Pushing α} (hfree : p.holdsLock = false) (draining : Bool) :
    p.goesIn draining = false := by
  cases p with
  | idle | waits | looks => rfl
  | leaves | decided => cases hfree

/-- A push that adds its item to a queue that drains has made its mind up before. -/
theorem goesIn_of_draining {p : Pushing α} (h : p.goesIn true = true) (draining : Bool) :
    p.goesIn draining = true := by
  cases p with
  | decided => exact h
  | idle | waits | looks | leaves => cases h

/-- There is room for the items, and for that of a push that will add it. -/
structure Within (w : Contended α) (bound : Nat) : Prop where
  capacity : w.queue.capacity ≤ bound
  items : w.queue.items.length ≤ bound
  room : w.push.goesIn w.queue.draining = true → w.queue.items.length < bound

/-- If the queue drains since it was cleared, nothing has come in. -/
structure Swept (w : Contended α) : Prop where
  torn : w.cleared → w.isTorn → w.queue.draining
  items : w.cleared → w.queue.draining → w.queue.items = []
  out : w.cleared → w.queue.draining → w.push.goesIn true = false

variable {w w' : Contended α} {bound : Nat} {d : Deed}

/-- A pop takes the oldest item, and that is all that it does. -/
theorem eq_of_pop? {q q' : BoundedQueue α} {x : α} (h : q.pop? = some (x, q')) :
    q = { q' with items := x :: q'.items } := by
  have hitems := BoundedQueue.items_pop? h
  unfold BoundedQueue.pop? at h
  split at h <;> cases h
  rw [← hitems]

/-- No step changes the capacity. -/
theorem capacity_of_step (hstep : w.Step d w') : w'.queue.capacity = w.queue.capacity := by
  cases hstep with
  | call | lock | look | read | refuse | clear | drain | wake | resume => rfl
  | @accept draining x q h hs =>
    cases draining <;> cases hs
    rfl
  | pop hfree h => rw [eq_of_pop? h]

/-- Turning draining off right after the queue was cleared does not find a push at a full queue. -/
theorem Swept.not_torn (h : w.Swept) (hc : 0 < w.queue.capacity) (hcleared : w.cleared = true) :
    w.isTorn = false := by
  rw [← Bool.not_eq_true]
  intro htorn
  have hempty := h.items hcleared (h.torn hcleared htorn)
  have hfull := (isTorn_iff.1 htorn).2
  rw [hempty] at hfull
  exact absurd hc (Nat.not_lt.2 hfull)

/-- Where no push will add its item, there has to be room for the items only. -/
theorem Within.of_out (hcapacity : w.queue.capacity ≤ bound) (hitems : w.queue.items.length ≤ bound)
    (hout : w.push.goesIn w.queue.draining = false) : w.Within bound where
  capacity := hcapacity
  items := hitems
  room := fun hin => absurd hin (by rw [hout]; exact Bool.false_ne_true)

/-- Turning draining off makes room for one more item necessary if it finds a push at a full queue. -/
theorem Within.resume (h : w.Within bound) :
    Within { w with queue := w.queue.setDraining false, cleared := false }
      (bound + w.isTorn.toNat) := by
  have hle : bound ≤ bound + w.isTorn.toNat := Nat.le_add_right ..
  refine ⟨Nat.le_trans h.capacity hle, Nat.le_trans h.items hle, fun hin => ?_⟩
  show w.queue.items.length < _
  cases hp : w.push with
  | leaves x =>
    by_cases hfull : w.queue.capacity ≤ w.queue.items.length
    · rw [(isTorn_iff (w := w)).2 ⟨⟨x, hp⟩, hfull⟩]
      exact Nat.lt_succ_of_le h.items
    · exact Nat.lt_of_lt_of_le (Nat.not_le.1 hfull) (Nat.le_trans h.capacity hle)
  | decided read x =>
    -- the flag is not read again
    have hin' : w.push.goesIn w.queue.draining = true := by
      rw [hp]
      rwa [hp] at hin
    exact Nat.lt_of_lt_of_le (h.room hin') hle
  | idle | waits | looks =>
    rw [hp] at hin
    cases hin

/-- A step makes one more item possible if it turns draining off without the queue having been cleared
    just before, while a push has ended its wait at a full queue. -/
theorem within_of_step (h : w.Within bound) (hs : w.Swept) (hc : 0 < w.queue.capacity)
    (hstep : w.Step d w') : w'.Within (bound + [d].count (.resumed false true)) := by
  cases hstep with
  | call x hp => exact .of_out h.capacity h.items rfl
  | lock hp => exact .of_out h.capacity h.items rfl
  | look hp =>
    by_cases hwait : w.queue.mustWait w.queue.draining
    · rw [if_pos hwait]
      exact .of_out h.capacity h.items rfl
    · rw [if_neg hwait]
      refine ⟨h.capacity, h.items, fun hin => ?_⟩
      -- the wait ended because there is room
      have hroom : w.queue.items.length < w.queue.capacity := by
        have hd : w.queue.draining = false := by simpa [Pushing.goesIn] using hin
        simpa [BoundedQueue.mustWait, BoundedQueue.isFull, hd] using hwait
      exact Nat.lt_of_lt_of_le hroom h.capacity
  | read hp =>
    refine ⟨h.capacity, h.items, fun hin => h.room ?_⟩
    rw [hp]
    exact hin
  | @accept draining x q hp hsettle =>
    cases draining with
    | true => cases hsettle
    | false =>
      cases hsettle
      have hroom := h.room (by rw [hp]; rfl)
      refine .of_out h.capacity ?_ rfl
      simp only [BoundedQueue.items_append, List.length_append, List.length_singleton]
      omega
  | refuse hp hsettle => exact .of_out h.capacity h.items rfl
  | pop hfree hpop =>
    have hcapacity := capacity_of_step (.pop hfree hpop)
    have hitems := h.items
    rw [BoundedQueue.items_pop? hpop, List.length_cons] at hitems
    exact .of_out (hcapacity ▸ h.capacity) (Nat.le_of_succ_le hitems) (goesIn_of_free hfree _)
  | clear hfree hw => exact .of_out h.capacity (Nat.zero_le _) (goesIn_of_free hfree _)
  | drain hw => exact ⟨h.capacity, h.items, fun hin => h.room (goesIn_of_draining hin _)⟩
  | wake hfree hw => exact .of_out h.capacity h.items (goesIn_of_free hfree _)
  | resume hw =>
    have hresumed := h.resume
    cases hcleared : w.cleared with
    | true => rwa [hs.not_torn hc hcleared] at hresumed
    | false =>
      cases htorn : w.isTorn <;> rwa [htorn] at hresumed

/-- Where the queue was not cleared just before, nothing has to be shown. -/
theorem Swept.of_uncleared (h : w.cleared = false) : w.Swept := by
  constructor <;>
  · intro hcleared
    rw [h] at hcleared
    cases hcleared

/-- Where no push has ended its wait, only the items count. -/
theorem Swept.of_out (hitems : w.cleared → w.queue.draining → w.queue.items = [])
    (htorn : w.isTorn = false) (hout : w.push.goesIn true = false) : w.Swept where
  torn := fun _ h => absurd h (by rw [htorn]; exact Bool.false_ne_true)
  items := hitems
  out := fun _ _ => hout

/-- A push that holds no lock is not torn. -/
theorem isTorn_of_free (hfree : w.push.holdsLock = false) : w.isTorn = false := by
  rw [← Bool.not_eq_true, isTorn_iff]
  rintro ⟨⟨x, hx⟩, -⟩
  rw [hx] at hfree
  cases hfree

/-- No step breaks the invariant. -/
theorem swept_of_step (h : w.Swept) (hstep : w.Step d w') : w'.Swept := by
  cases hstep with
  | call x hp => exact .of_out h.items rfl rfl
  | lock hp => exact .of_out h.items rfl rfl
  | look hp =>
    by_cases hwait : w.queue.mustWait w.queue.draining
    · rw [if_pos hwait]
      exact .of_out h.items rfl rfl
    · rw [if_neg hwait]
      refine ⟨fun _ htorn => ?_, h.items, fun _ _ => rfl⟩
      -- the wait ended at a full queue, so the queue drains
      have hfull := BoundedQueue.isFull_iff.2 (isTorn_iff.1 htorn).2
      simpa [BoundedQueue.mustWait, show w.queue.isFull = true from hfull] using hwait
  | read hp =>
    refine ⟨fun _ htorn => absurd htorn Bool.false_ne_true, h.items, fun _ hd => ?_⟩
    show (!w.queue.draining) = false
    rw [show w.queue.draining = true from hd]
    rfl
  | @accept draining x q hp hsettle =>
    cases draining with
    | true => cases hsettle
    | false =>
      cases hsettle
      refine .of_out (fun hcleared hd => ?_) rfl rfl
      have hout := h.out hcleared hd
      rw [hp] at hout
      cases hout
  | refuse hp hsettle => exact .of_out h.items rfl rfl
  | pop hfree hpop =>
    refine .of_out (fun hcleared hd => ?_) (isTorn_of_free hfree) (goesIn_of_free hfree _)
    have hempty := h.items hcleared (by rw [eq_of_pop? hpop]; exact hd)
    rw [BoundedQueue.items_pop? hpop] at hempty
    cases hempty
  | clear hfree hw => exact .of_out (fun _ _ => rfl) (isTorn_of_free hfree) (goesIn_of_free hfree _)
  | drain hw => exact .of_uncleared rfl
  | wake hfree hw => exact ⟨h.torn, h.items, h.out⟩
  | resume hw => exact .of_uncleared rfl

/-! ## Any number of steps -/

/-- The steps of the three threads never make a queue longer than its capacity, and one item more for
    every time that draining was turned off while a push had ended its wait at a full queue.  This does
    not happen if the queue was cleared just before, so a queue that is always cleared before it takes
    items in again never holds more than its capacity. -/
theorem length_le_of_trail {q : BoundedQueue α} {deeds : List Deed} (hc : 0 < q.capacity)
    (hq : q.items.length ≤ q.capacity) (h : Trail Step { queue := q } deeds w) :
    w.queue.items.length ≤ q.capacity + deeds.count (.resumed false true) ∧
      ((∀ torn, .resumed false torn ∉ deeds) → w.queue.items.length ≤ q.capacity) := by
  have hinv : w.Within (q.capacity + deeds.count (.resumed false true)) ∧ w.Swept ∧
      w.queue.capacity = q.capacity := by
    induction h with
    | refl => exact ⟨.of_out (Nat.le_refl _) hq rfl, .of_uncleared rfl, rfl⟩
    | tail _ hstep ih =>
      obtain ⟨hwithin, hswept, hcapacity⟩ := ih
      rw [List.count_append, ← Nat.add_assoc]
      exact ⟨within_of_step hwithin hswept (hcapacity ▸ hc) hstep, swept_of_step hswept hstep,
        (capacity_of_step hstep).trans hcapacity⟩
  refine ⟨hinv.1.items, fun hswept => ?_⟩
  have hle := hinv.1.items
  rwa [List.count_eq_zero.2 (hswept true)] at hle

/-- A push finds its queue draining, and the next one finds it cleared. -/
theorem length_le_of_cleared : ∃ deeds, ∃ w : Contended Nat,
    Trail Step { queue := { capacity := 1, items := [7] } } deeds w ∧
      (∀ torn, .resumed false torn ∉ deeds) ∧ w.queue.items = [9] ∧ w.queue.items.length ≤ 1 := by
  have hstart : Trail Step ({ queue := { capacity := 1, items := [7] } } : Contended Nat) []
      { queue := { capacity := 1, items := [7] } } := .refl
  have hlooked := (((hstart.tail (.drain rfl)).tail (.call 8 rfl)).tail (.lock rfl)).tail (.look rfl)
  have hrefused := (hlooked.tail (.read rfl)).tail (.refuse rfl rfl)
  have hresumed := ((hrefused.tail (.wake rfl rfl)).tail (.clear rfl rfl)).tail (.resume rfl)
  have hended := ((((hresumed.tail (.call 9 rfl)).tail (.lock rfl)).tail (.look rfl)).tail
    (.read rfl)).tail (.accept rfl rfl)
  refine ⟨_, _, hended, by decide, rfl, ?_⟩
  exact (length_le_of_trail (by decide) (by decide) hended).2 (by decide)

/-! ## No bound on the items -/

/-- An item comes in, whether or not there is room: draining may be turned on before a push ends its
    wait, and off before it reads the flag again. -/
theorem attains_append {q : BoundedQueue α} (hd : q.draining = false) (x : α) :
    Attains Step { queue := q } { queue := q.append x } := by
  have hdrained := Trail.refl.tail (Step.drain (w := { queue := q }) rfl) |>.tail (.wake rfl rfl)
  have hlooked := ((hdrained.tail (.call x rfl)).tail (.lock rfl)).tail (.look rfl)
  have hleaves : (q.setDraining true).mustWait true = false := Bool.and_false _
  rw [show (q.setDraining true).draining = true from rfl, hleaves] at hlooked
  have hended := ((hlooked.tail (.resume rfl)).tail (.read rfl)).tail (.accept rfl rfl)
  cases q
  cases hd
  exact ⟨_, hended⟩

/-- Any items at all can come to be queued behind those that are there. -/
theorem attains_of_items {q : BoundedQueue α} (hd : q.draining = false) (xs : List α) :
    Attains Step { queue := q } { queue := { q with items := q.items ++ xs } } := by
  induction xs generalizing q with
  | nil =>
    rw [List.append_nil]
    exact .refl _
  | cons x rest ih =>
    have hrest := ih (q := q.append x) hd
    rw [BoundedQueue.items_append, List.append_assoc] at hrest
    exact (attains_append hd x).trans hrest

/-- Two items come to be queued where there is room for one. -/
theorem not_length_le :
    ¬∀ (capacity : Nat) (deeds : List Deed) (w : Contended Nat), 0 < capacity →
      Trail Step { queue := { capacity } } deeds w → w.queue.items.length ≤ capacity := by
  intro h
  obtain ⟨deeds, htrail⟩ := attains_of_items (q := { capacity := 1 }) rfl [7, 8]
  exact absurd (h 1 deeds _ (by decide) htrail) (by decide)

end Contended

end MediaBridge
