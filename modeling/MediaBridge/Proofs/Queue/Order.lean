import MediaBridge.Queue
import MediaBridge.Proofs.Trail

/-! # The order of a queue

Any number of threads make requests of a queue.  A request that cannot be answered yet waits, and looks
at the queue again at some later moment.  Each look is carried out as a whole, and which of the waiting
requests looks next is open.

A look is recorded with the queue before and after it.  What it put in and what it took out is read off
the record, so the order in which items leave can be held against the order in which they came.

* `serves_of_serve?`, `waits_of_serve?`  how a look can go;
* `Serves.handedBack`                    what becomes of a push that does not succeed;
* `Serves.oldest`                        what a pop takes;
* `Look.removed_append_items`            one look keeps the order;
* `order_of_trail`                       and so does any number of looks.
-/

namespace MediaBridge

namespace BoundedQueue

variable {α : Type u}

/-- What a thread wants of a queue. -/
inductive Request (α : Type u) where
  | tryPush (x : α)
  /-- A push that may wait for room. -/
  | push (x : α)
  /-- A pop that may wait for an item. -/
  | pop
  /-- A pop that waits for an item until its time is over. -/
  | popInTime
  /-- A pop by a thread that holds the lock already. -/
  | popFront
  | clear
  | setDraining (draining : Bool)

/-- What a request is answered. -/
inductive Reply (α : Type u) where
  | pushed
  | handedBack (x : α)
  | item (x : α)
  | noItem
  | done

namespace Request

/-- The item that a request wants to push. -/
def item? : Request α → Option α
  | .tryPush x | .push x => some x
  | _ => none

/-- Whether a request wants to take an item. -/
def pops : Request α → Bool
  | .pop | .popInTime | .popFront => true
  | _ => false

end Request

/-- One look of a request at a queue, with its time over or not.  None if the request has to wait. -/
def serve? (q : BoundedQueue α) (late : Bool) : Request α → Option (Reply α × BoundedQueue α)
  | .tryPush x =>
    match q.tryPush x with
    | some q' => some (.pushed, q')
    | none => some (.handedBack x, q)
  | .push x =>
    match q.push x with
    | .accepted q' => some (.pushed, q')
    | .refused => some (.handedBack x, q)
    | .waits => none
  | .pop => q.pop?.map fun (x, q') => (.item x, q')
  | .popInTime =>
    match q.pop? with
    | some (x, q') => some (.item x, q')
    | none => if late then some (.noItem, q) else none
  | .popFront =>
    match q.pop? with
    | some (x, q') => some (.item x, q')
    | none => some (.noItem, q)
  | .clear => some (.done, q.clear)
  | .setDraining draining => some (.done, q.setDraining draining)

/-! ## How a look goes -/

/-- How a look goes: the answer, if there is one, and the queue after it. -/
inductive Serves (q : BoundedQueue α) : Request α → Option (Reply α) → BoundedQueue α → Prop where
  -- A push that does not wait looks at the room only.
  | tried {x : α} (hroom : q.items.length < q.capacity) :
    q.Serves (.tryPush x) (some .pushed) (q.append x)
  | full {x : α} (hfull : q.capacity ≤ q.items.length) :
    q.Serves (.tryPush x) (some (.handedBack x)) q
  -- A push that may wait looks at the drain flag as well.
  | pushed {x : α} (hroom : q.items.length < q.capacity) (hd : q.draining = false) :
    q.Serves (.push x) (some .pushed) (q.append x)
  | drained {x : α} (hd : q.draining = true) : q.Serves (.push x) (some (.handedBack x)) q
  | waitsForRoom {x : α} (hfull : q.capacity ≤ q.items.length) (hd : q.draining = false) :
    q.Serves (.push x) none q
  -- A pop looks at the items only.
  | popped {r : Request α} {x : α} {rest : List α} (hr : r.pops = true)
    (hitems : q.items = x :: rest) : q.Serves r (some (.item x)) { q with items := rest }
  | empty {r : Request α} (hr : r.pops = true) (hempty : q.items = []) :
    q.Serves r (some .noItem) q
  | waitsForItem {r : Request α} (hr : r.pops = true) (hempty : q.items = []) : q.Serves r none q
  | cleared : q.Serves .clear (some .done) q.clear
  | drains {draining : Bool} :
    q.Serves (.setDraining draining) (some .done) (q.setDraining draining)

variable {q q' : BoundedQueue α} {r : Request α} {reply : Reply α} {late : Bool}

/-- An item is popped by a request that pops. -/
theorem Serves.of_pop? {x : α} (hr : r.pops = true) (h : q.pop? = some (x, q')) :
    q.Serves r (some (.item x)) q' := by
  simp only [pop?] at h
  split at h <;> cases h
  rename_i hitems
  exact .popped hr hitems

/-- A request that is not answered waits. -/
theorem waits_of_serve? (h : q.serve? late r = none) : q.Serves r none q := by
  cases r with
  | push x =>
    simp only [serve?] at h
    split at h <;> cases h
    rename_i hp
    obtain ⟨hfull, hd⟩ := push_eq_waits_iff.1 hp
    exact .waitsForRoom hfull hd
  | pop =>
    simp only [serve?, Option.map_eq_none_iff, pop?_eq_none_iff] at h
    exact .waitsForItem rfl h
  | popInTime =>
    simp only [serve?] at h
    split at h
    · cases h
    · rename_i hp
      exact .waitsForItem rfl (pop?_eq_none_iff.1 hp)
  | tryPush x | popFront =>
    simp only [serve?] at h
    split at h <;> cases h
  | clear | setDraining draining => cases h

/-- What a look at the queue comes to, whatever is asked for. -/
theorem serves_of_serve? (h : q.serve? late r = some (reply, q')) : q.Serves r (some reply) q' := by
  cases r with
  | tryPush x =>
    simp only [serve?] at h
    split at h <;> cases h
    · rename_i hp
      obtain ⟨hroom, rfl⟩ := tryPush_eq_some_iff.1 hp
      exact .tried hroom
    · rename_i hp
      refine .full (Nat.not_lt.1 fun hroom => ?_)
      rw [tryPush_eq_some_iff.2 ⟨hroom, rfl⟩] at hp
      cases hp
  | push x =>
    simp only [serve?] at h
    split at h <;> cases h
    · rename_i hp
      obtain ⟨hroom, hd, rfl⟩ := push_eq_accepted_iff.1 hp
      exact .pushed hroom hd
    · rename_i hp
      exact .drained (push_eq_refused_iff.1 hp)
  | pop =>
    obtain ⟨⟨x, rest⟩, hp, heq⟩ := Option.map_eq_some_iff.1 h
    cases heq
    exact .of_pop? rfl hp
  | popInTime =>
    simp only [serve?] at h
    split at h
    · rename_i hp
      cases h
      exact .of_pop? rfl hp
    · rename_i hp
      split at h <;> cases h
      exact .empty rfl (pop?_eq_none_iff.1 hp)
  | popFront =>
    simp only [serve?] at h
    split at h <;> cases h
    · rename_i hp
      exact .of_pop? rfl hp
    · rename_i hp
      exact .empty rfl (pop?_eq_none_iff.1 hp)
  | clear =>
    cases h
    exact .cleared
  | setDraining draining =>
    cases h
    exact .drains

/-! ## What a request gets -/

namespace Serves

variable {answer : Option (Reply α)}

/-- No look changes the capacity. -/
theorem capacity_eq (h : q.Serves r answer q') : q'.capacity = q.capacity := by
  cases h <;> rfl

/-- A push that does not succeed hands its own item back, or goes on waiting. -/
theorem handedBack {x : α} (h : q.Serves r answer q') (hr : r.item? = some x)
    (hanswer : answer ≠ some .pushed) :
    q' = q ∧ (answer = some (.handedBack x) ∨ r = .push x ∧ answer = none) := by
  cases h with
  | tried | pushed => exact absurd rfl hanswer
  | full | drained =>
    cases hr
    exact ⟨rfl, .inl rfl⟩
  | waitsForRoom =>
    cases hr
    exact ⟨rfl, .inr ⟨rfl, rfl⟩⟩
  | popped hpops | empty hpops | waitsForItem hpops =>
    cases r with
    | tryPush | push => cases hpops
    | pop | popInTime | popFront | clear | setDraining => cases hr
  | cleared | drains => cases hr

/-- A pop takes the oldest item wherever one is queued. -/
theorem oldest {x : α} {rest : List α} (h : q.Serves r answer q') (hr : r.pops = true)
    (hitems : q.items = x :: rest) : answer = some (.item x) ∧ q' = { q with items := rest } := by
  cases h with
  | popped _ hitems' =>
    cases hitems'.symm.trans hitems
    exact ⟨rfl, rfl⟩
  | empty _ hempty | waitsForItem _ hempty =>
    rw [hempty] at hitems
    cases hitems
  | tried | full | pushed | drained | waitsForRoom | cleared | drains => cases hr

/-- A push that may wait succeeds exactly if there is room and the queue does not drain. -/
theorem pushed_iff {x : α} (h : q.Serves (.push x) answer q') :
    answer = some .pushed ↔ q.draining = false ∧ q.items.length < q.capacity := by
  cases h with
  | pushed hroom hd => exact iff_of_true rfl ⟨hd, hroom⟩
  | drained hd => simp [hd]
  | waitsForRoom hfull hd => simpa using fun _ => hfull
  | popped hpops | empty hpops | waitsForItem hpops => cases hpops

/-- A push that does not wait succeeds exactly if there is room. -/
theorem tried_iff {x : α} (h : q.Serves (.tryPush x) answer q') :
    answer = some .pushed ↔ q.items.length < q.capacity := by
  cases h with
  | tried hroom => exact iff_of_true rfl hroom
  | full hfull => simpa using hfull
  | popped hpops | empty hpops | waitsForItem hpops => cases hpops

end Serves

/-! ## A record of a look -/

/-- A look at a queue. -/
structure Look (α : Type u) where
  before : BoundedQueue α
  request : Request α
  /-- The answer; none if the request goes on waiting. -/
  reply : Option (Reply α)
  after : BoundedQueue α

namespace Look

/-- What came in. -/
def pushed (l : Look α) : List α :=
  match l.request.item?, l.reply with
  | some x, some .pushed => [x]
  | _, _ => []

/-- What went out. -/
def removed (l : Look α) : List α :=
  match l.request, l.reply with
  | _, some (.item x) => [x]
  | .clear, some .done => l.before.items
  | _, _ => []

/-- The look is one that the queue makes of the request. -/
def Holds (l : Look α) : Prop := l.before.Serves l.request l.reply l.after

variable {l : Look α}

/-- What was queued and what came in is what went out and what is queued, in this order. -/
theorem removed_append_items (h : l.Holds) :
    l.removed ++ l.after.items = l.before.items ++ l.pushed := by
  obtain ⟨q, r, reply, q'⟩ := l
  simp only [Holds] at h
  cases h with
  | popped hr hitems =>
    cases r with
    | pop | popInTime | popFront => simp [removed, pushed, Request.item?, hitems]
    | tryPush | push | clear | setDraining => cases hr
  | empty hr hempty | waitsForItem hr hempty =>
    cases r with
    | pop | popInTime | popFront => simp [removed, pushed, Request.item?]
    | tryPush | push | clear | setDraining => cases hr
  | tried | full | pushed | drained | waitsForRoom | cleared | drains =>
    simp [removed, pushed, Request.item?]

end Look

/-! ## Any number of requests -/

/-- A queue with the requests that are yet to be answered. -/
structure Shared (α : Type u) where
  queue : BoundedQueue α
  waiting : List (Request α) := []

/-- What happens at a queue. -/
inductive Event (α : Type u) where
  | asked (r : Request α)
  | looked (l : Look α)

namespace Event

/-- What came in. -/
def pushed : Event α → List α
  | .asked _ => []
  | .looked l => l.pushed

/-- What went out. -/
def removed : Event α → List α
  | .asked _ => []
  | .looked l => l.removed

end Event

namespace Shared

/-- A request is made, or one of those that wait takes a look. -/
inductive Step (w : Shared α) : Event α → Shared α → Prop where
  | ask (r : Request α) : w.Step (.asked r) { w with waiting := r :: w.waiting }
  | wait {r : Request α} (late : Bool) (hr : r ∈ w.waiting) (h : w.queue.serve? late r = none) :
    w.Step (.looked ⟨w.queue, r, none, w.queue⟩) w
  | answer {r : Request α} {rest : List (Request α)} {reply : Reply α} {q : BoundedQueue α}
    (late : Bool) (hr : w.waiting.Perm (r :: rest))
    (h : w.queue.serve? late r = some (reply, q)) :
    w.Step (.looked ⟨w.queue, r, some reply, q⟩) { queue := q, waiting := rest }

variable {w w' : Shared α} {e : Event α}

/-- Either nothing happens to the queue, or it is looked at. -/
theorem Step.look (h : w.Step e w') :
    w'.queue = w.queue ∧ (∃ r, e = .asked r) ∨
      ∃ l : Look α, e = .looked l ∧ l.Holds ∧ l.before = w.queue ∧ l.after = w'.queue := by
  cases h with
  | ask r => exact .inl ⟨rfl, r, rfl⟩
  | wait late _ h => exact .inr ⟨_, rfl, waits_of_serve? h, rfl, rfl⟩
  | answer late _ h => exact .inr ⟨_, rfl, serves_of_serve? h, rfl, rfl⟩

/-- What is true of the events that led to a state. -/
structure Recorded (w : Shared α) (capacity : Nat) (events : List (Event α)) : Prop where
  room : w.queue.capacity = capacity
  items : events.flatMap Event.removed ++ w.queue.items = events.flatMap Event.pushed
  looks : ∀ l, .looked l ∈ events → l.Holds ∧ l.before.capacity = capacity

/-- One more step keeps the record. -/
theorem Recorded.snoc {capacity : Nat} {events : List (Event α)} (hw : w.Recorded capacity events)
    (h : w.Step e w') : w'.Recorded capacity (events ++ [e]) := by
  obtain ⟨hsame, r, rfl⟩ | ⟨l, rfl, hl, hbefore, hafter⟩ := h.look
  · refine ⟨hsame ▸ hw.room, ?_, ?_⟩
    · simpa [Event.removed, Event.pushed, hsame] using hw.items
    · simpa using hw.looks
  · have hcapacity := hbefore ▸ hw.room
    refine ⟨?_, ?_, ?_⟩
    · rw [← hafter, hl.capacity_eq, hcapacity]
    · have hitems := Look.removed_append_items hl
      rw [hbefore, hafter] at hitems
      simp only [List.flatMap_append, List.flatMap_singleton, Event.removed, Event.pushed,
        List.append_assoc, hitems]
      rw [← List.append_assoc, hw.items]
    · intro l' hl'
      rcases List.mem_append.1 hl' with hold | hnew
      · exact hw.looks l' hold
      · cases List.mem_singleton.1 hnew
        exact ⟨hl, hcapacity⟩

/-- Everything that happened to the queue is on record. -/
theorem recorded_of_trail {capacity : Nat} {events : List (Event α)}
    (h : Trail Step { queue := { capacity } } events w) : w.Recorded capacity events := by
  induction h with
  | refl => exact ⟨rfl, rfl, nofun⟩
  | tail _ hstep ih => exact ih.snoc hstep

/-- The items that went out, in the order in which they did, and those that are queued are the items that
    came in.  A push that does not succeed hands its own item back, or waits, and leaves the queue as it
    was; a pop gets the oldest item wherever there is one; a push that may wait succeeds exactly where
    there is room and the queue does not drain, and one that does not wait exactly where there is
    room. -/
theorem order_of_trail {capacity : Nat} {events : List (Event α)}
    (h : Trail Step { queue := { capacity } } events w) :
    events.flatMap Event.removed ++ w.queue.items = events.flatMap Event.pushed ∧
      ∀ l, .looked l ∈ events →
        (∀ x, l.request.item? = some x → l.reply ≠ some .pushed → l.after = l.before ∧
          (l.reply = some (.handedBack x) ∨ l.request = .push x ∧ l.reply = none)) ∧
        (l.request.pops → ∀ x rest, l.before.items = x :: rest →
          l.reply = some (.item x) ∧ l.after = { l.before with items := rest }) ∧
        (∀ x, l.request = .push x → (l.reply = some .pushed ↔
          l.before.draining = false ∧ l.before.items.length < capacity)) ∧
        (∀ x, l.request = .tryPush x →
          (l.reply = some .pushed ↔ l.before.items.length < capacity)) := by
  have hw := recorded_of_trail h
  refine ⟨hw.items, fun l hl => ?_⟩
  obtain ⟨hholds, hcapacity⟩ := hw.looks l hl
  rw [← hcapacity]
  refine ⟨?_, ?_, ?_, ?_⟩
  · intro x hr hreply
    exact hholds.handedBack hr hreply
  · intro hr x rest hitems
    exact hholds.oldest hr hitems
  · intro x hr
    rw [Look.Holds, hr] at hholds
    exact hholds.pushed_iff
  · intro x hr
    rw [Look.Holds, hr] at hholds
    exact hholds.tried_iff

/-- A push waits for a pop, two are turned away while the queue drains, and then it is cleared.  A pop
    still waits when another item comes in. -/
theorem order_of_contested : ∃ (events : List (Event Nat)) (w : Shared Nat),
    Trail Step { queue := { capacity := 1 } } events w ∧
      events.flatMap Event.removed = [7, 8] ∧ w.queue.items = [10] ∧
      w.waiting.length = 1 ∧ events.flatMap Event.pushed = [7, 8] ++ [10] := by
  have hstart : Trail Step ({ queue := { capacity := 1 } } : Shared Nat) []
      { queue := { capacity := 1 } } := .refl
  have hwaits := (((hstart.tail (.ask (.push 7))).tail (.answer false (.refl _) rfl)).tail
    (.ask (.push 8))).tail (.wait false (.head _) rfl)
  have hpopped := ((hwaits.tail (.ask .pop)).tail (.answer false (.refl _) rfl)).tail
    (.answer false (.refl _) rfl)
  have hdrains := (hpopped.tail (.ask (.setDraining true))).tail (.answer false (.refl _) rfl)
  have hrefused := (((hdrains.tail (.ask (.push 9))).tail (.answer false (.refl _) rfl)).tail
    (.ask (.tryPush 9))).tail (.answer false (.refl _) rfl)
  have hcleared := ((hrefused.tail (.ask .popInTime)).tail (.ask .clear)).tail
    (.answer false (.refl _) rfl)
  have hended := ((hcleared.tail (.wait false (.head _) rfl)).tail (.ask (.tryPush 10))).tail
    (.answer false (.refl _) rfl)
  refine ⟨_, _, hended, rfl, rfl, rfl, ?_⟩
  exact (order_of_trail hended).1.symm

end Shared

end BoundedQueue

end MediaBridge
