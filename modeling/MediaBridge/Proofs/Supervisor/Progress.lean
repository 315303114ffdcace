import Mathlib.Data.List.Forall2
import MediaBridge.Proofs.Buffer.Apart
import MediaBridge.Proofs.Pipeline.Lost
import MediaBridge.Proofs.Supervisor.Conveyor

/-! # How far the frames have come

A view of a conveyor lists its frames by how far they have come: lost or come back, with the worker or
with the supervisor, in the ingest, on their way there, or still to be submitted.  The list as a whole
never changes.  Each part of it says what its frames bear, and is left alone by work on any other part.

* `Resting.only`, `Entering.only`, `Working.only`  frames that others work beside;
* `Filed.enter`, `Filed.settle`                    what the bridge knows of the frames.
-/

namespace MediaBridge

open Faults (kept lost Settled)

variable {α : Type v}

namespace Shipment

variable {x : Shipment α} {i : Nat} {s₀ : Store} {P Q : BufferId → Content → Prop}

/-- The frame and who submitted it. -/
def key (x : Shipment α) : HandleId × α := (x.frame, x.user)

/-- What can be said of the buffer of the `i`th frame and of what it carries. -/
def Carries (x : Shipment α) (i : Nat) (s₀ : Store) (P : BufferId → Content → Prop) : Prop :=
  ∃ b bytes, s₀.Made x.frame b bytes ∧ P b ⟨bytes, x.infoAt i⟩

/-- What follows from what a frame carries is carried, too. -/
theorem Carries.imp (h : x.Carries i s₀ P)
    (hpq : ∀ b bytes c, s₀.Made x.frame b bytes → P b c → Q b c) : x.Carries i s₀ Q := by
  obtain ⟨b, bytes, hmade, hp⟩ := h
  exact ⟨b, bytes, hmade, hpq b bytes _ hmade hp⟩

end Shipment

namespace Conveyor

open Store (Only)

/-- The frames by how far they have come, oldest first. -/
structure View (α : Type v) where
  /-- The results in the output queue. -/
  outputs : List (Matched α) := []
  /-- The worker is done with these frames. -/
  past : List (Shipment α) := []
  /-- The worker has this one, if any. -/
  current : List (Shipment α) := []
  /-- These are in the ingest. -/
  queued : List (Shipment α) := []
  /-- This one was registered and is not in the ingest yet. -/
  entering : List (Shipment α) := []
  /-- This one was stamped and is not registered yet. -/
  stamped : List (Shipment α) := []
  todo : List (HandleId × α)
  /-- For so many frames nothing is pending any more. -/
  settled : Nat := 0
  /-- The handles of the results are smaller. -/
  handles : HandleId
  /-- The buffers of the results are smaller. -/
  buffers : BufferId

namespace View

/-- The frames that were accepted. -/
def accepted (v : View α) : List (Shipment α) := v.past ++ v.current ++ v.queued

/-- The frames that were registered. -/
def log (v : View α) : List (Shipment α) := v.accepted ++ v.entering

/-- All the frames. -/
def keys (v : View α) : List (HandleId × α) := (v.log ++ v.stamped).map Shipment.key ++ v.todo

end View

variable {s₀ s s' : Store} {o : LoopbackOptions} {k : Nat} {v : View α} {g : HandleId}
  {b : BufferId}

/-- A result is what was made of a frame, and is held. -/
def Returned (s₀ s : Store) (o : LoopbackOptions) (v : View α) (m : Matched α) (i : Nat) : Prop :=
  ∃ x b, v.past[i]? = some x ∧ m.user = x.user ∧ s₀.handles.next ≤ m.frame ∧ m.frame < v.handles ∧
    s₀.buffers.next ≤ b ∧ b < v.buffers ∧
    x.Carries i s₀ fun _ c => s.Held m.frame b ⟨o.transformed c.bytes, c.info⟩

/-- A result stays one when the worker is done with another frame. -/
theorem Returned.snoc {m : Matched α} {i : Nat} {x : Shipment α} {v' : View α}
    (h : Returned s₀ s o v m i) (hpast : v'.past = v.past ++ [x]) (hhandles : v.handles ≤ v'.handles)
    (hbuffers : v.buffers ≤ v'.buffers) : Returned s₀ s o v' m i := by
  obtain ⟨y, b, hy, huser, hle, hlt, hleb, hltb, hcarries⟩ := h
  refine ⟨y, b, ?_, huser, hle, Nat.lt_of_lt_of_le hlt hhandles, hleb,
    Nat.lt_of_lt_of_le hltb hbuffers, hcarries⟩
  rw [hpast, List.getElem?_append_left (List.getElem?_eq_some_iff.1 hy).1, hy]

/-- The frames that nobody works on. -/
structure Resting (s₀ s : Store) (o : LoopbackOptions) (k : Nat) (v : View α) : Prop where
  todo : ∀ x ∈ v.todo, s₀.Untouched s x.1
  queued : ∀ (j : Nat) (x : Shipment α), v.queued[j]? = some x →
    x.Carries ((v.past ++ v.current).length + j) s₀ (s.Held x.frame)
  outputs : List.Forall₂ (Returned s₀ s o v) v.outputs (kept k v.past.length)

/-- What holds of the frame that is being submitted, which is to get the id `i`. -/
def Entering (s₀ s : Store) (i : Nat) (entering stamped : List (Shipment α)) : Passage α → Prop
  | .idle | .accepted _ => entering = [] ∧ stamped = []
  | .stamped x _ => entering = [] ∧ stamped = [x] ∧ ∃ b bytes m info, s₀.Made x.frame b bytes ∧
    s.Bears x.frame b m ⟨bytes, info⟩ ∧ info.timing = x.timing
  | .registered t _ => stamped = [] ∧ ∃ x, entering = [x] ∧ t.frame = x.frame ∧
    x.Carries i s₀ fun b c => s.Bears x.frame b .unmapped c
  | .offered w => stamped = [] ∧ ∃ x, entering = [x] ∧ w.offer.frame = x.frame ∧
    x.Carries i s₀ (s.Held x.frame)

/-- The frame that the worker has, or the supervisor. -/
inductive Working (s₀ s : Store) (o : LoopbackOptions) (k i : Nat) (handles : HandleId)
    (buffers : BufferId) (w : Worker) : Errand α → List (Shipment α) → Prop where
  | polling (hactivity : w.activity = .polling) (hpulled : w.pulled = i) (hequipped : w.Equipped s) :
    Working s₀ s o k i handles buffers w .idle []
  | holding {x : Shipment α} (hactivity : w.activity = .holding x.frame) (hpulled : w.pulled = i + 1)
    (hkept : ¬k ∣ i + 1)
    (hcarries : x.Carries i s₀ fun b c => s.Bears x.frame b .readable c ∧ w.Fitted s c.bytes.size) :
    Working s₀ s o k i handles buffers w .idle [x]
  | handed {x : Shipment α} {y : Sample} {b : BufferId} (hactivity : w.activity = .delivering)
    (hpulled : w.pulled = i + 1) (hequipped : w.Equipped s) (hkept : ¬k ∣ i + 1)
    (hhandles : handles ≤ y.frame) (hbuffers : buffers ≤ b)
    (hcarries : x.Carries i s₀ fun _ c => s.Held y.frame b ⟨o.transformed c.bytes, c.info⟩) :
    Working s₀ s o k i handles buffers w (.handed y) [x]
  | copied {x : Shipment α} {y : Sample} {copy : HandleId} {b : BufferId}
    (hactivity : w.activity = .delivering) (hpulled : w.pulled = i + 1) (hequipped : w.Equipped s)
    (hkept : ¬k ∣ i + 1) (hhandles : handles ≤ copy) (hbuffers : buffers ≤ b)
    (hcarries : x.Carries i s₀ fun _ c => s.Fresh copy b ⟨o.transformed c.bytes, c.info⟩) :
    Working s₀ s o k i handles buffers w (.copied y copy i) [x]

/-! ## Frames that others work beside -/

/-- Work on something else leaves the frames alone that nobody works on. -/
theorem Resting.only (h : Resting s₀ s o k v) (ho : Only g b s s')
    (hhandles : s₀.handles.next ≤ s.handles.next) (hbuffers : s₀.buffers.next ≤ s.buffers.next)
    (htodo : ∀ x ∈ v.todo, s₀.Away x.1 g b) (hqueued : ∀ x ∈ v.queued, s₀.Away x.frame g b)
    (hplace : g < s₀.handles.next ∧ b < s₀.buffers.next ∨ v.handles ≤ g ∧ v.buffers ≤ b) :
    Resting s₀ s' o k v where
  todo := fun x hx => (h.todo x hx).only ho (htodo x hx) hhandles hbuffers
  queued := by
    intro j x hx
    have haway := hqueued x (List.mem_of_getElem? hx)
    exact (h.queued j x hx).imp fun b' bytes c hmade hheld =>
      hheld.only ho haway.handle (hmade.ne haway)
  outputs := by
    refine h.outputs.imp fun m i hm => ?_
    obtain ⟨x, b', hx, huser, hle, hlt, hleb, hltb, hcarries⟩ := hm
    refine ⟨x, b', hx, huser, hle, hlt, hleb, hltb, hcarries.imp fun _ _ c _ hheld => ?_⟩
    refine hheld.only ho ?_ ?_
    -- results came after the frames of the beginning, and before what is being worked on
    · rcases hplace with ⟨hg, -⟩ | ⟨hg, -⟩
      · exact Nat.ne_of_gt (Nat.lt_of_lt_of_le hg hle)
      · exact Nat.ne_of_lt (Nat.lt_of_lt_of_le hlt hg)
    · rcases hplace with ⟨-, hb⟩ | ⟨-, hb⟩
      · exact Nat.ne_of_gt (Nat.lt_of_lt_of_le hb hleb)
      · exact Nat.ne_of_lt (Nat.lt_of_lt_of_le hltb hb)

/-- When the worker takes the oldest frame from the ingest, the others keep their ids. -/
theorem Resting.behind {x : Shipment α} {rest : List (Shipment α)} (h : Resting s₀ s o k v)
    (hcurrent : v.current = []) (hqueued : v.queued = x :: rest) (j : Nat) (y : Shipment α)
    (hy : rest[j]? = some y) :
    y.Carries ((v.past ++ [x]).length + j) s₀ (s.Held y.frame) := by
  have hcarries := h.queued (j + 1) y (by rw [hqueued]; exact hy)
  rw [hcurrent, List.append_nil] at hcarries
  rwa [List.length_append, List.length_singleton, Nat.add_assoc, Nat.add_comm 1 j]

/-- When a result is published, the worker is done with its frame. -/
theorem Resting.snoc {x : Shipment α} {m : Matched α} {settled : Nat} {handles : HandleId}
    {buffers : BufferId} (h : Resting s₀ s o k v) (hcurrent : v.current = [x])
    (hkept : ¬k ∣ v.past.length + 1) (hhandles : v.handles ≤ handles) (hbuffers : v.buffers ≤ buffers)
    (hm : Returned s₀ s o { v with past := v.past ++ [x], handles, buffers } m v.past.length) :
    Resting s₀ s o k { v with
      outputs := v.outputs ++ [m], past := v.past ++ [x], current := [], settled, handles,
      buffers } where
  todo := h.todo
  queued := by
    intro j y hy
    have hcarries := h.queued j y hy
    rw [hcurrent] at hcarries
    show y.Carries ((v.past ++ [x] ++ []).length + j) s₀ (s.Held y.frame)
    rwa [List.append_nil]
  outputs := by
    rw [List.length_append, List.length_singleton, Faults.kept_succ_of_not_dvd hkept]
    exact List.rel_append (h.outputs.imp fun m' i hm' => hm'.snoc rfl hhandles hbuffers)
      (.cons hm .nil)

variable {i : Nat} {p : Passage α} {entering stamped current : List (Shipment α)} {w : Worker}
  {handles : HandleId} {buffers : BufferId} {e : Errand α}

/-- So does it leave the frame alone that is being submitted, -/
theorem Entering.only (h : Entering s₀ s i entering stamped p) (ho : Only g b s s')
    (haway : ∀ x ∈ entering ++ stamped, s₀.Away x.frame g b) :
    Entering s₀ s' i entering stamped p := by
  cases p with
  | idle => exact h
  | accepted now => exact h
  | stamped x now =>
    obtain ⟨rfl, rfl, b', bytes, m, info, hmade, hbears, htiming⟩ := h
    have haway := haway x (List.mem_singleton_self x)
    exact ⟨rfl, rfl, b', bytes, m, info, hmade, hbears.only ho haway.handle (hmade.ne haway), htiming⟩
  | registered t now =>
    obtain ⟨rfl, x, rfl, hframe, hcarries⟩ := h
    have haway := haway x (List.mem_singleton_self x)
    exact ⟨rfl, x, rfl, hframe, hcarries.imp fun b' bytes c hmade hbears =>
      hbears.only ho haway.handle (hmade.ne haway)⟩
  | offered w =>
    obtain ⟨rfl, x, rfl, hframe, hcarries⟩ := h
    have haway := haway x (List.mem_singleton_self x)
    exact ⟨rfl, x, rfl, hframe, hcarries.imp fun b' bytes c hmade hheld =>
      hheld.only ho haway.handle (hmade.ne haway)⟩

theorem Entering.made (h : Entering s₀ s i entering stamped p) :
    ∀ x ∈ entering ++ stamped, ∃ b bytes, s₀.Made x.frame b bytes := by
  have hone : ∀ {x y : Shipment α} {b : BufferId} {bytes : ByteArray}, s₀.Made x.frame b bytes →
      y ∈ [x] → ∃ b bytes, s₀.Made y.frame b bytes := by
    intro x y b bytes hmade hy
    rw [List.mem_singleton.1 hy]
    exact ⟨b, bytes, hmade⟩
  cases p with
  | idle | accepted now =>
    obtain ⟨rfl, rfl⟩ := h
    exact nofun
  | stamped x now =>
    obtain ⟨rfl, rfl, b, bytes, m, info, hmade, -⟩ := h
    exact fun y hy => hone hmade hy
  | registered t now =>
    obtain ⟨rfl, x, rfl, -, b, bytes, hmade, -⟩ := h
    exact fun y hy => hone hmade hy
  | offered w =>
    obtain ⟨rfl, x, rfl, -, b, bytes, hmade, -⟩ := h
    exact fun y hy => hone hmade hy

/-- and the one that the worker has. -/
theorem Working.only (h : Working s₀ s o k i handles buffers w e current) (ho : Only g b s s')
    (hp : ∀ p, Store.Undisturbed p s s') (haway : ∀ x ∈ current, s₀.Away x.frame g b)
    (hg : g < handles) (hb : b < buffers) : Working s₀ s' o k i handles buffers w e current := by
  cases h with
  | polling hactivity hpulled hequipped =>
    exact .polling hactivity hpulled (hequipped.of_undisturbed hp)
  | holding hactivity hpulled hkept hcarries =>
    have haway := haway _ (List.mem_singleton_self _)
    refine .holding hactivity hpulled hkept (hcarries.imp fun b' bytes c hmade hheld => ?_)
    exact ⟨hheld.1.only ho haway.handle (hmade.ne haway), hheld.2.of_undisturbed hp⟩
  | handed hactivity hpulled hequipped hkept hhandles hbuffers hcarries =>
    refine .handed hactivity hpulled (hequipped.of_undisturbed hp) hkept hhandles hbuffers
      (hcarries.imp fun _ _ c _ hheld => ?_)
    exact hheld.only ho (Nat.ne_of_gt (Nat.lt_of_lt_of_le hg hhandles))
      (Nat.ne_of_gt (Nat.lt_of_lt_of_le hb hbuffers))
  | copied hactivity hpulled hequipped hkept hhandles hbuffers hcarries =>
    refine .copied hactivity hpulled (hequipped.of_undisturbed hp) hkept hhandles hbuffers
      (hcarries.imp fun _ _ c _ hfresh => ?_)
    exact hfresh.only ho (Nat.ne_of_gt (Nat.lt_of_lt_of_le hg hhandles))
      (Nat.ne_of_gt (Nat.lt_of_lt_of_le hb hbuffers))

/-! ## What the bridge knows -/

/-- What a bridge knows of the frames, of which there are `n`. -/
structure Filed (k n : Nat) (outputs : List (Matched α)) (log : List (Shipment α)) (settled : Nat)
    (b : Bridge α) : Prop where
  policy : b.policy = .discardOutput
  maxPending : n ≤ b.maxPending
  capacity : n ≤ b.output.capacity
  items : b.output.items = outputs
  nextId : b.pending.nextId = log.length
  entries : b.pending.entries = Shipment.entriesFrom settled (log.drop settled)
  stale : b.health.value .stale = UInt64.ofNat (lost k settled).length

/-- A frame that is registered leaves an entry behind, and no other entry is given up for it. -/
theorem Filed.enter {k n settled : Nat} {outputs : List (Matched α)} {log : List (Shipment α)}
    {b : Bridge α} (h : Filed k n outputs log settled b) (x : Shipment α) (hn : log.length + 1 ≤ n)
    (hsettled : settled ≤ log.length) :
    Filed k n outputs (log ++ [x]) settled (b.enter x.timing x.user) := by
  have hentry : (b.pending.register x.timing x.user).entries =
      Shipment.entriesFrom settled ((log ++ [x]).drop settled) := by
    have hnext : settled + (log.drop settled).length = b.pending.nextId := by
      rw [List.length_drop, h.nextId]
      omega
    rw [List.drop_append_of_le_length hsettled, Shipment.entriesFrom_append, hnext, ← h.entries]
    rfl
  -- there is room for all frames, so even if none came back no entry is evicted
  have hroom : ¬b.maxPending < (b.pending.register x.timing x.user).length := by
    have hmax := h.maxPending
    rw [Pending.length, hentry, Shipment.length_entriesFrom, List.length_drop, List.length_append,
      List.length_singleton]
    omega
  have heq : b.enter x.timing x.user =
      { b with pending := b.pending.register x.timing x.user } := if_neg hroom
  rw [heq]
  exact { h with
    nextId := by
      rw [List.length_append, ← h.nextId]
      rfl
    entries := hentry }

/-- The result of the oldest frame that the worker is not done with finds its entry. -/
theorem Filed.resolve {k n settled : Nat} {outputs : List (Matched α)}
    {log past after : List (Shipment α)} {x : Shipment α} {b : Bridge α}
    (h : Filed k n outputs log settled b) (hlog : log = past ++ x :: after)
    (hsettled : settled ≤ past.length) :
    b.pending.resolve past.length =
      (⟨.found (x.entry past.length), past.length - settled⟩,
        { b.pending with entries := Shipment.entriesFrom (past.length + 1) after }) := by
  have hdrop : log.drop settled = past.drop settled ++ x :: after := by
    rw [hlog, List.drop_append_of_le_length hsettled]
  have hresolve := Shipment.resolve_entriesFrom (hdrop ▸ h.entries)
  rwa [List.length_drop, Nat.add_sub_cancel' hsettled] at hresolve

/-- With it everything is settled up to that frame. -/
theorem Filed.settle {k n settled : Nat} {outputs : List (Matched α)}
    {log past after : List (Shipment α)} {x : Shipment α} {b b' : Bridge α} {m : Matched α}
    (h : Filed k n outputs log settled b) (hlog : log = past ++ x :: after)
    (hs : Settled k settled past.length) (hkept : ¬k ∣ past.length + 1)
    (hpolicy : b'.policy = b.policy) (hmax : b'.maxPending = b.maxPending)
    (hpending : b'.pending = (b.pending.resolve past.length).2)
    (houtput : b'.output = b.output.append m)
    (hstale : b'.health.value .stale =
      b.health.value .stale + UInt64.ofNat (b.pending.resolve past.length).1.stale) :
    Filed k n (outputs ++ [m]) log (past.length + 1) b' := by
  have hresolve := h.resolve hlog hs.le
  refine ⟨hpolicy.trans h.policy, hmax ▸ h.maxPending, houtput ▸ h.capacity, ?_, ?_, ?_, ?_⟩
  · rw [houtput, ← h.items]
    rfl
  · rw [hpending, Pending.nextId_resolve, h.nextId]
  · have hdrop : log.drop (past.length + 1) = after := by
      rw [hlog, List.drop_append, List.drop_eq_nil_of_le (Nat.le_succ _), List.nil_append]
      simp
    rw [hpending, hresolve, hdrop]
  -- between the last result and this one everything was lost, and is passed over now
  · have hlength : (lost k (past.length + 1)).length =
        (lost k settled).length + (past.length - settled) := by
      rw [Faults.lost_succ_of_not_dvd hkept, ← Nat.add_sub_cancel' hs.le, Faults.lost_add,
        List.length_append, List.length_map, List.length_range, Nat.add_sub_cancel_left]
      exact fun i hle hlt => hs.passed i hle (by omega)
    rw [hstale, hresolve, h.stale, hlength, UInt64.ofNat_add]

end Conveyor

end MediaBridge
