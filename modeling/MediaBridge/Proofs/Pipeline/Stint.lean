import Mathlib.Data.List.ModifyLast
import MediaBridge.Proofs.Pipeline.Lost
import MediaBridge.Proofs.Pipeline.Sight

/-! # One run of a worker

A worker pulls frames, loses one in so many of them, skips those that it cannot read, and hands on a
copy of each of the others.  Meanwhile its faults begin and end, and others work on the buffers, the
frames that it pulls among them.  Its receiver may do what it likes with a sample, but before it answers
nobody owns the sample's buffer any more.

So the worker's pool has everything at home whenever it is asked, the worker never has to wait for a
payload, and no frame is lost on the way that should not be.

* `Stint.Step`         what a worker and those around it can do;
* `supplied_of_step`   the worker has what it needs for the next copy;
* `tallied_of_step`    it has handed on the copies of what it pulled;
* `pushes_of_reaches`  what a run comes to, at any moment.
-/

namespace MediaBridge

open Relation (ReflTransGen)

/-! ## Frames and their copies -/

/-- A frame that a worker pulled. -/
structure Pulled where
  /-- One in this many frames was lost when it came; zero for none. -/
  dropEvery : Nat
  /-- What the worker found when it last looked; none if the frame could not be read. -/
  content : Option Content
  /-- Whether ids were forgotten then. -/
  stripsIds : Bool

/-- What comes out for a frame that is the `n`th of its run. -/
def Pulled.copy? (o : LoopbackOptions) (x : Pulled) (n : Nat) : Option Content :=
  if x.dropEvery ∣ n then none
  else x.content.map fun c =>
    ⟨o.transformed c.bytes,
      { timing := c.info.timing, id := if x.stripsIds then none else c.info.id }⟩

/-- What comes out for the frames of a run, which are counted from one. -/
def copies (o : LoopbackOptions) (frames : List Pulled) : List Content :=
  (frames.zipIdx 1).filterMap fun (x, n) => x.copy? o n

/-- One more frame comes last, if anything comes out for it. -/
theorem copies_concat (o : LoopbackOptions) (frames : List Pulled) (x : Pulled) :
    copies o (frames ++ [x]) = copies o frames ++ (x.copy? o (frames.length + 1)).toList := by
  rw [copies, List.zipIdx_append, List.filterMap_append, Nat.add_comm]
  cases hx : x.copy? o (frames.length + 1) <;> simp [copies, hx]

/-- Nothing comes out for one more frame. -/
theorem copies_of_none {o : LoopbackOptions} {frames : List Pulled} {x : Pulled}
    (hx : x.copy? o (frames.length + 1) = none) : copies o (frames ++ [x]) = copies o frames := by
  rw [copies_concat, hx, Option.toList_none, List.append_nil]

/-! ## The run -/

/-- The sample that a step of a worker hands on. -/
def WorkerStep.sample? (r : WorkerStep) : Option Sample :=
  match r.item with
  | some (.sample x) => some x
  | _ => none

/-- A worker at work, with what it did so far. -/
structure Stint where
  options : LoopbackOptions
  faults : Faults := {}
  store : Store := {}
  ingest : Ingest
  worker : Worker := {}
  /-- The buffer of the sample that was handed on last, until the receiver has answered. -/
  lent : Option BufferId := none
  /-- The frames pulled, oldest first. -/
  frames : List Pulled := []
  /-- What there was to find in the samples handed on. -/
  pushed : List (Option Content) := []
  /-- The answers to them. -/
  answers : List Flow := []
  /-- The messages posted. -/
  posted : List Message := []

namespace Stint

open Store (Op)

/-- The worker was just started. -/
def new (o : LoopbackOptions) (f : Faults) (s : Store) (p : Ingest) : Stint :=
  { options := o, faults := f, store := s, ingest := p }

/-- What the worker finds when it looks at a frame now. -/
def look (c : Stint) (input : HandleId) (dropEvery : Nat) : Pulled :=
  { dropEvery, content := c.store.shown? input, stripsIds := c.faults.stripsIds }

/-- The frames pulled after the worker's next step.  A worker that looks for a frame pulls the oldest
    one, and one that holds a frame looks at it again. -/
def noted (c : Stint) : List Pulled :=
  match c.worker.activity, c.ingest.queue with
  | .polling, input :: _ => c.frames ++ [c.look input c.faults.dropEvery]
  | .holding input, _ => c.frames.modifyLast fun x => c.look input x.dropEvery
  | _, _ => c.frames

/-- The frames that the worker is done with. -/
def settled (c : Stint) : List Pulled :=
  match c.worker.activity with
  | .holding _ => c.frames.dropLast
  | _ => c.frames

/-- After a step of the worker. -/
def after (c : Stint) (r : WorkerStep) : Stint :=
  { c with
    store := r.store
    ingest := r.ingest
    worker := r.worker
    frames := c.noted
    pushed := c.pushed ++ (r.sample?.map fun x => r.store.shown? x.frame).toList
    lent := r.sample?.bind fun x => r.store.live? x.frame }

/-- After an answer of the receiver. -/
def answered (c : Stint) (flow : Flow) : Stint :=
  let (worker, posted) := c.worker.answered c.options flow
  { c with
    worker
    posted := c.posted ++ posted
    lent := none
    answers := if c.worker.activity = .delivering then c.answers ++ [flow] else c.answers }

/-- After the end of the work. -/
def stopped (c : Stint) : Stint :=
  { c with
    store := c.worker.quit c.store
    worker := { c.worker with activity := .finished, pool := none } }

/-- A worker hears that its work was ended when it looks for a frame or waits for a payload. -/
def Listens (c : Stint) : Prop :=
  c.worker.activity = .polling ∨
    (∃ input, c.worker.activity = .holding input) ∧ c.worker.pool.bind c.store.acquire = none

/-- One step of the worker, of its receiver, or of anybody else. -/
inductive Step (c : Stint) : Stint → Prop where
  -- The worker goes on.
  | work {caps : Option Caps} {waited : Bool} {r : WorkerStep}
    (h : c.worker.step? c.options c.faults c.store c.ingest caps waited = some r) : c.Step (c.after r)
  -- The receiver answers, and nobody owns the sample's buffer any more.
  | answer (flow : Flow) (hgiven : ∀ b, c.lent = some b → c.store.isAlive b = false) :
    c.Step (c.answered flow)
  -- Faults begin or end.
  | control (f : Faults) : c.Step { c with faults := f }
  -- The receiver or somebody else works on a buffer or on the ingest.  The handle of the frame that the
  -- worker holds and its pool are out of reach.
  | other (op : Op) (ingest : Ingest)
    (hinput : ∀ input, c.worker.activity = .holding input → op.through ≠ some input)
    (hpool : ∀ p, c.worker.pool = some p → op ≠ .acquire p ∧ op ≠ .dropPool p) :
    c.Step { c with store := c.store.perform op, ingest }
  -- Somebody changes the info of a buffer.
  | inform {g : HandleId} {f : FrameInfo → FrameInfo} {s : Store} (hu : c.store.updateInfo g f = .ok s) :
    c.Step { c with store := s }
  -- The work is ended.
  | stop (hlistens : c.Listens) : c.Step c.stopped

/-- One state can come after another. -/
def Reaches (c c' : Stint) : Prop := ReflTransGen Step c c'

/-! ## What the worker needs -/

/-- The worker has what it needs for the next copy: its pool has lent nothing but the buffer of the
    sample that was not answered yet, and a frame that it holds is there to be read. -/
structure Supplied (c : Stint) : Prop where
  sound : c.store.Sound
  pool : ∀ p, c.worker.pool = some p →
    ∃ pool, c.store.pools.get? p = some pool ∧ pool.capacity = c.options.poolCapacity
  lent : ∀ p b, c.worker.pool = some p → c.store.lends p b → c.lent = some b
  home : c.worker.activity ≠ .delivering → c.lent = none
  ready : ∀ input, c.worker.activity = .holding input → c.worker.Ready c.store input

section

variable {c c' : Stint} {caps : Option Caps} {waited : Bool} {r : WorkerStep}

namespace Supplied

/-- The worker's pool is there. -/
theorem equipped (h : c.Supplied) : c.worker.Equipped c.store := by
  intro p hp
  obtain ⟨pool, hget, -⟩ := h.pool p hp
  exact ⟨pool, hget⟩

/-- What a supplied worker can do. -/
theorem does (h : c.Supplied)
    (hr : c.worker.step? c.options c.faults c.store c.ingest caps waited = some r) :
    c.worker.Does c.options c.faults c.store c.ingest caps r :=
  Worker.does_of_step? h.sound h.equipped h.ready hr

/-- Between two samples everything is at home. -/
theorem not_lends (h : c.Supplied) (hactivity : c.worker.activity ≠ .delivering) {p : PoolId}
    (hp : c.worker.pool = some p) (b : BufferId) : ¬c.store.lends p b := by
  intro hlends
  have hlent := h.lent p b hp hlends
  rw [h.home hactivity] at hlent
  cases hlent

/-- A worker that waits for no answer is provisioned, with no sample handed on. -/
theorem provisioned (h : c.Supplied) (hactivity : c.worker.activity ≠ .delivering) :
    c.worker.Provisioned c.options.poolCapacity c.store (.idle : Errand Unit) where
  pool := h.pool
  lent := fun _ b hp hlends => absurd hlends (h.not_lends hactivity hp b)
  holding := by
    intro input hinput
    obtain ⟨t, p, pool, hhandle, hp, -⟩ := h.ready input hinput
    refine ⟨rfl, by rw [hp]; exact Option.some_ne_none p, ?_⟩
    have ht : (c.store.handle input).target = some t := by rw [hhandle]
    exact Store.lt_next_of_target ht

/-- A worker with a frame finds a payload in its pool, which has the size of the frame. -/
theorem acquire (h : c.Supplied) (hcapacity : 0 < c.options.poolCapacity) {input : HandleId}
    (hinput : c.worker.activity = .holding input) :
    ∃ p output s', c.worker.pool = some p ∧ c.store.acquire p = some (output, s') ∧
      ∀ d, c.store.shown? input = some d →
        ∃ d', s'.shown? output = some d' ∧ d'.bytes.size = d.bytes.size := by
  have hready := h.ready input hinput
  obtain ⟨-, p, -, -, hp, -⟩ := id hready
  have hhome := h.not_lends (by rw [hinput]; rintro ⟨⟩) hp
  obtain ⟨pool, hget, hpool⟩ := h.pool p hp
  obtain ⟨output, s', ha⟩ := h.sound.acquire hget hhome (hpool ▸ hcapacity)
  refine ⟨p, output, s', hp, ha, fun d hd => ?_⟩
  obtain ⟨rfl, -, -, hhandle, bytes, hbuffer, hsize⟩ := Store.acquire_of_size h.sound hget ha
  obtain ⟨-, -, p', pool', hp', hget', hfits⟩ := hready.bears hd
  cases hp.symm.trans hp'
  cases hget.symm.trans hget'
  have hheld : s'.Held c.store.handles.next c.store.buffers.next ⟨bytes, {}⟩ := by
    refine ⟨⟨⟨true, hhandle⟩, ?_⟩, ?_⟩
    · rw [Store.contentOf?, hbuffer]
      rfl
    · rw [Store.lock, hbuffer]
      rintro ⟨⟩
  exact ⟨_, hheld.shown?, hsize.trans hfits⟩

/-- A step of the worker lends at most the buffer of the sample that it hands on. -/
theorem work (h : c.Supplied)
    (hr : c.worker.step? c.options c.faults c.store c.ingest caps waited = some r) :
    (c.after r).Supplied := by
  have hdoes := h.does hr
  obtain ⟨hsound, hprovisioned⟩ :=
    Worker.provisioned_step? h.sound (h.provisioned hdoes.busy.1) hr
  have hlent : ∀ p b, r.worker.pool = some p → r.store.lends p b → (c.after r).lent = some b := by
    intro p b hp hlends
    obtain ⟨x, hx, hsole⟩ := hprovisioned.lent p b hp hlends
    have hlive : r.store.live? x.frame = some b :=
      Store.live?_eq_some_iff.2 ⟨⟨true, hsole.target⟩, Store.isAlive_of_lends hlends⟩
    cases hitem : r.item with
    | none =>
      rw [hitem] at hx
      cases hx
    | some item =>
      rw [hitem] at hx
      cases item with
      | endOfStream => cases hx
      | sample x' =>
        cases hx
        rw [after, WorkerStep.sample?, hitem]
        exact hlive
  cases hdoes with
  | ends | fails => exact ⟨hsound, hprovisioned.pool, hlent, fun _ => rfl, by rintro _ ⟨⟩⟩
  | skips hactivity =>
    refine ⟨hsound, hprovisioned.pool, hlent, fun _ => rfl, fun input hinput => ?_⟩
    cases hactivity.symm.trans hinput
  | takes _ _ _ _ hholding hready =>
    refine ⟨hsound, hprovisioned.pool, hlent, fun _ => rfl, fun input hinput => ?_⟩
    cases hholding.symm.trans hinput
    exact hready
  | fills => exact ⟨hsound, hprovisioned.pool, hlent, fun hnot => absurd rfl hnot, by rintro _ ⟨⟩⟩

/-- Once nobody owns the sample's buffer the pool has it back. -/
theorem answered (h : c.Supplied) (flow : Flow)
    (hgiven : ∀ b, c.lent = some b → c.store.isAlive b = false) : (c.answered flow).Supplied := by
  have hhome : ∀ p b, c.worker.pool = some p → ¬c.store.lends p b := by
    intro p b hp hlends
    have halive := Store.isAlive_of_lends hlends
    rw [hgiven b (h.lent p b hp hlends)] at halive
    cases halive
  have hpool : (c.answered flow).worker.pool = c.worker.pool := by
    rcases c.worker.answered_cases c.options flow with heq | ⟨hpool, -⟩
    · exact congrArg Worker.pool heq
    · exact hpool
  refine ⟨h.sound, fun p hp => h.pool p (hpool.symm.trans hp),
    fun p b hp hlends => absurd hlends (hhome p b (hpool.symm.trans hp)), fun _ => rfl, ?_⟩
  intro input hinput
  rcases c.worker.answered_cases c.options flow with heq | ⟨-, hnot⟩
  · have hsame : (c.answered flow).worker = c.worker := heq
    rw [hsame] at hinput ⊢
    exact h.ready input hinput
  · exact absurd hinput (hnot input)

/-- What others do leaves the worker supplied, if it leaves its pool and its frame alone. -/
theorem of_undisturbed (h : c.Supplied) {s : Store} (ingest : Ingest) (hsound : s.Sound)
    (hpool : ∀ p, c.worker.pool = some p → Store.Undisturbed p c.store s)
    (hready : ∀ input, c.worker.activity = .holding input → c.worker.Ready s input) :
    Supplied { c with store := s, ingest } where
  sound := hsound
  pool := by
    intro p hp
    obtain ⟨pool, hget, hcapacity⟩ := h.pool p hp
    obtain ⟨pool', hget', -, hcapacity'⟩ := (hpool p hp).pool pool hget
    exact ⟨pool', hget', hcapacity'.trans hcapacity⟩
  lent := fun p b hp hlends => h.lent p b hp ((hpool p hp).lends b hlends)
  home := h.home
  ready := hready

/-- What others do through handles of their own leaves the worker supplied. -/
theorem perform (h : c.Supplied) (op : Op) (ingest : Ingest)
    (hinput : ∀ input, c.worker.activity = .holding input → op.through ≠ some input)
    (hpool : ∀ p, c.worker.pool = some p → op ≠ .acquire p ∧ op ≠ .dropPool p) :
    Supplied { c with store := c.store.perform op, ingest } := by
  refine h.of_undisturbed ingest (h.sound.perform op) (fun p hp => ?_) fun input hholding => ?_
  · exact Store.undisturbed_perform h.sound op (hpool p hp).1 (hpool p hp).2
  · exact (h.ready input hholding).perform h.sound op (hinput input hholding) hpool

/-- A change of some info leaves the worker supplied. -/
theorem updateInfo (h : c.Supplied) {g : HandleId} {f : FrameInfo → FrameInfo} {s : Store}
    (hu : c.store.updateInfo g f = .ok s) : Supplied { c with store := s } :=
  h.of_undisturbed c.ingest (h.sound.updateInfo hu)
    (fun _ _ => Store.undisturbed_updateInfo h.sound hu)
    fun input hholding => (h.ready input hholding).updateInfo h.sound hu

/-- A worker whose work was ended needs nothing any more. -/
theorem stopped (h : c.Supplied) (hactivity : c.worker.activity ≠ .delivering) :
    c.stopped.Supplied := by
  obtain ⟨ops, hops⟩ := c.worker.store_quit c.store
  refine ⟨?_, nofun, nofun, fun _ => h.home hactivity, nofun⟩
  rw [Stint.stopped, hops]
  exact h.sound.performAll ops

end Supplied

/-- A worker that waits for an answer does not hear that its work was ended. -/
theorem Listens.not_delivering (hlistens : c.Listens) : c.worker.activity ≠ .delivering := by
  rcases hlistens with hactivity | ⟨⟨input, hactivity⟩, -⟩
  all_goals
    rw [hactivity]
    rintro ⟨⟩

/-- The worker has what it needs for the next copy after any step. -/
theorem supplied_of_step (h : c.Supplied) (hstep : c.Step c') : c'.Supplied := by
  cases hstep with
  | work hr => exact h.work hr
  | answer flow hgiven => exact h.answered flow hgiven
  | control f => exact ⟨h.sound, h.pool, h.lent, h.home, h.ready⟩
  | other op ingest hinput hpool => exact h.perform op ingest hinput hpool
  | inform hu => exact h.updateInfo hu
  | stop hlistens => exact h.stopped hlistens.not_delivering

/-- The worker has what it needs at any moment of a run. -/
theorem supplied_of_reaches (h : c.Supplied) (hreaches : Reaches c c') : c'.Supplied := by
  induction hreaches with
  | refl => exact h
  | tail _ hstep ih => exact supplied_of_step ih hstep

/-- With a payload to lend the worker never waits for one. -/
theorem Supplied.polling_of_listens (h : c.Supplied) (hcapacity : 0 < c.options.poolCapacity)
    (hlistens : c.Listens) : c.worker.activity = .polling := by
  rcases hlistens with hactivity | ⟨⟨input, hactivity⟩, hnone⟩
  · exact hactivity
  · obtain ⟨p, output, s', hp, ha, -⟩ := h.acquire hcapacity hactivity
    rw [hp, Option.bind_some, ha] at hnone
    cases hnone

/-! ## What the worker did -/

/-- What is posted after a receiver failed. -/
def failure (o : LoopbackOptions) : Message :=
  .error (.element (o.name ++ "-sink")) "egress callback reported an error" none

/-- How many samples were handed on, with the answers to them and what was posted, while the worker does
    something.  A failing receiver is the last one to answer, and its failure is all that is posted. -/
inductive Booked (o : LoopbackOptions) : Activity → Nat → List Flow → List Message → Prop where
  | going {a : Activity} {answers : List Flow} (hbusy : a ≠ .delivering ∧ a ≠ .finished)
    (hnone : .error ∉ answers) : Booked o a answers.length answers []
  | delivering {answers : List Flow} (hnone : .error ∉ answers) :
    Booked o .delivering (answers.length + 1) answers []
  | closed {answers : List Flow} {posted : List Message} (hnone : .error ∉ answers)
    (hposted : ∀ m ∈ posted, m = .endOfStream) : Booked o .finished answers.length answers posted
  | failed {answers : List Flow} (hnone : .error ∉ answers) :
    Booked o .finished (answers.length + 1) (answers ++ [.error]) [failure o]

/-- The worker has handed on the copies of the frames that it is done with, and had its answers. -/
structure Tallied (c : Stint) : Prop where
  count : c.worker.pulled = c.frames.length
  pushed : c.pushed = (copies c.options c.settled).map some
  held : ∀ input, c.worker.activity = .holding input →
    ∃ x, c.frames = c.settled ++ [x] ∧ ¬x.dropEvery ∣ c.settled.length + 1
  booked : Booked c.options c.worker.activity c.pushed.length c.answers c.posted

/-- A worker that holds no frame is done with all of them. -/
theorem settled_of_not_holding (hnot : ∀ input, c.worker.activity ≠ .holding input) :
    c.settled = c.frames := by
  unfold settled
  split
  · rename_i input hinput
    exact absurd hinput (hnot input)
  · rfl

/-- After a step that holds no frame, all the frames noted are done with. -/
theorem settled_after (hnot : ∀ input, r.worker.activity ≠ .holding input) :
    (c.after r).settled = c.noted :=
  settled_of_not_holding hnot

/-- A worker that holds a frame is done with all but the last. -/
theorem settled_of_holding {input : HandleId} (hinput : c.worker.activity = .holding input) :
    c.settled = c.frames.dropLast := by
  simp only [settled, hinput]

/-- Nothing comes out for a frame that is lost or cannot be read. -/
theorem copy?_look_of_not {o : LoopbackOptions} {input : HandleId} {k n : Nat}
    (hnot : k ∣ n ∨ c.store.shown? input = none) : (c.look input k).copy? o n = none := by
  rw [Pulled.copy?, look]
  rcases hnot with hlost | hshown
  · exact if_pos hlost
  · rw [hshown, Option.map_none, ite_self]

/-- What comes out for any other frame is what the worker makes of it. -/
theorem copy?_look {o : LoopbackOptions} {input : HandleId} {k n : Nat} {d : Content} (hkept : ¬k ∣ n)
    (hshown : c.store.shown? input = some d) :
    (c.look input k).copy? o n = some ⟨o.transformed d.bytes, c.faults.attach d.info {}⟩ := by
  rw [Pulled.copy?, look, hshown, if_neg hkept, Option.map_some, Faults.attach]
  cases d.info.id <;> rfl

/-- A worker that looks for a frame notes the oldest one. -/
theorem noted_of_polling {input : HandleId} {rest : List HandleId}
    (hactivity : c.worker.activity = .polling) (hqueue : c.ingest.queue = input :: rest) :
    c.noted = c.frames ++ [c.look input c.faults.dropEvery] := by
  simp only [noted, hactivity, hqueue]

/-- What it noted when it took a frame gives way to what it finds when it looks again. -/
theorem noted_of_holding {input : HandleId} {x : Pulled}
    (hactivity : c.worker.activity = .holding input) (hx : c.frames = c.settled ++ [x]) :
    c.noted = c.settled ++ [c.look input x.dropEvery] := by
  rw [noted, hactivity]
  simp only
  rw [hx, List.modifyLast_concat]

namespace Booked

variable {o : LoopbackOptions} {a a' : Activity} {n : Nat} {answers : List Flow} {posted : List Message}

/-- Something else is done, and nothing is handed on. -/
theorem goes (h : Booked o a n answers posted) (hbusy : a ≠ .delivering ∧ a ≠ .finished)
    (hbusy' : a' ≠ .delivering ∧ a' ≠ .finished) : Booked o a' n answers posted := by
  cases h with
  | going _ hnone => exact .going hbusy' hnone
  | delivering => exact absurd rfl hbusy.1
  | closed | failed => exact absurd rfl hbusy.2

/-- A sample is handed on. -/
theorem hands (h : Booked o a n answers posted) (hbusy : a ≠ .delivering ∧ a ≠ .finished) :
    Booked o .delivering (n + 1) answers posted := by
  cases h with
  | going _ hnone => exact .delivering hnone
  | delivering => exact absurd rfl hbusy.1
  | closed | failed => exact absurd rfl hbusy.2

/-- The work is over, and nothing failed. -/
theorem ends {ms : List Message} (h : Booked o a n answers posted)
    (hbusy : a ≠ .delivering ∧ a ≠ .finished) (hms : ∀ m ∈ ms, m = .endOfStream) :
    Booked o .finished n answers (posted ++ ms) := by
  cases h with
  | going _ hnone => exact .closed hnone hms
  | delivering => exact absurd rfl hbusy.1
  | closed | failed => exact absurd rfl hbusy.2

/-- The receiver did not fail. -/
theorem passes {flow : Flow} (h : Booked o .delivering n answers posted) (hflow : flow ≠ .error) :
    Booked o .polling n (answers ++ [flow]) (posted ++ []) := by
  cases h with
  | going hbusy => exact absurd rfl hbusy.1
  | @delivering answers hnone =>
    have hlength : (answers ++ [flow]).length = answers.length + 1 := List.length_append
    rw [← hlength]
    refine .going (by decide) fun hmem => ?_
    rcases List.mem_append.1 hmem with hold | hnew
    · exact hnone hold
    · exact hflow (List.mem_singleton.1 hnew).symm

/-- The receiver failed. -/
theorem fails (h : Booked o .delivering n answers posted) :
    Booked o .finished n (answers ++ [.error]) (posted ++ [failure o]) := by
  cases h with
  | going hbusy => exact absurd rfl hbusy.1
  | delivering hnone => exact .failed hnone

/-- A failing receiver was the last to answer. -/
theorem last_of_error (h : Booked o a n answers posted) (herror : .error ∈ answers) :
    a = .finished ∧ answers.length = n ∧ posted = [failure o] := by
  cases h with
  | going _ hnone | delivering hnone | closed hnone => exact absurd herror hnone
  | failed => exact ⟨rfl, List.length_append, rfl⟩

/-- Only the last answer can be a failure. -/
theorem not_mem_dropLast (h : Booked o a n answers posted) : .error ∉ answers.dropLast := by
  cases h with
  | going _ hnone | delivering hnone | closed hnone =>
    exact fun hmem => hnone ((List.dropLast_sublist _).subset hmem)
  | failed hnone =>
    rw [List.dropLast_concat]
    exact hnone

/-- While nothing failed, nothing is posted but the end of the stream. -/
theorem posted_of_no_error (h : Booked o a n answers posted) (hnone : .error ∉ answers) :
    ∀ m ∈ posted, m = .endOfStream := by
  cases h with
  | going | delivering => exact List.forall_mem_nil _
  | closed _ hposted => exact hposted
  | failed => exact absurd List.mem_concat_self hnone

/-- Every sample handed on has its answer, but for the one being delivered. -/
theorem length_answers (h : Booked o a n answers posted) :
    answers.length + (if a = .delivering then 1 else 0) = n := by
  cases h with
  | going hbusy => rw [if_neg hbusy.1, Nat.add_zero]
  | delivering => rw [if_pos rfl]
  | closed => rw [if_neg (by rintro ⟨⟩), Nat.add_zero]
  | failed => rw [if_neg (by rintro ⟨⟩), Nat.add_zero, List.length_append, List.length_singleton]

end Booked

namespace Tallied

/-- A step of the worker with which nothing more comes out. -/
theorem quiet (h : c.Tallied) (hsample : r.sample? = none)
    (hbusy : c.worker.activity ≠ .delivering ∧ c.worker.activity ≠ .finished)
    (hbusy' : r.worker.activity ≠ .delivering ∧ r.worker.activity ≠ .finished)
    (hcount : r.worker.pulled = c.noted.length)
    (hcopies : copies c.options (c.after r).settled = copies c.options c.settled)
    (hheld : ∀ input, r.worker.activity = .holding input →
      ∃ x, c.noted = (c.after r).settled ++ [x] ∧ ¬x.dropEvery ∣ (c.after r).settled.length + 1) :
    (c.after r).Tallied := by
  have hpushed : (c.after r).pushed = c.pushed := by
    rw [after, hsample, Option.map_none, Option.toList_none, List.append_nil]
  refine ⟨hcount, ?_, hheld, ?_⟩
  · exact hpushed.trans (h.pushed.trans (congrArg _ hcopies.symm))
  · rw [hpushed]
    exact h.booked.goes hbusy hbusy'

/-- A step with which one more copy comes out. -/
theorem hands (h : c.Tallied) {x : Sample} {out : Content} (hsample : r.sample? = some x)
    (hbusy : c.worker.activity ≠ .delivering ∧ c.worker.activity ≠ .finished)
    (hdelivering : r.worker.activity = .delivering) (hcount : r.worker.pulled = c.noted.length)
    (hcopies : copies c.options c.noted = copies c.options c.settled ++ [out])
    (hout : r.store.shown? x.frame = some out) : (c.after r).Tallied := by
  have hnot : ∀ input, r.worker.activity ≠ .holding input := by
    rw [hdelivering]
    rintro _ ⟨⟩
  have hpushed : (c.after r).pushed = c.pushed ++ [some out] := by
    rw [after, hsample, Option.map_some, hout, Option.toList_some]
  refine ⟨hcount, ?_, fun input hinput => absurd hinput (hnot input), ?_⟩
  · rw [settled_after hnot]
    refine (hpushed.trans ?_).trans (congrArg (List.map some) hcopies.symm)
    rw [h.pushed, List.map_append, List.map_singleton]
  · rw [hpushed, List.length_append, List.length_singleton]
    exact hdelivering ▸ h.booked.hands hbusy

/-- Whatever the worker does, its copies are those of the frames it is done with. -/
theorem work (h : c.Tallied) (hdoes : c.worker.Does c.options c.faults c.store c.ingest caps r) :
    (c.after r).Tallied := by
  have hcount := h.count
  have hbusy := hdoes.busy
  cases hdoes with
  | ends hactivity hqueue =>
    have hnoted : c.noted = c.frames := by simp only [noted, hactivity, hqueue]
    refine h.quiet rfl hbusy (by simp) (hcount.trans (by rw [hnoted])) ?_ (by rintro _ ⟨⟩)
    rw [settled_after (by rintro _ ⟨⟩), hnoted,
      settled_of_not_holding (by rw [hactivity]; rintro _ ⟨⟩)]
  | @skips input rest s' p' hactivity hqueue hnot =>
    have hnoted := noted_of_polling hactivity hqueue
    have hpolling : ∀ input, c.worker.activity ≠ .holding input := by
      rw [hactivity]
      rintro _ ⟨⟩
    rw [hcount, Faults.drops_succ_iff] at hnot
    refine h.quiet rfl hbusy hbusy ?_ ?_ fun input hinput => absurd hinput (hpolling input)
    · rw [hnoted, List.length_append, hcount]
      rfl
    · rw [settled_of_not_holding hpolling]
      exact (congrArg _ ((settled_after hpolling).trans hnoted)).trans
        (copies_of_none (copy?_look_of_not hnot))
  | @takes input rest w' s' p' hactivity hqueue hkept hpulled hholding =>
    have hnoted := noted_of_polling hactivity hqueue
    rw [hcount] at hkept hpulled
    -- the frame was pulled, but the worker is not done with it
    have hsettled : ∀ r : WorkerStep, r.worker.activity = .holding input →
        (c.after r).settled = c.frames := by
      intro r hr
      rw [settled_of_holding hr]
      exact (congrArg _ hnoted).trans List.dropLast_concat
    refine h.quiet rfl hbusy (by simp [hholding]) ?_ ?_ fun input' _ =>
      ⟨c.look input c.faults.dropEvery, ?_, ?_⟩
    · rw [hnoted, List.length_append, hpulled]
      rfl
    · rw [hsettled _ hholding, settled_of_not_holding (by rw [hactivity]; rintro _ ⟨⟩)]
    · rw [hsettled _ hholding, hnoted]
    · rw [hsettled _ hholding]
      intro hlost
      rw [Faults.drops_succ_iff.2 hlost] at hkept
      cases hkept
  | @fails input s' hactivity hshown =>
    obtain ⟨x, hx, -⟩ := h.held input hactivity
    have hnoted := noted_of_holding hactivity hx
    rw [hx, List.length_append] at hcount
    refine h.quiet rfl hbusy (by simp) ?_ ?_ (by rintro _ ⟨⟩)
    · rw [hnoted, List.length_append]
      exact hcount
    · rw [settled_after (by rintro _ ⟨⟩), hnoted]
      exact copies_of_none (copy?_look_of_not (.inr hshown))
  | @fills input s' d b' hactivity hshown hheld _ =>
    obtain ⟨x, hx, hkept⟩ := h.held input hactivity
    have hnoted := noted_of_holding hactivity hx
    rw [hx, List.length_append] at hcount
    refine h.hands rfl hbusy rfl ?_ ?_ hheld.shown?
    · rw [hnoted, List.length_append]
      exact hcount
    · rw [hnoted, copies_concat, copy?_look hkept hshown, Option.toList_some]

/-- The answer to a sample is written down.  The answer to the end of the stream ends the work, and to
    nothing there is no answer. -/
theorem answered (h : c.Tallied) (flow : Flow) : (c.answered flow).Tallied := by
  have hpushed := h.pushed
  have hbooked := h.booked
  unfold Stint.answered Worker.answered
  cases hactivity : c.worker.activity with
  | polling | holding | finished =>
    simp only [reduceCtorEq, if_false, List.append_nil]
    exact ⟨h.count, hpushed, h.held, hbooked⟩
  | delivering =>
    rw [settled_of_not_holding (by rw [hactivity]; rintro _ ⟨⟩)] at hpushed
    rw [hactivity] at hbooked
    simp only [if_true]
    cases flow with
    | error => exact ⟨h.count, hpushed, by rintro _ ⟨⟩, hbooked.fails⟩
    | ok | flushing | ended => exact ⟨h.count, hpushed, by rintro _ ⟨⟩, hbooked.passes (by decide)⟩
  | ending =>
    rw [settled_of_not_holding (by rw [hactivity]; rintro _ ⟨⟩)] at hpushed
    rw [hactivity] at hbooked
    simp only [reduceCtorEq, if_false]
    exact ⟨h.count, hpushed, by rintro _ ⟨⟩, hbooked.ends (by decide) fun m => List.mem_singleton.1⟩

/-- Ending the work adds neither a copy nor an answer. -/
theorem stopped (h : c.Tallied) (hactivity : c.worker.activity = .polling) : c.stopped.Tallied := by
  have hpushed := h.pushed
  have hbooked := h.booked
  rw [settled_of_not_holding (by rw [hactivity]; rintro _ ⟨⟩)] at hpushed
  rw [hactivity] at hbooked
  have hends := hbooked.ends (by decide) (List.forall_mem_nil _)
  rw [List.append_nil] at hends
  exact ⟨h.count, hpushed, by rintro _ ⟨⟩, hends⟩

end Tallied

/-- The worker has handed on the copies of what it pulled after any step. -/
theorem tallied_of_step (hcapacity : 0 < c.options.poolCapacity) (hs : c.Supplied) (h : c.Tallied)
    (hstep : c.Step c') : c'.Tallied := by
  cases hstep with
  | work hr => exact h.work (hs.does hr)
  | answer flow => exact h.answered flow
  | control | other | inform => exact ⟨h.count, h.pushed, h.held, h.booked⟩
  | stop hlistens => exact h.stopped (hs.polling_of_listens hcapacity hlistens)

/-- A failing receiver is the last to answer, and nothing comes out after that. -/
theorem failed_of_step (h : c.Tallied) (herror : .error ∈ c.answers) (hstep : c.Step c') :
    c'.frames = c.frames ∧ c'.pushed = c.pushed ∧ c'.answers = c.answers ∧ c'.posted = c.posted := by
  obtain ⟨hfinished, -⟩ := h.booked.last_of_error herror
  cases hstep with
  | work hr =>
    rw [Worker.step?, hfinished] at hr
    cases hr
  | answer flow =>
    unfold Stint.answered Worker.answered
    simp only [hfinished, reduceCtorEq, if_false, List.append_nil, and_self]
  | control | other | inform => exact ⟨rfl, rfl, rfl, rfl⟩
  | stop hlistens =>
    rcases hlistens with hactivity | ⟨⟨input, hactivity⟩, -⟩
    all_goals cases hfinished.symm.trans hactivity

/-! ## What a run comes to -/

/-- Nobody changes the options of a pipeline that plays. -/
theorem options_of_step (hstep : c.Step c') : c'.options = c.options := by
  cases hstep <;> rfl

/-- The worker has handed on the copies of what it pulled at any moment of a run. -/
theorem tallied_of_reaches (hcapacity : 0 < c.options.poolCapacity) (hs : c.Supplied) (h : c.Tallied)
    (hreaches : Reaches c c') : c'.options = c.options ∧ c'.Tallied := by
  induction hreaches with
  | refl => exact ⟨rfl, h⟩
  | tail hbefore hstep ih =>
    obtain ⟨ho, h'⟩ := ih
    exact ⟨(options_of_step hstep).trans ho,
      tallied_of_step (ho ▸ hcapacity) (supplied_of_reaches hs hbefore) h' hstep⟩

/-- After a receiver failed nothing is pulled, handed on, answered or posted. -/
theorem failed_of_reaches (hcapacity : 0 < c.options.poolCapacity) (hs : c.Supplied) (h : c.Tallied)
    (herror : .error ∈ c.answers) (hreaches : Reaches c c') :
    c'.frames = c.frames ∧ c'.pushed = c.pushed ∧ c'.answers = c.answers ∧ c'.posted = c.posted := by
  induction hreaches with
  | refl => exact ⟨rfl, rfl, rfl, rfl⟩
  | tail hbefore hstep ih =>
    obtain ⟨hframes, hpushed, hanswers, hposted⟩ := ih
    obtain ⟨-, h'⟩ := tallied_of_reaches hcapacity hs h hbefore
    obtain ⟨hframes', hpushed', hanswers', hposted'⟩ := failed_of_step h' (hanswers ▸ herror) hstep
    exact ⟨hframes'.trans hframes, hpushed'.trans hpushed, hanswers'.trans hanswers,
      hposted'.trans hposted⟩

/-- A worker that was just started needs nothing yet. -/
theorem supplied_new (o : LoopbackOptions) (f : Faults) {s : Store} (hs : s.Sound) (p : Ingest) :
    (new o f s p).Supplied :=
  ⟨hs, nofun, nofun, fun _ => rfl, nofun⟩

/-- A worker that was just started has done nothing yet. -/
theorem tallied_new (o : LoopbackOptions) (f : Faults) (s : Store) (p : Ingest) :
    (new o f s p).Tallied := by
  have hbooked : Booked o .polling ([] : List Flow).length [] [] :=
    .going (by decide) List.not_mem_nil
  exact ⟨rfl, rfl, nofun, hbooked⟩

/-- At any moment of a run, whatever faults begin and end and whatever others do, a worker that has a
    payload to lend has handed on the copies of the frames that it could read and that were not to be
    lost, in the order in which it pulled them, and of no others.  Each copy can be read, has the
    transformed bytes and the timing of the frame, and has its id unless ids were forgotten.  A worker
    that holds a frame is about to copy it: it finds a payload, which has the size of the frame, and goes
    on.  Each sample had its answer, but for one that is just being delivered.  Unless the receiver fails
    nothing is posted but the end of the stream; the first time it fails, that is posted once, and the
    worker does nothing any more. -/
theorem pushes_of_reaches {o : LoopbackOptions} {f : Faults} {ops : List Op} {p : Ingest} {c : Stint}
    (hcapacity : 0 < o.poolCapacity) (h : Reaches (.new o f (Store.performAll {} ops) p) c) :
    c.frames.length = c.worker.pulled ∧ c.pushed = (copies o c.settled).map some ∧
    (∀ input, c.worker.activity = .holding input →
      (∃ x, c.frames = c.settled ++ [x] ∧ ¬x.dropEvery ∣ c.frames.length) ∧
      ∃ q output s', c.worker.pool = some q ∧ c.store.acquire q = some (output, s') ∧
        (∀ d, c.store.shown? input = some d →
          ∃ d', s'.shown? output = some d' ∧ d'.bytes.size = (o.transformed d.bytes).size ∧
            d'.bytes.size = d.bytes.size) ∧
        ∀ caps waited, (c.worker.step? o c.faults c.store c.ingest caps waited).isSome) ∧
    c.answers.length + (if c.worker.activity = .delivering then 1 else 0) = c.pushed.length ∧
    .error ∉ c.answers.dropLast ∧
    (.error ∉ c.answers → ∀ m ∈ c.posted, m = .endOfStream) ∧
    (.error ∈ c.answers →
      c.posted =
        [.error (.element (o.name ++ "-sink")) "egress callback reported an error" none] ∧
      c.answers.length = c.pushed.length ∧
      ∀ c', Reaches c c' → c'.frames = c.frames ∧ c'.pushed = c.pushed ∧ c'.answers = c.answers ∧
        c'.posted = c.posted) := by
  have hnew := supplied_new o f (Store.sound_empty.performAll ops) p
  have hsupplied := supplied_of_reaches hnew h
  obtain ⟨rfl, htallied⟩ := tallied_of_reaches hcapacity hnew (tallied_new ..) h
  refine ⟨htallied.count.symm, htallied.pushed, fun input hinput => ⟨?_, ?_⟩,
    htallied.booked.length_answers, htallied.booked.not_mem_dropLast,
    htallied.booked.posted_of_no_error, fun herror => ?_⟩
  · obtain ⟨x, hx, hkept⟩ := htallied.held input hinput
    have hlength := congrArg List.length hx
    rw [List.length_append, List.length_singleton] at hlength
    exact ⟨x, hx, hlength ▸ hkept⟩
  · -- its pool has lent nothing, so there is a payload, and it was made for frames of that size
    obtain ⟨q, output, s', hq, ha, hfits⟩ := hsupplied.acquire hcapacity hinput
    refine ⟨q, output, s', hq, ha, fun d hd => ?_, fun caps waited => ?_⟩
    · obtain ⟨d', hd', hsize⟩ := hfits d hd
      exact ⟨d', hd', hsize.trans (LoopbackOptions.size_transformed ..).symm, hsize⟩
    · have hasked : c.worker.pool.bind c.store.acquire = some (output, s') := by rw [hq]; exact ha
      simp only [Worker.step?, hinput, hasked]
      split <;> rfl
  · obtain ⟨-, hlength, hposted⟩ := htallied.booked.last_of_error herror
    exact ⟨hposted, hlength, fun c' hc' => failed_of_reaches hcapacity hsupplied htallied herror hc'⟩

/-- The worker goes on if it can. -/
def worked (c : Stint) : Stint :=
  ((c.worker.step? c.options c.faults c.store c.ingest none false).map c.after).getD c

/-- The receiver drops its sample and answers. -/
def given (c : Stint) (frame : HandleId) (flow : Flow) : Stint :=
  { c with store := c.store.drop frame }.answered flow

/-- Letting the worker go on is a step. -/
theorem Reaches.worked (h : Reaches c c') : Reaches c c'.worked := by
  unfold Stint.worked
  cases hr : c'.worker.step? c'.options c'.faults c'.store c'.ingest none false with
  | none => exact h
  | some r => exact h.tail (.work hr)

/-- What the receiver does is two steps. -/
theorem Reaches.given {frame : HandleId} (h : Reaches c c') (flow : Flow)
    (hdelivering : c'.worker.activity = .delivering)
    (hgiven : ∀ b, c'.lent = some b → (c'.store.drop frame).isAlive b = false) :
    Reaches c (c'.given frame flow) := by
  have hdropped : c'.Step { c' with store := c'.store.perform (.drop frame) } :=
    .other (.drop frame) c'.ingest (fun _ hinput => nomatch hdelivering.symm.trans hinput)
      fun _ _ => ⟨nofun, nofun⟩
  exact (h.tail hdropped).tail (.answer flow hgiven)

end

/-- Frames of different sizes, and a view that outlives its owner. -/
def mixed : List Op :=
  [.newFrame ⟨#[1, 2]⟩, .setId 0 5, .newFrame ⟨#[3]⟩, .view 1, .newFrame ⟨#[4]⟩, .setId 3 7,
    .newFrame ⟨#[8, 9]⟩]

/-- A worker that loses every other frame, and turns the bytes of the rest round. -/
def fresh : Stint :=
  .new { poolCapacity := 1, transform := some .reverse } { dropEvery := 2 } (Store.performAll {} mixed)
    { maxBytes := 10, queue := [0, 1, 2, 3, 4], queuedBytes := 7, flushing := false }

/-- The first frame came out and the second one was lost, so the third has no owner any more. -/
def halfway : Stint := (fresh.worked.worked.given 5 .ok).worked.worked

/-- The fourth frame came out without its id, and the receiver failed. -/
def spoiled : Stint :=
  ({ halfway with faults := { dropEvery := 3, stripsIds := true } }.worked.worked.given 6 .error)

/-- All this can happen in one run. -/
theorem reaches_spoiled : Reaches fresh spoiled := by
  have hfresh : Reaches fresh fresh := .refl
  have hfirst : Reaches fresh (fresh.worked.worked.given 5 .ok) :=
    hfresh.worked.worked.given .ok rfl (by rintro b ⟨⟩; rfl)
  have hhalfway : Reaches fresh halfway := hfirst.worked.worked
  have hcontrol : Reaches fresh { halfway with faults := { dropEvery := 3, stripsIds := true } } :=
    hhalfway.tail (.control _)
  exact hcontrol.worked.worked.given .error rfl (by rintro b ⟨⟩; rfl)

/-- Of the four frames pulled the first and the last came out, and no other will. -/
theorem pushes_of_spoiled :
    spoiled.pushed = [some ⟨⟨#[2, 1]⟩, { id := some 5 }⟩, some ⟨⟨#[4]⟩, {}⟩] ∧
    spoiled.answers = [.ok, .error] ∧ spoiled.frames.length = 4 ∧
    ∀ c', Reaches spoiled c' → c'.pushed = spoiled.pushed ∧
      c'.posted = [.error (.element "loopback-sink") "egress callback reported an error" none] := by
  obtain ⟨-, hpushed, -, -, -, -, hfailed⟩ := pushes_of_reaches (by decide) reaches_spoiled
  obtain ⟨hposted, -, hafter⟩ := hfailed (by decide)
  have hfirst : Bytes.reversed ⟨#[1, 2]⟩ = ⟨#[2, 1]⟩ := by simp [Bytes.reversed]
  have hlast : Bytes.reversed ⟨#[4]⟩ = ⟨#[4]⟩ := by simp [Bytes.reversed]
  refine ⟨?_, rfl, rfl, fun c' hc' => ?_⟩
  · rw [← hfirst, ← hlast]
    exact hpushed.trans rfl
  obtain ⟨-, hsame, -, hposted'⟩ := hafter c' hc'
  exact ⟨hsame, hposted'.trans hposted⟩

end Stint

end MediaBridge
