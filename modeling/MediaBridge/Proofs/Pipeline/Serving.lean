import MediaBridge.Pipeline.Line
import MediaBridge.Proofs.Pipeline.Stint

/-! # The worker of a line

What the worker of a line does is a run in the sense of `Stint`, as long as the receiver keeps no
samples: whatever it looks at in a sample it looks at through a view, and it drops the view and the
sample before it answers.

* `Recorder.givesBack_receive`  the receiver gives a sample back;
* `reaches_deliver`             a delivery, and the answer to it;
* `reaches_step?`               a step of the line;
* `reaches_runFor`              the line at work until its worker waits.
-/

namespace MediaBridge

open Store (Op GivesBack)

namespace Recorder

/-- Looking at a sample and dropping it gives its frame back, by operations through handles. -/
theorem givesBack_look (s : Store) (x : Sample) :
    ∃ ops : List Op, (∀ op ∈ ops, op.through ≠ none) ∧
      (look s x).2.drop x.frame = s.performAll ops ∧ GivesBack x.frame s (s.performAll ops) := by
  unfold look
  -- without a view there is nothing to look at, and the sample is dropped all the same
  cases hv : s.view x.frame with
  | error e => exact ⟨[.drop x.frame], by simp [Op.through], rfl, s.givesBack_drop x.frame⟩
  | ok viewed =>
    obtain ⟨v, s₁⟩ := viewed
    have hviewed : s.perform (.view x.frame) = s₁ := by rw [Store.perform, hv]; rfl
    refine ⟨[.view x.frame, .mapRead v, .drop v, .drop x.frame], by simp [Op.through], ?_, ?_⟩
    · rw [Store.performAll, List.foldl_cons, hviewed]
      rfl
    · rw [Store.performAll, List.foldl_cons, hviewed]
      exact Store.givesBack_of_view hv (fun b _ => s₁.ownersOf_mapRead v b)
        fun g _ => s₁.target_mapRead v g

/-- A receiver that keeps nothing looks at a sample and drops it. -/
theorem receive_of_not_keeps {r : Recorder} (hkeeps : r.keeps = false) (s : Store) (x : Sample) :
    ∃ r', r.receive s (.sample x) = (r.answer, r', (look s x).2.drop x.frame) ∧
      r'.keeps = false := by
  refine ⟨{ r with records := r.records ++ [(look s x).1] }, ?_, hkeeps⟩
  simp only [receive, hkeeps, Bool.false_eq_true, if_false]

end Recorder

namespace Egress

variable {e : Egress Recorder}

/-- An egress whose receiver keeps nothing, or that has none, gives a sample back. -/
theorem deliver_sample (hkeeps : ∀ r, e.receiver = some r → r.keeps = false) (s : Store) (x : Sample) :
    ∃ flow e' ops, e.deliver s (.sample x) = (flow, e', s.performAll ops) ∧
      (∀ r, e'.receiver = some r → r.keeps = false) ∧ (∀ op ∈ ops, op.through ≠ none) ∧
      GivesBack x.frame s (s.performAll ops) := by
  unfold deliver
  cases hr : e.receiver with
  | none =>
    refine ⟨.ok, e.countSample, [.drop x.frame], ?_, ?_, by simp [Op.through], s.givesBack_drop _⟩
    · simp only [countSample, hr]
      rfl
    · intro r hr'
      cases hr.symm.trans hr'
  | some r =>
    obtain ⟨ops, hops, hdropped, hgiven⟩ := Recorder.givesBack_look s x
    obtain ⟨r', hreceive, hkeeps'⟩ := Recorder.receive_of_not_keeps (hkeeps r hr) s x
    rw [hdropped] at hreceive
    refine ⟨r.answer, e.countSample.register r', ops, ?_, ?_, hops, hgiven⟩
    · simp only [countSample, hr, hreceive]
    · rintro _ ⟨⟩
      exact hkeeps'

/-- The end of the stream is nothing to the store. -/
theorem deliver_endOfStream (hkeeps : ∀ r, e.receiver = some r → r.keeps = false) (s : Store) :
    ∃ flow e', e.deliver s .endOfStream = (flow, e', s) ∧
      ∀ r, e'.receiver = some r → r.keeps = false := by
  unfold deliver
  cases hr : e.receiver with
  | none =>
    refine ⟨.ok, e, by simp only [hr], fun r hr' => ?_⟩
    cases hr.symm.trans hr'
  | some r =>
    refine ⟨r.answer, e.register { r with records := r.records ++ [.endOfStream] }, ?_, ?_⟩
    · simp only [hr, Recorder.receive]
    · rintro _ ⟨⟩
      exact hkeeps r hr

end Egress

namespace Stint

variable {c c' : Stint} {l l' : Line} {waited : Bool}

/-- The run is that of the worker of a line whose receiver keeps nothing. -/
structure Serves (c : Stint) (l : Line) : Prop where
  options : l.pipeline.options = c.options
  faults : l.pipeline.faults = c.faults
  store : l.store = c.store
  ingest : l.ingest = c.ingest
  worker : l.pipeline.worker = some c.worker
  keeps : ∀ r, l.egress.receiver = some r → r.keeps = false

/-- What others do through handles of their own while the worker waits for an answer. -/
theorem reaches_performAll (hdelivering : c.worker.activity = .delivering) {ops : List Op}
    (hops : ∀ op ∈ ops, op.through ≠ none) :
    Reaches c { c with store := c.store.performAll ops } := by
  induction ops generalizing c with
  | nil => exact .refl
  | cons op rest ih =>
    have hthrough := hops op List.mem_cons_self
    have hstep : c.Step { c with store := c.store.perform op } := by
      refine .other op c.ingest (fun _ hinput => ?_) fun p _ => ⟨?_, ?_⟩
      · cases hdelivering.symm.trans hinput
      all_goals
        rintro rfl
        exact hthrough rfl
    exact .head hstep (ih hdelivering fun op' hop' => hops op' (List.mem_cons_of_mem _ hop'))

/-- Nobody owns the buffer of a sample that was given back. -/
theorem isAlive_of_givesBack {s s' : Store} {frame : HandleId} {b b' : BufferId} (hs : s.Sound)
    (hsole : s.Sole frame b) (hgiven : GivesBack frame s s') (hl : s.live? frame = some b') :
    s'.isAlive b' = false := by
  obtain ⟨⟨owning, ht⟩, -⟩ := Store.live?_eq_some_iff.1 hl
  cases hsole.target.symm.trans ht
  have howners := hgiven.owners b (hs.placed.handles _ _ hsole.target)
  rw [if_pos hsole.target, hsole.ownersOf hs.owned] at howners
  by_contra halive
  rw [Bool.not_eq_false, Store.isAlive_iff, howners] at halive
  exact Nat.lt_irrefl 0 halive

/-- A step of a line is a step of its worker, and a delivery with its answer if something was handed
    on. -/
theorem reaches_step? (hs : c.Supplied) (h : c.Serves l) (hstep : l.step? waited = some l') :
    ∃ c', Reaches c c' ∧ c'.Serves l' ∧ ∃ posted, l'.bus = l.bus ++ posted ∧
      c'.posted = c.posted ++ posted := by
  obtain ⟨store, ingest, egress, ⟨options, faults, phase, worker⟩, bus⟩ := l
  obtain ⟨hoptions, hfaults, hstore, hingest, hworker, hkeeps⟩ := h
  obtain rfl : options = c.options := hoptions
  obtain rfl : faults = c.faults := hfaults
  obtain rfl : store = c.store := hstore
  obtain rfl : ingest = c.ingest := hingest
  obtain rfl : worker = some c.worker := hworker
  obtain ⟨⟨r, pipeline⟩, hworked, rfl⟩ := Option.map_eq_some_iff.1 hstep
  obtain ⟨r', hr, heq⟩ := Option.map_eq_some_iff.1 hworked
  cases heq
  have hwork : Reaches c (c.after r) := .single (.work hr)
  have hsupplied := hs.work hr
  have hdoes := hs.does hr
  -- only a step that hands something on is followed by a delivery and its answer
  cases hdoes with
  | skips | takes | fails =>
    exact ⟨_, hwork, ⟨rfl, rfl, rfl, rfl, rfl, hkeeps⟩, [], (List.append_nil _).symm,
      (List.append_nil _).symm⟩
  | ends =>
    obtain ⟨flow, e', hdeliver, hkeeps'⟩ := Egress.deliver_endOfStream hkeeps c.store
    simp only [hdeliver]
    refine ⟨_, hwork.tail (.answer flow ?_), ⟨rfl, rfl, rfl, rfl, rfl, hkeeps'⟩, _, rfl, rfl⟩
    rintro b ⟨⟩
  | @fills input s' d b' hactivity _ hheld hsole =>
    obtain ⟨flow, e', ops, hdeliver, hkeeps', hops, hgiven⟩ :=
      Egress.deliver_sample hkeeps s' ⟨c.store.handles.next, egress.caps⟩
    simp only [hdeliver]
    refine ⟨_, (hwork.trans (reaches_performAll rfl hops)).tail (.answer flow ?_),
      ⟨rfl, rfl, rfl, rfl, rfl, hkeeps'⟩, _, rfl, rfl⟩
    exact fun b hb => isAlive_of_givesBack hsupplied.sound hsole hgiven hb

/-- A line at work is a run of its worker. -/
theorem reaches_runFor (hs : c.Supplied) (h : c.Serves l) (waited : Bool) :
    ∃ c', Reaches c c' ∧ c'.Serves (l.runFor waited) ∧ ∃ posted,
      (l.runFor waited).bus = l.bus ++ posted ∧ c'.posted = c.posted ++ posted := by
  unfold Line.runFor
  generalize 2 * l.ingest.queue.length + 2 = n
  -- over the steps that the line has time for
  induction n with
  | zero => exact ⟨c, .refl, h, [], (List.append_nil _).symm, (List.append_nil _).symm⟩
  | succ n ih =>
    obtain ⟨c', hreaches, hserves, posted, hbus, hposted⟩ := ih
    rw [Nat.repeat]
    cases hstep : (n.repeat (fun l => (l.step? waited).getD l) l).step? waited with
    | none => exact ⟨c', hreaches, hserves, posted, hbus, hposted⟩
    | some l' =>
      obtain ⟨c'', hreaches', hserves', posted', hbus', hposted'⟩ :=
        reaches_step? (supplied_of_reaches hs hreaches) hserves hstep
      refine ⟨c'', hreaches.trans hreaches', hserves', posted ++ posted', ?_, ?_⟩
      · rw [Option.getD_some, hbus', hbus, List.append_assoc]
      · rw [hposted', hposted, List.append_assoc]

end Stint

end MediaBridge
