import Mathlib.Logic.Relation
import MediaBridge.Pipeline.Loopback
import MediaBridge.Proofs.Correspondence.Giveback

/-! # A loopback pipeline behind a bridge

The worker hands its samples to the bridge and goes on when it has its answer.  The bridge answers only
after it has given the sample's frame back, and until then nobody else can have got at the frame's
buffer.  So the worker finds all of its pool at home whenever it asks it, also if it gave another pool up
for it.

Any number of other threads work on the same buffers meanwhile, and on the ingest and the bridge.  They
have no access to what is not theirs: the pool of the worker, and the frame of a sample that was handed
to the bridge.

* `Leaves`            what is done to a store without regard to a pool and a handle;
* `Provisioned`       what holds of a worker, whatever it does;
* `tended_of_step`    no step of the circuit breaks that;
* `provision_of_reaches` the frame is given back in time, and the pool never runs dry.
-/

namespace MediaBridge

open Relation (ReflTransGen)

variable {α : Type u}

namespace Store

/-! ## Leaving a pool and a handle alone -/

/-- The store is still sound, the pool was not disturbed, and what only the handle has it still has
    alone. -/
structure Leaves (p : PoolId) (g : HandleId) (s s' : Store) : Prop where
  sound : s'.Sound
  undisturbed : Undisturbed p s s'
  sole : ∀ b, s.Sole g b → s'.Sole g b
  handles : s.handles.next ≤ s'.handles.next

section

variable {s s' s'' : Store} {p : PoolId} {g : HandleId}

namespace Leaves

/-- Nothing at all was done. -/
theorem refl (hs : s.Sound) : Leaves p g s s :=
  ⟨hs, .refl p s, fun _ => id, Nat.le_refl _⟩

/-- Neither of two pieces of work had regard to the pool and the handle. -/
theorem trans (h : Leaves p g s s') (h' : Leaves p g s' s'') : Leaves p g s s'' where
  sound := h'.sound
  undisturbed := h.undisturbed.trans h'.undisturbed
  sole := fun b hb => h'.sole b (h.sole b hb)
  handles := Nat.le_trans h.handles h'.handles

/-- An operation that neither asks the pool nor passes the handle on. -/
theorem perform (hs : s.Sound) (op : Op) (hacquire : op ≠ .acquire p) (hpool : op ≠ .dropPool p)
    (hview : op ≠ .view g) (hreference : op ≠ .reference g) (hrelease : op ≠ .release g)
    (hdrop : op ≠ .drop g) : Leaves p g s (s.perform op) where
  sound := hs.perform op
  undisturbed := undisturbed_perform hs op hacquire hpool
  sole := fun _ hb => hb.perform hs.placed op hview hreference hrelease hdrop
  handles := (s.retains_perform op).1

/-- A change of some info. -/
theorem updateInfo (hs : s.Sound) {h : HandleId} {f : FrameInfo → FrameInfo}
    (hu : s.updateInfo h f = .ok s') : Leaves p g s s' where
  sound := hs.updateInfo hu
  undisturbed := undisturbed_updateInfo hs hu
  sole := fun _ hb => hb.updateInfo hu
  handles := Nat.le_of_eq (congrArg Table.next (handles_updateInfo hu)).symm

end Leaves

/-- A frame is filled through the handles alone that map it and its model. -/
theorem leaves_copyInto (hs : s.Sound) (o : LoopbackOptions) (f : Faults) (input output : HandleId) :
    Leaves p g s (s.copyInto o f input output).2 := by
  have hread : Leaves p g s (s.mapRead input).2 :=
    .perform hs (.mapRead input) nofun nofun nofun nofun nofun nofun
  unfold copyInto
  cases s.info input with
  | error e => exact .refl hs
  | ok info =>
    simp only
    cases hr : s.mapRead input with
    | mk result s₁ =>
      rw [hr] at hread
      cases result with
      | error e => exact hread
      | ok bytes =>
        have hwrite : Leaves p g s₁ (s₁.write output 0 (o.transformed bytes)).2 :=
          .perform hread.sound (.write output 0 (o.transformed bytes)) nofun nofun nofun nofun
            nofun nofun
        simp only
        cases hw : s₁.write output 0 (o.transformed bytes) with
        | mk result s₂ =>
          rw [hw] at hwrite
          have hwritten := hread.trans hwrite
          cases result with
          | error e => exact hwritten
          | ok written =>
            have houtput : Leaves p g s₂ (s₂.unmap output) :=
              .perform hwritten.sound (.unmap output) nofun nofun nofun nofun nofun nofun
            have hinput : Leaves p g (s₂.unmap output) ((s₂.unmap output).unmap input) :=
              .perform houtput.sound (.unmap input) nofun nofun nofun nofun nofun nofun
            have hunmapped := (hwritten.trans houtput).trans hinput
            simp only
            cases hu : ((s₂.unmap output).unmap input).updateInfo output (f.attach info) with
            | error e => exact hunmapped
            | ok s₃ => exact hunmapped.trans (.updateInfo hunmapped.sound hu)

/-- A new pool is there, and lent nothing. -/
theorem lends_newPool (hs : s.Sound) (size capacity : Nat) {b : BufferId} :
    ¬(s.newPool size capacity).2.lends s.pools.next b := by
  intro hlends
  have hpos := lentBy_pos (s := s) hlends
  rw [(hs.stocked s.pools.next).unmade (Nat.le_refl _)] at hpos
  exact Nat.lt_irrefl 0 hpos

/-- A new pool can lend as many payloads as it was made for. -/
theorem get?_pools_newPool (s : Store) (size capacity : Nat) :
    (s.newPool size capacity).2.pools.get? s.pools.next = some (.new size capacity) := by
  rw [newPool, Table.get?_add, if_pos rfl]

/-- What a pool lends next only the new handle has. -/
theorem acquire_sole (hs : s.Sound) {h : HandleId} (ha : s.acquire p = some (h, s')) :
    s'.Sound ∧ h = s.handles.next ∧ s'.handles.next = s.handles.next + 1 ∧
      s'.Sole h s.buffers.next ∧ (∀ b, s'.lends p b → b = s.buffers.next ∨ s.lends p b) ∧
      ∀ pool, s.pools.get? p = some pool →
        ∃ pool', s'.pools.get? p = some pool' ∧ pool'.capacity = pool.capacity := by
  have hperform : s.perform (.acquire p) = s' := by rw [Store.perform, ha]; rfl
  have hchange := Change.lend ha
  obtain ⟨_, bytes, pool', hpool, htake, rfl, rfl⟩ := acquire_cases ha
  refine ⟨hperform ▸ hs.perform _, rfl, rfl, ?_, ?_, ?_⟩
  · exact sole_newBuffer (s := { s with pools := s.pools.set p pool' })
      ⟨hs.placed.handles, hs.placed.references⟩ _
  · intro b hb
    obtain ⟨x, hx, hlent⟩ := lends_iff.1 hb
    simp only [newBuffer, addHandle, Table.get?_add] at hx
    split at hx
    · rename_i heq
      exact .inl heq
    · exact .inr (lends_iff.2 ⟨x, hx, hlent⟩)
  · intro pool hp
    obtain ⟨pool'', hp'', -, hcapacity⟩ := pool_of_change hchange (by rintro ⟨⟩) hp
    exact ⟨pool'', hp'', hcapacity⟩

/-- A buffer that only one handle had is not lent any more when the handle gives it back. -/
theorem Sole.not_lends (hsole : s.Sole g b) (hs : s.Sound) (hgiven : GivesBack g s s') :
    ¬s'.lends p b := by
  intro hlends
  obtain ⟨x, hx, -, hpos⟩ := lends_iff.1 hlends
  have howners := hgiven.owners b (hs.placed.handles g _ hsole.target)
  rw [if_pos hsole.target, hsole.ownersOf hs.owned, Store.ownersOf, hx] at howners
  exact Nat.ne_of_gt hpos howners

end

end Store

/-! ## What a worker has -/

/-- What the receiver of samples is doing. -/
inductive Errand (α : Type u) where
  /-- It was handed no sample that it did not answer. -/
  | idle
  | handed (x : Sample)
  /-- It has a copy of the sample, and did not look for the entry yet. -/
  | copied (x : Sample) (copy : HandleId) (id : Nat)
  /-- The matched frame waits for room. -/
  | parked (x : Sample) (m : Matched α)

namespace Errand

/-- What the receiver has to do when an item is handed on. -/
def begun : Option Item → Errand α
  | some (.sample x) => .handed x
  | _ => .idle

/-- The sample that was not answered yet. -/
def sample? : Errand α → Option Sample
  | .idle => none
  | .handed x | .copied x .. | .parked x _ => some x

/-- The sample that was not answered yet, if its payload was taken. -/
def taken? : Errand α → Option Sample
  | .idle | .handed _ => none
  | .copied x .. | .parked x _ => some x

end Errand

/-- What holds of a worker, whatever it does: its pool is there, and has lent nothing but the frame of
    the sample that the receiver was just handed. -/
structure Worker.Provisioned (capacity : Nat) (s : Store) (e : Errand α) (w : Worker) : Prop where
  pool : ∀ p, w.pool = some p → ∃ pool, s.pools.get? p = some pool ∧ pool.capacity = capacity
  lent : ∀ p b, w.pool = some p → s.lends p b → ∃ x, e = .handed x ∧ s.Sole x.frame b
  holding : ∀ input, w.activity = .holding input →
    e = .idle ∧ w.pool ≠ none ∧ input < s.handles.next

namespace Worker

open Store (Undisturbed Sole Leaves GivesBack)

section

variable {capacity : Nat} {s s' : Store} {e : Errand α} {w w' : Worker}

namespace Provisioned

/-- A worker that was just started has no pool and holds no frame. -/
theorem fresh (capacity : Nat) (s : Store) (e : Errand α) : Provisioned capacity s e {} where
  pool := nofun
  lent := nofun
  holding := nofun

/-- What others do leaves a worker provisioned, if it leaves its pool alone. -/
theorem of_undisturbed (hw : w.Provisioned capacity s e)
    (hpool : ∀ p, w.pool = some p → Undisturbed p s s')
    (hsole : ∀ x b, e = .handed x → s.Sole x.frame b → s'.Sole x.frame b)
    (hnext : s.handles.next ≤ s'.handles.next) : w.Provisioned capacity s' e where
  pool := by
    intro p hp
    obtain ⟨pool, hget, hcapacity⟩ := hw.pool p hp
    obtain ⟨pool', hget', -, hcapacity'⟩ := (hpool p hp).pool pool hget
    exact ⟨pool', hget', hcapacity'.trans hcapacity⟩
  lent := by
    intro p b hp hb
    obtain ⟨x, hx, hsingle⟩ := hw.lent p b hp ((hpool p hp).lends b hb)
    exact ⟨x, hx, hsole x b hx hsingle⟩
  holding := by
    intro input hinput
    obtain ⟨he, hp, hlt⟩ := hw.holding input hinput
    exact ⟨he, hp, Nat.lt_of_lt_of_le hlt hnext⟩

/-- It may do something else, as long as it does not ask the pool. -/
theorem of_pool (hw : w.Provisioned capacity s e) (hpool : w'.pool = w.pool)
    (hactivity : ∀ input, w'.activity ≠ .holding input) : w'.Provisioned capacity s e where
  pool := fun p hp => hw.pool p (hpool.symm.trans hp)
  lent := fun p b hp => hw.lent p b (hpool.symm.trans hp)
  holding := fun input hinput => absurd hinput (hactivity input)

/-- When the frame of a sample is given back, the pool has everything at home. -/
theorem of_givesBack {x : Sample} (e' : Errand α)
    (hw : w.Provisioned capacity s (.handed x : Errand α))
    (hs : s.Sound) (hpool : ∀ p, w.pool = some p → Undisturbed p s s')
    (hgiven : GivesBack x.frame s s') : w.Provisioned capacity s' e' where
  pool := by
    intro p hp
    obtain ⟨pool, hget, hcapacity⟩ := hw.pool p hp
    obtain ⟨pool', hget', -, hcapacity'⟩ := (hpool p hp).pool pool hget
    exact ⟨pool', hget', hcapacity'.trans hcapacity⟩
  lent := by
    intro p b hp hb
    obtain ⟨x', hx', hsole⟩ := hw.lent p b hp ((hpool p hp).lends b hb)
    cases hx'
    exact absurd hb (hsole.not_lends hs hgiven)
  holding := fun input hinput => nomatch (hw.holding input hinput).1

/-- While nothing was handed on the pool has everything at home, whatever the receiver does. -/
theorem of_errand {e' : Errand α} (hw : w.Provisioned capacity s e) (he : ∀ x, e ≠ .handed x)
    (hactivity : ∀ input, w.activity = .holding input → e' = .idle) :
    w.Provisioned capacity s e' where
  pool := hw.pool
  lent := by
    intro p b hp hb
    obtain ⟨x, hx, -⟩ := hw.lent p b hp hb
    exact absurd hx (he x)
  holding := fun input hinput => ⟨hactivity input hinput, (hw.holding input hinput).2⟩

/-- An operation that has nothing to do with the pool, while nothing was handed on. -/
theorem perform (hw : w.Provisioned capacity s e) (hs : s.Sound) (op : Store.Op)
    (he : ∀ x, e ≠ .handed x) (hop : ∀ p, w.pool = some p → op ≠ .acquire p ∧ op ≠ .dropPool p) :
    w.Provisioned capacity (s.perform op) e :=
  hw.of_undisturbed (fun p hp => Store.undisturbed_perform hs op (hop p hp).1 (hop p hp).2)
    (fun x _ hx => absurd hx (he x)) (s.retains_perform op).1

end Provisioned

/-! ## What the worker does -/

/-- A worker that fits its pool to a frame may give another one up, and either has everything at
    home. -/
theorem provisioned_fitPool {o : LoopbackOptions} (hs : s.Sound)
    (hw : w.Provisioned o.poolCapacity s (.idle : Errand α)) {input : HandleId}
    (hinput : input < s.handles.next) (size : Nat) :
    (w.fitPool o s size).2.Sound ∧
      Provisioned o.poolCapacity (w.fitPool o s size).2 (.idle : Errand α)
        { (w.fitPool o s size).1 with activity := .holding input } := by
  have hnew : (s.newPool size o.poolCapacity).2.Sound := hs.perform (.newPool size o.poolCapacity)
  unfold fitPool
  cases hp : w.pool with
  | none =>
    refine ⟨hnew, ?_, ?_, ?_⟩
    · rintro p ⟨⟩
      exact ⟨_, s.get?_pools_newPool size o.poolCapacity, rfl⟩
    · rintro p b ⟨⟩ hb
      exact absurd hb (Store.lends_newPool hs size o.poolCapacity)
    · rintro _ ⟨⟩
      exact ⟨rfl, Option.some_ne_none _, hinput⟩
  | some old =>
    simp only
    -- a pool of the right size is kept; another one is replaced by a new one and given up
    split
    · refine ⟨hs, ?_, hw.lent, ?_⟩
      · exact hw.pool
      · rintro _ ⟨⟩
        exact ⟨rfl, hp ▸ Option.some_ne_none old, hinput⟩
    · refine ⟨hnew.perform (.dropPool old), ?_, ?_, ?_⟩
      · rintro p ⟨⟩
        obtain ⟨pool, hold, -⟩ := hw.pool old hp
        have hne : s.pools.next ≠ old := Nat.ne_of_gt (Table.lt_next_of_get? hold)
        refine ⟨.new size o.poolCapacity, ?_, rfl⟩
        rw [Store.dropPool, Table.get?_erase]
        exact (if_neg hne).trans (s.get?_pools_newPool size o.poolCapacity)
      · rintro p b ⟨⟩ hb
        exact absurd hb (Store.lends_newPool hs size o.poolCapacity)
      · rintro _ ⟨⟩
        exact ⟨rfl, Option.some_ne_none _, hinput⟩

/-- A worker that takes a frame is provisioned for it. -/
theorem provisioned_take {o : LoopbackOptions} (hs : s.Sound)
    (hw : w.Provisioned o.poolCapacity s (.idle : Errand α)) (hpolling : w.activity = .polling)
    (f : Faults) (input : HandleId) :
    (w.take o f s input).2.Sound ∧
      Provisioned o.poolCapacity (w.take o f s input).2 (.idle : Errand α)
        (w.take o f s input).1 := by
  have hnone : ∀ x, (.idle : Errand α) ≠ .handed x := nofun
  have hcounted : Provisioned o.poolCapacity s (.idle : Errand α)
      { w with pulled := w.pulled + 1 } :=
    hw.of_pool rfl fun input hinput => nomatch hpolling.symm.trans hinput
  have hsized : (s.size input).2 = s.perform (.size input) := rfl
  unfold take
  simp only
  split
  · exact ⟨hs.perform (.drop input), hcounted.perform hs (.drop input) hnone fun p _ => ⟨nofun, nofun⟩⟩
  · have hafter := hcounted.perform hs (.size input) hnone fun p _ => ⟨nofun, nofun⟩
    have hsound := hs.perform (.size input)
    cases hr : s.size input with
    | mk result s₁ =>
      rw [hr] at hsized
      subst hsized
      cases result with
      | error e =>
        exact ⟨hsound.perform (.drop input),
          hafter.perform hsound (.drop input) hnone fun p _ => ⟨nofun, nofun⟩⟩
      | ok size =>
        -- a frame that has a size is in the store
        have hinput : input < (s.perform (.size input)).handles.next := by
          refine Nat.lt_of_lt_of_le ?_ (s.retains_perform (.size input)).1
          cases ht : (s.handle input).target with
          | some t => exact Store.lt_next_of_target ht
          | none =>
            have hinert := (hs.orderly.inert ht).size
            rw [hinert] at hr
            cases hr
        exact provisioned_fitPool hsound hafter hinput size

/-- What a pool has lent after it was asked by the worker is the new frame, which only the worker has. -/
theorem provisioned_acquire {s₁ s₂ : Store} {capacity : Nat} {p : PoolId} {output : HandleId}
    (caps : Option Caps) (hs : s.Sound) (hw : w.Provisioned capacity s (.idle : Errand α))
    (hp : w.pool = some p) (ha : s.acquire p = some (output, s₁)) (hfilled : Leaves p output s₁ s₂) :
    Provisioned capacity s₂ (.handed ⟨output, caps⟩ : Errand α)
      { w with activity := .delivering } := by
  obtain ⟨-, rfl, -, hsole, hlends, hkept⟩ := Store.acquire_sole hs ha
  refine ⟨?_, ?_, nofun⟩
  · rintro p' hp'
    cases hp.symm.trans hp'
    obtain ⟨pool, hpool, hcapacity⟩ := hw.pool p hp
    obtain ⟨pool₁, hpool₁, hcapacity₁⟩ := hkept pool hpool
    obtain ⟨pool₂, hpool₂, -, hcapacity₂⟩ := hfilled.undisturbed.pool pool₁ hpool₁
    exact ⟨pool₂, hpool₂, hcapacity₂.trans (hcapacity₁.trans hcapacity)⟩
  · rintro p' b hp' hb
    cases hp.symm.trans hp'
    rcases hlends b (hfilled.undisturbed.lends b hb) with rfl | hold
    · exact ⟨_, rfl, hfilled.sole _ hsole⟩
    · obtain ⟨x, hx, -⟩ := hw.lent p b hp hold
      cases hx

/-- A step of the worker leaves it provisioned, with the receiver handed what it hands on. -/
theorem provisioned_step? {o : LoopbackOptions} {f : Faults} {p : Ingest} {caps : Option Caps}
    {waited : Bool} {r : WorkerStep} (hs : s.Sound)
    (hw : w.Provisioned o.poolCapacity s (.idle : Errand α))
    (h : w.step? o f s p caps waited = some r) :
    r.store.Sound ∧
      r.worker.Provisioned o.poolCapacity r.store (.begun r.item : Errand α) := by
  have hnone : ∀ x, (.idle : Errand α) ≠ .handed x := nofun
  unfold step? at h
  cases hactivity : w.activity with
  | delivering | ending | finished =>
    rw [hactivity] at h
    cases h
  | polling =>
    simp only [hactivity] at h
    split at h
    · cases h
    · cases hp : p.pull s with
      | none =>
        simp only [hp] at h
        split at h
        · cases h
          exact ⟨hs, hw.of_pool rfl nofun⟩
        · cases h
      | some pulled =>
        obtain ⟨input, ingest, s₁⟩ := pulled
        simp only [hp] at h
        cases h
        obtain ⟨rest, -, rfl, -⟩ := Ingest.pull_cases hp
        have hsized := hw.perform hs (.size input) hnone fun p _ => ⟨nofun, nofun⟩
        have hsound := hs.perform (.size input)
        have hunmapped := hsized.perform hsound (.unmap input) hnone fun p _ => ⟨nofun, nofun⟩
        exact provisioned_take (hsound.perform (.unmap input)) hunmapped hactivity f input
  | holding input =>
    obtain ⟨-, hpool, hinput⟩ := hw.holding input hactivity
    obtain ⟨p, hp⟩ := Option.ne_none_iff_exists'.1 hpool
    have hasked : w.pool.bind s.acquire = s.acquire p := by rw [hp]; rfl
    simp only [hactivity, hasked] at h
    cases ha : s.acquire p with
    | none =>
      rw [ha] at h
      cases h
    | some acquired =>
      obtain ⟨output, s₁⟩ := acquired
      simp only [ha] at h
      obtain ⟨hs₁, rfl, -⟩ := Store.acquire_sole hs ha
      have hne : input ≠ s.handles.next := Nat.ne_of_lt hinput
      have hfilled : Leaves p s.handles.next s₁ (s₁.copyInto o f input s.handles.next).2 :=
        Store.leaves_copyInto hs₁ o f input s.handles.next
      have hlent := provisioned_acquire caps hs hw hp ha hfilled
      cases hc : s₁.copyInto o f input s.handles.next with
      | mk result s₂ =>
        rw [hc] at hfilled hlent
        simp only [hc] at h
        cases result with
        | error e =>
          cases h
          have hgiven := hlent.of_givesBack .idle hfilled.sound
            (fun p _ => Store.undisturbed_of_through hfilled.sound (.drop s.handles.next) rfl)
            (s₂.givesBack_drop s.handles.next)
          have hsound := hfilled.sound.perform (.drop s.handles.next)
          have hdropped := hgiven.perform hsound (.drop input) hnone fun p _ => ⟨nofun, nofun⟩
          exact ⟨hsound.perform (.drop input), hdropped.of_pool rfl nofun⟩
        | ok =>
          cases h
          refine ⟨hfilled.sound.perform (.drop input), hlent.of_undisturbed ?_ ?_ ?_⟩
          · exact fun p _ => Store.undisturbed_of_through hfilled.sound (.drop input) rfl
          · rintro x b ⟨⟩ hx
            refine hx.perform hfilled.sound.placed (.drop input) nofun nofun nofun ?_
            rintro ⟨⟩
            exact hne rfl
          · exact (s₂.retains_perform (.drop input)).1

/-- An answer may end a worker or let it go on, and does not concern its pool. -/
theorem answered_cases (w : Worker) (o : LoopbackOptions) (answer : Flow) :
    (w.answered o answer).1 = w ∨ (w.answered o answer).1.pool = w.pool ∧
      ∀ input, (w.answered o answer).1.activity ≠ .holding input := by
  unfold answered
  split
  · split <;> exact .inr ⟨rfl, nofun⟩
  · exact .inr ⟨rfl, nofun⟩
  · exact .inl rfl

/-- A worker gives up what it has by operations on the store. -/
theorem store_quit (w : Worker) (s : Store) : ∃ ops, w.quit s = s.performAll ops := by
  unfold quit
  cases w.activity with
  | holding input =>
    cases w.pool with
    | none => exact ⟨[.drop input], rfl⟩
    | some p => exact ⟨[.drop input, .dropPool p], rfl⟩
  | polling | delivering | ending | finished =>
    cases w.pool with
    | none => exact ⟨[], rfl⟩
    | some p => exact ⟨[.dropPool p], rfl⟩

end

end Worker

/-- A worker that is stopped gives up what it has by operations on the store. -/
theorem Loopback.store_stopWorker (l : Loopback) (s : Store) :
    ∃ ops, (l.stopWorker s).2 = s.performAll ops := by
  unfold stopWorker
  cases l.worker with
  | none => exact ⟨[], rfl⟩
  | some w => exact w.store_quit s

/-! ## The circuit -/

/-- A loopback pipeline with the bridge that its samples go to. -/
structure Circuit (α : Type u) where
  relay : Relay α
  pipeline : Loopback
  errand : Errand α := .idle

namespace Circuit

open Store (Op)

/-- Nothing was done yet. -/
def new (s : Settings) (ingestMax : Nat) (l : Loopback) : Circuit α :=
  { relay := .new s ingestMax, pipeline := l }

/-- The next step of the worker, which hands on what it has; none while it waits. -/
def work? (c : Circuit α) (caps : Option Caps) (waited : Bool) : Option (Circuit α) :=
  (c.pipeline.step? c.relay.store c.relay.ingest caps waited).map fun (r, pipeline) =>
    { relay := { c.relay with store := r.store, ingest := r.ingest }, pipeline
      errand := .begun r.item }

/-- The next step of the receiver; none while it has nothing to do or has to wait for room. -/
def receive? (c : Circuit α) : Option (Circuit α) :=
  match c.errand with
  | .idle => none
  | .handed x =>
    match c.relay.store.takePayload x.frame with
    | (.ok (some (copy, id)), store) =>
      some { c with relay := { c.relay with store }, errand := .copied x copy id }
    | _ => some { c with relay := (c.relay.deliver (.sample x)).2, errand := .idle }
  | .copied x copy id =>
    match c.relay.matchCopy copy id with
    | (.done _, relay) => some { c with relay, errand := .idle }
    | (.waits m, relay) => some { c with relay, errand := .parked x m }
  | .parked _ m => (c.relay.publish? m).map fun relay => { c with relay, errand := .idle }

/-- One step of one thread. -/
inductive Step (c : Circuit α) : Circuit α → Prop where
  -- The worker goes on, unless it waits for its receiver.
  | work {caps : Option Caps} {waited : Bool} {c' : Circuit α} (hidle : c.errand = .idle)
    (h : c.work? caps waited = some c') : c.Step c'
  -- The receiver goes on.
  | receive {c' : Circuit α} (h : c.receive? = some c') : c.Step c'
  -- The worker has its answer.
  | answer (flow : Flow) (hidle : c.errand = .idle) :
    c.Step { c with pipeline := (c.pipeline.answered flow).1 }
  -- The pipeline is started or stopped.
  | request (target : Phase) (caps : Option Caps) :
    c.Step { c with
      pipeline := (c.pipeline.setPhase target c.relay.store caps).pipeline
      relay := { c.relay with store := (c.pipeline.setPhase target c.relay.store caps).store } }
  -- Faults begin or end.
  | control (f : Faults) : c.Step { c with pipeline := { c.pipeline with faults := f } }
  -- Somebody else works on a buffer, on the ingest, or on the bridge.  The frame that the receiver was
  -- handed and the worker's pool are out of reach.
  | other (op : Op) (ingest : Ingest) (bridge : Bridge α)
    (hframe : ∀ x, c.errand = .handed x → op.through ≠ some x.frame)
    (hpool : ∀ w p, c.pipeline.worker = some w → w.pool = some p →
      op ≠ .acquire p ∧ op ≠ .dropPool p) :
    c.Step { c with relay := { store := c.relay.store.perform op, ingest, bridge } }
  -- Somebody else changes the info of a buffer.
  | inform {h : HandleId} {f : FrameInfo → FrameInfo} {s : Store} (ingest : Ingest)
    (bridge : Bridge α) (hu : c.relay.store.updateInfo h f = .ok s) :
    c.Step { c with relay := { store := s, ingest, bridge } }

/-- One state can come after another. -/
def Reaches (c c' : Circuit α) : Prop := ReflTransGen Step c c'

/-- The receiver's steps are those of a delivery: it takes the copy and matches it, or there is nothing
    to match. -/
theorem receive?_of_handed {c : Circuit α} {x : Sample} (hx : c.errand = .handed x) :
    (∃ copy id s, c.receive? =
        some { c with relay := { c.relay with store := s }, errand := .copied x copy id } ∧
      c.relay.store.takePayload x.frame = (.ok (some (copy, id)), s) ∧
      c.relay.deliver (.sample x) = ({ c.relay with store := s } : Relay α).matchCopy copy id) ∨
    ∃ result r, c.receive? = some { c with relay := r, errand := .idle } ∧
      c.relay.deliver (.sample x) = (.done result, r) ∧
      r.store = (c.relay.store.takePayload x.frame).2 := by
  have hnot := c.relay.deliver_of_not_copied x
  unfold receive?
  rw [hx]
  simp only
  cases ht : c.relay.store.takePayload x.frame with
  | mk result s =>
    rw [ht] at hnot
    have hlost : (∀ copy id, result ≠ .ok (some (copy, id))) →
        ∃ result r, some { c with relay := (c.relay.deliver (.sample x)).2, errand := .idle } =
            some { c with relay := r, errand := .idle } ∧
          c.relay.deliver (.sample x) = (.done result, r) ∧ r.store = s := by
      intro hne
      obtain ⟨answer, bridge, heq, -⟩ := hnot hne
      exact ⟨answer, _, by rw [heq], heq, rfl⟩
    cases result with
    | error e => exact .inr (hlost nofun)
    | ok payload =>
      cases payload with
      | none => exact .inr (hlost nofun)
      | some copied =>
        exact .inl ⟨copied.1, copied.2, s, rfl, rfl, Relay.deliver_of_copied ht⟩

/-! ## What every state has -/

/-- What holds in every state: the store is sound, the frame of a sample was given back once its payload
    was taken, and the worker has what it needs. -/
structure Tended (s : Store) (e : Errand α) (l : Loopback) : Prop where
  sound : s.Sound
  released : ∀ x, e.taken? = some x → s.Released x.frame
  worker : ∀ w, l.worker = some w → w.Provisioned l.options.poolCapacity s e

namespace Tended

variable {s : Store} {e : Errand α} {l : Loopback}

/-- A move ends the worker, or puts a new one in, or does not concern it. -/
theorem enter (h : Tended s e l) (new : Phase) (caps : Option Caps) :
    Tended (l.enter new s caps).2.1 e (l.enter new s caps).1 := by
  have hworker : ∀ (u : Store) (l' : Loopback), u.Sound →
      (∀ x, e.taken? = some x → u.Released x.frame) →
      (∀ w, l'.worker = some w → w.Provisioned l'.options.poolCapacity u e) →
      Tended u e { l' with phase := new, worker := if new = .playing then some {} else l'.worker } := by
    intro u l' hu hreleased hw
    refine ⟨hu, hreleased, fun w hsome => ?_⟩
    simp only at hsome
    split at hsome
    · cases hsome
      exact .fresh ..
    · exact hw w hsome
  unfold Loopback.enter
  simp only
  by_cases hp : l.phase = .playing
  · obtain ⟨ops, hops⟩ := l.store_stopWorker s
    simp only [if_pos hp, hops]
    exact hworker _ _ (h.sound.performAll ops) (fun x hx => (h.released x hx).performAll ops) nofun
  · simp only [if_neg hp]
    exact hworker s l h.sound h.released h.worker

/-- A request is made of moves. -/
theorem setPhase (h : Tended s e l) (target : Phase) (caps : Option Caps) :
    Tended (l.setPhase target s caps).store e (l.setPhase target s caps).pipeline := by
  have hmoves : ∀ (ms : List Move) (t : Transition Loopback), Tended t.store e t.pipeline →
      Tended (ms.foldl (Loopback.move caps) t).store e (ms.foldl (Loopback.move caps) t).pipeline := by
    intro ms
    induction ms with
    | nil => exact fun _ => id
    | cons m rest ih => exact fun t ht => ih _ (ht.enter m.new caps)
  unfold Loopback.setPhase
  split
  · exact h
  · exact hmoves _ _ h

/-- What is done through handles while nothing was handed on. -/
theorem through (h : Tended s e l) (he : ∀ x, e ≠ .handed x) {ops : List Op}
    (hops : ∀ op ∈ ops, op.through ≠ none) : Tended (s.performAll ops) e l := by
  obtain ⟨hsound, hundisturbed, hnext⟩ := h.sound.through _ hops
  exact ⟨hsound, fun x hx => (h.released x hx).performAll ops, fun w hw =>
    (h.worker w hw).of_undisturbed (fun p _ => hundisturbed p) (fun x _ hx => absurd hx (he x)) hnext⟩

/-- A receiver that has no use for the sample any more. -/
theorem done (h : Tended s e l) (he : ∀ x, e ≠ .handed x) : Tended s (.idle : Errand α) l :=
  ⟨h.sound, nofun, fun w hw => (h.worker w hw).of_errand he fun _ _ => rfl⟩

/-- The payload of a sample is taken. -/
theorem taken {x : Sample} {e' : Errand α} (h : Tended s (.handed x : Errand α) l)
    (he' : ∀ y, e'.taken? = some y → (s.takePayload x.frame).2.Released y.frame) :
    Tended (s.takePayload x.frame).2 e' l := by
  obtain ⟨ops, hops, heq⟩ := s.through_takePayload x.frame
  have hgiven := s.givesBack_takePayload x.frame
  rw [heq] at he' hgiven ⊢
  obtain ⟨hsound, hundisturbed, hnext⟩ := h.sound.through _ hops
  exact ⟨hsound, he', fun w hw =>
    (h.worker w hw).of_givesBack _ h.sound (fun p _ => hundisturbed p) hgiven⟩

/-- A step of the receiver. -/
theorem receive {c c' : Circuit α} (h : Tended c.relay.store c.errand c.pipeline)
    (hreceive : c.receive? = some c') : Tended c'.relay.store c'.errand c'.pipeline := by
  cases he : c.errand with
  | idle =>
    rw [receive?, he] at hreceive
    cases hreceive
  | handed x =>
    rw [he] at h
    rcases receive?_of_handed he with ⟨copy, id, s', hcopied, htaken, -⟩ | ⟨result, r, hdone, -, hstore⟩
    · cases hreceive.symm.trans hcopied
      have hs' : s' = (c.relay.store.takePayload x.frame).2 := by rw [htaken]
      subst hs'
      refine h.taken ?_
      rintro y ⟨⟩
      refine ⟨?_, (c.relay.store.givesBack_takePayload x.frame).released⟩
      -- a frame that could be copied is in the store
      have hcases := c.relay.store.taken_takePayload x.frame
      rw [htaken] at hcases
      cases hcases with
      | copied hc hid hr hf =>
        obtain ⟨b, hl, -⟩ := hr
        obtain ⟨⟨owning, ht⟩, -⟩ := Store.live?_eq_some_iff.1 hl
        exact Nat.lt_of_lt_of_le (Store.lt_next_of_target ht)
          (c.relay.store.faithful_takePayload x.frame).handles
    · cases hreceive.symm.trans hdone
      rw [hstore]
      exact h.taken nofun
  | copied x copy id =>
    rw [he] at h
    obtain ⟨ops, hops, heq⟩ := c.relay.store_matchCopy copy id
    have hmatched : Tended (c.relay.matchCopy copy id).2.store (.copied x copy id : Errand α)
        c.pipeline := by
      rw [heq]
      exact h.through nofun fun op hop => by rw [hops op hop]; nofun
    simp only [receive?, he] at hreceive
    cases hm : c.relay.matchCopy copy id with
    | mk delivery r =>
      rw [hm] at hreceive hmatched
      cases delivery with
      | done result =>
        cases hreceive
        exact hmatched.done nofun
      | waits m =>
        cases hreceive
        exact ⟨hmatched.sound, hmatched.released, fun w hw =>
          (hmatched.worker w hw).of_errand nofun fun input hinput =>
            nomatch ((hmatched.worker w hw).holding input hinput).1⟩
  | parked x m =>
    rw [he] at h
    simp only [receive?, he] at hreceive
    obtain ⟨r, hp, rfl⟩ := Option.map_eq_some_iff.1 hreceive
    obtain ⟨ops, hops, heq⟩ := Relay.store_publish? hp
    have hpublished : Tended r.store (.parked x m : Errand α) c.pipeline := by
      rw [heq]
      exact h.through nofun fun op hop => by rw [hops op hop]; nofun
    exact hpublished.done nofun

end Tended

/-- No step of the circuit breaks that. -/
theorem tended_of_step {c c' : Circuit α} (h : Tended c.relay.store c.errand c.pipeline)
    (hstep : c.Step c') : Tended c'.relay.store c'.errand c'.pipeline := by
  cases hstep with
  | work hidle hwork =>
    obtain ⟨⟨r, l⟩, hstep, rfl⟩ := Option.map_eq_some_iff.1 hwork
    obtain ⟨w, hw, hstepped⟩ := Option.bind_eq_some_iff.1 hstep
    obtain ⟨r', hr, heq⟩ := Option.map_eq_some_iff.1 hstepped
    cases heq
    rw [hidle] at h
    obtain ⟨hs, hprovisioned⟩ := Worker.provisioned_step? h.sound (h.worker w hw) hr
    refine ⟨hs, ?_, ?_⟩
    · intro x hx
      cases hitem : r.item with
      | none =>
        simp only [hitem] at hx
        cases hx
      | some item =>
        simp only [hitem] at hx
        cases item <;> cases hx
    · rintro _ ⟨⟩
      exact hprovisioned
  | receive hreceive => exact h.receive hreceive
  | answer flow hidle =>
    refine ⟨h.sound, h.released, fun w' hw' => ?_⟩
    unfold Loopback.answered at hw' ⊢
    cases hw : c.pipeline.worker with
    | none =>
      rw [hw] at hw'
      exact h.worker w' hw'
    | some w =>
      rw [hw] at hw'
      cases hw'
      have hprovisioned := h.worker w hw
      have hanswered : (w.answered c.pipeline.options flow).1.Provisioned
          c.pipeline.options.poolCapacity c.relay.store c.errand := by
        rcases w.answered_cases c.pipeline.options flow with heq | ⟨hpool, hactivity⟩
        · rw [heq]
          exact hprovisioned
        · exact hprovisioned.of_pool hpool hactivity
      exact hanswered
  | request target caps => exact h.setPhase target caps
  | control f => exact ⟨h.sound, h.released, h.worker⟩
  | other op ingest bridge hframe hpool =>
    refine ⟨h.sound.perform op, fun x hx => (h.released x hx).perform op, fun w hw => ?_⟩
    refine (h.worker w hw).of_undisturbed ?_ ?_ (Store.retains_perform _ op).1
    · exact fun p hp =>
        Store.undisturbed_perform h.sound op (hpool w p hw hp).1 (hpool w p hw hp).2
    · intro x b hx hsole
      have hthrough := hframe x hx
      refine hsole.perform h.sound.placed op ?_ ?_ ?_ ?_
      all_goals
        rintro rfl
        exact hthrough rfl
  | inform ingest bridge hu =>
    refine ⟨h.sound.updateInfo hu, ?_, ?_⟩
    · intro x hx
      simp only [Store.Released, Store.handle, Store.handles_updateInfo hu]
      exact h.released x hx
    · intro w hw
      exact (h.worker w hw).of_undisturbed (fun p _ => Store.undisturbed_updateInfo h.sound hu)
        (fun x b _ hsole => hsole.updateInfo hu)
        (Nat.le_of_eq (congrArg Table.next (Store.handles_updateInfo hu)).symm)

/-- All this holds at any moment. -/
theorem tended_of_reaches {s : Settings} {ingestMax : Nat} {l : Loopback} {c : Circuit α}
    (hl : l.worker = none) (h : Reaches (.new s ingestMax l) c) :
    Tended c.relay.store c.errand c.pipeline := by
  induction h with
  | refl => exact ⟨Store.sound_empty, nofun, fun w hw => nomatch hl.symm.trans hw⟩
  | tail _ hstep ih => exact tended_of_step ih hstep

/-- The receiver gives the frame of a sample back with its next step, and never gets it again. -/
theorem released_of_step {c c' : Circuit α} {x : Sample}
    (h : Tended c.relay.store c.errand c.pipeline) (hx : c.errand.sample? = some x)
    (hstep : c.Step c') :
    c'.errand = .handed x ∨ (c'.relay.store.handle x.frame).target = none := by
  have hsame : c'.errand = c.errand →
      c'.errand = .handed x ∨ (c'.relay.store.handle x.frame).target = none := by
    intro heq
    cases he : c.errand with
    | idle =>
      rw [he] at hx
      cases hx
    | handed y =>
      rw [he] at hx
      cases hx
      exact .inl (heq.trans he)
    | copied y copy id =>
      rw [he] at hx
      cases hx
      exact .inr ((tended_of_step h hstep).released _ (by rw [heq, he]; rfl)).2
    | parked y m =>
      rw [he] at hx
      cases hx
      exact .inr ((tended_of_step h hstep).released _ (by rw [heq, he]; rfl)).2
  cases hstep with
  | work hidle | answer _ hidle =>
    rw [hidle] at hx
    cases hx
  | request | control | other | inform => exact hsame rfl
  | receive hreceive =>
    refine .inr ?_
    cases he : c.errand with
    | idle =>
      rw [he] at hx
      cases hx
    | handed y =>
      rw [he] at hx
      cases hx
      have hgiven := (c.relay.store.givesBack_takePayload x.frame).released
      rcases receive?_of_handed he with ⟨copy, id, s, hcopied, htaken, -⟩ | ⟨_, r, hdone, -, hstore⟩
      · cases hreceive.symm.trans hcopied
        rw [htaken] at hgiven
        exact hgiven
      · cases hreceive.symm.trans hdone
        rw [hstore]
        exact hgiven
    | copied y copy id =>
      have hreleased := h.released x (by rw [he] at hx ⊢; exact hx)
      obtain ⟨ops, -, heq⟩ := c.relay.store_matchCopy copy id
      have hmatched := hreleased.performAll ops
      rw [← heq] at hmatched
      simp only [receive?, he] at hreceive
      cases hm : c.relay.matchCopy copy id with
      | mk delivery r =>
        rw [hm] at hreceive hmatched
        cases delivery <;> cases hreceive <;> exact hmatched.2
    | parked y m =>
      have hreleased := h.released x (by rw [he] at hx ⊢; exact hx)
      simp only [receive?, he] at hreceive
      obtain ⟨r, hp, rfl⟩ := Option.map_eq_some_iff.1 hreceive
      obtain ⟨ops, -, heq⟩ := Relay.store_publish? hp
      rw [heq]
      exact (hreleased.performAll ops).2

/-- A worker that holds a frame finds everything at home in its pool. -/
theorem acquire_of_holding {c : Circuit α} {w : Worker} {input : HandleId}
    (h : Tended c.relay.store c.errand c.pipeline) (hw : c.pipeline.worker = some w)
    (hinput : w.activity = .holding input) :
    ∃ p pool, w.pool = some p ∧ c.relay.store.pools.get? p = some pool ∧ pool.outstanding = 0 ∧
      (0 < c.pipeline.options.poolCapacity →
        ∃ output s, c.relay.store.acquire p = some (output, s)) := by
  have hprovisioned := h.worker w hw
  obtain ⟨hidle, hpool, -⟩ := hprovisioned.holding input hinput
  obtain ⟨p, hp⟩ := Option.ne_none_iff_exists'.1 hpool
  obtain ⟨pool, hget, hcapacity⟩ := hprovisioned.pool p hp
  have hhome : ∀ b, ¬c.relay.store.lends p b := by
    intro b hb
    obtain ⟨x, hx, -⟩ := hprovisioned.lent p b hp hb
    exact nomatch hidle.symm.trans hx
  refine ⟨p, pool, hp, hget, h.sound.outstanding hget hhome, fun hpos => ?_⟩
  exact h.sound.acquire hget hhome (hcapacity ▸ hpos)

/-- With a payload from its pool it goes on. -/
theorem isSome_work?_of_acquire {c : Circuit α} {w : Worker} {input output : HandleId} {p : PoolId}
    {s : Store} (hw : c.pipeline.worker = some w) (hinput : w.activity = .holding input)
    (hp : w.pool = some p) (ha : c.relay.store.acquire p = some (output, s)) (caps : Option Caps)
    (waited : Bool) : (c.work? caps waited).isSome := by
  have hasked : w.pool.bind c.relay.store.acquire = some (output, s) := by rw [hp]; exact ha
  simp only [work?, Loopback.step?, hw, Option.bind_some, Option.isSome_map, Worker.step?, hinput,
    hasked]
  split <;> rfl

/-- The frame of a sample is given back whatever comes of the sample: before the entry for it is looked
    for, if there is anything to match, and in any case by the time the delivery ends or waits.  In a
    circuit the receiver's next step gives it back, whatever others do meanwhile.  So a worker that
    asks its pool finds everything at home, and goes on if the pool has anything to lend. -/
theorem provision_of_reaches {s : Settings} {ingestMax : Nat} {l : Loopback} {c : Circuit α}
    (hl : l.worker = none) (h : Reaches (.new s ingestMax l) c) :
    (∀ (r : Relay α) (x : Sample),
      Store.GivesBack x.frame r.store (r.store.takePayload x.frame).2 ∧
      ((∃ copy id, (r.store.takePayload x.frame).1 = .ok (some (copy, id)) ∧
          r.deliver (.sample x) =
            ({ r with store := (r.store.takePayload x.frame).2 } : Relay α).matchCopy copy id) ∨
        ∃ result bridge, r.deliver (.sample x) =
            (.done result, { r with store := (r.store.takePayload x.frame).2, bridge }) ∧
          bridge.pending = r.bridge.pending ∧ bridge.output = r.bridge.output) ∧
      Store.GivesBack x.frame r.store (r.deliver (.sample x)).2.store) ∧
    (∀ x c', c.errand.sample? = some x → c.Step c' →
      c'.errand = .handed x ∨ (c'.relay.store.handle x.frame).target = none) ∧
    ∀ w input, c.pipeline.worker = some w → w.activity = .holding input →
      ∃ p pool, w.pool = some p ∧ c.relay.store.pools.get? p = some pool ∧ pool.outstanding = 0 ∧
        (0 < c.pipeline.options.poolCapacity →
          (∃ output s', c.relay.store.acquire p = some (output, s')) ∧
          ∀ caps waited, (c.work? caps waited).isSome) := by
  have htended := tended_of_reaches hl h
  refine ⟨fun r x => ⟨r.store.givesBack_takePayload x.frame, ?_, r.givesBack_deliver x⟩, ?_, ?_⟩
  · by_cases hcopied : ∃ copy id, (r.store.takePayload x.frame).1 = .ok (some (copy, id))
    · obtain ⟨copy, id, htaken⟩ := hcopied
      exact .inl ⟨copy, id, htaken, Relay.deliver_of_copied (Prod.ext htaken rfl)⟩
    · exact .inr (r.deliver_of_not_copied x fun copy id htaken => hcopied ⟨copy, id, htaken⟩)
  · intro x c' hx hstep
    exact released_of_step htended hx hstep
  · intro w input hw hinput
    obtain ⟨p, pool, hp, hget, hhome, hacquire⟩ := acquire_of_holding htended hw hinput
    refine ⟨p, pool, hp, hget, hhome, fun hpos => ⟨hacquire hpos, ?_⟩⟩
    obtain ⟨output, s', ha⟩ := hacquire hpos
    exact isSome_work?_of_acquire hw hinput hp ha

/-- Lets the receiver go on, or the worker if the receiver has nothing to do; a worker that cannot go on
    gets its answer. -/
def advance (c : Circuit α) : Circuit α :=
  match c.errand with
  | .idle => (c.work? none false).getD { c with pipeline := (c.pipeline.answered .ok).1 }
  | _ => c.receive?.getD c

/-- However often this is done, it is made of steps. -/
theorem reaches_advance (n : Nat) {c c' : Circuit α} (h : Reaches c c') :
    Reaches c (n.repeat advance c') := by
  have hreceive : ∀ u : Circuit α, Reaches c u → Reaches c (u.receive?.getD u) := by
    intro u hu
    cases hr : u.receive? with
    | none => exact hu
    | some u' => exact hu.tail (.receive hr)
  induction n with
  | zero => exact h
  | succ n ih =>
    rw [Nat.repeat]
    generalize n.repeat advance c' = u at ih
    unfold advance
    split
    · rename_i he
      cases hw : u.work? none false with
      | none => exact ih.tail (.answer .ok he)
      | some u' => exact ih.tail (.work he hw)
    · exact hreceive u ih

/-- Two frames of different sizes in the ingest of a pipeline that plays, the first of them with an
    id. -/
def loaded : Circuit Unit where
  relay := { Relay.new {} 10 with
    store := Store.performAll {} [.newFrame ⟨#[1, 2]⟩, .setId 0 5, .newFrame ⟨#[3]⟩]
    ingest := { maxBytes := 10, queue := [0, 1], queuedBytes := 3, flushing := false } }
  pipeline := { phase := .playing, worker := some {} }

/-- They are put there after the pipeline was started. -/
theorem reaches_loaded : Reaches (.new {} 10 {}) loaded := by
  have hnew : Reaches (.new {} 10 {}) (.new {} 10 {} : Circuit Unit) := .refl
  have hplaying := hnew.tail (.request .playing none)
  have hfirst := hplaying.tail (.other (.newFrame ⟨#[1, 2]⟩) loaded.relay.ingest loaded.relay.bridge
    nofun (by rintro w p ⟨⟩ ⟨⟩))
  have htagged := hfirst.tail (.other (.setId 0 5) loaded.relay.ingest loaded.relay.bridge
    nofun (by rintro w p ⟨⟩ ⟨⟩))
  exact htagged.tail (.other (.newFrame ⟨#[3]⟩) loaded.relay.ingest loaded.relay.bridge
    nofun (by rintro w p ⟨⟩ ⟨⟩))

/-- The first frame came back and went to nobody, and the worker holds the second one. -/
def resized : Circuit Unit := (6).repeat advance loaded

/-- The pool for the second frame is a new one, and the worker goes on. -/
theorem provision_of_resized : ∃ pool, resized.relay.store.pools.get? 0 = none ∧
    resized.relay.store.pools.get? 1 = some pool ∧ pool.outstanding = 0 ∧
    ∀ caps waited, (resized.work? caps waited).isSome := by
  obtain ⟨-, -, hprovision⟩ := provision_of_reaches (by rfl) (reaches_advance 6 reaches_loaded)
  obtain ⟨p, pool, hp, hget, hhome, hgoes⟩ := hprovision ⟨2, some 1, .holding 1⟩ 1 (by rfl) rfl
  cases hp
  exact ⟨pool, by rfl, hget, hhome, (hgoes (by decide)).2⟩

end Circuit

end MediaBridge
