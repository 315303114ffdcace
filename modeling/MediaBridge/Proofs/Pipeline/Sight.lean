import MediaBridge.Proofs.Pipeline.Copying

/-! # What a worker finds

A frame can be read if its buffer has an owner and nobody else maps it writable.  A worker that takes a
frame looks whether it can, and it looks again when it has a payload for the copy; in between others may
have changed the frame's info, or its last owner may have gone.  What it found decides what becomes of
the frame.

* `Orderly.isSome_shown?`  when there is anything to find;
* `held_of_shown?`         a frame that can be read is there to be held after it was pulled;
* `Ready`                  what a worker with a frame has, whatever others do;
* `does_of_step?`          all that a worker can do.
-/

namespace MediaBridge

namespace Store

/-- What somebody finds who looks at a frame; none if it cannot be read. -/
def shown? (s : Store) (h : HandleId) : Option Content :=
  match s.info h, (s.mapRead h).1 with
  | .ok info, .ok bytes => some ⟨bytes, info⟩
  | _, _ => none

section

variable {s s' : Store} {h : HandleId} {b : BufferId} {c : Content}

/-- What is shown is the info and the bytes that can be read. -/
theorem shown?_eq_some_iff :
    s.shown? h = some c ↔ s.info h = .ok c.info ∧ (s.mapRead h).1 = .ok c.bytes := by
  unfold shown?
  constructor
  · intro hshown
    split at hshown
    · rename_i hinfo hbytes
      cases hshown
      exact ⟨hinfo, hbytes⟩
    · cases hshown
  · rintro ⟨hinfo, hbytes⟩
    rw [hinfo, hbytes]

/-- What is shown is what the frame has. -/
theorem contentOf?_of_shown? (hs : s.shown? h = some c) :
    ∃ b, s.live? h = some b ∧ s.contentOf? b = some c := by
  obtain ⟨hinfo, hbytes⟩ := shown?_eq_some_iff.1 hs
  unfold Store.info at hinfo
  cases hl : s.live? h with
  | none =>
    rw [hl] at hinfo
    cases hinfo
  | some b =>
    obtain ⟨⟨owning, ht⟩, halive⟩ := live?_eq_some_iff.1 hl
    have hcontent := contentOf?_of_isAlive halive
    have hbears : s.Bears h b (s.handle h).mapping ⟨s.bytes b, s.infoOf b⟩ :=
      ⟨⟨owning, by rw [← ht]⟩, hcontent⟩
    have hsame : s.bytes b = c.bytes := (hbears.bytes_of_mapRead (Prod.ext hbytes rfl)).symm
    rw [hl] at hinfo
    refine ⟨b, rfl, hcontent.trans ?_⟩
    rw [hsame, Except.ok.inj hinfo]

/-- A frame that is mapped readable shows what it bears. -/
theorem Bears.shown? (hs : s.Bears h b .readable c) : s.shown? h = some c := by
  obtain ⟨owning, hhandle⟩ := hs.handle
  have hread : (s.mapRead h).1 = .ok c.bytes := by
    rw [Store.mapRead, if_neg (by rw [hhandle]; rintro ⟨⟩), mappedBytes, hhandle]
    exact congrArg Except.ok (of_contentOf? hs.content).2.1
  exact shown?_eq_some_iff.2 ⟨hs.info, hread⟩

/-- A frame that can be held shows what it carries. -/
theorem Held.shown? (hs : s.Held h b c) : s.shown? h = some c := by
  obtain ⟨s', hread⟩ := hs.mapRead
  exact shown?_eq_some_iff.2 ⟨hs.info, by rw [hread]⟩

/-- A frame can be read if its buffer has an owner and nobody else maps it writable. -/
theorem Orderly.isSome_shown? (hs : s.Orderly) : (∃ c, s.shown? h = some c) ↔
    ∃ t, (s.handle h).target = some t ∧ s.isAlive t.buffer ∧
      ∀ g, g ≠ h → ¬(s.handle g).Maps t.buffer .writable := by
  constructor
  · rintro ⟨c, hshown⟩
    obtain ⟨-, hread⟩ := shown?_eq_some_iff.1 hshown
    obtain ⟨b, hl, -⟩ := contentOf?_of_shown? hshown
    obtain ⟨⟨owning, ht⟩, halive⟩ := live?_eq_some_iff.1 hl
    refine ⟨_, ht, halive, fun g hne hmaps => ?_⟩
    -- a handle that maps the buffer itself keeps every writer away
    by_cases hu : (s.handle h).mapping = .unmapped
    · obtain ⟨t, ht', -, hnone⟩ := (hs.mapRead_iff hu).1 ⟨_, hread⟩
      cases ht.symm.trans ht'
      exact hnone g hmaps
    · exact hne ((hs.maps_iff_of_writable hmaps hu).1 ((Handle.maps_iff ht).2 ⟨rfl, rfl⟩)).1.symm
  · rintro ⟨t, ht, halive, hnone⟩
    have hl : s.live? h = some t.buffer := live?_eq_some_iff.2 ⟨⟨t.owning, ht⟩, halive⟩
    have hread : ∃ bytes, (s.mapRead h).1 = .ok bytes := by
      by_cases hu : (s.handle h).mapping = .unmapped
      · refine (hs.mapRead_iff hu).2 ⟨t, ht, halive, fun g hmaps => ?_⟩
        by_cases heq : g = h
        · rw [heq] at hmaps
          cases hu.symm.trans hmaps.1
        · exact hnone g heq hmaps
      · rw [Store.mapRead, if_neg hu, mappedBytes, ht]
        exact ⟨_, rfl⟩
    obtain ⟨bytes, hread⟩ := hread
    exact ⟨⟨bytes, s.infoOf t.buffer⟩, shown?_eq_some_iff.2 ⟨by rw [Store.info, hl], hread⟩⟩

/-! ## After a pull -/

/-- A pull keeps every buffer as alive as it was. -/
theorem isAlive_unmap_size (s : Store) (h : HandleId) (b : BufferId) :
    ((s.size h).2.unmap h).isAlive b = s.isAlive b := by
  rw [isAlive_unmap, snd_size, Bool.eq_iff_iff, ← not_iff_not, Bool.not_eq_true, Bool.not_eq_true,
    ← contentOf?_eq_none_iff, ← contentOf?_eq_none_iff, contentOf?_mapRead]

/-- A pull does not change what a handle stands for. -/
theorem target_unmap_size (s : Store) (h g : HandleId) :
    (((s.size h).2.unmap h).handle g).target = (s.handle g).target := by
  rw [target_unmap, snd_size, target_mapRead]

/-- A handle that gave its mapping up stands in nobody's way, and the others are as they were. -/
theorem Orderly.writable_unmap_size (hs : s.Orderly) :
    (∀ g, ¬(((s.size h).2.unmap h).handle g).Maps b .writable) ↔
      ∀ g, g ≠ h → ¬(s.handle g).Maps b .writable := by
  have hothers : ∀ g, g ≠ h → ((s.size h).2.unmap h).handle g = s.handle g := by
    intro g hne
    rw [handle_unmap_of_ne _ hne, snd_size, handle_mapRead_of_ne s hne]
  have hunmapped : (((s.size h).2.unmap h).handle h).mapping = .unmapped :=
    (orderly_perform hs (.size h)).mapping_unmap h
  constructor
  · intro hnone g hne hmaps
    exact hnone g (by rwa [hothers g hne])
  · intro hnone g hmaps
    by_cases heq : g = h
    · rw [heq] at hmaps
      cases hunmapped.symm.trans hmaps.1
    · exact hnone g heq (by rwa [hothers g heq] at hmaps)

/-- A frame that can be read is there to be held after it was pulled. -/
theorem held_of_shown? (hs : s.Orderly) (hshown : s.shown? h = some c) :
    ∃ b, ((s.size h).2.unmap h).Held h b c := by
  obtain ⟨b, hl, hcontent⟩ := contentOf?_of_shown? hshown
  obtain ⟨⟨owning, ht⟩, -⟩ := live?_eq_some_iff.1 hl
  obtain ⟨t, ht', -, hnone⟩ := hs.isSome_shown?.1 ⟨c, hshown⟩
  cases ht.symm.trans ht'
  have horderly : ((s.size h).2.unmap h).Orderly :=
    (orderly_perform hs (.size h)).unmap h
  refine ⟨b, ⟨⟨owning, ?_⟩, ?_⟩, horderly.ne_writer_iff.2 (hs.writable_unmap_size.2 hnone)⟩
  · refine handle_unmap_self ?_
    rw [snd_size, target_mapRead, ht]
  · rw [contentOf?_unmap, snd_size, contentOf?_mapRead, hcontent]

/-- One that cannot be read cannot be measured either. -/
theorem size_of_shown?_eq_none (hs : s.Orderly) (hshown : s.shown? h = none) :
    ∃ e, ((s.size h).2.unmap h).size h = (.error e, (((s.size h).2.unmap h).size h).2) := by
  have horderly : ((s.size h).2.unmap h).Orderly :=
    (orderly_perform hs (.size h)).unmap h
  have hunmapped : (((s.size h).2.unmap h).handle h).mapping = .unmapped :=
    (orderly_perform hs (.size h)).mapping_unmap h
  have hnot : ∀ bytes, (((s.size h).2.unmap h).mapRead h).1 ≠ .ok bytes := by
    intro bytes hread
    obtain ⟨t, ht, halive, hnone⟩ := (horderly.mapRead_iff hunmapped).1 ⟨bytes, hread⟩
    rw [target_unmap_size] at ht
    rw [isAlive_unmap_size] at halive
    obtain ⟨c, hc⟩ := hs.isSome_shown?.2 ⟨t, ht, halive, hs.writable_unmap_size.1 hnone⟩
    cases hshown.symm.trans hc
  generalize (s.size h).2.unmap h = u at hnot
  unfold Store.size
  cases hr : u.mapRead h with
  | mk result u' =>
    rw [hr] at hnot
    cases result with
    | error e => exact ⟨e, rfl⟩
    | ok bytes => exact absurd rfl (hnot bytes)

end

end Store

namespace Worker

open Store (Only)

/-! ## A worker with a frame -/

/-- A worker maps the frame that it holds readable, and has a pool for frames of that size. -/
def Ready (w : Worker) (s : Store) (input : HandleId) : Prop :=
  ∃ t p pool, s.handle input = { target := some t, mapping := .readable } ∧ w.pool = some p ∧
    s.pools.get? p = some pool ∧ ∀ x, s.buffers.get? t.buffer = some x → x.bytes.size = pool.size

section

variable {w : Worker} {s s' : Store} {o : LoopbackOptions} {f : Faults} {p : Ingest}
  {caps : Option Caps} {waited : Bool} {r : WorkerStep} {input : HandleId} {b : BufferId}
  {c : Content}

namespace Ready

/-- A worker that bears a frame, with a pool that fits it, is ready. -/
theorem of_bears (hb : s.Bears input b .readable c) (hfitted : w.Fitted s c.bytes.size) :
    w.Ready s input := by
  obtain ⟨owning, hhandle⟩ := hb.handle
  obtain ⟨p, pool, hp, hget, hsize⟩ := hfitted
  refine ⟨⟨b, owning⟩, p, pool, hhandle, hp, hget, fun x hx => ?_⟩
  rw [hsize, ← (Store.of_contentOf? hb.content).2.1, Store.bytes_of_get? hx]

/-- If there is still something to find, that is what the frame bears. -/
theorem bears (hr : w.Ready s input) (hshown : s.shown? input = some c) :
    ∃ b, s.Bears input b .readable c ∧ w.Fitted s c.bytes.size := by
  obtain ⟨t, p, pool, hhandle, hp, hget, hsize⟩ := hr
  obtain ⟨b, hl, hcontent⟩ := Store.contentOf?_of_shown? hshown
  obtain ⟨⟨owning, ht⟩, halive⟩ := Store.live?_eq_some_iff.1 hl
  rw [hhandle] at ht
  cases ht
  obtain ⟨x, hx, -⟩ := (Option.any_eq_true _ _).1 halive
  refine ⟨b, ⟨⟨owning, hhandle⟩, hcontent⟩, p, pool, hp, hget, ?_⟩
  rw [← hsize x hx, ← (Store.of_contentOf? hcontent).2.1, Store.bytes_of_get? hx]

/-- If there is not, the last owner has gone. -/
theorem gone (hr : w.Ready s input) (hshown : s.shown? input = none) : s.live? input = none := by
  obtain ⟨t, p, pool, hhandle, -⟩ := hr
  by_contra hlive
  obtain ⟨b, hl⟩ := Option.ne_none_iff_exists'.1 hlive
  obtain ⟨⟨owning, ht⟩, halive⟩ := Store.live?_eq_some_iff.1 hl
  have hbears : s.Bears input b .readable ⟨s.bytes b, s.infoOf b⟩ := by
    refine ⟨⟨owning, ?_⟩, Store.contentOf?_of_isAlive halive⟩
    rw [hhandle] at ht ⊢
    cases ht
    rfl
  cases hshown.symm.trans hbears.shown?

/-- Others neither take the mapping away nor change the size of the frame. -/
theorem perform (hr : w.Ready s input) (hs : s.Sound) (op : Store.Op)
    (hinput : op.through ≠ some input)
    (hpool : ∀ p, w.pool = some p → op ≠ .acquire p ∧ op ≠ .dropPool p) :
    w.Ready (s.perform op) input := by
  obtain ⟨t, p, pool, hhandle, hp, hget, hsize⟩ := hr
  have ht : (s.handle input).target = some t := by rw [hhandle]
  obtain ⟨hacquire, hdrop⟩ := hpool p hp
  obtain ⟨pool', hget', hsize', -⟩ :=
    (Store.undisturbed_perform hs op hacquire hdrop).pool pool hget
  refine ⟨t, p, pool', ?_, hp, hget', fun x' hx' => ?_⟩
  · rw [s.handle_perform hinput (Store.lt_next_of_target ht), hhandle]
  · obtain ⟨x, hx, hkept⟩ := (s.kept_perform op).size _ x' (hs.placed.handles _ _ ht) hx'
    rw [hkept, hsize x hx, hsize']

/-- A change of some info takes neither the mapping away nor changes the size of the frame. -/
theorem updateInfo (hr : w.Ready s input) (hs : s.Sound) {g : HandleId}
    {f : FrameInfo → FrameInfo} (hu : s.updateInfo g f = .ok s') : w.Ready s' input := by
  obtain ⟨t, p, pool, hhandle, hp, hget, hsize⟩ := hr
  have ht : (s.handle input).target = some t := by rw [hhandle]
  obtain ⟨pool', hget', hsize', -⟩ := (Store.undisturbed_updateInfo hs hu).pool pool hget
  refine ⟨t, p, pool', ?_, hp, hget', fun x' hx' => ?_⟩
  · rw [Store.handle_updateInfo hu, hhandle]
  · obtain ⟨x, hx, hkept⟩ := (Store.kept_updateInfo hu).size _ x' (hs.placed.handles _ _ ht) hx'
    rw [hkept, hsize x hx, hsize']

end Ready

/-! ## What the worker does -/

/-- All that a worker can do. -/
inductive Does (w : Worker) (o : LoopbackOptions) (f : Faults) (s : Store) (p : Ingest)
    (caps : Option Caps) : WorkerStep → Prop where
  -- No frames follow.
  | ends (hactivity : w.activity = .polling) (hqueue : p.queue = []) :
    w.Does o f s p caps
      { worker := { w with activity := .ending }, store := s, ingest := p, item := some .endOfStream }
  -- A frame is lost, or cannot be read.
  | skips {input : HandleId} {rest : List HandleId} {s' : Store} {p' : Ingest}
    (hactivity : w.activity = .polling) (hqueue : p.queue = input :: rest)
    (hnot : f.drops (w.pulled + 1) ∨ s.shown? input = none) :
    w.Does o f s p caps
      { worker := { w with pulled := w.pulled + 1 }, store := s', ingest := p' }
  -- A frame is held.
  | takes {input : HandleId} {rest : List HandleId} {w' : Worker} {s' : Store} {p' : Ingest}
    (hactivity : w.activity = .polling) (hqueue : p.queue = input :: rest)
    (hkept : f.drops (w.pulled + 1) = false) (hpulled : w'.pulled = w.pulled + 1)
    (hholding : w'.activity = .holding input) (hready : w'.Ready s' input) :
    w.Does o f s p caps { worker := w', store := s', ingest := p' }
  -- The frame cannot be read any more.
  | fails {input : HandleId} {s' : Store} (hactivity : w.activity = .holding input)
    (hshown : s.shown? input = none) :
    w.Does o f s p caps { worker := { w with activity := .polling }, store := s', ingest := p }
  -- The copy is handed on, and nobody else has it.
  | fills {input : HandleId} {s' : Store} {c : Content} {b' : BufferId}
    (hactivity : w.activity = .holding input) (hshown : s.shown? input = some c)
    (hheld : s'.Held s.handles.next b' ⟨o.transformed c.bytes, f.attach c.info {}⟩)
    (hsole : s'.Sole s.handles.next b') :
    w.Does o f s p caps
      { worker := { w with activity := .delivering }, store := s', ingest := p
        item := some (.sample ⟨s.handles.next, caps⟩) }

/-- A worker that waits for an answer does nothing, nor does one whose work is over. -/
theorem Does.busy (h : w.Does o f s p caps r) :
    w.activity ≠ .delivering ∧ w.activity ≠ .finished := by
  cases h with
  | ends hactivity | skips hactivity | takes hactivity | fails hactivity | fills hactivity =>
    rw [hactivity]
    constructor <;> rintro ⟨⟩

/-- What becomes of any frame that was just pulled. -/
theorem take_cases (hs : s.Sound) (hw : w.Equipped s) (o : LoopbackOptions) (f : Faults)
    (input : HandleId) {w' : Worker} {s' : Store}
    (h : w.take o f ((s.size input).2.unmap input) input = (w', s')) :
    w' = { w with pulled := w.pulled + 1 } ∧ (f.drops (w.pulled + 1) ∨ s.shown? input = none) ∨
    f.drops (w.pulled + 1) = false ∧ w'.pulled = w.pulled + 1 ∧ w'.activity = .holding input ∧
      w'.Ready s' input := by
  cases hdrops : f.drops (w.pulled + 1) with
  | true =>
    simp only [take, hdrops, if_true] at h
    cases h
    exact .inl ⟨rfl, .inl rfl⟩
  | false =>
    cases hshown : s.shown? input with
    | none =>
      obtain ⟨e, hsize⟩ := Store.size_of_shown?_eq_none hs.orderly hshown
      simp only [take, hdrops, Bool.false_eq_true, if_false] at h
      rw [hsize] at h
      cases h
      exact .inl ⟨rfl, .inr rfl⟩
    | some c =>
      obtain ⟨b, hheld⟩ := Store.held_of_shown? hs.orderly hshown
      have hsound : ((s.size input).2.unmap input).Sound :=
        (hs.perform (.size input)).perform (.unmap input)
      have hequipped : w.Equipped ((s.size input).2.unmap input) :=
        (hw.of_undisturbed fun q => Store.undisturbed_of_through hs (.size input) rfl).of_undisturbed
          fun q => Store.undisturbed_of_through (hs.perform (.size input)) (.unmap input) rfl
      obtain ⟨htakes, -, -⟩ := takes_take hequipped hsound hheld o f
      rw [h] at htakes
      cases htakes with
      | lost hlost => cases hdrops.symm.trans hlost
      | held _ hpulled hactivity hbears hfitted =>
        exact .inr ⟨rfl, hpulled, hactivity, .of_bears hbears hfitted⟩

/-- A frame whose last owner has gone is given up. -/
theorem fails_of_step? (hs : s.Sound) (hactivity : w.activity = .holding input)
    (hr : w.Ready s input) (hshown : s.shown? input = none)
    (h : w.step? o f s p caps waited = some r) :
    ∃ s', r = { worker := { w with activity := .polling }, store := s', ingest := p } := by
  have hgone := hr.gone hshown
  obtain ⟨t, q, pool, hhandle, hq, hget, -⟩ := hr
  have ht : (s.handle input).target = some t := by rw [hhandle]
  have hasked : w.pool.bind s.acquire = s.acquire q := by rw [hq]; rfl
  unfold step? at h
  simp only [hactivity, hasked] at h
  cases ha : s.acquire q with
  | none =>
    rw [ha] at h
    cases h
  | some acquired =>
    obtain ⟨output, s₁⟩ := acquired
    obtain ⟨-, -, honly, -⟩ := Store.acquire_of_size hs hget ha
    have hlt := hs.placed.handles _ _ ht
    have hkept := honly s.handles.next s.buffers.next
    have hsame : s₁.live? input = s.live? input := by
      rw [Store.live?, Store.live?, hkept.handle input (Store.lt_next_of_target ht)
        (Nat.ne_of_lt (Store.lt_next_of_target ht)), ht, Option.bind_some, Option.bind_some,
        Store.isAlive, Store.isAlive, hkept.buffer _ hlt (Nat.ne_of_lt hlt)]
    have hinfo : s₁.info input = .error .bufferReleased := by
      rw [Store.info, hsame, hgone]
    simp only [ha, Store.copyInto, hinfo] at h
    cases h
    exact ⟨_, rfl⟩

/-- There is nothing else that a worker can do. -/
theorem does_of_step? (hs : s.Sound) (hw : w.Equipped s)
    (hready : ∀ input, w.activity = .holding input → w.Ready s input)
    (h : w.step? o f s p caps waited = some r) : w.Does o f s p caps r := by
  cases hactivity : w.activity with
  | delivering | ending | finished =>
    rw [step?, hactivity] at h
    cases h
  | polling =>
    unfold step? at h
    simp only [hactivity] at h
    split at h
    · cases h
    · cases hp : p.pull s with
      | none =>
        simp only [hp] at h
        split at h
        · rename_i hover
          cases h
          simp only [Ingest.isDrained, Bool.and_eq_true, List.isEmpty_iff] at hover
          exact .ends hactivity hover.1.2
        · cases h
      | some pulled =>
        obtain ⟨input, ingest, s₁⟩ := pulled
        simp only [hp] at h
        cases h
        obtain ⟨rest, hqueue, rfl, -⟩ := Ingest.pull_cases hp
        cases ht : w.take o f ((s.size input).2.unmap input) input with
        | mk w' s' =>
          rcases take_cases hs hw o f input ht with ⟨rfl, hnot⟩ | ⟨hkept, hpulled, hholding, hr⟩
          · exact .skips hactivity hqueue hnot
          · exact .takes hactivity hqueue hkept hpulled hholding hr
  | holding input =>
    have hr := hready input hactivity
    cases hshown : s.shown? input with
    | none =>
      obtain ⟨s', rfl⟩ := fails_of_step? hs hactivity hr hshown h
      exact .fails hactivity hshown
    | some c =>
      obtain ⟨b, hbears, hfitted⟩ := hr.bears hshown
      obtain ⟨b', hitem, hingest, hworker, -, hheld, hsole, -⟩ :=
        fills_of_step? hs hactivity hbears hfitted h
      obtain ⟨worker, store, ingest, item⟩ := r
      cases hitem
      cases hingest
      cases hworker
      exact .fills hactivity hshown hheld hsole

end

end Worker

end MediaBridge
