import MediaBridge.Proofs.Correspondence.Interleaving

/-! # A pipeline that keeps the order

One thread submits, and the pipeline delivers the result of each accepted frame at most once and in
the order of their acceptance.  It may lose any of them, and it may be as late as it likes: entries
may have been given up or forgotten in the meantime.  Samples without an id may come at any time.

What is owed are the results that may still come.  An owed result has its entry, unless that was
given up or forgotten; then its id is below the watermark and below every entry (`Owed.Known`).  So
the watermark covers every owed result that could be taken for one out of order, whichever of the
two operations that move it was the last.

* `Owed.Known.mono`, `Owed.Known.spare`  what keeps a result known;
* `Due.enter`, `Due.result`              results that are due stay in order;
* `sound_of_step`                        the invariant is kept by every step;
* `feed_delivers_in_order`               no delivery is out of order, and kept entries are found.
-/

namespace MediaBridge

open Relation (ReflTransGen)

variable {α : Type u}

/-- A result that may still come. -/
structure Owed (α : Type u) where
  id : Nat
  user : α
  /-- Whether the entry was neither given up nor forgotten. -/
  kept : Bool

namespace Owed

/-- The result, after its entry was forgotten. -/
def forget (o : Owed α) : Owed α := { o with kept := false }

/-- The result, after a registration that may have given its entry up. -/
def spare (b : Bridge α) (o : Owed α) : Owed α :=
  { o with kept := o.kept && b.givesUp? ≠ some o.id }

/-- A result whose entry was kept has it; any other is below the watermark and below every entry. -/
def Known (p : Pending α) (o : Owed α) : Prop :=
  if o.kept then ∃ e ∈ p.entries, e.id = o.id ∧ e.user = o.user
  else o.id < p.watermark ∧ ∀ e ∈ p.entries, o.id < e.id

/-- A result whose entry was kept is known if the entry waits. -/
theorem known_of_kept {p : Pending α} {o : Owed α} (hk : o.kept = true) :
    o.Known p ↔ ∃ e ∈ p.entries, e.id = o.id ∧ e.user = o.user := by
  rw [Known, if_pos hk]

/-- A result whose entry is gone is known if the watermark covers it and the entries are younger. -/
theorem known_of_not_kept {p : Pending α} {o : Owed α} (hk : o.kept = false) :
    o.Known p ↔ o.id < p.watermark ∧ ∀ e ∈ p.entries, o.id < e.id := by
  rw [Known, if_neg (by simp [hk])]

/-! ## What keeps a result known -/

namespace Known

variable {p : Pending α} {o : Owed α}

/-- A result is known from its registration on. -/
theorem nextEntry (p : Pending α) (timing : Timing) (user : α) :
    (⟨p.nextId, user, true⟩ : Owed α).Known (p.register timing user) := by
  rw [known_of_kept rfl]
  exact ⟨p.nextEntry timing user, List.mem_append_right _ (List.mem_singleton_self _), rfl, rfl⟩

/-- A result stays known if its entry stays, the watermark is not lowered, and new entries are
    younger. -/
theorem mono {p' : Pending α} (h : o.Known p)
    (hkept : ∀ e ∈ p.entries, e.id = o.id → e ∈ p'.entries)
    (hwatermark : p.watermark ≤ p'.watermark)
    (hyounger : ∀ e ∈ p'.entries, e ∈ p.entries ∨ o.id < e.id) : o.Known p' := by
  cases hk : o.kept with
  | true =>
    obtain ⟨e, he, heid, heuser⟩ := (known_of_kept hk).1 h
    exact (known_of_kept hk).2 ⟨e, hkept e he heid, heid, heuser⟩
  | false =>
    obtain ⟨hlt, hold⟩ := (known_of_not_kept hk).1 h
    refine (known_of_not_kept hk).2 ⟨Nat.lt_of_lt_of_le hlt hwatermark, fun e he => ?_⟩
    rcases hyounger e he with hmem | hless
    · exact hold e hmem
    · exact hless

/-- A registration leaves older results known. -/
theorem register (h : o.Known p) (hlt : o.id < p.nextId) (timing : Timing) (user : α) :
    o.Known (p.register timing user) := by
  refine h.mono (fun e he _ => List.mem_append_left _ he) (Nat.le_refl _) fun e he => ?_
  rcases List.mem_append.1 he with hold | hnew
  · exact .inl hold
  · rw [List.mem_singleton.1 hnew]
    exact .inr hlt

/-- Giving an entry up lifts the watermark above its result and above those lost before. -/
theorem spare {b : Bridge α} {timing : Timing} {user : α}
    (hasc : (b.pending.register timing user).Ascending)
    (h : o.Known (b.pending.register timing user)) :
    (o.spare b).Known (b.enter timing user).pending := by
  rcases b.pending_enter_cases timing user with ⟨hnone, heq⟩ | ⟨e, rest, hentries, hsome, heq⟩
  · have hspare : o.spare b = o := by rw [Owed.spare, hnone]; simp
    rw [hspare, heq]
    exact h
  · have hsorted := hasc.sorted
    rw [hentries] at hsorted
    obtain ⟨holdest, -⟩ := List.pairwise_cons.1 hsorted
    rw [heq]
    -- the entry given up is the oldest one, so its id bounds what the watermark must cover
    cases hk : o.kept with
    | false =>
      obtain ⟨-, hyounger⟩ := (known_of_not_kept hk).1 h
      rw [hentries] at hyounger
      have hlt : o.id < e.id := hyounger e (List.mem_cons_self ..)
      refine (known_of_not_kept (by rw [Owed.spare, hk]; rfl)).2 ⟨?_, fun f hf => ?_⟩
      · exact Nat.lt_succ_of_lt hlt
      · exact hyounger f (List.mem_cons_of_mem _ hf)
    | true =>
      obtain ⟨f, hf, hfid, hfuser⟩ := (known_of_kept hk).1 h
      -- this result loses its entry, or another one does
      by_cases hid : e.id = o.id
      · refine (known_of_not_kept (by simp [Owed.spare, hsome, hid])).2 ⟨?_, fun g hg => ?_⟩
        · show o.id < e.id + 1
          omega
        · have hlt := holdest g hg
          show o.id < g.id
          omega
      · refine (known_of_kept (by simp [Owed.spare, hk, hsome, hid])).2 ⟨f, ?_, hfid, hfuser⟩
        rw [hentries] at hf
        rcases List.mem_cons.1 hf with rfl | hf
        · exact absurd hfid hid
        · exact hf

/-- A withdrawal takes another entry. -/
theorem withdraw (h : o.Known p) (hasc : p.Ascending) {id : Nat} (hne : o.id ≠ id) :
    o.Known (p.withdraw id) := by
  have hentries := Pending.entries_withdraw hasc.sorted id
  -- an entry of another id is not the one that goes
  refine h.mono (fun e he heid => ?_) (Nat.le_refl _) fun e he => ?_
  · rw [hentries]
    exact List.mem_filter.2 ⟨he, by simpa [heid] using hne⟩
  · rw [hentries] at he
    exact .inl (List.mem_filter.1 he).1

/-- Results that are due later keep their entries. -/
theorem resolve (h : o.Known p) (hasc : p.Ascending) {id : Nat} (hlt : id < o.id) :
    o.Known (p.resolve id).2 := by
  have hentries := Pending.entries_resolve hasc id
  refine h.mono (fun e he heid => ?_) (Nat.le_of_eq (p.watermark_resolve id).symm) fun e he => ?_
  · rw [hentries]
    exact List.mem_filter.2 ⟨he, by simpa [heid] using hlt⟩
  · rw [hentries] at he
    exact .inl (List.mem_filter.1 he).1

/-- When all entries are forgotten, every id handed out is below the watermark. -/
theorem forget (hlt : o.id < p.nextId) : o.forget.Known p.reset :=
  (known_of_not_kept rfl).2 ⟨hlt, fun _ he => absurd he List.not_mem_nil⟩

/-- A result that is known is not out of order. -/
theorem result_ne_outOfOrder (h : o.Known p) (hasc : p.Ascending) (oldest : Nat) :
    (p.resolve o.id).1.result ≠ .outOfOrder oldest := by
  apply Pending.result_ne_outOfOrder hasc
  -- its entry waits, or the watermark covers it
  cases hk : o.kept with
  | true =>
    obtain ⟨e, he, heid, -⟩ := (known_of_kept hk).1 h
    exact .inl ⟨e, he, heid⟩
  | false => exact .inr ((known_of_not_kept hk).1 h).1

end Known

end Owed

/-! ## Everything that is due -/

/-- Results that may become due, in the order of their registration: their ids ascend and are below
    the next one, and each is known. -/
structure Due (p : Pending α) (l : List (Owed α)) : Prop where
  ascending : p.Ascending
  sorted : l.Pairwise fun a b => a.id < b.id
  below : ∀ o ∈ l, o.id < p.nextId
  known : ∀ o ∈ l, o.Known p

namespace Due

variable {p : Pending α} {o : Owed α} {l passed rest : List (Owed α)}

/-- Nothing is due at the start. -/
theorem empty : Due ({} : Pending α) [] :=
  ⟨.empty, .nil, fun _ ho => absurd ho List.not_mem_nil, fun _ ho => absurd ho List.not_mem_nil⟩

/-- A registration adds the youngest result of all, and may cost the oldest its entry. -/
theorem enter {b : Bridge α} (h : Due b.pending l) (timing : Timing) (user : α) :
    Due (b.enter timing user).pending
      (l.map (·.spare b) ++ [(⟨b.pending.nextId, user, true⟩ : Owed α).spare b]) := by
  have hasc := h.ascending.register timing user
  constructor
  · exact Bridge.ascending_enter h.ascending timing user
  · -- the new id is the next one, so it is the greatest
    refine List.pairwise_append.2 ⟨List.pairwise_map.2 h.sorted, List.pairwise_singleton .., ?_⟩
    intro a ha c hc
    obtain ⟨o, ho, rfl⟩ := List.mem_map.1 ha
    rw [List.mem_singleton.1 hc]
    exact h.below o ho
  · intro o' ho'
    rw [Bridge.nextId_enter]
    rcases List.mem_append.1 ho' with ho' | ho'
    · obtain ⟨o, ho, rfl⟩ := List.mem_map.1 ho'
      exact Nat.lt_succ_of_lt (h.below o ho)
    · rw [List.mem_singleton.1 ho']
      exact Nat.lt_succ_self _
  · intro o' ho'
    rcases List.mem_append.1 ho' with ho' | ho'
    · obtain ⟨o, ho, rfl⟩ := List.mem_map.1 ho'
      exact ((h.known o ho).register (h.below o ho) timing user).spare hasc
    · rw [List.mem_singleton.1 ho']
      exact (Owed.Known.nextEntry _ timing user).spare hasc

/-- The youngest id can be handed out again once it is given back. -/
theorem withdraw (h : Due p (l ++ [o])) : Due (p.withdraw o.id) l := by
  obtain ⟨hsorted, -, hlt⟩ := List.pairwise_append.1 h.sorted
  have hless : ∀ o' ∈ l, o'.id < o.id := fun o' ho' => hlt o' ho' o (List.mem_singleton_self o)
  refine ⟨h.ascending.withdraw o.id, hsorted, fun o' ho' => ?_, fun o' ho' => ?_⟩
  · have hold := h.below o' (List.mem_append_left _ ho')
    have hid := hless o' ho'
    rw [Pending.nextId_withdraw]
    split <;> omega
  · have hold := h.known o' (List.mem_append_left _ ho')
    exact hold.withdraw h.ascending (Nat.ne_of_lt (hless o' ho'))

/-- Of results in order, some may be left out at the front. -/
theorem lose (h : Due p (passed ++ o :: rest)) : Due p rest := by
  have hsub : rest.Sublist (passed ++ o :: rest) :=
    (List.sublist_cons_self o rest).trans (List.sublist_append_right passed _)
  exact ⟨h.ascending, h.sorted.sublist hsub, fun o' ho' => h.below o' (hsub.subset ho'),
    fun o' ho' => h.known o' (hsub.subset ho')⟩

/-- A result takes the entries up to its own; those due after it keep theirs. -/
theorem result (h : Due p (passed ++ o :: rest)) : Due (p.resolve o.id).2 rest := by
  have hlater := (List.pairwise_cons.1 (List.pairwise_append.1 h.sorted).2.1).1
  have hrest := h.lose
  refine ⟨h.ascending.resolve o.id, hrest.sorted, fun o' ho' => ?_, fun o' ho' => ?_⟩
  · rw [Pending.nextId_resolve]
    exact hrest.below o' ho'
  · exact (hrest.known o' ho').resolve h.ascending (hlater o' ho')

/-- When all entries are forgotten, results stay in order, and known without their entries. -/
theorem forget (h : Due p l) : Due p.reset (l.map Owed.forget) := by
  refine ⟨.reset p, List.pairwise_map.2 h.sorted, fun o' ho' => ?_, fun o' ho' => ?_⟩
  · obtain ⟨o, ho, rfl⟩ := List.mem_map.1 ho'
    exact h.below o ho
  · obtain ⟨o, ho, rfl⟩ := List.mem_map.1 ho'
    exact .forget (h.below o ho)

end Due

/-! ## The pipeline -/

/-- One thread that submits, and a pipeline that keeps the order. -/
structure Feed (α : Type u) where
  world : Concurrent α
  /-- The submission under way. -/
  submitting : Option (Owed α) := none
  /-- What the pipeline may still deliver, in the order of acceptance. -/
  owed : List (Owed α) := []

/-- Whether an item carries no id. -/
def Item.IsStray (s : Store) : Item → Prop
  | .endOfStream => True
  | .sample x => ∀ c, s.content? x.frame = some c → c.info.id = none

/-- Whether a sample carries an id. -/
def Sample.Carries (s : Store) (x : Sample) (id : Nat) : Prop :=
  ∃ c, s.content? x.frame = some c ∧ c.info.id = some id

namespace Feed

/-- Nothing is submitted at the start, and nothing owed. -/
def new (s : Settings) (ingestMax : Nat) : Feed α := { world := .new s ingestMax }

/-- One step of the one thread that submits, of the pipeline, or of anybody else. -/
inductive Step (f : Feed α) : Feed α → Prop where
  -- A submission begins when the one before has ended.
  | register {t : Ticket} {user : α} {w : Concurrent α} (halone : f.submitting = none)
    (h : f.world.Step (.registered t user) w) :
    f.Step
      { world := w
        submitting := some ((⟨t.id, user, true⟩ : Owed α).spare f.world.relay.bridge)
        owed := f.owed.map (·.spare f.world.relay.bridge) }
  | accept {t : Ticket} {o : Owed α} {w : Concurrent α} (ho : f.submitting = some o)
    (h : f.world.Step (.accepted t) w) : f.Step { world := w, owed := f.owed ++ [o] }
  | withdraw {t : Ticket} {o : Owed α} {w : Concurrent α} (ho : f.submitting = some o)
    (h : f.world.Step (.withdrawn t) w) : f.Step { world := w, owed := f.owed }
  -- A result comes; those that were passed over will not come any more.
  | result {x : Sample} {o : Owed α} {passed rest : List (Owed α)} {w : Concurrent α}
    (hx : x.Carries f.world.relay.store o.id) (ho : f.owed = passed ++ o :: rest)
    (h : f.world.Step (.delivered (.sample x)) w) : f.Step { f with world := w, owed := rest }
  | stray {item : Item} {w : Concurrent α} (hitem : item.IsStray f.world.relay.store)
    (h : f.world.Step (.delivered item) w) : f.Step { f with world := w }
  | forget {w : Concurrent α} (h : f.world.Step .forgotten w) :
    f.Step
      { world := w
        submitting := f.submitting.map Owed.forget
        owed := f.owed.map Owed.forget }
  | other {w : Concurrent α} (h : f.world.Step .other w) : f.Step { f with world := w }

/-- One state can come after another. -/
def Reaches (f f' : Feed α) : Prop := ReflTransGen Step f f'

/-- Everything that may still become due, in the order of registration. -/
def outstanding (f : Feed α) : List (Owed α) := f.owed ++ f.submitting.toList

/-- The submission under way is the only one, and what is outstanding is in order. -/
structure Sound (f : Feed α) : Prop where
  alone : f.world.tickets = f.submitting.toList.map (·.id)
  due : Due f.world.pending f.outstanding

/-- All is in order at the start. -/
theorem Sound.new (s : Settings) (ingestMax : Nat) : (Feed.new s ingestMax : Feed α).Sound :=
  ⟨rfl, .empty⟩

/-- The one submission under way is the one that ends. -/
theorem Sound.tickets_eq {f : Feed α} {w : Concurrent α} {t : Ticket} {o : Owed α} (h : f.Sound)
    (ho : f.submitting = some o) (htickets : f.world.tickets.Perm (t.id :: w.tickets)) :
    t.id = o.id ∧ w.tickets = [] := by
  have hone : f.world.tickets = [o.id] := by rw [h.alone, ho]; rfl
  rw [hone] at htickets
  have heq := htickets.symm.eq_singleton
  exact ⟨(List.cons.inj heq).1, (List.cons.inj heq).2⟩

/-- A step that changes neither the entries nor the ids of submissions. -/
theorem Sound.of_pending {f : Feed α} {w : Concurrent α} (h : f.Sound)
    (hpending : w.pending = f.world.pending) (htickets : w.tickets.Perm f.world.tickets) :
    ({ f with world := w } : Feed α).Sound := by
  constructor
  · show w.tickets = f.submitting.toList.map (·.id)
    rw [h.alone] at htickets
    -- there is at most one of them
    cases hs : f.submitting with
    | none => rw [hs] at htickets; exact htickets.eq_nil
    | some o => rw [hs] at htickets; exact htickets.eq_singleton
  · show Due w.pending f.outstanding
    rw [hpending]
    exact h.due

/-- Every step keeps what is outstanding in order. -/
theorem sound_of_step {f f' : Feed α} (h : f.Sound) (hstep : f.Step f') : f'.Sound := by
  have hdue := h.due
  rw [outstanding] at hdue
  cases hstep with
  | @register t user w halone hw =>
    cases Concurrent.effect_of_step hw with
    | registered hid hpending htickets haccepted =>
      rw [halone, Option.toList_none, List.append_nil] at hdue
      constructor
      · show w.tickets = [t.id]
        rw [htickets, h.alone, halone]
        rfl
      · show Due w.pending (_ ++ [(⟨t.id, user, true⟩ : Owed α).spare f.world.relay.bridge])
        rw [hpending, hid]
        exact hdue.enter _ user
  | @accept t o w ho hw =>
    cases Concurrent.effect_of_step hw with
    | accepted hpending htickets haccepted =>
      obtain ⟨-, hnone⟩ := h.tickets_eq ho htickets
      refine ⟨hnone, ?_⟩
      -- what is outstanding is the same, in the same order
      show Due w.pending ((f.owed ++ [o]) ++ [])
      rw [List.append_nil, hpending]
      rwa [ho] at hdue
  | @withdraw t o w ho hw =>
    cases Concurrent.effect_of_step hw with
    | withdrawn hpending htickets haccepted =>
      obtain ⟨hid, hnone⟩ := h.tickets_eq ho htickets
      refine ⟨hnone, ?_⟩
      show Due w.pending (f.owed ++ [])
      rw [List.append_nil, hpending, hid]
      rw [ho] at hdue
      exact hdue.withdraw
  | @result x o passed rest w hx ho hw =>
    obtain ⟨c, hc, hid⟩ := hx
    rw [ho, List.append_assoc, List.cons_append] at hdue
    cases Concurrent.effect_of_step hw with
    | resolved hc' hid' hpending htickets haccepted =>
      obtain ⟨rfl, rfl⟩ := Store.content?_unique hc hid hc' hid'
      refine ⟨htickets.trans h.alone, ?_⟩
      show Due w.pending (rest ++ f.submitting.toList)
      rw [hpending]
      exact hdue.result
    | ignored hpending htickets haccepted =>
      refine ⟨htickets.trans h.alone, ?_⟩
      show Due w.pending (rest ++ f.submitting.toList)
      rw [hpending]
      exact hdue.lose
  -- a stray item carries no id, so no entry is looked for
  | stray hitem hw =>
    cases Concurrent.effect_of_step hw with
    | resolved hc hid hpending htickets haccepted =>
      rw [hitem _ hc] at hid
      exact nomatch hid
    | ignored hpending htickets haccepted => exact h.of_pending hpending (by rw [htickets])
  | @forget w hw =>
    cases Concurrent.effect_of_step hw with
    | forgotten hpending htickets haccepted =>
      constructor
      · show w.tickets = (f.submitting.map Owed.forget).toList.map (·.id)
        rw [htickets, h.alone]
        cases f.submitting <;> rfl
      · show Due w.pending (f.owed.map Owed.forget ++ (f.submitting.map Owed.forget).toList)
        rw [hpending, Option.toList_map, ← List.map_append]
        exact hdue.forget
  | other hw =>
    cases Concurrent.effect_of_step hw with
    | other hpending htickets haccepted => exact h.of_pending hpending htickets

/-- What is outstanding stays in order, whatever comes after. -/
theorem sound_of_reaches {f f' : Feed α} (h : f.Sound) (hreach : f.Reaches f') : f'.Sound := by
  induction hreach with
  | refl => exact h
  | tail _ hstep ih => exact sound_of_step ih hstep

/-! ## Nothing is out of order -/

/-- Whether the pipeline may deliver an item now: a result that is owed, or something without an
    id. -/
def MayDeliver (f : Feed α) (item : Item) : Prop :=
  item.IsStray f.world.relay.store ∨
  ∃ x o, item = .sample x ∧ o ∈ f.owed ∧ x.Carries f.world.relay.store o.id

/-- What the pipeline may deliver is answered without an error. -/
theorem Sound.deliver_ne_error {f : Feed α} {item : Item} (h : f.Sound) (hitem : f.MayDeliver item)
    (e : Error) : (f.world.relay.deliver item).1 ≠ .done (.error e) := by
  intro herror
  -- the only error there is comes from an id that is out of order
  obtain ⟨x, c, id, oldest, rfl, hc, hid, hm⟩ := Relay.outOfOrder_of_deliver_error herror
  rcases hitem with hstray | ⟨x', o, heq, ho, c', hc', hid'⟩
  · rw [hstray c hc] at hid
    exact nomatch hid
  · cases heq
    obtain ⟨-, hsame⟩ := Store.content?_unique hc hid hc' hid'
    rw [← hsame] at hm
    have hknown := h.due.known o (List.mem_append_left _ ho)
    exact hknown.result_ne_outOfOrder h.due.ascending oldest hm

/-- A readable result whose entry was kept goes to its submitter. -/
theorem Sound.deliver_kept {f : Feed α} {o : Owed α} {x : Sample} {c : Content} (h : f.Sound)
    (ho : o ∈ f.owed) (hk : o.kept = true)
    (hc : f.world.relay.store.content? x.frame = some c) (hid : c.info.id = some o.id)
    (hr : f.world.relay.store.Readable x.frame) :
    ∃ store copy timing, f.world.relay.deliver (.sample x) =
        (⟨store, f.world.relay.ingest, (f.world.relay.bridge.resolve o.id c.bytes.size).2⟩ :
          Relay α).publish ⟨copy, o.user⟩ ∧
      store.content? copy = some ⟨c.bytes, { timing, id := some o.id }⟩ := by
  have hknown := h.due.known o (List.mem_append_left _ ho)
  obtain ⟨e, he, heid, heuser⟩ := (Owed.known_of_kept hk).1 hknown
  have hfound := (Pending.found_iff_mem h.due.ascending).2 ⟨he, heid⟩
  obtain ⟨store, copy, hdeliver, hshown⟩ := Relay.deliver_of_found hc hid hr hfound
  refine ⟨store, copy, e.timing, ?_, ?_⟩
  · rw [hdeliver, heuser]
  · rw [hshown, FrameInfo.withTiming, hid]

/-- Whatever happens between the steps of the submitter and of the pipeline, no delivery returns an
    ordering violation, be it at once or after it had to wait; and a readable result whose entry was
    neither given up nor forgotten is published with the user data of its own submission. -/
theorem feed_delivers_in_order {s : Settings} {ingestMax : Nat} {f : Feed α}
    (h : (Feed.new s ingestMax).Reaches f) :
    (∀ item, f.MayDeliver item → ∀ (r r' : Relay α) (result : Except Error Unit),
      r.finishDelivery? (f.world.relay.deliver item).1 = some (result, r') →
        ∀ id oldest, result ≠ .error (.orderingViolation id oldest)) ∧
    ∀ o ∈ f.owed, o.kept = true → ∀ x c,
      f.world.relay.store.content? x.frame = some c → c.info.id = some o.id →
      f.world.relay.store.Readable x.frame →
        ∃ store copy timing, f.world.relay.deliver (.sample x) =
            (⟨store, f.world.relay.ingest, (f.world.relay.bridge.resolve o.id c.bytes.size).2⟩ :
              Relay α).publish ⟨copy, o.user⟩ ∧
          store.content? copy = some ⟨c.bytes, { timing, id := some o.id }⟩ := by
  have hf := sound_of_reaches (.new s ingestMax) h
  refine ⟨?_, fun o ho hk x c hc hid hr => hf.deliver_kept ho hk hc hid hr⟩
  intro item hitem r r' result hfinish id oldest hresult
  have hne := hf.deliver_ne_error hitem (.orderingViolation id oldest)
  generalize (f.world.relay.deliver item).1 = delivery at hfinish hne
  cases delivery with
  | done result' =>
    cases hfinish
    exact hne (by rw [hresult])
  | waits m =>
    -- a delivery that waited has its match already, and ends without an error
    obtain ⟨r'', -, heq⟩ := Option.map_eq_some_iff.1 hfinish
    rw [hresult] at heq
    exact nomatch heq

/-- What can be reached can be left by another step. -/
theorem Reaches.step {f f' f'' : Feed α} (h : f.Reaches f') (hstep : f'.Step f'') : f.Reaches f'' :=
  h.tail hstep

/-- Two frames are accepted and pulled, and the second one is given back first. -/
theorem feed_delivers_second : ∃ f : Feed Nat, (new {} 64).Reaches f ∧
    (f.owed.map fun o => (o.id, o.user, o.kept)) = [(0, 7, true), (1, 8, true)] ∧
    (∀ id oldest, (f.world.relay.deliver (.sample ⟨1, none⟩)).1 ≠
      .done (.error (.orderingViolation id oldest))) ∧
    ∃ store copy bridge, f.world.relay.deliver (.sample ⟨1, none⟩) =
      (⟨store, f.world.relay.ingest, bridge⟩ : Relay Nat).publish ⟨copy, 8⟩ := by
  obtain ⟨f, o₀, o₁, hreach, howed, h₀, h₁, hk, c, hc, hid, hr⟩ :
      ∃ (f : Feed Nat) (o₀ o₁ : Owed Nat), (new {} 64).Reaches f ∧ f.owed = [o₀, o₁] ∧
        o₀ = ⟨0, 7, true⟩ ∧ o₁ = ⟨1, 8, true⟩ ∧ o₁.kept = true ∧
        ∃ c, f.world.relay.store.content? 1 = some c ∧ c.info.id = some o₁.id ∧
          f.world.relay.store.Readable 1 := by
    have hstart : (new {} 64 : Feed Nat).Reaches (new {} 64) := .refl
    have hopen := hstart.step (.other (.aside (.setFlushing false) trivial rfl))
    have hframes := hopen.step (.other (.aside (.elsewhere Concurrent.twoFrames) trivial rfl))
    have hfirst := hframes.step (.register rfl (.register 0 7 rfl))
    have hmeasured := hfirst.step (.other (.measure (.refl _) rfl))
    have haccepted := hmeasured.step (.accept rfl (.accept (.refl _) rfl))
    have hsecond := haccepted.step (.register rfl (.register 1 8 rfl))
    have hmeasured' := hsecond.step (.other (.measure (.refl _) rfl))
    have haccepted' := hmeasured'.step (.accept rfl (.accept (.refl _) rfl))
    have hpulled := haccepted'.step (.other (.aside .pull trivial rfl))
    have hpulled' := hpulled.step (.other (.aside .pull trivial rfl))
    exact ⟨_, _, _, hpulled', rfl, rfl, rfl, rfl, _, rfl, rfl, 1, rfl, nofun⟩
  have h := feed_delivers_in_order hreach
  have hmem : o₁ ∈ f.owed := by rw [howed]; exact List.mem_cons_of_mem _ (List.mem_singleton_self _)
  have hmay : f.MayDeliver (.sample ⟨1, none⟩) := .inr ⟨_, o₁, rfl, hmem, c, hc, hid⟩
  obtain ⟨store, copy, timing, hdeliver, -⟩ := h.2 o₁ hmem hk ⟨1, none⟩ c hc hid hr
  rw [h₁] at hdeliver
  refine ⟨f, hreach, ?_, fun id oldest herror => ?_, store, copy, _, hdeliver⟩
  · rw [howed, h₀, h₁]
    rfl
  · exact h.1 _ hmay f.world.relay _ _ (by rw [herror]; rfl) id oldest rfl

end Feed

end MediaBridge
