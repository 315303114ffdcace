import MediaBridge.Proofs.Correspondence.Counting
import MediaBridge.Proofs.Correspondence.Interleaving

/-! # What the id of a result decides

A result walks over the front of the queue of entries and stops at one of three places.  Whatever the
ids of the entries and the watermark are, what it leaves is told by comparing ids: the entries with
greater ids stay, those with smaller ids are counted as passed over.  So are the three outcomes, since
the entry at which the walk stops is the oldest one that stays.

* `oldest?_eq_some_iff`    the oldest entry is the one with the smallest id;
* `resolve_eq_filter`, `outOfOrder_of_lt`, `unmatched_of_le`  the walk, told by ids;
* `judges_deliver`         the delivery of a readable sample with an id, where entries ascend;
* `judges_of_reaches`      the same in every state that can be reached.
-/

namespace MediaBridge

variable {α : Type u}

namespace Pending

/-- The smallest id among the entries. -/
def oldest? (p : Pending α) : Option Nat := (p.entries.map (·.id)).min?

/-- The oldest id is one that waits, and none that waits is smaller. -/
theorem oldest?_eq_some_iff {p : Pending α} {oldest : Nat} :
    p.oldest? = some oldest ↔
      (∃ e ∈ p.entries, e.id = oldest) ∧ ∀ e ∈ p.entries, oldest ≤ e.id := by
  simp only [oldest?, List.min?_eq_some_iff, List.mem_map, forall_exists_index, and_imp,
    forall_apply_eq_imp_iff₂]

/-- Where entries ascend, the first one has the smallest id. -/
theorem oldest?_of_entries {p : Pending α} {e : PendingEntry α} {rest : List (PendingEntry α)}
    (h : p.Ascending) (hentries : p.entries = e :: rest) : p.oldest? = some e.id := by
  have hsorted := h.sorted
  rw [hentries, List.pairwise_cons] at hsorted
  rw [oldest?_eq_some_iff, hentries]
  refine ⟨⟨e, List.mem_cons_self .., rfl⟩, fun f hf => ?_⟩
  rcases List.mem_cons.1 hf with rfl | hrest
  · exact Nat.le_refl _
  · exact Nat.le_of_lt (hsorted.1 f hrest)

/-- Where entries ascend, a result leaves those with greater ids, and nothing else changes. -/
theorem resolve_eq_filter {p : Pending α} (h : p.Ascending) (id : Nat) :
    (p.resolve id).2 = { p with entries := p.entries.filter fun e => id < e.id } := by
  have hentries := entries_resolve h id
  have hnext := p.nextId_resolve id
  have hwatermark := p.watermark_resolve id
  generalize (p.resolve id).2 = q at hentries hnext hwatermark
  cases q
  simp only at hentries hnext hwatermark
  rw [hentries, hnext, hwatermark]

/-- A result whose entry does not wait is out of order if a younger entry waits and the watermark does
    not cover it. -/
theorem outOfOrder_of_lt {p : Pending α} {id : Nat} (h : p.Ascending)
    (hne : ∀ e ∈ p.entries, e.id ≠ id) (hlt : ∃ e ∈ p.entries, id < e.id) (hw : p.watermark ≤ id) :
    ∃ oldest, (p.resolve id).2.oldest? = some oldest ∧
      (p.resolve id).1.result = .outOfOrder oldest := by
  obtain ⟨e, he, hid⟩ := hlt
  -- the younger entry stays, so the walk does not come to the end
  cases hleft : (p.resolve id).2.entries with
  | nil =>
    have hmem : e ∈ (p.resolve id).2.entries := by
      rw [entries_resolve h]
      exact List.mem_filter.2 ⟨he, by simpa using hid⟩
    rw [hleft] at hmem
    exact absurd hmem List.not_mem_nil
  | cons f rest =>
    refine ⟨f.id, oldest?_of_entries (h.resolve id) hleft, ?_⟩
    rw [result_of_not_mem hne, hleft]
    exact if_neg (Nat.not_lt.2 hw)

/-- Any other result whose entry does not wait is unmatched. -/
theorem unmatched_of_le {p : Pending α} {id : Nat} (h : p.Ascending)
    (hne : ∀ e ∈ p.entries, e.id ≠ id)
    (hle : (∀ e ∈ p.entries, e.id ≤ id) ∨ id < p.watermark) :
    (p.resolve id).1.result = .unmatched := by
  rw [result_of_not_mem hne]
  cases hleft : (p.resolve id).2.entries with
  | nil => rfl
  | cons f rest =>
    -- an entry that stays is younger, so the watermark must cover the id
    have hmem : f ∈ (p.resolve id).2.entries := by rw [hleft]; exact List.mem_cons_self ..
    rw [entries_resolve h, List.mem_filter, decide_eq_true_eq] at hmem
    rcases hle with hle | hlt
    · have hfid := hle f hmem.1
      omega
    · exact if_pos hlt

end Pending

namespace Relay

/-- A publication raises two counters at most. -/
theorem value_publish {c : Counter} (hdelivered : c ≠ .delivered) (hdrops : c ≠ .outputDrops)
    (r : Relay α) (m : Matched α) :
    (r.publish m).2.bridge.health.value c = r.bridge.health.value c := by
  have hp := r.publishes_publish m
  generalize r.publish m = publication at hp
  cases hp with
  | placed => exact Health.value_add_of_ne hdelivered ..
  | dropped =>
    rw [Bridge.health_dropOutput]
    exact Health.value_add_of_ne hdrops ..
  | waits => rfl

/-- What the delivery of a result comes to, told by its id.  `d` and `r'` are what the delivery gives,
    and `c` is the content of the result. -/
structure Judges (r : Relay α) (c : Content) (id : Nat) (d : Delivery α) (r' : Relay α) : Prop where
  /-- The younger entries stay, as they stood, and nothing else does. -/
  stay : r'.bridge.pending =
    { r.bridge.pending with entries := r.bridge.pending.entries.filter fun e => id < e.id }
  /-- The older entries are counted. -/
  stale : r'.bridge.health.value .stale = r.bridge.health.value .stale +
    UInt64.ofNat (r.bridge.pending.entries.countP fun e => e.id < id)
  /-- If there is an entry with the id, the content is published for its submitter, with its timing. -/
  matched : ∀ e ∈ r.bridge.pending.entries, e.id = id → ∃ s copy,
    s.content? copy = some { c with info := c.info.withTiming e.timing } ∧
    (d, r') = { r with
      store := s
      bridge := (r.bridge.resolve id c.bytes.size).2 }.publish ⟨copy, e.user⟩
  /-- Without one the result is out of order if a younger entry waits, unless the watermark covers
      it. -/
  violation : (∀ e ∈ r.bridge.pending.entries, e.id ≠ id) →
    (∃ e ∈ r.bridge.pending.entries, id < e.id) → r.bridge.pending.watermark ≤ id →
    ∃ oldest, r'.bridge.pending.oldest? = some oldest ∧
      d = .done (.error (.orderingViolation id oldest)) ∧ r'.bridge.output = r.bridge.output
  /-- Otherwise it is counted, and nothing is published. -/
  unmatched : (∀ e ∈ r.bridge.pending.entries, e.id ≠ id) →
    ((∀ e ∈ r.bridge.pending.entries, e.id ≤ id) ∨ id < r.bridge.pending.watermark) →
    d = .done (.ok ()) ∧ r'.bridge.output = r.bridge.output ∧
      r'.bridge.health.value .unmatched = r.bridge.health.value .unmatched + 1 ∧
      r'.bridge.health.value .delivered = r.bridge.health.value .delivered

/-- Where entries ascend, ids alone tell what a delivery comes to. -/
theorem judges_deliver {r : Relay α} (h : r.bridge.pending.Ascending) {x : Sample} {c : Content}
    {id : Nat} (hc : r.store.content? x.frame = some c) (hid : c.info.id = some id)
    (hr : r.store.Readable x.frame) :
    r.Judges c id (r.deliver (.sample x)).1 (r.deliver (.sample x)).2 := by
  have hstay := Pending.resolve_eq_filter h id
  have hstale : (r.bridge.resolve id c.bytes.size).2.health.value .stale =
      r.bridge.health.value .stale +
        UInt64.ofNat (r.bridge.pending.entries.countP fun e => e.id < id) := by
    rw [Bridge.health_resolve, Health.value_add, if_pos rfl,
      Health.value_add_of_ne Counter.noConfusion, Pending.stale_resolve h id]
  have hd := r.delivers_deliver x
  generalize hdelivery : r.deliver (.sample x) = delivery at hd
  -- each course of the delivery rules out all but one of the three outcomes
  cases hd with
  | unreadable hnr => exact absurd hr hnr
  | uncorrelated hc' hid' =>
    rw [hc] at hc'
    cases hc'
    rw [hid] at hid'
    cases hid'
  | unmatched hc' hid' _ hm =>
    obtain ⟨rfl, rfl⟩ := Store.content?_unique hc hid hc' hid'
    exact {
      stay := hstay
      stale := by
        rw [Bridge.health_dropUnmatched, Health.value_add_of_ne Counter.noConfusion]
        exact hstale
      matched := by
        intro e he heid
        rw [(Pending.found_iff_mem h).2 ⟨he, heid⟩] at hm
        cases hm
      violation := by
        intro hne hlt hw
        obtain ⟨oldest, -, hout⟩ := Pending.outOfOrder_of_lt h hne hlt hw
        rw [hout] at hm
        cases hm
      unmatched := by
        intro hne hle
        refine ⟨rfl, rfl, ?_, ?_⟩
        · rw [Bridge.health_dropUnmatched, Health.value_add_one, if_pos rfl, Bridge.health_resolve,
            Health.value_add_of_ne Counter.noConfusion, Health.value_add_of_ne Counter.noConfusion]
        · rw [Bridge.health_dropUnmatched, Health.value_add_of_ne Counter.noConfusion,
            Bridge.health_resolve, Health.value_add_of_ne Counter.noConfusion,
            Health.value_add_of_ne Counter.noConfusion] }
  | @outOfOrder s c' id' oldest hc' hid' _ hm =>
    obtain ⟨rfl, rfl⟩ := Store.content?_unique hc hid hc' hid'
    exact {
      stay := hstay
      stale := hstale
      matched := by
        intro e he heid
        rw [(Pending.found_iff_mem h).2 ⟨he, heid⟩] at hm
        cases hm
      violation := by
        intro hne hlt hw
        obtain ⟨first, hfirst, hout⟩ := Pending.outOfOrder_of_lt h hne hlt hw
        rw [hout] at hm
        cases hm
        exact ⟨oldest, hfirst, rfl, rfl⟩
      unmatched := by
        intro hne hle
        rw [Pending.unmatched_of_le h hne hle] at hm
        cases hm }
  | @matched s c' id' e copy b d hc' hid' _ hm hf hd =>
    obtain ⟨rfl, rfl⟩ := Store.content?_unique hc hid hc' hid'
    obtain ⟨hmem, heid⟩ := (Pending.found_iff_mem h).1 hm
    subst hd
    exact {
      stay := (pending_publish ..).trans hstay
      stale := (value_publish Counter.noConfusion Counter.noConfusion ..).trans hstale
      matched := by
        intro f hf' hfid
        -- an id has one entry at most
        have hfound := (Pending.found_iff_mem h).2 ⟨hf', hfid⟩
        rw [hm] at hfound
        cases hfound
        exact ⟨s, copy, hf.content?, rfl⟩
      violation := fun hne => absurd heid (hne e hmem)
      unmatched := fun hne => absurd heid (hne e hmem) }

end Relay

namespace Concurrent

/-- In every state that can be reached, whatever goes on at the same time, the delivery of a readable
    sample with an id leaves exactly the younger entries, counts the older ones, and is a match, a
    violation of the order or unmatched as the ids alone tell. -/
theorem judges_of_reaches {s : Settings} {ingestMax : Nat} {w : Concurrent α}
    (h : (Concurrent.new s ingestMax).Reaches w) {x : Sample} {c : Content} {id : Nat}
    (hc : w.relay.store.content? x.frame = some c) (hid : c.info.id = some id)
    (hr : w.relay.store.Readable x.frame) :
    w.relay.Judges c id (w.relay.deliver (.sample x)).1 (w.relay.deliver (.sample x)).2 :=
  Relay.judges_deliver (separate_of_reaches (.new s ingestMax) h).ascending hc hid hr

/-- Two frames are accepted, with room for the entries of both, and the pipeline pulls them. -/
def bothPulled : List (Call Nat) :=
  [.setFlushing false, .elsewhere twoFrames, .submit 0 7, .submit 1 8, .pull, .pull]

/-- The pipeline gives the second frame back first: the first one's entry is passed over. -/
theorem judges_second : ∃ (w : Concurrent Nat) (c : Content),
    (Concurrent.new {} 64).Reaches w ∧ w.pending.entries.map (·.id) = [0, 1] ∧
      w.relay.store.content? 1 = some c ∧ c.info.id = some 1 ∧ w.relay.store.Readable 1 ∧
      w.relay.Judges c 1 (w.relay.deliver (.sample ⟨1, none⟩)).1
        (w.relay.deliver (.sample ⟨1, none⟩)).2 := by
  obtain ⟨turns, r, c, hturns, hids, hc, hid, hlive, hlock⟩ : ∃ turns r c,
      (Relay.new {} 64 : Relay Nat).turns? bothPulled = some (turns, r) ∧
        r.bridge.pending.entries.map (·.id) = [0, 1] ∧ r.store.content? 1 = some c ∧
        c.info.id = some 1 ∧ r.store.live? 1 = some 1 ∧ r.store.lock 1 ≠ .writer :=
    ⟨_, _, _, rfl, rfl, rfl, rfl, rfl, by decide⟩
  obtain ⟨accepted, hreach⟩ := reaches_of_run (run_of_turns? hturns)
  have hr : r.store.Readable 1 := ⟨1, hlive, hlock⟩
  exact ⟨{ relay := r, accepted }, c, hreach, hids, hc, hid, hr,
    judges_of_reaches (x := ⟨1, none⟩) hreach hc hid hr⟩

end Concurrent

end MediaBridge
