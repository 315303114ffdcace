import MediaBridge.Proofs.Correspondence.Counting
import MediaBridge.Proofs.Correspondence.History
import MediaBridge.Proofs.Correspondence.Interleaving

/-! # Where the frames are

Every frame that was accepted waits, or it met one of four fates: it was published, dropped for want of
room in the output, given up, or passed over.  An id meets its fate in the turn in which its entry
goes, and which fate that is can be read off the turn.

Over a run the ids that wait and the ids that met a fate are the ids from 0 on, each of them once, and
there is one counter for each fate.

* `accounts_of_course`  what one call moves from the entries to the fates, and counts;
* `accounted_of_run`    the same over a run;
* `run_accounts`        the counters and the entries add up to the frames accepted.
-/

namespace MediaBridge

variable {α : Type u}

/-- What became of a frame that was accepted and does not wait any more. -/
inductive Fate where
  | published
  /-- There was no room in the output queue. -/
  | dropped
  /-- Its entry made place for another one. -/
  | evicted
  /-- A younger one came back first, or every entry was forgotten. -/
  | stale
  deriving DecidableEq

/-- The counter of those that met a fate. -/
def Fate.counter : Fate → Counter
  | .published => .delivered
  | .dropped => .outputDrops
  | .evicted => .evictions
  | .stale => .stale

/-- The counters that say where the frames are. -/
def Counter.accounts : List Counter := [submitted, delivered, outputDrops, evictions, stale]

/-- Every fate's counter says where frames are. -/
theorem Fate.counter_mem (f : Fate) : f.counter ∈ Counter.accounts := by cases f <;> decide

namespace Pending

/-- The ids that wait. -/
def ids (p : Pending α) : List Nat := p.entries.map (·.id)

/-- There are as many ids as entries. -/
theorem length_ids (p : Pending α) : p.ids.length = p.length := List.length_map ..

/-- No id waits twice. -/
theorem Ascending.nodup_ids {p : Pending α} (h : p.Ascending) : p.ids.Nodup := by
  rw [ids, List.Nodup, List.pairwise_map]
  exact h.sorted.imp fun hlt => Nat.ne_of_lt hlt

/-- Every id that waits was handed out. -/
theorem Ascending.lt_nextId {p : Pending α} (h : p.Ascending) {id : Nat} (hid : id ∈ p.ids) :
    id < p.nextId := by
  obtain ⟨e, he, rfl⟩ := List.mem_map.1 hid
  exact h.below e he

/-- If no entry was added, no id was. -/
theorem ids_subset {p p' : Pending α} (h : p'.entries ⊆ p.entries) : p'.ids ⊆ p.ids :=
  List.map_subset _ h

end Pending

namespace Turn

/-- A submission was accepted. -/
def accepts (t : Turn α) : Bool :=
  match t.answer with
  | .submitted (.ok true) => true
  | _ => false

/-- The id of the frame that was accepted, if one was. -/
def fresh (t : Turn α) : List Nat := if t.accepts then [t.before.bridge.pending.nextId] else []

/-- The ids that waited before and do not wait any more. -/
def left (t : Turn α) : List Nat :=
  t.before.bridge.pending.ids.filter (· ∉ t.after.bridge.pending.ids)

/-- What became of an id that does not wait any more. -/
def fateOf (t : Turn α) (id : Nat) : Fate :=
  match t.call with
  | .submit .. => .evicted
  | .deliver (.sample x) =>
    -- the sample's own entry, or one that was passed over
    if (t.before.store.content? x.frame).bind (·.info.id) = some id then
      if t.before.bridge.output.items.length < t.after.bridge.output.items.length then .published
      else .dropped
    else .stale
  | _ => .stale

/-- The ids that do not wait any more, with what became of them. -/
def fates (t : Turn α) : List (Nat × Fate) := t.left.map fun id => (id, t.fateOf id)

/-- What one turn moves from the entries to the fates, and what it counts. -/
structure Accounts (t : Turn α) : Prop where
  ids : (t.after.bridge.pending.ids ++ t.left).Perm (t.before.bridge.pending.ids ++ t.fresh)
  nextId : t.after.bridge.pending.nextId = t.before.bridge.pending.nextId + t.accepts.toNat
  pushed : t.after.ingest.totalPushed = t.before.ingest.totalPushed + t.accepts.toNat
  submitted : t.after.bridge.health.value .submitted =
    t.before.bridge.health.value .submitted + UInt64.ofNat t.accepts.toNat
  fate : ∀ f : Fate, t.after.bridge.health.value f.counter =
    t.before.bridge.health.value f.counter + UInt64.ofNat (t.left.countP (t.fateOf · = f))

/-! ## The ids that left -/

variable {t : Turn α}

/-- An id left if it waited before and does not wait any more. -/
theorem mem_left {id : Nat} : id ∈ t.left ↔
    id ∈ t.before.bridge.pending.ids ∧ id ∉ t.after.bridge.pending.ids := by
  simp only [left, List.mem_filter, decide_eq_true_eq]

/-- An id is fresh if it was the next one and its frame was accepted. -/
theorem mem_fresh {id : Nat} :
    id ∈ t.fresh ↔ t.accepts = true ∧ id = t.before.bridge.pending.nextId := by
  unfold fresh
  cases t.accepts <;> simp

/-- A turn has as many fresh ids as it accepts frames. -/
theorem length_fresh : t.fresh.length = t.accepts.toNat := by
  unfold fresh
  cases t.accepts <;> rfl

/-- No id is fresh twice. -/
theorem nodup_fresh : t.fresh.Nodup := by
  unfold fresh
  cases t.accepts
  · exact .nil
  · exact List.pairwise_singleton ..

/-- No id leaves twice. -/
theorem nodup_left (h : t.before.bridge.pending.Ascending) : t.left.Nodup := h.nodup_ids.filter _

/-- If a turn adds no entry but that of the frame accepted, nothing is lost and nothing is there
    twice. -/
theorem perm_left (hbefore : t.before.bridge.pending.Ascending)
    (hafter : t.after.bridge.pending.Ascending)
    (hsub : t.after.bridge.pending.ids ⊆ t.before.bridge.pending.ids ++ t.fresh)
    (hfresh : t.fresh ⊆ t.after.bridge.pending.ids) :
    (t.after.bridge.pending.ids ++ t.left).Perm (t.before.bridge.pending.ids ++ t.fresh) := by
  have hnodup : (t.after.bridge.pending.ids ++ t.left).Nodup := by
    refine List.nodup_append.2 ⟨hafter.nodup_ids, nodup_left hbefore, ?_⟩
    rintro a ha b hb rfl
    exact (mem_left.1 hb).2 ha
  have hnodup' : (t.before.bridge.pending.ids ++ t.fresh).Nodup := by
    refine List.nodup_append.2 ⟨hbefore.nodup_ids, nodup_fresh, ?_⟩
    rintro a ha b hb rfl
    have hlt := hbefore.lt_nextId ha
    have hnew := (mem_fresh.1 hb).2
    omega
  -- neither side has an id twice, so it is enough that they have the same ones
  refine (List.perm_ext_iff_of_nodup hnodup hnodup').2 fun id => ⟨fun h => ?_, fun h => ?_⟩
  · rcases List.mem_append.1 h with hstill | hleft
    · exact hsub hstill
    · exact List.mem_append_left _ (mem_left.1 hleft).1
  · by_cases hstill : id ∈ t.after.bridge.pending.ids
    · exact List.mem_append_left _ hstill
    · rcases List.mem_append.1 h with hold | hnew
      · exact List.mem_append_right _ (mem_left.2 ⟨hold, hstill⟩)
      · exact absurd (hfresh hnew) hstill

/-- What waits and what left are what waited and what was accepted. -/
theorem length_left (h : (t.after.bridge.pending.ids ++ t.left).Perm
    (t.before.bridge.pending.ids ++ t.fresh)) :
    t.after.bridge.pending.length + t.left.length =
      t.before.bridge.pending.length + t.accepts.toNat := by
  have hlen := h.length_eq
  rwa [List.length_append, List.length_append, Pending.length_ids, Pending.length_ids,
    length_fresh] at hlen

/-! ## How many met a fate -/

/-- All ids that left met the same fate. -/
theorem count_of_one_fate {g : Fate} (h : ∀ id ∈ t.left, t.fateOf id = g) (f : Fate) :
    t.left.countP (t.fateOf · = f) = if f = g then t.left.length else 0 := by
  split
  · rename_i hf
    refine List.countP_eq_length.2 fun id hid => ?_
    rw [h id hid, hf]
    exact decide_eq_true rfl
  · rename_i hf
    refine List.countP_eq_zero.2 fun id hid => ?_
    rw [h id hid, decide_eq_true_eq]
    exact fun heq => hf heq.symm

/-- One id met a fate of its own, and the others were passed over. -/
theorem count_of_two_fates {g : Fate} {id : Nat} (hg : g ≠ .stale)
    (hbefore : t.before.bridge.pending.Ascending) (hid : id ∈ t.left)
    (h : ∀ k ∈ t.left, t.fateOf k = if k = id then g else .stale) (f : Fate) :
    t.left.countP (t.fateOf · = f) =
      if f = g then 1 else if f = .stale then t.left.length - 1 else 0 := by
  -- the id itself is counted once, since none leaves twice
  have hone : t.left.countP (· = id) = 1 := by
    have hcount := (nodup_left hbefore).count (a := id)
    rw [if_pos hid, List.count_eq_countP] at hcount
    rw [← hcount]
    exact List.countP_congr fun k _ => by simp only [decide_eq_true_eq, beq_iff_eq]
  have hothers : t.left.countP (fun k => ¬k = id) = t.left.length - 1 := by
    have hlen := List.length_eq_countP_add_countP (fun k => decide (k = id)) (l := t.left)
    simp only [decide_eq_true_eq] at hlen
    omega
  by_cases hfg : f = g
  · rw [if_pos hfg, ← hone]
    refine List.countP_congr fun k hk => ?_
    rw [h k hk, hfg, decide_eq_true_eq, decide_eq_true_eq]
    by_cases hkid : k = id
    · simp only [hkid, if_true]
    · simp only [hkid, if_false, iff_false]
      exact fun heq => hg heq.symm
  · rw [if_neg hfg]
    split
    · rename_i hstale
      rw [← hothers]
      refine List.countP_congr fun k hk => ?_
      rw [h k hk, hstale, decide_eq_true_eq, decide_eq_true_eq]
      by_cases hkid : k = id
      · simp only [hkid, if_true, not_true_eq_false, iff_false]
        exact hg
      · simp only [hkid, if_false, not_false_eq_true]
    · rename_i hstale
      refine List.countP_eq_zero.2 fun k hk => ?_
      rw [h k hk, decide_eq_true_eq]
      split
      · exact fun heq => hfg heq.symm
      · exact fun heq => hstale heq.symm

/-- A turn that touches neither the entries nor what is counted here. -/
theorem Accounts.idle (hpending : t.after.bridge.pending = t.before.bridge.pending)
    (hhealth : ∀ c ∈ Counter.accounts,
      t.after.bridge.health.value c = t.before.bridge.health.value c)
    (hpushed : t.after.ingest.totalPushed = t.before.ingest.totalPushed)
    (haccepts : t.accepts = false) : t.Accounts := by
  have hleft : t.left = [] := by
    refine List.filter_eq_nil_iff.2 fun id hid => ?_
    rw [hpending, decide_eq_true_eq]
    exact fun hnot => hnot hid
  constructor
  · rw [hleft, hpending, fresh, haccepts]
    exact .refl _
  · rw [hpending, haccepts]
    rfl
  · rw [hpushed, haccepts]
    rfl
  · rw [hhealth .submitted (by decide), haccepts]
    exact (UInt64.add_zero _).symm
  · intro f
    rw [hhealth _ f.counter_mem, hleft]
    exact (UInt64.add_zero _).symm

/-- A turn that accepts nothing, and at most takes entries away. -/
theorem Accounts.removal (hbefore : t.before.bridge.pending.Ascending)
    (hafter : t.after.bridge.pending.Ascending) (haccepts : t.accepts = false)
    (hsub : t.after.bridge.pending.entries ⊆ t.before.bridge.pending.entries)
    (hnext : t.after.bridge.pending.nextId = t.before.bridge.pending.nextId)
    (hpushed : t.after.ingest.totalPushed = t.before.ingest.totalPushed)
    (hsubmitted : t.after.bridge.health.value .submitted = t.before.bridge.health.value .submitted)
    (hfate : t.after.bridge.pending.length + t.left.length = t.before.bridge.pending.length →
      ∀ f : Fate, t.after.bridge.health.value f.counter =
        t.before.bridge.health.value f.counter + UInt64.ofNat (t.left.countP (t.fateOf · = f))) :
    t.Accounts := by
  have hfresh : t.fresh = [] := by
    rw [fresh, haccepts]
    rfl
  have hids := perm_left hbefore hafter
    (List.subset_append_of_subset_left _ (Pending.ids_subset hsub))
    (by rw [hfresh]; exact List.nil_subset _)
  have hlen := length_left hids
  rw [haccepts] at hlen
  refine ⟨hids, ?_, ?_, ?_, hfate hlen⟩
  · rw [hnext, haccepts]
    rfl
  · rw [hpushed, haccepts]
    rfl
  · rw [hsubmitted, haccepts]
    exact (UInt64.add_zero _).symm

/-! ## Submissions -/

section Submission

variable {frame : HandleId} {user : α}

/-- What a registration gives up is counted as evicted. -/
theorem fate_of_submit (hcall : t.call = .submit frame user)
    (hlen : t.left.length =
      if t.before.bridge.maxPending ≤ t.before.bridge.pending.length then 1 else 0)
    (timing : Timing) (hsame : ∀ f : Fate, t.after.bridge.health.value f.counter =
      (t.before.bridge.enter timing user).health.value f.counter) (f : Fate) :
    t.after.bridge.health.value f.counter =
      t.before.bridge.health.value f.counter + UInt64.ofNat (t.left.countP (t.fateOf · = f)) := by
  -- a submission takes no entry away but the one that makes place
  have hall : ∀ id ∈ t.left, t.fateOf id = .evicted := fun id _ => by rw [fateOf, hcall]
  rw [hsame, Bridge.value_enter, count_of_one_fate hall, hlen]
  by_cases hroom : t.before.bridge.maxPending ≤ t.before.bridge.pending.length
  · cases f <;> simp [Fate.counter, hroom]
  · cases f <;> simp [hroom]

/-- A submission that is refused at the ingest leaves the entries as they were, but for one it gave
    up. -/
theorem accounts_of_refused (hcall : t.call = .submit frame user)
    (hanswer : t.answer = .submitted (.ok false)) (hbefore : t.before.bridge.pending.Ascending)
    (hafter : t.after.bridge.pending.Ascending) (hpos : 0 < t.before.bridge.maxPending)
    {timing : Timing} (hingest : t.after.ingest = t.before.ingest)
    (hbridge : t.after.bridge =
      (t.before.bridge.enter timing user).withdraw t.before.bridge.pending.nextId) :
    t.Accounts := by
  have hpending := Bridge.pending_withdraw_enter hpos timing user
  rw [← hbridge] at hpending
  refine .removal hbefore hafter (by rw [accepts, hanswer]) ?_ ?_ (by rw [hingest]) ?_
    fun hlen => ?_
  · rw [hbridge]
    exact Bridge.entries_withdraw_enter hbefore timing user
  · rw [hbridge]
    exact Bridge.nextId_withdraw_enter ..
  · rw [hbridge, Bridge.health_withdraw, Health.value_add_of_ne (by decide),
      Bridge.value_enter_of_ne (by decide)]
  · refine fate_of_submit hcall ?_ timing fun f => ?_
    · -- an entry was given up exactly if there was no room
      rw [hpending] at hlen
      split at hlen
      · rename_i hroom
        rw [Pending.length_evict] at hlen
        rw [if_pos hroom]
        omega
      · rename_i hroom
        rw [if_neg hroom]
        omega
    · rw [hbridge, Bridge.health_withdraw]
      exact Health.value_add_of_mem f.counter_mem (by decide) _ _

/-- A submission that is accepted adds its own id, and may give the oldest one up. -/
theorem accounts_of_accepted (hcall : t.call = .submit frame user)
    (hanswer : t.answer = .submitted (.ok true)) (hbefore : t.before.bridge.pending.Ascending)
    (hafter : t.after.bridge.pending.Ascending) (hpos : 0 < t.before.bridge.maxPending)
    {timing : Timing} {o : Offer} {size : Nat} (hingest : t.after.ingest = t.before.ingest.accept o)
    (hbridge : t.after.bridge = (t.before.bridge.enter timing user).confirm size) :
    t.Accounts := by
  have haccepts : t.accepts = true := by rw [accepts, hanswer]
  have hpending : t.after.bridge.pending = (t.before.bridge.enter timing user).pending := by
    rw [hbridge]
    rfl
  -- the frame's own entry is the only new one, and it is still there after the registration
  have hids : (t.after.bridge.pending.ids ++ t.left).Perm
      (t.before.bridge.pending.ids ++ t.fresh) := by
    refine perm_left hbefore hafter (fun id hid => ?_) (fun id hid => ?_)
    · obtain ⟨e, he, rfl⟩ := List.mem_map.1 hid
      rw [hpending] at he
      rcases Bridge.mem_entries_enter he with hold | rfl
      · exact List.mem_append_left _ (List.mem_map.2 ⟨e, hold, rfl⟩)
      · exact List.mem_append_right _ (mem_fresh.2 ⟨haccepts, rfl⟩)
    · rw [(mem_fresh.1 hid).2, hpending]
      exact List.mem_map.2 ⟨_, Bridge.nextEntry_mem_enter hpos timing user, rfl⟩
  have hlen := length_left hids
  rw [hpending, Bridge.length_enter, haccepts, Bool.toNat_true] at hlen
  refine ⟨hids, ?_, ?_, ?_, fate_of_submit hcall ?_ timing fun f => ?_⟩
  · rw [hpending, Bridge.nextId_enter, haccepts]
    rfl
  · rw [hingest, haccepts]
    rfl
  · rw [hbridge, Bridge.health_confirm, Health.value_add_of_ne (by decide), Health.value_add_one,
      Bridge.value_enter_of_ne (by decide), haccepts]
    rfl
  · split at hlen
    · rename_i hroom
      rw [if_pos hroom]
      omega
    · rename_i hroom
      rw [if_neg hroom]
      omega
  · rw [hbridge, Bridge.health_confirm]
    cases f <;> simp only [Fate.counter, Health.value_add, reduceCtorEq, if_false]

end Submission

/-! ## Results -/

/-- The id of a result that found its entry leaves. -/
theorem mem_left_of_found {id : Nat} (hbefore : t.before.bridge.pending.Ascending)
    (hpending : t.after.bridge.pending = (t.before.bridge.pending.resolve id).2)
    {e : PendingEntry α} (hm : (t.before.bridge.pending.resolve id).1.result = .found e) :
    id ∈ t.left := by
  obtain ⟨he, rfl⟩ := (Pending.found_iff_mem hbefore).1 hm
  refine mem_left.2 ⟨List.mem_map.2 ⟨e, he, rfl⟩, fun hstill => ?_⟩
  obtain ⟨e', he', heq⟩ := List.mem_map.1 hstill
  rw [hpending, Pending.entries_resolve hbefore] at he'
  have hlt := (List.mem_filter.1 he').2
  rw [heq, decide_eq_true_eq] at hlt
  exact Nat.lt_irrefl _ hlt

section Sample

variable {x : Sample} {c : Content} {id : Nat} (hcall : t.call = .deliver (.sample x))
  (hc : t.before.store.content? x.frame = some c) (hid : c.info.id = some id)
include hcall hc hid

/-- The id of a result is published if the output has a pair more, and dropped if not. -/
theorem fateOf_self : t.fateOf id =
    if t.before.bridge.output.items.length < t.after.bridge.output.items.length then .published
    else .dropped := by
  simp only [fateOf, hcall, hc, Option.bind_some, hid, if_true]

/-- Any other id that leaves was passed over. -/
theorem fateOf_of_ne {k : Nat} (hne : k ≠ id) : t.fateOf k = .stale := by
  have hne' : ¬some id = some k := fun heq => hne (Option.some.inj heq).symm
  simp only [fateOf, hcall, hc, Option.bind_some, hid, if_neg hne']

/-- A result without an entry passes the older ones over. -/
theorem accounts_of_not_found (haccepts : t.accepts = false)
    (hbefore : t.before.bridge.pending.Ascending) (hafter : t.after.bridge.pending.Ascending)
    (hpending : t.after.bridge.pending = (t.before.bridge.pending.resolve id).2)
    (hm : ∀ e, (t.before.bridge.pending.resolve id).1.result ≠ .found e)
    (hpushed : t.after.ingest.totalPushed = t.before.ingest.totalPushed) (size : Nat)
    (hsame : ∀ c ∈ Counter.accounts,
      t.after.bridge.health.value c =
        (t.before.bridge.resolve id size).2.health.value c) : t.Accounts := by
  have hall : ∀ k ∈ t.left, t.fateOf k = .stale := by
    intro k hk
    refine fateOf_of_ne hcall hc hid fun heq => ?_
    obtain ⟨e, he, heid⟩ := List.mem_map.1 (mem_left.1 hk).1
    exact hm e ((Pending.found_iff_mem hbefore).2 ⟨he, heid.trans heq⟩)
  refine .removal hbefore hafter haccepts ?_ ?_ hpushed ?_ fun hlen f => ?_
  · rw [hpending]
    exact Pending.entries_resolve_subset hbefore id
  · rw [hpending, Pending.nextId_resolve]
  · rw [hsame .submitted (by decide)]
    simp
  · -- those that left are the older ones, which is what the walk counted
    have hstale : t.left.length = (t.before.bridge.pending.resolve id).1.stale := by
      have hsplit := t.before.bridge.pending.length_resolve_add id
      rw [hpending] at hlen
      cases hr : (t.before.bridge.pending.resolve id).1.result with
      | found e => exact absurd hr (hm e)
      | unmatched => simp only [hr] at hsplit; omega
      | outOfOrder oldest => simp only [hr] at hsplit; omega
    rw [hsame _ f.counter_mem, count_of_one_fate hall, hstale]
    cases f <;> simp [Fate.counter]

/-- A result with an entry passes the older ones over, and its own is published or dropped. -/
theorem accounts_of_found {e : PendingEntry α} {g : Fate} (hg : t.fateOf id = g) (hne : g ≠ .stale)
    (haccepts : t.accepts = false) (hbefore : t.before.bridge.pending.Ascending)
    (hafter : t.after.bridge.pending.Ascending)
    (hpending : t.after.bridge.pending = (t.before.bridge.pending.resolve id).2)
    (hm : (t.before.bridge.pending.resolve id).1.result = .found e)
    (hpushed : t.after.ingest.totalPushed = t.before.ingest.totalPushed) (size : Nat)
    (hadded : ∀ c ∈ Counter.accounts,
      t.after.bridge.health.value c =
        ((t.before.bridge.resolve id size).2.health.add g.counter 1).value c) : t.Accounts := by
  have hall : ∀ k ∈ t.left, t.fateOf k = if k = id then g else .stale := by
    intro k hk
    split
    · rename_i hkid
      rw [hkid, hg]
    · rename_i hkid
      exact fateOf_of_ne hcall hc hid hkid
  refine .removal hbefore hafter haccepts ?_ ?_ hpushed ?_ fun hlen f => ?_
  · rw [hpending]
    exact Pending.entries_resolve_subset hbefore id
  · rw [hpending, Pending.nextId_resolve]
  · rw [hadded .submitted (by decide), Health.value_add_of_ne (by cases g <;> decide)]
    simp
  · -- the walk counted all that left but the entry it was looking for
    have hstale : t.left.length - 1 = (t.before.bridge.pending.resolve id).1.stale := by
      have hsplit := t.before.bridge.pending.length_resolve_add id
      rw [hpending] at hlen
      simp only [hm] at hsplit
      omega
    have hmem := mem_left_of_found hbefore hpending hm
    rw [hadded _ f.counter_mem, count_of_two_fates hne hbefore hmem hall, hstale]
    cases g <;> cases f <;> simp [Fate.counter] at hne ⊢

end Sample

/-- Forgetting all entries passes every one of them over. -/
theorem accounts_of_reset (hcall : t.call = .resetPending) (haccepts : t.accepts = false)
    (hbefore : t.before.bridge.pending.Ascending) (hafter : t.after = t.before.resetPending.2) :
    t.Accounts := by
  have hpending : t.after.bridge.pending = t.before.bridge.pending.reset := by rw [hafter]; rfl
  have hhealth : t.after.bridge.health =
      t.before.bridge.health.add .stale t.before.bridge.pending.length := by rw [hafter]; rfl
  have hall : ∀ id ∈ t.left, t.fateOf id = .stale := fun id _ => by rw [fateOf, hcall]
  refine .removal hbefore ?_ haccepts ?_ ?_ (by rw [hafter]; rfl) ?_ fun hlen f => ?_
  · rw [hpending]
    exact .reset _
  · rw [hpending]
    exact List.nil_subset _
  · rw [hpending]
    rfl
  · rw [hhealth, Health.value_add_of_ne (by decide)]
  · have hleft : t.left.length = t.before.bridge.pending.length := by
      have hnone : t.after.bridge.pending.length = 0 := by rw [hpending]; rfl
      omega
    rw [hhealth, count_of_one_fate hall, hleft]
    cases f <;> simp [Fate.counter]

end Turn

namespace Relay

/-- Every call moves ids from the entries to the fates, and counts them there. -/
theorem accounts_of_course {r r' : Relay α} {c : Call α} {a : Answer α}
    (hbefore : r.bridge.pending.Ascending) (hafter : r'.bridge.pending.Ascending)
    (hpos : 0 < r.bridge.maxPending) (h : r.Course c a r') :
    (⟨r, c, a, r'⟩ : Turn α).Accounts := by
  cases h with
  | failed => exact .idle rfl (fun _ _ => rfl) rfl rfl
  | turnedAway =>
    refine .idle rfl (fun c hc => ?_) rfl rfl
    exact Health.value_add_of_mem hc (by decide) _ _
  | refused => exact Turn.accounts_of_refused rfl rfl hbefore hafter hpos rfl rfl
  | accepted => exact Turn.accounts_of_accepted rfl rfl hbefore hafter hpos rfl rfl
  | unreadable =>
    refine .idle rfl (fun c hc => ?_) rfl rfl
    exact Health.value_add_of_mem hc (by decide) _ _
  | uncorrelated =>
    refine .idle (by simp) (fun c hc => ?_) rfl rfl
    simp only [Bridge.health_dropUncorrelated]
    exact Health.value_add_of_mem hc (by decide) _ _
  | @unmatched x c id s hc hid hr hm =>
    refine Turn.accounts_of_not_found rfl hc hid rfl hbefore hafter rfl (fun e hf => ?_) rfl
      c.bytes.size fun c hc => ?_
    · exact nomatch hm.symm.trans hf
    · exact Health.value_add_of_mem hc (by decide) _ _
  | outOfOrder hc hid hr hm =>
    refine Turn.accounts_of_not_found rfl hc hid rfl hbefore hafter rfl (fun e hf => ?_) rfl _
      fun c _ => rfl
    exact nomatch hm.symm.trans hf
  | placed hc hid hr hm =>
    refine Turn.accounts_of_found (g := .published) rfl hc hid ?_ nofun rfl hbefore hafter rfl hm
      rfl _ fun c _ => rfl
    -- the output has one pair more
    rw [Turn.fateOf_self rfl hc hid, if_pos]
    show r.bridge.output.items.length < (r.bridge.output.items ++ [_]).length
    rw [List.length_append]
    exact Nat.lt_succ_self _
  | @dropped x c id e s hc hid hr hm =>
    refine Turn.accounts_of_found (g := .dropped) rfl hc hid ?_ nofun rfl hbefore hafter
      (Bridge.pending_dropOutput _) hm rfl c.bytes.size fun c _ => ?_
    · rw [Turn.fateOf_self rfl hc hid, if_neg]
      rw [Bridge.output_dropOutput]
      exact Nat.lt_irrefl _
    · rw [Bridge.health_dropOutput]
      rfl
  | endOfStream => exact .idle rfl (fun _ _ => rfl) rfl rfl
  | reset => exact Turn.accounts_of_reset rfl rfl hbefore rfl
  | aside haside hsubmitted _ hsame =>
    refine .idle hsame.pending (fun c _ => by rw [hsame.health]) hsame.totalPushed ?_
    cases a with
    | submitted result => exact absurd rfl (hsubmitted result)
    | _ => rfl

end Relay

/-! ## Runs -/

/-- What the turns so far and the relay they led to have to do with each other. -/
structure Accounted (turns : List (Turn α)) (r : Relay α) : Prop where
  ids : (r.bridge.pending.ids ++ (turns.flatMap Turn.fates).map (·.1)).Perm
    (List.range r.bridge.pending.nextId)
  pushed : r.ingest.totalPushed = r.bridge.pending.nextId
  submitted : r.bridge.health.value .submitted = UInt64.ofNat r.bridge.pending.nextId
  fate : ∀ f : Fate, r.bridge.health.value f.counter =
    UInt64.ofNat ((turns.flatMap Turn.fates).countP (·.2 = f))

namespace Accounted

/-- Nothing waits at the start, and nothing met a fate. -/
theorem start (s : Settings) (ingestMax : Nat) : Accounted [] (.new s ingestMax : Relay α) where
  ids := .refl _
  pushed := rfl
  submitted := rfl
  fate f := by cases f <;> rfl

/-- One more turn adds its fresh ids and moves those that left. -/
theorem snoc {turns : List (Turn α)} {t : Turn α} (h : Accounted turns t.before)
    (ht : t.Accounts) : Accounted (turns ++ [t]) t.after := by
  have hfates : (turns ++ [t]).flatMap Turn.fates = turns.flatMap Turn.fates ++ t.fates := by
    rw [List.flatMap_append, List.flatMap_singleton]
  constructor
  · have hleft : t.fates.map (·.1) = t.left := by
      rw [Turn.fates, List.map_map]
      exact List.map_id _
    have hrange : List.range t.after.bridge.pending.nextId =
        List.range t.before.bridge.pending.nextId ++ t.fresh := by
      rw [ht.nextId, Turn.fresh]
      cases t.accepts
      · exact (List.append_nil _).symm
      · exact List.range_succ
    rw [hfates, List.map_append, hleft, hrange]
    -- the ids that left go from the entries to the fates
    calc List.Perm
          (t.after.bridge.pending.ids ++ ((turns.flatMap Turn.fates).map (·.1) ++ t.left))
          (t.after.bridge.pending.ids ++ (t.left ++ (turns.flatMap Turn.fates).map (·.1))) :=
        List.perm_append_comm.append_left _
      List.Perm _ (t.before.bridge.pending.ids ++ t.fresh ++
          (turns.flatMap Turn.fates).map (·.1)) := by
        rw [← List.append_assoc]
        exact ht.ids.append_right _
      List.Perm _ (t.before.bridge.pending.ids ++ (turns.flatMap Turn.fates).map (·.1) ++
          t.fresh) := by
        rw [List.append_assoc, List.append_assoc]
        exact List.perm_append_comm.append_left _
      List.Perm _ (List.range t.before.bridge.pending.nextId ++ t.fresh) := h.ids.append_right _
  · rw [ht.pushed, ht.nextId, h.pushed]
  · rw [ht.submitted, ht.nextId, h.submitted, UInt64.ofNat_add]
  · intro f
    rw [hfates, List.countP_append, UInt64.ofNat_add, ht.fate f, h.fate f, Turn.fates,
      List.countP_map]
    rfl

end Accounted

/-- Fates, entries and counters agree after every run. -/
theorem accounted_of_run {s : Settings} {ingestMax : Nat} {turns : List (Turn α)} {r : Relay α}
    (hs : s.validate = .ok ()) (run : Run (.new s ingestMax) turns r) : Accounted turns r := by
  induction run with
  | start => exact .start s ingestMax
  | @turn turns r r' c a run h ih =>
    have hbefore := (tracked_of_run run).ascending
    have hafter := (tracked_of_run (run.turn h)).ascending
    have hpos := Concurrent.maxPending_pos_of_run hs run
    have hcourse := Relay.course_of_call? h
    exact ih.snoc (t := ⟨r, c, a, r'⟩) (Relay.accounts_of_course hbefore hafter hpos hcourse)

/-- Ids are handed out without gaps: those below the next one are the ones that were admitted. -/
theorem lt_nextId_iff {s : Settings} {ingestMax : Nat} {turns : List (Turn α)} {r : Relay α}
    (run : Run (.new s ingestMax) turns r) (id : Nat) :
    id < r.bridge.pending.nextId ↔ ∃ t ∈ turns, t.AdmitsAs id := by
  constructor
  · intro hlt
    induction run with
    | start => exact absurd hlt (Nat.not_lt_zero id)
    | @turn turns r r' c a run h ih =>
      have hold : id < r.bridge.pending.nextId →
          ∃ t ∈ turns ++ [⟨r, c, a, r'⟩], t.AdmitsAs id := by
        intro hlt'
        obtain ⟨t, ht, hadmits⟩ := ih hlt'
        exact ⟨t, List.mem_append_left _ ht, hadmits⟩
      -- only an admission raises the next id, by one
      cases Turn.effect_of_call? h with
      | @admitted timing user ha hp hpending =>
        simp only at hpending
        rw [hpending, Bridge.nextId_enter] at hlt
        by_cases hlt' : id < r.bridge.pending.nextId
        · exact hold hlt'
        · have hid : id = r.bridge.pending.nextId := by omega
          rw [hid]
          exact ⟨_, List.mem_append_right _ (List.mem_singleton_self _), timing, user, ha⟩
      | placed ha hc hp hm huser hshown hpending =>
        simp only at hpending
        rw [hpending, Pending.nextId_resolve] at hlt
        exact hold hlt
      | quiet ha hp hnext =>
        simp only at hnext
        rw [hnext] at hlt
        exact hold hlt
  · rintro ⟨t, ht, hadmits⟩
    exact (tracked_of_run run).admitted_lt t ht id hadmits

/-- There are four fates. -/
theorem length_eq_count_fates (l : List (Nat × Fate)) :
    l.length = l.countP (·.2 = .published) + l.countP (·.2 = .dropped) +
      l.countP (·.2 = .evicted) + l.countP (·.2 = .stale) := by
  induction l with
  | nil => rfl
  | cons a rest ih =>
    obtain ⟨id, f⟩ := a
    cases f <;> simp <;> omega

/-- As long as fewer than 2^64 frames were accepted, their ids are those from 0 up to the next one, as
    many as were counted as submitted and as were pushed.  Each of them waits or met one fate, never
    both and never twice, and each fate has a counter of its own.  So the frames accepted are those
    that wait, those published, those dropped, those given up, and those passed over. -/
theorem run_accounts {s : Settings} {ingestMax : Nat} {turns : List (Turn α)} {r : Relay α}
    (hs : s.validate = .ok ()) (run : Run (.new s ingestMax) turns r)
    (hfits : r.bridge.pending.nextId < UInt64.size) :
    (∀ id, id < r.bridge.pending.nextId ↔ ∃ t ∈ turns, t.AdmitsAs id) ∧
    (r.bridge.health.value .submitted).toNat = r.bridge.pending.nextId ∧
    r.ingest.totalPushed = r.bridge.pending.nextId ∧
    (r.bridge.pending.ids ++ (turns.flatMap Turn.fates).map (·.1)).Perm
      (List.range r.bridge.pending.nextId) ∧
    (∀ f : Fate, (r.bridge.health.value f.counter).toNat =
      (turns.flatMap Turn.fates).countP (·.2 = f)) ∧
    (r.bridge.health.value .submitted).toNat = r.bridge.pending.length +
      (r.bridge.health.value .delivered).toNat + (r.bridge.health.value .outputDrops).toNat +
      (r.bridge.health.value .evictions).toNat + (r.bridge.health.value .stale).toNat := by
  have h := accounted_of_run hs run
  have hsubmitted : (r.bridge.health.value .submitted).toNat = r.bridge.pending.nextId := by
    rw [h.submitted, UInt64.toNat_ofNat_of_lt' hfits]
  have hlen := h.ids.length_eq
  rw [List.length_append, List.length_map, List.length_range, Pending.length_ids] at hlen
  -- no fate is met by more ids than there are
  have hfate : ∀ f : Fate, (r.bridge.health.value f.counter).toNat =
      (turns.flatMap Turn.fates).countP (·.2 = f) := by
    intro f
    have hle : (turns.flatMap Turn.fates).countP (·.2 = f) ≤ (turns.flatMap Turn.fates).length :=
      List.countP_le_length
    rw [h.fate f, UInt64.toNat_ofNat_of_lt' (by omega)]
  refine ⟨lt_nextId_iff run, hsubmitted, h.pushed, h.ids, hfate, ?_⟩
  have hsum := length_eq_count_fates (turns.flatMap Turn.fates)
  rw [← hfate .published, ← hfate .dropped, ← hfate .evicted, ← hfate .stale] at hsum
  simp only [Fate.counter] at hsum
  omega

/-- With room for two entries and for one pair, the first of three frames makes place for the third.
    That comes back and passes the second one over.  A fourth one finds no room when it comes back,
    and a fifth one is under way. -/
def fiveFrames : List (Call Nat) :=
  [.setFlushing false, .elsewhere (framesWith [none, none, none]),
    .submit 0 7, .submit 1 8, .submit 2 9,
    .elsewhere (framesWith [some 2, none, some 3, none]), .deliver (.sample ⟨0, none⟩),
    .submit 1 10, .deliver (.sample ⟨2, none⟩), .submit 3 11]

/-- Each of the five is somewhere else. -/
theorem run_accounts_five : ∃ (turns : List (Turn Nat)) (r : Relay Nat),
    Run (.new { oneEntry with maxPending := 2 } 64) turns r ∧
      turns.flatMap Turn.fates = [(0, .evicted), (1, .stale), (2, .published), (3, .dropped)] ∧
      r.bridge.pending.ids = [4] ∧ r.bridge.pending.nextId = 5 ∧
      (∀ f : Fate, (r.bridge.health.value f.counter).toNat =
        (turns.flatMap Turn.fates).countP (·.2 = f)) ∧
      (r.bridge.health.value .submitted).toNat = r.bridge.pending.length +
        (r.bridge.health.value .delivered).toNat + (r.bridge.health.value .outputDrops).toNat +
        (r.bridge.health.value .evictions).toNat + (r.bridge.health.value .stale).toNat := by
  obtain ⟨turns, r, hturns, hfates, hids, hnext⟩ : ∃ turns r,
      (Relay.new { oneEntry with maxPending := 2 } 64 : Relay Nat).turns? fiveFrames =
          some (turns, r) ∧
        turns.flatMap Turn.fates = [(0, .evicted), (1, .stale), (2, .published), (3, .dropped)] ∧
          r.bridge.pending.ids = [4] ∧ r.bridge.pending.nextId = 5 :=
    ⟨_, _, rfl, rfl, rfl, rfl⟩
  have hrun := run_of_turns? hturns
  have hfits : r.bridge.pending.nextId < UInt64.size := by
    rw [hnext]
    decide
  have h := run_accounts (s := { oneEntry with maxPending := 2 }) rfl hrun hfits
  exact ⟨turns, r, hrun, hfates, hids, hnext, h.2.2.2.2⟩

end MediaBridge
