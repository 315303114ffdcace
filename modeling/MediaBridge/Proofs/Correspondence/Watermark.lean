import MediaBridge.Proofs.Correspondence.Counting
import MediaBridge.Proofs.Correspondence.Interleaving

/-! # The watermark

Giving an entry up and forgetting all of them both set the watermark, and a withdrawal lowers the next
id.  Still, in a run of completed calls, the watermark never goes down, is never above the next id,
and is never above the id of an entry that waits.  So a result below the watermark passes every entry
by: it is dropped as unmatched, and nothing else happens, however often that is repeated.

* `Guarded.register`, `Guarded.evict`, …  every operation keeps the three bounds;
* `guarded_of_course`                      so does every call, which never lowers the watermark;
* `deliver_of_passes`                      what a result below them comes to;
* `run_ignores_late`                       the same for a result of an entry that is gone.
-/

namespace MediaBridge

variable {α : Type u}

namespace Pending

/-- Entries ascend, none of them is below the watermark, and that is not above the next id. -/
structure Guarded (p : Pending α) : Prop where
  ascending : p.Ascending
  le_nextId : p.watermark ≤ p.nextId
  le_id : ∀ e ∈ p.entries, p.watermark ≤ e.id

namespace Guarded

variable {p : Pending α}

/-- No entry waits at the start. -/
theorem empty : ({} : Pending α).Guarded := ⟨.empty, Nat.le_refl _, nofun⟩

/-- A new entry has the next id, which the watermark does not exceed. -/
theorem register (h : p.Guarded) (timing : Timing) (user : α) :
    (p.register timing user).Guarded := by
  refine ⟨h.ascending.register timing user, Nat.le_succ_of_le h.le_nextId, fun e he => ?_⟩
  rcases List.mem_append.1 he with hold | hnew
  · exact h.le_id e hold
  · rw [List.mem_singleton.1 hnew]
    exact h.le_nextId

/-- The entry given up was the oldest one, so the others are above the new watermark. -/
theorem evict (h : p.Guarded) : p.evict.Guarded := by
  cases hentries : p.entries with
  | nil =>
    rw [evict_of_nil hentries]
    exact h
  | cons e rest =>
    have hsorted := h.ascending.sorted
    rw [hentries, List.pairwise_cons] at hsorted
    have hbelow := h.ascending.below e (by rw [hentries]; exact List.mem_cons_self ..)
    refine ⟨h.ascending.evict, ?_, ?_⟩
    · rw [evict_of_entries hentries]
      exact hbelow
    · rw [evict_of_entries hentries]
      exact hsorted.1

/-- When all entries are forgotten, the watermark comes up to the next id. -/
theorem reset (p : Pending α) : p.reset.Guarded := ⟨.reset p, Nat.le_refl p.nextId, nofun⟩

/-- A result takes entries away and leaves the watermark. -/
theorem resolve (h : p.Guarded) (id : Nat) : (p.resolve id).2.Guarded := by
  refine ⟨h.ascending.resolve id, ?_, fun e he => ?_⟩
  · rw [watermark_resolve, nextId_resolve]
    exact h.le_nextId
  · rw [entries_resolve h.ascending] at he
    rw [watermark_resolve]
    exact h.le_id e (List.mem_filter.1 he).1

/-! ## What giving up an entry does to the watermark -/

/-- The entry given up was not below the watermark, so that does not go down. -/
theorem watermark_le_evict (h : p.Guarded) : p.watermark ≤ p.evict.watermark := by
  cases hentries : p.entries with
  | nil => exact Nat.le_of_eq (by rw [evict_of_nil hentries])
  | cons e rest =>
    have hle := h.le_id e (by rw [hentries]; exact List.mem_cons_self ..)
    rw [evict_of_entries hentries]
    exact Nat.le_succ_of_le hle

end Guarded

/-- The new watermark is above the entry that was given up. -/
theorem lt_watermark_evict {p : Pending α} {e : PendingEntry α} (he : e ∈ p.entries)
    (hgone : ∀ f ∈ p.evict.entries, f.id ≠ e.id) : e.id < p.evict.watermark := by
  cases hentries : p.entries with
  | nil =>
    rw [hentries] at he
    exact absurd he List.not_mem_nil
  | cons f rest =>
    rw [evict_of_entries hentries] at hgone ⊢
    rw [hentries] at he
    rcases List.mem_cons.1 he with rfl | hrest
    · exact Nat.lt_succ_self _
    · exact absurd rfl (hgone e hrest)

/-- A result with the id passes every entry by: the watermark covers it, and the entries are younger. -/
def Passes (p : Pending α) (id : Nat) : Prop := id < p.watermark ∧ ∀ e ∈ p.entries, id < e.id

/-- A result below the watermark passes every entry by, since none is that old. -/
theorem Guarded.passes {p : Pending α} (h : p.Guarded) {id : Nat} (hlt : id < p.watermark) :
    p.Passes id := ⟨hlt, fun e he => Nat.lt_of_lt_of_le hlt (h.le_id e he)⟩

/-- A result that passes every entry by leaves everything as it is. -/
theorem resolve_of_passes {p : Pending α} {id : Nat} (h : p.Passes id) :
    p.resolve id = (⟨.unmatched, 0⟩, p) := by
  obtain ⟨hlt, hyounger⟩ := h
  cases hentries : p.entries with
  | nil =>
    have hsame : ({ p with entries := [] } : Pending α) = p := by rw [← hentries]
    rw [Pending.resolve, hentries]
    exact congrArg _ hsame
  | cons e rest =>
    -- the walk stops at the first entry, which is younger
    have hless := hyounger e (by rw [hentries]; exact List.mem_cons_self ..)
    have hnot : decide (e.id < id) = false := by simp only [decide_eq_false_iff_not]; omega
    have hsame : ({ p with entries := e :: rest } : Pending α) = p := by rw [← hentries]
    have hne : e.id ≠ id := by omega
    rw [Pending.resolve, hentries, List.takeWhile_cons, List.dropWhile_cons, hnot]
    simp only [Bool.false_eq_true, if_false, if_neg hne, if_pos hlt, List.length_nil, hsame]

end Pending

namespace Bridge

/-- A registration keeps the bounds and does not lower the watermark, whether or not an entry gives
    way. -/
theorem guarded_enter {b : Bridge α} (h : b.pending.Guarded) (timing : Timing) (user : α) :
    (b.enter timing user).pending.Guarded ∧
      b.pending.watermark ≤ (b.enter timing user).pending.watermark := by
  have hregister := h.register timing user
  rw [pending_enter]
  split
  · exact ⟨hregister.evict, hregister.watermark_le_evict⟩
  · exact ⟨hregister, Nat.le_refl _⟩

/-- The id that goes back to a refused submission is not below the watermark, unless no entry at all
    may wait. -/
theorem guarded_withdraw_enter {b : Bridge α} (h : b.pending.Guarded) (hpos : 0 < b.maxPending)
    (timing : Timing) (user : α) :
    ((b.enter timing user).withdraw b.pending.nextId).pending.Guarded ∧
      b.pending.watermark ≤
        ((b.enter timing user).withdraw b.pending.nextId).pending.watermark := by
  rw [pending_withdraw_enter hpos]
  split
  · exact ⟨h.evict, h.watermark_le_evict⟩
  · exact ⟨h, Nat.le_refl _⟩

end Bridge

namespace Relay

/-! ## Calls -/

/-- Every call keeps the bounds and does not lower the watermark. -/
theorem guarded_of_course {r r' : Relay α} {c : Call α} {a : Answer α}
    (h : r.bridge.pending.Guarded) (hpos : 0 < r.bridge.maxPending) (hc : r.Course c a r') :
    r'.bridge.pending.Guarded ∧ r.bridge.pending.watermark ≤ r'.bridge.pending.watermark := by
  have hsame : r.bridge.pending.Guarded ∧
      r.bridge.pending.watermark ≤ r.bridge.pending.watermark := ⟨h, Nat.le_refl _⟩
  have hresolve : ∀ id, (r.bridge.pending.resolve id).2.Guarded ∧
      r.bridge.pending.watermark ≤ (r.bridge.pending.resolve id).2.watermark :=
    fun id => ⟨h.resolve id, Nat.le_of_eq (Pending.watermark_resolve ..).symm⟩
  cases hc with
  | failed => exact hsame
  | turnedAway => exact hsame
  | refused => exact Bridge.guarded_withdraw_enter h hpos _ _
  | accepted => exact Bridge.guarded_enter h _ _
  | unreadable => exact hsame
  | uncorrelated =>
    rw [Bridge.pending_dropUncorrelated]
    exact hsame
  | unmatched => exact hresolve _
  | outOfOrder => exact hresolve _
  | placed => exact hresolve _
  | dropped =>
    rw [Bridge.pending_dropOutput]
    exact hresolve _
  | endOfStream => exact hsame
  | reset => exact ⟨.reset _, h.le_nextId⟩
  | aside _ _ _ hu =>
    rw [hu.pending]
    exact hsame

/-- A sample that carries no id, or one that passes every entry by, is dropped, and neither the entries
    nor the output are touched. -/
theorem deliver_of_passes {r : Relay α} {x : Sample}
    (h : ∀ c id, r.store.content? x.frame = some c → c.info.id = some id →
      r.bridge.pending.Passes id) :
    ∃ r', r.deliver (.sample x) = (.done (.ok ()), r') ∧
      r'.bridge.pending = r.bridge.pending ∧ r'.bridge.output = r.bridge.output := by
  have hd := r.delivers_deliver x
  generalize r.deliver (.sample x) = delivery at hd
  cases hd with
  | unreadable => exact ⟨_, rfl, rfl, rfl⟩
  | uncorrelated =>
    exact ⟨_, rfl, Bridge.pending_dropUncorrelated r.bridge, Bridge.output_dropUncorrelated r.bridge⟩
  | unmatched hc hid =>
    have hresolve := Pending.resolve_of_passes (h _ _ hc hid)
    exact ⟨_, rfl, congrArg Prod.snd hresolve, rfl⟩
  | outOfOrder hc hid _ hm =>
    rw [Pending.resolve_of_passes (h _ _ hc hid)] at hm
    exact nomatch hm
  | matched hc hid _ hm =>
    rw [Pending.resolve_of_passes (h _ _ hc hid)] at hm
    exact nomatch hm

/-- A result below the watermark is dropped. -/
theorem deliver_of_lt_watermark {r : Relay α} (h : r.bridge.pending.Guarded) {x : Sample}
    {c : Content} {id : Nat} (hc : r.store.content? x.frame = some c) (hid : c.info.id = some id)
    (hlt : id < r.bridge.pending.watermark) :
    ∃ r', r.deliver (.sample x) = (.done (.ok ()), r') ∧
      r'.bridge.pending = r.bridge.pending ∧ r'.bridge.output = r.bridge.output := by
  refine deliver_of_passes fun c' id' hc' hid' => ?_
  obtain ⟨-, rfl⟩ := Store.content?_unique hc hid hc' hid'
  exact h.passes hlt

end Relay

namespace Turn

/-! ## Turns after which ids are late -/

/-- A submission made the entry with an id give way. -/
def Evicts (t : Turn α) (id : Nat) : Prop :=
  (∃ frame user, t.call = .submit frame user) ∧ (∃ e ∈ t.before.bridge.pending.entries, e.id = id) ∧
    ∀ e ∈ t.after.bridge.pending.entries, e.id ≠ id

/-- The result for an id is late from this turn on: all entries were forgotten when the id had been
    handed out already, or an entry was given up that was no older. -/
def MakesLate (t : Turn α) (id : Nat) : Prop :=
  (t.call = .resetPending ∧ id < t.before.bridge.pending.nextId) ∨
    ∃ gone, t.Evicts gone ∧ id ≤ gone

/-- An entry that a submission gave up is below the watermark then. -/
theorem Evicts.lt_watermark {r r' : Relay α} {c : Call α} {a : Answer α} {id : Nat}
    (h : (⟨r, c, a, r'⟩ : Turn α).Evicts id) (hc : r.Course c a r')
    (hpos : 0 < r.bridge.maxPending) : id < r'.bridge.pending.watermark := by
  obtain ⟨⟨frame, user, hcall⟩, ⟨e, he, rfl⟩, hgone⟩ := h
  simp only at hcall he hgone
  subst hcall
  -- an entry that is gone after a submission can only have been given up by it
  cases hc with
  | failed => exact absurd rfl (hgone e he)
  | turnedAway => exact absurd rfl (hgone e he)
  | refused =>
    rw [Bridge.pending_withdraw_enter hpos] at hgone ⊢
    by_cases hroom : r.bridge.maxPending ≤ r.bridge.pending.length
    · rw [if_pos hroom] at hgone ⊢
      exact Pending.lt_watermark_evict he hgone
    · rw [if_neg hroom] at hgone
      exact absurd rfl (hgone e he)
  | @accepted _ _ s info o size hinfo hstamped =>
    have hmem : e ∈ (r.bridge.pending.register info.timing user).entries :=
      List.mem_append_left _ he
    rw [Bridge.pending_confirm, Bridge.pending_enter] at hgone ⊢
    by_cases hroom : r.bridge.maxPending < (r.bridge.pending.register info.timing user).length
    · rw [if_pos hroom] at hgone ⊢
      exact Pending.lt_watermark_evict hmem hgone
    · rw [if_neg hroom] at hgone
      exact absurd rfl (hgone e hmem)
  | aside hc => exact hc.elim

/-- An id that a turn makes late is below the watermark after it. -/
theorem MakesLate.lt_watermark {r r' : Relay α} {c : Call α} {a : Answer α} {id : Nat}
    (h : (⟨r, c, a, r'⟩ : Turn α).MakesLate id) (hc : r.Course c a r')
    (hpos : 0 < r.bridge.maxPending) : id < r'.bridge.pending.watermark := by
  rcases h with ⟨hcall, hlt⟩ | ⟨gone, hevicts, hle⟩
  · simp only at hcall hlt
    subst hcall
    cases hc with
    | reset => exact hlt
    | aside hc => exact hc.elim
  · exact Nat.lt_of_le_of_lt hle (hevicts.lt_watermark hc hpos)

end Turn

/-! ## Runs -/

/-- After a run the bounds hold, the watermark never went down, and it covers every id that was made
    late. -/
theorem guarded_of_run {s : Settings} {ingestMax : Nat} {turns : List (Turn α)} {r : Relay α}
    (hs : s.validate = .ok ()) (run : Run (.new s ingestMax) turns r) :
    r.bridge.pending.Guarded ∧
    (∀ t ∈ turns, t.before.bridge.pending.watermark ≤ t.after.bridge.pending.watermark) ∧
    ∀ t ∈ turns, ∀ id, t.MakesLate id → id < r.bridge.pending.watermark := by
  induction run with
  | start =>
    exact ⟨.empty, fun t ht => absurd ht List.not_mem_nil, fun t ht => absurd ht List.not_mem_nil⟩
  | @turn turns r r' c a run h ih =>
    obtain ⟨hguarded, hmono, hlate⟩ := ih
    have hpos := Concurrent.maxPending_pos_of_run hs run
    have hcourse := Relay.course_of_call? h
    obtain ⟨hguarded', hle⟩ := Relay.guarded_of_course hguarded hpos hcourse
    refine ⟨hguarded', fun t ht => ?_, fun t ht id hid => ?_⟩
    · rcases List.mem_append.1 ht with hold | hnew
      · exact hmono t hold
      · rw [List.mem_singleton.1 hnew]
        exact hle
    · rcases List.mem_append.1 ht with hold | hnew
      · -- what was late stays late, since the watermark only goes up
        exact Nat.lt_of_lt_of_le (hlate t hold id hid) hle
      · rw [List.mem_singleton.1 hnew] at hid
        exact hid.lt_watermark hcourse hpos

/-- The watermark never goes down, is at most the next id, and no entry is below it.  Once entries
    were forgotten or given up, every sample of an id that this made late is dropped without an error:
    it comes to its end at once, and neither the entries nor the output change. -/
theorem run_ignores_late {s : Settings} {ingestMax : Nat} {turns : List (Turn α)} {r : Relay α}
    (hs : s.validate = .ok ()) (run : Run (.new s ingestMax) turns r) :
    (∀ t ∈ turns, t.before.bridge.pending.watermark ≤ t.after.bridge.pending.watermark) ∧
    r.bridge.pending.watermark ≤ r.bridge.pending.nextId ∧
    (∀ e ∈ r.bridge.pending.entries, r.bridge.pending.watermark ≤ e.id) ∧
    ∀ t ∈ turns, ∀ id, t.MakesLate id →
      ∀ x c, r.store.content? x.frame = some c → c.info.id = some id →
        ∃ r', r.deliver (.sample x) = (.done (.ok ()), r') ∧
          r'.bridge.pending = r.bridge.pending ∧ r'.bridge.output = r.bridge.output := by
  obtain ⟨hguarded, hmono, hlate⟩ := guarded_of_run hs run
  refine ⟨hmono, hguarded.le_nextId, hguarded.le_id, ?_⟩
  intro t ht id hid x c hc hcid
  exact Relay.deliver_of_lt_watermark hguarded hc hcid (hlate t ht id hid)

/-- Two frames are accepted, with room for the entry of one, and the first of them is pulled. -/
def acceptedTwice : List (Call Nat) :=
  [.setFlushing false, .elsewhere Concurrent.twoFrames, .submit 0 7, .submit 1 8, .pull]

/-- The first frame comes back, and the entry of the second one still waits. -/
theorem run_ignores_evicted : ∃ (turns : List (Turn Nat)) (r r' : Relay Nat),
    Run (.new oneEntry 64) turns r ∧ (∃ t ∈ turns, t.Evicts 0) ∧
      r.bridge.pending.entries.map (·.id) = [1] ∧
      r.deliver (.sample ⟨0, none⟩) = (.done (.ok ()), r') ∧
      r'.bridge.pending = r.bridge.pending ∧ r'.bridge.output = r.bridge.output := by
  obtain ⟨t₁, t₂, t₃, t₄, t₅, r, c, hturns, hcall, hbefore, hafter, hleft, hc, hid⟩ :
      ∃ t₁ t₂ t₃ t₄ t₅ r c,
        (Relay.new oneEntry 64 : Relay Nat).turns? acceptedTwice = some ([t₁, t₂, t₃, t₄, t₅], r) ∧
          t₄.call = .submit 1 8 ∧ t₄.before.bridge.pending.entries.map (·.id) = [0] ∧
          t₄.after.bridge.pending.entries.map (·.id) = [1] ∧
          r.bridge.pending.entries.map (·.id) = [1] ∧ r.store.content? 0 = some c ∧
          c.info.id = some 0 :=
    ⟨_, _, _, _, _, _, _, rfl, rfl, rfl, rfl, rfl, rfl, rfl⟩
  have hrun := run_of_turns? hturns
  have hmem : t₄ ∈ [t₁, t₂, t₃, t₄, t₅] := by simp
  -- the second submission takes the place of the first one's entry
  have hevicts : t₄.Evicts 0 := by
    refine ⟨⟨1, 8, hcall⟩, ?_, fun e he heid => ?_⟩
    · exact List.mem_map.1 (by rw [hbefore]; exact List.mem_singleton_self 0)
    · have hids := List.mem_map.2 ⟨e, he, heid⟩
      rw [hafter] at hids
      exact absurd (List.mem_singleton.1 hids) (by decide)
  obtain ⟨r', hdeliver, hpending, houtput⟩ := (run_ignores_late (s := oneEntry) rfl hrun).2.2.2
    t₄ hmem 0 (.inr ⟨0, hevicts, Nat.le_refl 0⟩) ⟨0, none⟩ c hc hid
  exact ⟨_, r, r', hrun, ⟨t₄, hmem, hevicts⟩, hleft, hdeliver, hpending, houtput⟩

end MediaBridge
