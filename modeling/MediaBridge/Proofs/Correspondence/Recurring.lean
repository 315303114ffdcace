import MediaBridge.Proofs.Correspondence.Samples

/-! # What recurs is reported now and then

Entries that are given up, frames that find no room and results without an id may come in great
numbers, so one in so many is reported, and the others are only counted.  Each of the three has a
counter, a throttle and a notice of its own.  They run in step: after `n` occurrences the counter
shows `n`, the throttle the rest of `n` by the rate, and the journal holds a notice for each time
the rate went into `n`.

* `Throttle.hit_of_count`  a throttle counts up to its rate, and then from zero again;
* `notes_of_course`        a call makes each of the three occur once or not at all;
* `inStep_of_run`          counter, throttle and journal after a run;
* `run_reports`            what is reported, and how far that is behind what is counted.
-/

namespace MediaBridge

variable {α : Type u}

/-- What may come in great numbers. -/
inductive Recurring where
  /-- An entry is given up. -/
  | eviction
  /-- A matched frame finds no room. -/
  | outputDrop
  /-- A result carries no id. -/
  | missingId
  deriving DecidableEq

/-- The frames that a notice says were lost since the last one of its kind. -/
def Notice.lost : Notice → Nat
  | .evicted count | .outputDropped count => count
  | _ => 0

namespace Recurring

/-- What counts the occurrences. -/
def counter : Recurring → Counter
  | eviction => .evictions
  | outputDrop => .outputDrops
  | missingId => .uncorrelated

/-- One in this many is to be reported. -/
def rate (s : Settings) : Recurring → UInt32
  | eviction | outputDrop => s.frameDropReportRate
  | missingId => s.correspondenceFailReportRate

/-- What decides which occurrences are reported. -/
def throttle (b : Bridge α) : Recurring → Throttle
  | eviction => b.evictionReports
  | outputDrop => b.dropReports
  | missingId => b.missingIdReports

/-- The notice for every so many. -/
def notice (every : Nat) : Recurring → Notice
  | eviction => .evicted every
  | outputDrop => .outputDropped every
  | missingId => .noCorrespondence

/-- Whether a notice is of the kind. -/
def isTold : Recurring → Notice → Bool
  | eviction, .evicted _ | outputDrop, .outputDropped _ | missingId, .noCorrespondence => true
  | _, _ => false

/-- The notices of the kind so far, oldest first. -/
def reports (b : Bridge α) (k : Recurring) : List Notice := b.journal.filter k.isTold

/-- The frames that the notices of the kind say were lost. -/
def announced (b : Bridge α) (k : Recurring) : Nat := (k.reports b).foldl (fun n x => n + x.lost) 0

/-- A notice of one kind is of no other. -/
theorem isTold_notice (every : Nat) (k l : Recurring) :
    l.isTold (k.notice every) = decide (l = k) := by cases k <;> cases l <;> rfl

/-- The three have counters of their own. -/
theorem counter_inj {k l : Recurring} : k.counter = l.counter ↔ k = l := by
  cases k <;> cases l <;> simp [counter]

/-- Notices that are all alike add up to their number times what one of them says. -/
theorem foldl_lost_replicate (x : Notice) (m n : Nat) :
    (List.replicate m x).foldl (fun n x => n + x.lost) n = n + m * x.lost := by
  induction m generalizing n with
  | zero => simp
  | succ m ih => rw [List.replicate_succ, List.foldl_cons, ih, Nat.succ_mul]; omega

end Recurring

/-! ## A throttle counts by its rate -/

/-- If a throttle shows the rest of `n` by its rate, it shows that of `n + 1` after another hit, and
    the hit is reported exactly if the rate goes into `n + 1` once more. -/
theorem Throttle.hit_of_count {t : Throttle} {n : Nat} (hpos : 0 < t.every)
    (h : t.count = n % t.every) :
    t.hit.1.count = (n + 1) % t.every ∧ (n + 1) / t.every = n / t.every + t.hit.2.toNat := by
  have hlt : n % t.every < t.every := Nat.mod_lt n hpos
  have hsplit : n + 1 = t.every * (n / t.every) + (n % t.every + 1) := by
    rw [← Nat.add_assoc, Nat.div_add_mod]
  have hmod : (n + 1) % t.every = (n % t.every + 1) % t.every := by rw [hsplit, Nat.mul_add_mod]
  have hdiv : (n + 1) / t.every = n / t.every + (n % t.every + 1) / t.every := by
    rw [hsplit, Nat.mul_add_div hpos]
  rw [hmod, hdiv, hit, h]
  -- either this hit fills the rate up, or there is room for more
  by_cases hlast : n % t.every + 1 = t.every
  · rw [if_pos (Nat.le_of_eq hlast.symm), hlast, Nat.mod_self, Nat.div_self hpos]
    exact ⟨rfl, rfl⟩
  · have hroom : n % t.every + 1 < t.every := by omega
    rw [if_neg (Nat.not_le.2 hroom), Nat.mod_eq_of_lt hroom, Nat.div_eq_of_lt hroom]
    exact ⟨rfl, rfl⟩

/-! ## What a step notes -/

/-- What is made of it that something recurs, or does not recur, between two states of a bridge. -/
structure Bridge.Notes (k : Recurring) (recurs : Bool) (b b' : Bridge α) : Prop where
  throttle : k.throttle b' = if recurs then (k.throttle b).hit.1 else k.throttle b
  value : b'.health.value k.counter = b.health.value k.counter + UInt64.ofNat recurs.toNat
  reports : k.reports b' = k.reports b ++
    if recurs && (k.throttle b).hit.2 then [k.notice (k.throttle b).every] else []

namespace Bridge

variable {b b₁ b' : Bridge α} {k : Recurring} {recurs : Bool}

/-- Nothing happened. -/
theorem Notes.refl (k : Recurring) (b : Bridge α) : Notes k false b b where
  throttle := rfl
  value := (UInt64.add_zero _).symm
  reports := (List.append_nil _).symm

/-- A step that does nothing about it may come first. -/
theorem Notes.after (h : Notes k false b b₁) (h' : Notes k recurs b₁ b') : Notes k recurs b b' where
  throttle := by rw [h'.throttle, h.throttle, if_neg Bool.false_ne_true]
  value := by rw [h'.value, h.value]; simp
  reports := by
    rw [h'.reports, h.reports, h.throttle, if_neg Bool.false_ne_true]
    simp

/-- A step that does nothing about it may come last. -/
theorem Notes.before (h : Notes k recurs b b₁) (h' : Notes k false b₁ b') :
    Notes k recurs b b' where
  throttle := by rw [h'.throttle, if_neg Bool.false_ne_true, h.throttle]
  value := by rw [h'.value, h.value]; simp
  reports := by rw [h'.reports, h.reports]; simp

/-- Other counters are no concern. -/
theorem notes_count {c : Counter} (hc : c ≠ k.counter) (b : Bridge α) (n : Nat) :
    Notes k false b (b.count c n) where
  throttle := by cases k <;> rfl
  value := by simp [Health.value_add_of_ne hc.symm]
  reports := (List.append_nil _).symm

/-- Other notices are no concern. -/
theorem notes_note {n : Notice} (hn : k.isTold n = false) (b : Bridge α) :
    Notes k false b (b.note n) where
  throttle := by cases k <;> rfl
  value := (UInt64.add_zero _).symm
  reports := by simp [Recurring.reports, note, List.filter_append, hn]

/-- A step that hits the throttle of one kind, counts that once, and reports it if it is due. -/
theorem notes_hit {l : Recurring} (hthrottle : ∀ m : Recurring,
      m.throttle b₁ = if m = l then (m.throttle b).hit.1 else m.throttle b)
    (hhealth : b₁.health = b.health) (hjournal : b₁.journal = b.journal) (k : Recurring) :
    Notes k (k = l) b ((b₁.count l.counter 1).noteIf (l.throttle b).hit.2
      (l.notice (l.throttle b).hit.1.every)) where
  throttle := by
    simp only [decide_eq_true_eq, ← hthrottle k]
    -- the notice touches no throttle, whether or not there is one
    cases (l.throttle b).hit.2 <;> cases k <;> rfl
  value := by
    rw [health_noteIf, health_count, Health.value_add_one, hhealth]
    simp only [Recurring.counter_inj]
    by_cases hk : k = l
    · simp [hk]
    · simp [hk]
  reports := by
    by_cases hk : k = l
    · subst hk
      cases hhit : (k.throttle b).hit.2
      · simp [Recurring.reports, noteIf, count, hjournal]
      · simp [Recurring.reports, noteIf, note, count, hjournal, List.filter_append,
          Recurring.isTold_notice]
    · cases (l.throttle b).hit.2 <;>
        simp [Recurring.reports, noteIf, note, count, hjournal, List.filter_append,
          Recurring.isTold_notice, hk]

/-! ## The steps of a bridge -/

/-- Giving an entry up is an eviction and nothing else. -/
theorem notes_evict (k : Recurring) (b : Bridge α) : Notes k (k = .eviction) b b.evict := by
  have hthrottle : ∀ m : Recurring,
      m.throttle { b with
        pending := b.pending.evict, evictionReports := b.evictionReports.hit.1 } =
      if m = .eviction then (m.throttle b).hit.1 else m.throttle b := fun m => by cases m <;> rfl
  exact notes_hit hthrottle rfl rfl k

/-- Dropping a matched frame is an output drop and nothing else. -/
theorem notes_dropOutput (k : Recurring) (b : Bridge α) :
    Notes k (k = .outputDrop) b b.dropOutput := by
  have hthrottle : ∀ m : Recurring, m.throttle { b with dropReports := b.dropReports.hit.1 } =
      if m = .outputDrop then (m.throttle b).hit.1 else m.throttle b := fun m => by cases m <;> rfl
  exact notes_hit hthrottle rfl rfl k

/-- A result without an id is a missing id and nothing else. -/
theorem notes_dropUncorrelated (k : Recurring) (b : Bridge α) :
    Notes k (k = .missingId) b b.dropUncorrelated := by
  have hthrottle : ∀ m : Recurring,
      m.throttle { b with missingIdReports := b.missingIdReports.hit.1 } =
      if m = .missingId then (m.throttle b).hit.1 else m.throttle b := fun m => by cases m <;> rfl
  exact notes_hit hthrottle rfl rfl k

/-- What happens to entries and pairs alone is no concern. -/
theorem notes_with (k : Recurring) (b : Bridge α) (p : Pending α)
    (o : BoundedQueue (Matched α)) : Notes k false b { b with pending := p, output := o } where
  throttle := by cases k <;> rfl
  value := (UInt64.add_zero _).symm
  reports := (List.append_nil _).symm

/-- A registration without room is an eviction. -/
theorem notes_enter (k : Recurring) (b : Bridge α) (timing : Timing) (user : α) :
    ∃ recurs, Notes k recurs b (b.enter timing user) := by
  have hregistered := notes_with k b (b.pending.register timing user) b.output
  -- hroom
  rcases Nat.lt_or_ge b.pending.length b.maxPending with hroom | hroom
  · rw [enter_of_lt hroom]
    exact ⟨_, hregistered⟩
  · rw [enter_of_le hroom]
    exact ⟨_, hregistered.after (notes_evict k _)⟩

/-- None of the three occurs in a withdrawal. -/
theorem notes_withdraw (k : Recurring) (b : Bridge α) (id : Nat) :
    Notes k false b (b.withdraw id) :=
  (notes_with k b (b.pending.withdraw id) b.output).before
    (notes_count (by cases k <;> decide) _ 1)

/-- None of the three occurs when a submission is confirmed. -/
theorem notes_confirm (k : Recurring) (b : Bridge α) (size : Nat) :
    Notes k false b (b.confirm size) :=
  (notes_count (c := .submitted) (by cases k <;> decide) b 1).before
    (notes_count (c := .bytesIn) (by cases k <;> decide) _ size)

/-- None of the three occurs when the entry of a result is looked for. -/
theorem notes_resolve (k : Recurring) (b : Bridge α) (id size : Nat) :
    Notes k false b (b.resolve id size).2 :=
  ((notes_with k b (b.pending.resolve id).2 b.output).before
    (notes_count (c := .bytesOut) (by cases k <;> decide) _ size)).before
      (notes_count (c := .stale) (by cases k <;> decide) _ _)

end Bridge

/-! ## Calls and runs -/

namespace Relay

/-- A call that is neither a submission nor a delivery, and leaves the entries alone, touches at
    most the output of the bridge. -/
theorem bridge_of_isAside {r r' : Relay α} {c : Call α} {a : Answer α} (hc : c.IsAside)
    (h : r.call? c = some (a, r')) : r'.bridge = { r.bridge with output := r'.bridge.output } := by
  cases c with
  | submit | deliver | resetPending => exact hc.elim
  | pop =>
    simp only [call?, pop?] at h
    cases hpop : r.bridge.output.pop? with
    | none => rw [hpop] at h; cases h; rfl
    | some popped => rw [hpop] at h; cases h; rfl
  | pull =>
    simp only [call?, pull?] at h
    cases hpull : r.ingest.pull r.store with
    | none => rw [hpull] at h; cases h; rfl
    | some pulled => rw [hpull] at h; cases h; rfl
  | clear | setDraining | setFlushing | endStream | elsewhere => cases h; rfl

/-- Each of the three occurs once in a call, or not at all. -/
theorem notes_of_call? {r r' : Relay α} {c : Call α} {a : Answer α} (k : Recurring)
    (h : r.call? c = some (a, r')) : ∃ recurs, Bridge.Notes k recurs r.bridge r'.bridge := by
  -- what happens before or after the one step that matters is put aside by `after` and `before`
  cases course_of_call? h with
  | failed => exact ⟨_, .refl k r.bridge⟩
  | turnedAway => exact ⟨_, Bridge.notes_count (by cases k <;> decide) r.bridge 1⟩
  | @refused frame user s info =>
    obtain ⟨recurs, henter⟩ := r.bridge.notes_enter k info.timing user
    exact ⟨recurs, henter.before (Bridge.notes_withdraw k _ _)⟩
  | @accepted frame user s info o size =>
    obtain ⟨recurs, henter⟩ := r.bridge.notes_enter k info.timing user
    exact ⟨recurs, henter.before (Bridge.notes_confirm k _ size)⟩
  | unreadable =>
    exact ⟨_, (Bridge.notes_count (by cases k <;> decide) r.bridge 1).before
      (Bridge.notes_note (by cases k <;> rfl) _)⟩
  | uncorrelated => exact ⟨_, Bridge.notes_dropUncorrelated k r.bridge⟩
  | unmatched =>
    exact ⟨_, ((Bridge.notes_resolve k r.bridge _ _).before
      (Bridge.notes_count (by cases k <;> decide) _ 1)).before
        (Bridge.notes_note (by cases k <;> rfl) _)⟩
  | outOfOrder => exact ⟨_, Bridge.notes_resolve k r.bridge _ _⟩
  | placed =>
    exact ⟨_, ((Bridge.notes_resolve k r.bridge _ _).before (Bridge.notes_with k _ _ _)).before
      (Bridge.notes_count (by cases k <;> decide) _ 1)⟩
  | dropped =>
    exact ⟨_, (Bridge.notes_resolve k r.bridge _ _).after (Bridge.notes_dropOutput k _)⟩
  | endOfStream => exact ⟨_, .refl k r.bridge⟩
  | reset =>
    exact ⟨_, (Bridge.notes_with k r.bridge r.bridge.pending.reset r.bridge.output).before
      (Bridge.notes_count (by cases k <;> decide) _ _)⟩
  | aside hc =>
    rw [bridge_of_isAside hc h]
    exact ⟨_, Bridge.notes_with k r.bridge r.bridge.pending _⟩

end Relay

namespace Recurring

variable {k : Recurring} {s : Settings} {b b' : Bridge α} {n : Nat}

/-- Counter, throttle and journal after `n` occurrences. -/
structure InStep (k : Recurring) (s : Settings) (n : Nat) (b : Bridge α) : Prop where
  every : (k.throttle b).every = max 1 (k.rate s).toNat
  count : (k.throttle b).count = n % max 1 (k.rate s).toNat
  value : b.health.value k.counter = UInt64.ofNat n
  reports : k.reports b =
    List.replicate (n / max 1 (k.rate s).toNat) (k.notice (max 1 (k.rate s).toNat))

/-- Nothing has occurred at the start. -/
theorem InStep.start (k : Recurring) (s : Settings) : InStep k s 0 (.new s : Bridge α) where
  every := by cases k <;> rfl
  count := by rw [Nat.zero_mod]; cases k <;> rfl
  value := by cases k <;> rfl
  reports := by rw [Nat.zero_div]; rfl

/-- The three go on in step, whether or not it occurs once more. -/
theorem InStep.next {recurs : Bool} (h : InStep k s n b) (hn : Bridge.Notes k recurs b b') :
    InStep k s (n + recurs.toNat) b' := by
  have hpos : 0 < (k.throttle b).every := by rw [h.every]; omega
  obtain ⟨hcount, hdiv⟩ := Throttle.hit_of_count hpos (h.every ▸ h.count)
  rw [h.every] at hcount hdiv
  -- without an occurrence nothing moves
  cases recurs with
  | false =>
    have hthrottle : k.throttle b' = k.throttle b := hn.throttle
    have hreports : k.reports b' = k.reports b := hn.reports.trans (List.append_nil _)
    exact ⟨hthrottle ▸ h.every, hthrottle ▸ h.count,
      by rw [hn.value, h.value, UInt64.ofNat_add], hreports ▸ h.reports⟩
  | true =>
    have hthrottle : k.throttle b' = (k.throttle b).hit.1 := hn.throttle
    refine ⟨?_, by rw [hthrottle]; exact hcount, by rw [hn.value, h.value, UInt64.ofNat_add], ?_⟩
    · rw [hthrottle, Throttle.every_hit, h.every]
    · rw [hn.reports, h.reports, h.every, Bool.toNat_true, hdiv]
      -- the notice that is due, if one is, is like those before
      cases (k.throttle b).hit.2
      · exact List.append_nil _
      · exact (List.replicate_succ' ..).symm

/-- A call in which it occurs is one that raises its counter. -/
theorem raises_of_notes {t : Turn α} {recurs : Bool}
    (h : Bridge.Notes k recurs t.before.bridge t.after.bridge) : t.raises k.counter = recurs := by
  rw [Turn.raises, h.value]
  cases recurs <;> simp

end Recurring

/-- They are in step after every run, with as many occurrences as turns raised the counter. -/
theorem inStep_of_run {s : Settings} {ingestMax : Nat} {turns : List (Turn α)} {r : Relay α}
    (run : Run (.new s ingestMax) turns r) (k : Recurring) :
    k.InStep s (turns.countP (·.raises k.counter)) r.bridge := by
  induction run with
  | start => exact .start k s
  | @turn turns r r' c a run h ih =>
    obtain ⟨recurs, hn⟩ := Relay.notes_of_call? k h
    have hraises : (⟨r, c, a, r'⟩ : Turn α).raises k.counter = recurs :=
      Recurring.raises_of_notes hn
    have hnext := ih.next hn
    rw [List.countP_append, List.countP_singleton, hraises]
    cases recurs <;> exact hnext

/-- As long as a counter does not wrap, the notices of its kind are as many as the rate goes into
    it, and all alike.  So the frames that notices say were lost are never more than were counted,
    and fewer by less than the rate.  A throttle's count stays below the rate, so the next hit fits
    into a 32-bit word as well. -/
theorem run_reports {s : Settings} {ingestMax : Nat} {turns : List (Turn α)} {r : Relay α}
    (run : Run (.new s ingestMax) turns r) (k : Recurring)
    (hfits : turns.countP (·.raises k.counter) < UInt64.size) :
    (k.reports r.bridge).length =
      (r.bridge.health.value k.counter).toNat / max 1 (k.rate s).toNat ∧
    (∀ n ∈ k.reports r.bridge, n = k.notice (max 1 (k.rate s).toNat)) ∧
    (k ≠ .missingId →
      k.announced r.bridge ≤ (r.bridge.health.value k.counter).toNat ∧
      (r.bridge.health.value k.counter).toNat <
        k.announced r.bridge + max 1 (k.rate s).toNat) ∧
    (k.throttle r.bridge).count < max 1 (k.rate s).toNat ∧
    (k.throttle r.bridge).count + 1 < UInt32.size := by
  have h := inStep_of_run run k
  have hpos : 0 < max 1 (k.rate s).toNat := by omega
  have hvalue : (r.bridge.health.value k.counter).toNat = turns.countP (·.raises k.counter) := by
    rw [h.value, UInt64.toNat_ofNat_of_lt' hfits]
  have hcount : (k.throttle r.bridge).count < max 1 (k.rate s).toNat := by
    rw [h.count]
    exact Nat.mod_lt _ hpos
  -- the rate was read as a 32-bit word
  have hrate : max 1 (k.rate s).toNat < UInt32.size := by
    have hword := (k.rate s).toNat_lt
    simp only [UInt32.size]
    omega
  refine ⟨?_, fun n hn => ?_, fun hk => ?_, hcount, by omega⟩
  · rw [h.reports, List.length_replicate, hvalue]
  · rw [h.reports] at hn
    exact List.eq_of_mem_replicate hn
  · have hlost : (k.notice (max 1 (k.rate s).toNat)).lost = max 1 (k.rate s).toNat := by
      cases k with
      | missingId => exact absurd rfl hk
      | _ => rfl
    -- what is not announced yet is the rest by the rate
    have hrest := Nat.mod_lt (turns.countP (·.raises k.counter)) hpos
    have hsplit := Nat.div_add_mod (turns.countP (·.raises k.counter)) (max 1 (k.rate s).toNat)
    rw [Nat.mul_comm] at hsplit
    rw [Recurring.announced, h.reports, Recurring.foldl_lost_replicate, hlost, hvalue]
    omega

/-- With room for one entry and for one pair, and one report in two: three frames make place for a
    fourth, whose pair is placed; two more come back and find no room for theirs; and three results
    carry no id. -/
def lossyFrames : List (Call Nat) :=
  [.setFlushing false, .elsewhere (framesWith [none, none, none, none]),
    .submit 0 7, .submit 1 8, .submit 2 9, .submit 3 10,
    .elsewhere (framesWith [some 3, none, some 4, none, some 5, none, none, none]),
    .deliver (.sample ⟨0, none⟩), .submit 1 11, .deliver (.sample ⟨2, none⟩),
    .submit 3 12, .deliver (.sample ⟨4, none⟩),
    .deliver (.sample ⟨5, none⟩), .deliver (.sample ⟨6, none⟩), .deliver (.sample ⟨7, none⟩)]

/-- One of two is reported, and there is room for one entry and one pair. -/
def everySecond : Settings :=
  { oneEntry with frameDropReportRate := 2, correspondenceFailReportRate := 2 }

/-- Three entries are given up, and two of them are reported. -/
theorem run_reports_second : ∃ (turns : List (Turn Nat)) (r : Relay Nat),
    Run (.new everySecond 64) turns r ∧
      (∀ k : Recurring, (k.reports r.bridge).length =
        (r.bridge.health.value k.counter).toNat / max 1 (k.rate everySecond).toNat) ∧
      r.bridge.health.value .evictions = 3 ∧
      Recurring.eviction.announced r.bridge ≤ (r.bridge.health.value .evictions).toNat ∧
      r.bridge.journal = [.evicted 2, .outputDropped 2, .noCorrespondence] := by
  obtain ⟨turns, r, hturns, hlength, hjournal, hvalue⟩ : ∃ turns r,
      (Relay.new everySecond 64 : Relay Nat).turns? lossyFrames = some (turns, r) ∧
        turns.length = 15 ∧
        r.bridge.journal = [.evicted 2, .outputDropped 2, .noCorrespondence] ∧
        r.bridge.health.value .evictions = 3 :=
    ⟨_, _, rfl, rfl, rfl, rfl⟩
  have hrun := run_of_turns? hturns
  have hfits : ∀ k : Recurring, turns.countP (·.raises k.counter) < UInt64.size := by
    intro k
    have hle : turns.countP (·.raises k.counter) ≤ turns.length := List.countP_le_length
    rw [hlength] at hle
    exact Nat.lt_of_le_of_lt hle (by decide)
  refine ⟨turns, r, hrun, fun k => (run_reports hrun k (hfits k)).1, hvalue, ?_, hjournal⟩
  exact ((run_reports hrun .eviction (hfits .eviction)).2.2.1 nofun).1

end MediaBridge
