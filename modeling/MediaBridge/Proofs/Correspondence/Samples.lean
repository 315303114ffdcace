import MediaBridge.Proofs.Correspondence.Counting
import MediaBridge.Proofs.Correspondence.Interleaving

/-! # What becomes of samples

A sample goes through several steps with early ends, and at each end one counter is raised; a sample
out of order is answered with an error instead.  So over a run the five counters and the errors add
up to the number of samples that were delivered.  The payload of a sample is counted once it is
copied, that is, if the sample can be read and carries an id.  No other sample gets as far as the
entries or the output.

* `tally_of_course`      what each call adds to the five counters;
* `bytesOut_of_course`   what it adds to the bytes that came out;
* `tallied_of_run`       the five counters after a run;
* `run_counts_samples`   every sample counts once.
-/

namespace MediaBridge

variable {α : Type u}

/-- The counters of what became of samples. -/
def Counter.results : List Counter := [delivered, outputDrops, uncorrelated, unmatched, unreadable]

instance (s : Store) (h : HandleId) : Decidable (s.Readable h) :=
  decidable_of_iff ((s.live? h).any fun b => s.lock b ≠ .writer) <| by
    simp only [Store.Readable, Option.any_eq_true, decide_eq_true_eq]

namespace Turn

/-- A sample was delivered. -/
def isSample (t : Turn α) : Bool :=
  match t.call with
  | .deliver (.sample _) => true
  | _ => false

/-- The delivery was answered with a violation of the order. -/
def isViolation (t : Turn α) : Bool :=
  match t.answer with
  | .delivered (.error (.orderingViolation ..)) => true
  | _ => false

/-- A counter went up by one. -/
def raises (t : Turn α) (c : Counter) : Bool :=
  t.after.bridge.health.value c = t.before.bridge.health.value c + 1

/-- The content of the sample that was delivered, if that could be read and carried an id. -/
def taken? (t : Turn α) : Option Content :=
  match t.call with
  | .deliver (.sample x) =>
    if t.before.store.Readable x.frame then
      (t.before.store.content? x.frame).filter (·.info.id.isSome)
    else none
  | _ => none

/-- The bytes of that content. -/
def payload (t : Turn α) : Nat := (t.taken?.map (·.bytes.size)).getD 0

/-- A readable sample with an id is taken. -/
theorem taken?_of_readable {r r' : Relay α} {x : Sample} {a : Answer α} {c : Content} {id : Nat}
    (hc : r.store.content? x.frame = some c) (hid : c.info.id = some id)
    (hr : r.store.Readable x.frame) :
    (⟨r, .deliver (.sample x), a, r'⟩ : Turn α).taken? = some c := by
  simp only [taken?, if_pos hr, hc, Option.filter_some, hid, Option.isSome_some, if_true]

/-- A sample that cannot be read is not taken. -/
theorem taken?_of_not_readable {r r' : Relay α} {x : Sample} {a : Answer α}
    (hr : ¬r.store.Readable x.frame) :
    (⟨r, .deliver (.sample x), a, r'⟩ : Turn α).taken? = none := by
  simp only [taken?, if_neg hr]

/-- A sample without an id is not taken. -/
theorem taken?_of_no_id {r r' : Relay α} {x : Sample} {a : Answer α} {c : Content}
    (hc : r.store.content? x.frame = some c) (hid : c.info.id = none) :
    (⟨r, .deliver (.sample x), a, r'⟩ : Turn α).taken? = none := by
  simp [taken?, hc, Option.filter_some, hid]

/-- One of the five counters was raised, and no error given; or the order was violated, and none of
    them changed. -/
def CountsOnce (t : Turn α) : Prop :=
  (t.isViolation = false ∧ ∃ c ∈ Counter.results, ∀ d ∈ Counter.results,
    t.after.bridge.health.value d = t.before.bridge.health.value d + if d = c then 1 else 0) ∨
  (t.isViolation = true ∧ ∀ d ∈ Counter.results,
    t.after.bridge.health.value d = t.before.bridge.health.value d)

/-! ## What a turn counts -/

/-- What a turn adds to the five counters. -/
inductive Tally (t : Turn α) : Prop where
  | counted {c : Counter} (hc : c ∈ Counter.results) (hs : t.isSample = true)
    (hv : t.isViolation = false) (hvalue : ∀ d ∈ Counter.results,
      t.after.bridge.health.value d = t.before.bridge.health.value d + if d = c then 1 else 0)
  | violation (hs : t.isSample = true) (hv : t.isViolation = true)
    (hvalue : ∀ d ∈ Counter.results,
      t.after.bridge.health.value d = t.before.bridge.health.value d)
  | other (hs : t.isSample = false) (hv : t.isViolation = false)
    (hvalue : ∀ d ∈ Counter.results,
      t.after.bridge.health.value d = t.before.bridge.health.value d)

end Turn

namespace Bridge

/-- Looking for the entry of a result raises none of the five counters. -/
theorem value_resolve_of_mem_results {d : Counter} (hd : d ∈ Counter.results) (b : Bridge α)
    (id size : Nat) : (b.resolve id size).2.health.value d = b.health.value d := by
  rw [health_resolve, Health.value_add_of_mem hd (by decide),
    Health.value_add_of_mem hd (by decide)]

end Bridge

namespace Relay

/-- Every call raises one of the five counters or none, as its turn says. -/
theorem tally_of_course {r r' : Relay α} {c : Call α} {a : Answer α} (h : r.Course c a r') :
    (⟨r, c, a, r'⟩ : Turn α).Tally := by
  cases h with
  | failed => exact .other rfl rfl fun d hd => rfl
  | turnedAway =>
    refine .other rfl rfl fun d hd => ?_
    exact Health.value_add_of_mem hd (by decide) _ _
  -- the withdrawal undoes no count, but the five are not among those it or the entry touches
  | refused =>
    refine .other rfl rfl fun d hd => ?_
    simp only [Bridge.health_withdraw]
    rw [Health.value_add_of_mem hd (by decide),
      Bridge.value_enter_of_ne (ne_of_mem_of_not_mem hd (by decide))]
  | accepted =>
    refine .other rfl rfl fun d hd => ?_
    simp only [Bridge.health_confirm]
    rw [Health.value_add_of_mem hd (by decide),
      Health.value_add_of_mem hd (by decide),
      Bridge.value_enter_of_ne (ne_of_mem_of_not_mem hd (by decide))]
  | unreadable =>
    refine .counted (c := .unreadable) (by decide) rfl rfl fun d hd => ?_
    simp only [Bridge.health_dropUnreadable, Health.value_add_one]
  | uncorrelated =>
    refine .counted (c := .uncorrelated) (by decide) rfl rfl fun d hd => ?_
    simp only [Bridge.health_dropUncorrelated, Health.value_add_one]
  | unmatched =>
    refine .counted (c := .unmatched) (by decide) rfl rfl fun d hd => ?_
    simp only [Bridge.health_dropUnmatched, Health.value_add_one]
    rw [Bridge.value_resolve_of_mem_results hd]
  | outOfOrder =>
    refine .violation rfl rfl fun d hd => ?_
    simp only
    rw [Bridge.value_resolve_of_mem_results hd]
  | placed =>
    refine .counted (c := .delivered) (by decide) rfl rfl fun d hd => ?_
    simp only [Bridge.health_count, Health.value_add_one]
    rw [Bridge.value_resolve_of_mem_results hd]
  | dropped =>
    refine .counted (c := .outputDrops) (by decide) rfl rfl fun d hd => ?_
    simp only [Bridge.health_dropOutput, Health.value_add_one]
    rw [Bridge.value_resolve_of_mem_results hd]
  | endOfStream => exact .other rfl rfl fun d hd => rfl
  | reset =>
    refine .other rfl rfl fun d hd => ?_
    exact Health.value_add_of_mem hd (by decide) _ _
  -- a call aside delivers nothing, so neither its kind nor its answer is that of a sample
  | aside haside _ hdelivered hsame =>
    refine .other ?_ ?_ fun d hd => by rw [hsame.health]
    · cases c with
      | deliver => exact haside.elim
      | _ => rfl
    · cases a with
      | delivered result => exact absurd rfl (hdelivered result)
      | _ => rfl

/-! ## What a turn takes -/

/-- A call that takes no payload counts no bytes, and if it delivers a sample, that gets no further. -/
theorem taken_of_course {r r' : Relay α} {c : Call α} {a : Answer α} (h : r.Course c a r') :
    ((⟨r, c, a, r'⟩ : Turn α).taken? = none ∧
      r'.bridge.health.value .bytesOut = r.bridge.health.value .bytesOut ∧
      ((⟨r, c, a, r'⟩ : Turn α).isSample = true →
        r'.bridge.pending = r.bridge.pending ∧ r'.bridge.output = r.bridge.output)) ∨
    ∃ content, (⟨r, c, a, r'⟩ : Turn α).taken? = some content ∧
      r'.bridge.health.value .bytesOut =
        r.bridge.health.value .bytesOut + UInt64.ofNat content.bytes.size := by
  cases h with
  | failed => exact .inl ⟨rfl, rfl, nofun⟩
  | turnedAway => exact .inl ⟨rfl, by simp, nofun⟩
  | refused =>
    refine .inl ⟨rfl, ?_, nofun⟩
    simp only [Bridge.health_withdraw]
    rw [Health.value_add_of_ne (by decide), Bridge.value_enter_of_ne (by decide)]
  | accepted =>
    refine .inl ⟨rfl, ?_, nofun⟩
    simp only [Bridge.health_confirm]
    rw [Health.value_add_of_ne (by decide), Health.value_add_of_ne (by decide),
      Bridge.value_enter_of_ne (by decide)]
  | unreadable hr => exact .inl ⟨Turn.taken?_of_not_readable hr, by simp, fun _ => ⟨rfl, rfl⟩⟩
  | uncorrelated hc hid => exact .inl ⟨Turn.taken?_of_no_id hc hid, by simp, fun _ => by simp⟩
  | unmatched hc hid hr => exact .inr ⟨_, Turn.taken?_of_readable hc hid hr, by simp⟩
  | outOfOrder hc hid hr => exact .inr ⟨_, Turn.taken?_of_readable hc hid hr, by simp⟩
  | placed hc hid hr => exact .inr ⟨_, Turn.taken?_of_readable hc hid hr, by simp⟩
  | dropped hc hid hr => exact .inr ⟨_, Turn.taken?_of_readable hc hid hr, by simp⟩
  | endOfStream => exact .inl ⟨rfl, rfl, nofun⟩
  | reset => exact .inl ⟨rfl, by simp [resetPending], nofun⟩
  | aside haside _ _ hsame =>
    refine .inl ⟨?_, by rw [hsame.health], fun hs => ?_⟩
    · cases c with
      | deliver => exact haside.elim
      | _ => rfl
    · cases c with
      | deliver => exact haside.elim
      | _ => exact nomatch hs

end Relay

/-! ## Runs -/

namespace Turn

variable {t : Turn α}

/-- A counter that is one of the five went up if it is the one that was raised. -/
theorem raises_of_added {c d : Counter} (h : t.after.bridge.health.value d =
    t.before.bridge.health.value d + if d = c then 1 else 0) : t.raises d = decide (d = c) := by
  rw [raises, h]
  by_cases hdc : d = c
  · simp [hdc]
  · simp [hdc]

/-- A counter that stayed was not raised. -/
theorem raises_of_same {d : Counter}
    (h : t.after.bridge.health.value d = t.before.bridge.health.value d) : t.raises d = false := by
  rw [raises, h]
  simp

/-- A counter either goes up by one or stays. -/
theorem Tally.value (h : t.Tally) {d : Counter} (hd : d ∈ Counter.results) :
    t.after.bridge.health.value d =
      t.before.bridge.health.value d + UInt64.ofNat (t.raises d).toNat := by
  cases h with
  | counted hc hs hv hvalue =>
    have hraises := raises_of_added (hvalue d hd)
    rw [hvalue d hd, hraises]
    split <;> simp [*]
  | violation hs hv hvalue => simp [raises_of_same (hvalue d hd), hvalue d hd]
  | other hs hv hvalue => simp [raises_of_same (hvalue d hd), hvalue d hd]

/-- A sample is counted once or answered with a violation, and no other call is either. -/
theorem Tally.once (h : t.Tally) :
    t.isSample.toNat = (t.raises .delivered).toNat + (t.raises .outputDrops).toNat +
      (t.raises .uncorrelated).toNat + (t.raises .unmatched).toNat +
      (t.raises .unreadable).toNat + t.isViolation.toNat := by
  -- the sum is over the five by name
  have hmem : ∀ d ∈ Counter.results, d = .delivered ∨ d = .outputDrops ∨ d = .uncorrelated ∨
      d = .unmatched ∨ d = .unreadable := by decide
  cases h with
  | @counted c hc hs hv hvalue =>
    have hraises : ∀ d ∈ Counter.results, t.raises d = decide (d = c) :=
      fun d hd => raises_of_added (hvalue d hd)
    rw [hs, hv, hraises .delivered (by decide), hraises .outputDrops (by decide),
      hraises .uncorrelated (by decide), hraises .unmatched (by decide),
      hraises .unreadable (by decide)]
    rcases hmem c hc with rfl | rfl | rfl | rfl | rfl <;> rfl
  | violation hs hv hvalue =>
    have hraises : ∀ d ∈ Counter.results, t.raises d = false :=
      fun d hd => raises_of_same (hvalue d hd)
    rw [hs, hv, hraises .delivered (by decide), hraises .outputDrops (by decide),
      hraises .uncorrelated (by decide), hraises .unmatched (by decide),
      hraises .unreadable (by decide)]
    rfl
  | other hs hv hvalue =>
    have hraises : ∀ d ∈ Counter.results, t.raises d = false :=
      fun d hd => raises_of_same (hvalue d hd)
    rw [hs, hv, hraises .delivered (by decide), hraises .outputDrops (by decide),
      hraises .uncorrelated (by decide), hraises .unmatched (by decide),
      hraises .unreadable (by decide)]
    rfl

/-- The bytes of all the contents taken. -/
def payloads (turns : List (Turn α)) : Nat := turns.foldl (fun n t => n + t.payload) 0

end Turn

/-- What the turns so far and the counters of the relay they led to have to do with each other. -/
structure Tallied (turns : List (Turn α)) (r : Relay α) : Prop where
  value : ∀ c ∈ Counter.results,
    r.bridge.health.value c = UInt64.ofNat (turns.countP (·.raises c))
  once : turns.countP (·.isSample) = turns.countP (·.raises .delivered) +
    turns.countP (·.raises .outputDrops) + turns.countP (·.raises .uncorrelated) +
    turns.countP (·.raises .unmatched) + turns.countP (·.raises .unreadable) +
    turns.countP (·.isViolation)
  bytes : r.bridge.health.value .bytesOut = UInt64.ofNat (Turn.payloads turns)

namespace Tallied

/-- Nothing was counted at the start. -/
theorem start (s : Settings) (ingestMax : Nat) : Tallied [] (.new s ingestMax : Relay α) where
  value := by
    have hnew : (.new s ingestMax : Relay α).bridge.health = {} := rfl
    simp only [hnew, List.countP_nil]
    decide
  once := rfl
  bytes := rfl

/-- One more turn adds to both sides what it counts. -/
theorem snoc {turns : List (Turn α)} {t : Turn α} (h : Tallied turns t.before) (ht : t.Tally)
    (hbytes : t.after.bridge.health.value .bytesOut =
      t.before.bridge.health.value .bytesOut + UInt64.ofNat t.payload) :
    Tallied (turns ++ [t]) t.after := by
  -- each of the seven counts in the invariant grows by what holds of the new turn
  have hcount : ∀ p : Turn α → Bool, (turns ++ [t]).countP p = turns.countP p + (p t).toNat := by
    intro p
    rw [List.countP_append, List.countP_singleton]
    cases p t <;> rfl
  constructor
  · intro c hc
    rw [ht.value hc, h.value c hc, hcount, UInt64.ofNat_add]
  · have hold := h.once
    have hnew := ht.once
    simp only [hcount]
    omega
  · rw [hbytes, h.bytes, ← UInt64.ofNat_add, Turn.payloads, Turn.payloads, List.foldl_append]
    rfl

end Tallied

/-- The bytes that came out grow by the payload of the sample that was taken, if one was. -/
theorem bytesOut_of_course {r r' : Relay α} {c : Call α} {a : Answer α} (h : r.Course c a r') :
    r'.bridge.health.value .bytesOut = r.bridge.health.value .bytesOut +
      UInt64.ofNat (⟨r, c, a, r'⟩ : Turn α).payload := by
  rcases Relay.taken_of_course h with ⟨hnone, hbytes, -⟩ | ⟨content, hsome, hbytes⟩
  · rw [hbytes, Turn.payload, hnone]
    exact (UInt64.add_zero _).symm
  · rw [hbytes, Turn.payload, hsome]
    rfl

/-- Turns and counters agree after every run. -/
theorem tallied_of_run {s : Settings} {ingestMax : Nat} {turns : List (Turn α)} {r : Relay α}
    (run : Run (.new s ingestMax) turns r) : Tallied turns r := by
  induction run with
  | start => exact .start s ingestMax
  | @turn turns r r' c a run h ih =>
    have hcourse := Relay.course_of_call? h
    have htally := Relay.tally_of_course hcourse
    exact ih.snoc (t := ⟨r, c, a, r'⟩) htally (bytesOut_of_course hcourse)

/-- As long as the counters do not wrap, the samples delivered are those that the five counters say
    were dealt with, and those that were answered with a violation of the order; each of them is one
    or the other, and only once.  The bytes that came out grow by the payloads of the samples that
    could be read and carried an id.  Any other sample leaves the entries and the output alone. -/
theorem run_counts_samples {s : Settings} {ingestMax : Nat} {turns : List (Turn α)} {r : Relay α}
    (run : Run (.new s ingestMax) turns r)
    (hfits : ∀ c ∈ Counter.results, turns.countP (·.raises c) < UInt64.size) :
    turns.countP (·.isSample) = r.bridge.health.dealtWith + turns.countP (·.isViolation) ∧
    (∀ t ∈ turns, t.isSample = true → t.CountsOnce) ∧
    (∀ t ∈ turns, t.after.bridge.health.value .bytesOut =
      t.before.bridge.health.value .bytesOut + UInt64.ofNat t.payload) ∧
    (Turn.payloads turns < UInt64.size →
      (r.bridge.health.value .bytesOut).toNat = Turn.payloads turns) ∧
    ∀ t ∈ turns, t.isSample = true → t.taken? = none →
      t.after.bridge.pending = t.before.bridge.pending ∧
      t.after.bridge.output = t.before.bridge.output := by
  have htallied := tallied_of_run run
  have hvalue : ∀ c ∈ Counter.results,
      (r.bridge.health.value c).toNat = turns.countP (·.raises c) := by
    intro c hc
    rw [htallied.value c hc, UInt64.toNat_ofNat_of_lt' (hfits c hc)]
  refine ⟨?_, fun t ht hs => ?_, fun t ht => ?_, fun hbytes => ?_, fun t ht hs hnone => ?_⟩
  · -- below 2^64 the counters are the numbers of turns that raised them
    have hdealt : r.bridge.health.dealtWith = turns.countP (·.raises .delivered) +
        turns.countP (·.raises .outputDrops) + turns.countP (·.raises .uncorrelated) +
        turns.countP (·.raises .unmatched) + turns.countP (·.raises .unreadable) := by
      rw [← hvalue .delivered (by decide), ← hvalue .outputDrops (by decide),
        ← hvalue .uncorrelated (by decide), ← hvalue .unmatched (by decide),
        ← hvalue .unreadable (by decide)]
      simp only [Health.dealtWith, List.foldl_cons, List.foldl_nil, Nat.zero_add]
    rw [hdealt]
    exact htallied.once
  · cases Relay.tally_of_course (run.course t ht) with
    | counted hc _ hv hvalue => exact .inl ⟨hv, _, hc, hvalue⟩
    | violation _ hv hvalue => exact .inr ⟨hv, hvalue⟩
    | other hs' => exact absurd (hs.symm.trans hs') nofun
  · exact bytesOut_of_course (run.course t ht)
  · rw [htallied.bytes, UInt64.toNat_ofNat_of_lt' hbytes]
  · rcases Relay.taken_of_course (run.course t ht) with ⟨-, -, hleft⟩ | ⟨content, hsome, -⟩
    · exact hleft hs
    · exact nomatch hnone.symm.trans hsome

/-- Three frames are accepted, and six samples come back: the second frame, the first one too late,
    the third one twice, one without an id, and one that cannot be read. -/
def sixSamples : List (Call Nat) :=
  [.setFlushing false, .elsewhere (framesWith [none, none, none]),
    .submit 0 7, .submit 1 8, .submit 2 9,
    .elsewhere (framesWith [some 1, some 0, some 2, some 2, none]),
    .deliver (.sample ⟨0, none⟩), .deliver (.sample ⟨1, none⟩), .deliver (.sample ⟨2, none⟩),
    .deliver (.sample ⟨3, none⟩), .deliver (.sample ⟨4, none⟩), .deliver (.sample ⟨5, none⟩)]

/-- They come to six different ends. -/
theorem run_counts_six : ∃ (turns : List (Turn Nat)) (r : Relay Nat),
    Run (.new { oneEntry with maxPending := 3 } 64) turns r ∧
      (∀ c ∈ Counter.results, r.bridge.health.value c = 1) ∧
      turns.countP (·.isSample) = 6 ∧
      turns.countP (·.isSample) = r.bridge.health.dealtWith + turns.countP (·.isViolation) := by
  obtain ⟨turns, r, hturns, hlength, hsamples, hvalue⟩ : ∃ turns r,
      (Relay.new { oneEntry with maxPending := 3 } 64 : Relay Nat).turns? sixSamples =
          some (turns, r) ∧
        turns.length = 12 ∧ turns.countP (·.isSample) = 6 ∧
          ∀ c ∈ Counter.results, r.bridge.health.value c = 1 :=
    ⟨_, _, rfl, rfl, rfl, by decide⟩
  have hrun := run_of_turns? hturns
  have hfits : ∀ c ∈ Counter.results, turns.countP (·.raises c) < UInt64.size := by
    intro c hc
    have hle : turns.countP (·.raises c) ≤ turns.length := List.countP_le_length
    rw [hlength] at hle
    exact Nat.lt_of_le_of_lt hle (by decide)
  exact ⟨turns, r, hrun, hvalue, hsamples, (run_counts_samples hrun hfits).1⟩

end MediaBridge
