import MediaBridge.Proofs.Correspondence.Counting
import MediaBridge.Proofs.Correspondence.Interleaving

/-! # Submissions that are not admitted

A submission that fails, is turned away, or is refused by the ingest leaves the queues and the next id
as they were.  With one exception it leaves the entries, the watermark and the counters too, except
for the count of rejections.

The exception is a refusal by the ingest that comes when there is no room for another entry.  The
registration has made room by then, and the withdrawal takes back the new entry and its id, but does
not bring back the entry that was given up.  Under `discardInput` this cannot happen with valid
settings, since a submission is turned away before entries get so many.

* `withdraw_enter_of_lt`, `withdraw_enter_of_le`  a withdrawal with and without room;
* `unadmitted_iff`                                when nothing is left behind, and what is otherwise.
-/

namespace MediaBridge

variable {α : Type u}

namespace Bridge

/-- Entries, next id, watermark and counters are the same, except for the count of rejections. -/
def SameButRejections (b b' : Bridge α) : Prop :=
  b'.pending = b.pending ∧
    ∀ c, c ≠ Counter.rejections → b'.health.value c = b.health.value c

/-! ## Taking a registration back -/

/-- A registration that is withdrawn counts an eviction if there was no room, and otherwise only its
    rejection. -/
theorem value_withdraw_enter {c : Counter} (hc : c ≠ .rejections) (b : Bridge α) (timing : Timing)
    (user : α) (id : Nat) : ((b.enter timing user).withdraw id).health.value c =
      b.health.value c + if c = .evictions ∧ b.maxPending ≤ b.pending.length then 1 else 0 := by
  rw [health_withdraw, Health.value_add_of_ne hc, value_enter]

/-- With room for the entry, a registration that is taken back leaves nothing behind. -/
theorem withdraw_enter_of_lt {b : Bridge α} (h : b.pending.length < b.maxPending) (timing : Timing)
    (user : α) :
    b.SameButRejections ((b.enter timing user).withdraw b.pending.nextId) := by
  have hpos : 0 < b.maxPending := by omega
  have hroom : ¬b.maxPending ≤ b.pending.length := by omega
  constructor
  · rw [pending_withdraw_enter hpos, if_neg hroom]
  · intro c hc
    rw [value_withdraw_enter hc, if_neg fun hgone => hroom hgone.2, UInt64.add_zero]

/-- Without room, the oldest entry stays given up, and is counted. -/
theorem withdraw_enter_of_le {b : Bridge α} {e : PendingEntry α} {rest : List (PendingEntry α)}
    (hpos : 0 < b.maxPending) (h : b.maxPending ≤ b.pending.length)
    (hentries : b.pending.entries = e :: rest) (timing : Timing) (user : α) :
    ((b.enter timing user).withdraw b.pending.nextId).pending =
      { b.pending with entries := rest, watermark := e.id + 1 } ∧
    ∀ c, c ≠ .rejections →
      ((b.enter timing user).withdraw b.pending.nextId).health.value c =
        b.health.value c + if c = .evictions then 1 else 0 := by
  constructor
  · rw [pending_withdraw_enter hpos, if_pos h, Pending.evict_of_entries hentries]
  · intro c hc
    rw [value_withdraw_enter hc]
    simp only [h, and_true]

/-- Once entries fill their room, frames are still registered only where the output gives way. -/
theorem isInputFull_eq_false_iff {b : Bridge α} (hle : b.maxInput ≤ b.maxPending)
    (h : b.maxPending ≤ b.pending.length) :
    b.isInputFull = false ↔ b.policy = .discardOutput := by
  have hin : b.maxInput ≤ b.pending.length := Nat.le_trans hle h
  unfold isInputFull
  cases b.policy <;> simp [hin]

end Bridge

/-! ## Submissions that are not admitted -/

/-- What a submission leaves that was carried out to its end and not admitted, if room for entries is
    at least one. -/
theorem Relay.unadmitted_cases {r r' : Relay α} {frame : HandleId} {user : α}
    {result : Except Error Bool} (hpos : 0 < r.bridge.maxPending)
    (h : r.submit frame user = (.done result, r')) (hresult : result ≠ .ok true) :
    r'.ingest = r.ingest ∧ r'.bridge.output = r.bridge.output ∧
    ((r.bridge.SameButRejections r'.bridge ∧
        ¬(r.bridge.isInputFull = false ∧ result = .ok false ∧
          r.bridge.maxPending ≤ r.bridge.pending.length)) ∨
      (r.bridge.isInputFull = false ∧ result = .ok false ∧
        r.bridge.maxPending ≤ r.bridge.pending.length ∧
        ∃ e rest, r.bridge.pending.entries = e :: rest ∧
          r'.bridge.pending = { r.bridge.pending with entries := rest, watermark := e.id + 1 } ∧
          ∀ c, c ≠ .rejections → r'.bridge.health.value c =
            r.bridge.health.value c + if c = .evictions then 1 else 0)) := by
  have hs := r.submits_submit frame user
  rw [h] at hs
  cases hs with
  | failed hbad =>
    exact ⟨rfl, rfl, .inl ⟨⟨rfl, fun _ _ => rfl⟩, fun hex => nomatch hex.2.1⟩⟩
  | turnedAway hfull =>
    refine ⟨rfl, rfl, .inl ⟨⟨rfl, fun c hc => Health.value_add_of_ne hc _ _⟩, fun hex => ?_⟩⟩
    rw [hfull] at hex
    exact nomatch hex.1
  | accepted => exact absurd rfl hresult
  | @refused s info hfull hinfo =>
    refine ⟨rfl, ?_, ?_⟩
    · show ((r.bridge.enter info.timing user).withdraw r.bridge.pending.nextId).output = _
      rw [Bridge.output_withdraw, Bridge.output_enter]
    · rcases Nat.lt_or_ge r.bridge.pending.length r.bridge.maxPending with hroom | hroom
      · exact .inl ⟨Bridge.withdraw_enter_of_lt hroom info.timing user,
          fun hex => absurd hex.2.2 (Nat.not_le.2 hroom)⟩
      · -- there is room for one entry at least, so one was given up
        cases hentries : r.bridge.pending.entries with
        | nil =>
          have hlen : r.bridge.pending.length = 0 := by rw [Pending.length, hentries]; rfl
          omega
        | cons e rest =>
          obtain ⟨hpending, hvalue⟩ := Bridge.withdraw_enter_of_le hpos hroom hentries info.timing
            user
          exact .inr ⟨hfull, rfl, hroom, e, rest, rfl, hpending, hvalue⟩

/-- A submission that is carried out to its end and not admitted never changes the queues or the next
    id.  It leaves the entries, the watermark and the counters, except for the count of rejections,
    exactly unless the ingest refused the frame after an older entry had been given up for it; then
    that entry is gone, and counted. -/
theorem unadmitted_iff {s : Settings} {ingestMax : Nat} {w : Concurrent α}
    (hs : s.validate = .ok ()) (h : (Concurrent.new s ingestMax).Reaches w)
    {frame : HandleId} {user : α} {result : Except Error Bool} {r : Relay α}
    (hsubmit : w.relay.submit frame user = (.done result, r)) (hresult : result ≠ .ok true) :
    r.ingest = w.relay.ingest ∧ r.bridge.output = w.relay.bridge.output ∧
    r.bridge.pending.nextId = w.pending.nextId ∧
    (w.relay.bridge.SameButRejections r.bridge ↔
      ¬(s.discardPolicy = .discardOutput ∧ result = .ok false ∧
        s.maxPending.toNat ≤ w.pending.length)) ∧
    (¬w.relay.bridge.SameButRejections r.bridge →
      ∃ e rest, w.pending.entries = e :: rest ∧
        r.bridge.pending = { w.pending with entries := rest, watermark := e.id + 1 } ∧
        ∀ c, c ≠ .rejections → r.bridge.health.value c =
          w.relay.bridge.health.value c + if c = .evictions then 1 else 0) := by
  obtain ⟨hroom, hle⟩ := (Settings.validate_eq_ok_iff.1 hs).room
  obtain ⟨hpolicy, hmaxInput, hmaxPending⟩ := Concurrent.configured_of_reaches h
  rw [← hmaxPending] at hroom hle
  rw [← hmaxInput] at hle
  obtain ⟨hingest, houtput, hcases⟩ := Relay.unadmitted_cases hroom hsubmit hresult
  rw [← hpolicy, ← hmaxPending]
  -- where entries fill their room, a frame is registered only under the one policy
  refine ⟨hingest, houtput, ?_⟩
  rcases hcases with ⟨hsame, hnot⟩ | ⟨hfull, hfalse, hmax, e, rest, hentries, hpending, hvalue⟩
  · refine ⟨by rw [hsame.1], ⟨fun _ => ?_, fun _ => hsame⟩, fun hne => absurd hsame hne⟩
    rintro ⟨hout, hfalse, hmax⟩
    exact hnot ⟨(Bridge.isInputFull_eq_false_iff hle hmax).2 hout, hfalse, hmax⟩
  · have hne : ¬w.relay.bridge.SameButRejections r.bridge := by
      intro hsame
      have hlen := congrArg Pending.length (hpending.symm.trans hsame.1)
      simp only [Pending.length, hentries, List.length_cons] at hlen
      omega
    refine ⟨by rw [hpending], ⟨fun hsame => absurd hsame hne, fun hnot => ?_⟩,
      fun _ => ⟨e, rest, hentries, hpending, hvalue⟩⟩
    exact absurd ⟨(Bridge.isInputFull_eq_false_iff hle hmax).1 hfull, hfalse, hmax⟩ hnot

/-- A frame is accepted, and no frames are to follow. -/
def acceptedThenEnded : List (Call Nat) :=
  [.setFlushing false, .elsewhere Concurrent.twoFrames, .submit 0 7, .endStream]

/-- The second frame is refused, but the entry of the first one was given up for it. -/
theorem unadmitted_evicts : ∃ (w : Concurrent Nat) (r : Relay Nat),
    (Concurrent.new oneEntry 64).Reaches w ∧ w.relay.submit 1 8 = (.done (.ok false), r) ∧
      ¬w.relay.bridge.SameButRejections r.bridge ∧
      ∃ e rest, w.pending.entries = e :: rest ∧
        r.bridge.pending = { w.pending with entries := rest, watermark := e.id + 1 } ∧
        ∀ c, c ≠ .rejections → r.bridge.health.value c =
          w.relay.bridge.health.value c + if c = .evictions then 1 else 0 := by
  obtain ⟨turns, q, r, hturns, hlength, hsubmit⟩ : ∃ turns q r,
      (Relay.new oneEntry 64).turns? acceptedThenEnded = some (turns, q) ∧
        q.bridge.pending.length = 1 ∧ q.submit 1 8 = (.done (.ok false), r) :=
    ⟨_, _, _, rfl, rfl, rfl⟩
  obtain ⟨accepted, hreach⟩ := Concurrent.reaches_of_run (run_of_turns? hturns)
  have h := unadmitted_iff (w := { relay := q, accepted }) (s := oneEntry) rfl hreach hsubmit nofun
  have hne : ¬q.bridge.SameButRejections r.bridge := by
    rw [h.2.2.2.1]
    exact fun hnot => hnot ⟨rfl, rfl, Nat.le_of_eq hlength.symm⟩
  exact ⟨{ relay := q, accepted }, r, hreach, hsubmit, hne, h.2.2.2.2 hne⟩

/-- So it is not true that whatever is not admitted leaves everything else as it was. -/
theorem not_unadmitted_same : ¬∀ (s : Settings) (ingestMax : Nat) (w : Concurrent Nat)
    (frame : HandleId) (user : Nat) (result : Except Error Bool) (r : Relay Nat),
    s.validate = .ok () → (Concurrent.new s ingestMax).Reaches w →
    w.relay.submit frame user = (.done result, r) → result ≠ .ok true →
      r.ingest = w.relay.ingest ∧ r.bridge.output = w.relay.bridge.output ∧
      w.relay.bridge.SameButRejections r.bridge := by
  intro hall
  obtain ⟨turns, q, r, hturns, hbefore, hsubmit, hafter⟩ : ∃ turns q r,
      (Relay.new oneEntry 64).turns? acceptedThenEnded = some (turns, q) ∧
        q.bridge.pending.length = 1 ∧ q.submit 1 8 = (.done (.ok false), r) ∧
          r.bridge.pending.length = 0 :=
    ⟨_, _, _, rfl, rfl, rfl, rfl⟩
  obtain ⟨accepted, hreach⟩ := Concurrent.reaches_of_run (run_of_turns? hturns)
  have hsame := hall oneEntry 64 { relay := q, accepted } 1 8 _ r rfl hreach hsubmit nofun
  have hlen := congrArg Pending.length hsame.2.2.1
  rw [hafter] at hlen
  exact absurd (hlen.trans hbefore) nofun

end MediaBridge
