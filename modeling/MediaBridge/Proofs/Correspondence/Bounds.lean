import MediaBridge.Proofs.Correspondence.Counting
import MediaBridge.Proofs.Correspondence.Interleaving

/-! # How many entries wait

Two bounds guard the entries.  Where the input gives way, submissions are turned away once there are
`maxInput` entries; under either policy the oldest entry is given up once there are more than
`maxPending`.  Valid settings have the second bound above the first, so that where the input gives way
no entry is ever given up.  Both hold for any number of submissions under way: an entry counts from
its registration on, also if it is going to be withdrawn.

* `growth_of_step`     only a registration adds an entry, and only below both bounds;
* `evictions_of_step`  an entry is given up by a registration only;
* `turnsAway_of_full`  a submission that comes when the input is full leaves no trace but a count;
* `bounded_of_reaches` what holds in every state that can be reached.
-/

namespace MediaBridge

variable {α : Type u}

/-! ## Lengths -/

namespace Pending

/-- A result adds no entry. -/
theorem length_resolve_le (p : Pending α) (id : Nat) : (p.resolve id).2.length ≤ p.length := by
  have hlen := p.length_resolve_add id
  omega

/-- A withdrawal adds no entry. -/
theorem length_withdraw_le (p : Pending α) (id : Nat) : (p.withdraw id).length ≤ p.length := by
  have hle : (p.entries.reverse.eraseP fun e => e.id = id).length ≤ p.entries.reverse.length :=
    List.length_eraseP_le
  rw [List.length_reverse] at hle
  simpa only [length, withdraw, removeLast, List.length_reverse] using hle

end Pending

namespace Bridge

/-- The input is full if it gives way and `maxInput` entries wait. -/
theorem isInputFull_eq_true_iff {b : Bridge α} :
    b.isInputFull = true ↔ b.policy = .discardInput ∧ b.maxInput ≤ b.pending.length := by
  rw [isInputFull, Bool.and_eq_true, decide_eq_true_eq, decide_eq_true_eq]

/-- Where the input gives way and is not full, fewer than `maxInput` entries wait. -/
theorem lt_maxInput_of_not_full {b : Bridge α} (hpolicy : b.policy = .discardInput)
    (h : b.isInputFull = false) : b.pending.length < b.maxInput := by
  by_cases hlt : b.pending.length < b.maxInput
  · exact hlt
  · have hfull := isInputFull_eq_true_iff.2 ⟨hpolicy, Nat.le_of_not_lt hlt⟩
    rw [h] at hfull
    exact nomatch hfull

end Bridge

/-! ## When an entry is given up -/

namespace Relay

/-- A registration gives an entry up only if the input is not full and there is no room. -/
theorem evictions_register (r : Relay α) (frame : HandleId) (user : α) :
    (r.register frame user).2.bridge.health.value .evictions = r.bridge.health.value .evictions ∨
    r.bridge.isInputFull = false ∧ r.bridge.maxPending ≤ r.bridge.pending.length := by
  have hr := r.registers_register frame user
  generalize r.register frame user = registration at hr
  cases hr with
  | failed => exact .inl rfl
  | turnedAway => exact .inl (by simp)
  | registered hfull =>
    -- the entry is made in any case; the oldest one goes if that is one too many
    by_cases hroom : r.bridge.maxPending ≤ r.bridge.pending.length
    · exact .inr ⟨hfull, hroom⟩
    · left
      simp only [Bridge.health_enter, if_neg hroom]

/-- A publication gives no entry up. -/
theorem evictions_publish (r : Relay α) (m : Matched α) :
    (r.publish m).2.bridge.health.value .evictions = r.bridge.health.value .evictions := by
  have hp := r.publishes_publish m
  generalize r.publish m = publication at hp
  cases hp with
  | placed => simp
  | dropped => simp
  | waits => rfl

/-- A delivery gives no entry up, whatever it comes to. -/
theorem evictions_deliver (r : Relay α) (item : Item) :
    (r.deliver item).2.bridge.health.value .evictions = r.bridge.health.value .evictions := by
  cases item with
  | endOfStream => rfl
  | sample x =>
    have hd := r.delivers_deliver x
    generalize r.deliver (.sample x) = delivery at hd
    cases hd with
    | unreadable => simp
    | uncorrelated => simp
    | unmatched => simp
    | outOfOrder => simp
    | matched hc hid hr hm hf hd =>
      rw [hd, evictions_publish]
      simp

/-! ## A submission that is turned away -/

/-- The frame is not admitted and its handle is gone.  But for the buffer that it was the last owner
    of, nothing else changes except the count of rejections. -/
def TurnsAway (r : Relay α) (frame : HandleId) (user : α) : Prop :=
  ∃ store, r.submit frame user =
      (.done (.ok false), { r with store, bridge := r.bridge.count .rejections 1 }) ∧
    (∀ h, h ≠ frame → store.handle h = r.store.handle h) ∧
    ∀ b, store.contentOf? b =
      if (r.store.handle frame).target = some ⟨b, true⟩ ∧ r.store.ownersOf b ≤ 1 then none
      else r.store.contentOf? b

/-- A frame that could be read is turned away while the input is full. -/
theorem turnsAway_of_full {r : Relay α} (hfull : r.bridge.isInputFull = true) {frame : HandleId}
    {n : Nat} {b : BufferId} (hsize : (r.store.size frame).1 = .ok n)
    (hlive : r.store.live? frame = some b) (user : α) : r.TurnsAway frame user := by
  have hinfo : ((r.store.size frame).2.unmap frame).info frame = .ok (r.store.infoOf b) := by
    rw [Store.info_unmap_size, Store.info, hlive]
  refine ⟨((r.store.size frame).2.unmap frame).drop frame, ?_, fun h hne => ?_, fun b => ?_⟩
  · rcases hs : r.store.size frame with ⟨result, s⟩
    rw [hs] at hsize hinfo
    cases hsize
    simp only [submit, register, hs, hinfo, hfull, if_true]
    rfl
  · rw [Store.handle_drop_of_ne _ hne, Store.handle_unmap_of_ne _ hne, Store.snd_size,
      Store.handle_mapRead_of_ne _ hne]
  · rw [Store.contentOf?_drop, Store.target_unmap, Store.ownersOf_unmap, Store.contentOf?_unmap,
      Store.snd_size, Store.target_mapRead, Store.ownersOf_mapRead, Store.contentOf?_mapRead]

end Relay

namespace Concurrent

/-! ## Steps -/

/-- A submission that registers its frame found the input not full. -/
theorem not_full_of_registered {w w' : Concurrent α} {t : Ticket} {user : α}
    (h : w.Step (.registered t user) w') : w.relay.bridge.isInputFull = false := by
  cases h with
  | register frame user hreg =>
    have hr := w.relay.registers_register frame user
    rw [hreg] at hr
    cases hr with
    | registered hfull => exact hfull

/-- Only a registration adds an entry, if the input is not full and there is room. -/
theorem growth_of_step {w w' : Concurrent α} {e : Event α} (h : w.Step e w') :
    w'.pending.length ≤ w.pending.length ∨
    w.relay.bridge.isInputFull = false ∧ w.pending.length < w.relay.bridge.maxPending ∧
      w'.pending.length = w.pending.length + 1 := by
  cases effect_of_step h with
  | registered hid hpending =>
    have hlen := w.relay.bridge.length_enter
    rw [hpending, hlen]
    split
    · exact .inl (Nat.le_refl _)
    · rename_i hroom
      exact .inr ⟨not_full_of_registered h, Nat.lt_of_not_le hroom, rfl⟩
  | accepted hpending => exact .inl (Nat.le_of_eq (by rw [hpending]))
  | withdrawn hpending =>
    rw [hpending]
    exact .inl (w.pending.length_withdraw_le _)
  | resolved hc hid hpending =>
    rw [hpending]
    exact .inl (w.pending.length_resolve_le _)
  | ignored hpending => exact .inl (Nat.le_of_eq (by rw [hpending]))
  | forgotten hpending =>
    rw [hpending]
    exact .inl (Nat.zero_le _)
  | other hpending => exact .inl (Nat.le_of_eq (by rw [hpending]))

/-- Only a registration gives an entry up, if the input is not full and there is no room. -/
theorem evictions_of_step {w w' : Concurrent α} {e : Event α} (h : w.Step e w') :
    w'.relay.bridge.health.value .evictions = w.relay.bridge.health.value .evictions ∨
    w.relay.bridge.isInputFull = false ∧ w.relay.bridge.maxPending ≤ w.pending.length := by
  -- the three ways in which a registration can end share one lemma
  have hregister := w.relay.evictions_register
  cases h with
  | register frame user h =>
    have hr := hregister frame user
    rwa [h] at hr
  | @turnAway frame user r h =>
    have hr := hregister frame user
    rwa [h] at hr
  | @fail frame user e r h =>
    have hr := hregister frame user
    rwa [h] at hr
  | measure => exact .inl rfl
  | unmeasured => exact .inl rfl
  | accept => exact .inl (by simp)
  | refuse => exact .inl rfl
  | withdraw => exact .inl (by simp)
  | @deliver item result r h =>
    have hd := w.relay.evictions_deliver item
    rw [h] at hd
    exact .inl hd
  | @park item m r h =>
    have hd := w.relay.evictions_deliver item
    rw [h] at hd
    exact .inl hd
  | @publish m rest r hm h =>
    have hp := w.relay.evictions_publish m
    rw [Relay.publish_of_publish? h] at hp
    exact .inl hp
  | reset => exact .inl (by simp [Relay.resetPending])
  | aside c hc h => exact .inl (by rw [(Relay.untouched_of_isAside hc h).health])

/-! ## States that can be reached -/

/-- There are never more than `maxPending` entries. -/
theorem length_le_of_reaches {s : Settings} {ingestMax : Nat} {w : Concurrent α}
    (h : (Concurrent.new s ingestMax).Reaches w) : w.pending.length ≤ s.maxPending.toNat := by
  induction h with
  | refl => exact Nat.zero_le _
  | tail hreach hstep ih =>
    obtain ⟨e, hstep⟩ := hstep
    obtain ⟨-, -, hmaxPending⟩ := configured_of_reaches hreach
    -- ⟨-, hroom, hlen⟩
    rcases growth_of_step hstep with hle | ⟨-, hroom, hlen⟩
    · omega
    · rw [hmaxPending] at hroom
      omega

/-- Where the input gives way, a registration stays below `maxInput`, and so does not meet the other
    bound. -/
theorem input_bounded_of_reaches {s : Settings} {ingestMax : Nat} {w : Concurrent α}
    (hpolicy : s.discardPolicy = .discardInput)
    (hle : s.maxInputQueue.toNat ≤ s.maxPending.toNat)
    (h : (Concurrent.new s ingestMax).Reaches w) :
    w.pending.length ≤ s.maxInputQueue.toNat ∧ w.relay.bridge.health.value .evictions = 0 := by
  induction h with
  | refl => exact ⟨Nat.zero_le _, rfl⟩
  | @tail w w' hreach hstep ih =>
    obtain ⟨e, hstep⟩ := hstep
    obtain ⟨hlength, hnone⟩ := ih
    obtain ⟨hpolicy', hmaxInput, hmaxPending⟩ := configured_of_reaches hreach
    rw [hpolicy] at hpolicy'
    -- not full means below the lower bound, and so below the upper one
    have hbelow : w.relay.bridge.isInputFull = false → w.pending.length < s.maxInputQueue.toNat := by
      intro hfull
      rw [← hmaxInput]
      exact Bridge.lt_maxInput_of_not_full hpolicy' hfull
    constructor
    · rcases growth_of_step hstep with hshort | ⟨hfull, -, hlen⟩
      · omega
      · have hlt := hbelow hfull
        omega
    · rcases evictions_of_step hstep with hsame | ⟨hfull, hroom⟩
      · rw [hsame, hnone]
      · have hlt := hbelow hfull
        omega

/-- There are never more than `maxPending` entries.  With valid settings under which the input gives
    way there are never more than `maxInputQueue`, none is ever given up, and while there are so many
    a frame that could be submitted is turned away. -/
theorem bounded_of_reaches {s : Settings} {ingestMax : Nat} {w : Concurrent α}
    (h : (Concurrent.new s ingestMax).Reaches w) :
    w.pending.length ≤ s.maxPending.toNat ∧
    (s.discardPolicy = .discardInput → s.validate = .ok () →
      w.pending.length ≤ s.maxInputQueue.toNat ∧
      w.relay.bridge.health.value .evictions = 0 ∧
      (w.pending.length = s.maxInputQueue.toNat → ∀ frame user n b,
        (w.relay.store.size frame).1 = .ok n → w.relay.store.live? frame = some b →
          w.relay.TurnsAway frame user)) := by
  refine ⟨length_le_of_reaches h, fun hpolicy hs => ?_⟩
  have hle := (Settings.validate_eq_ok_iff.1 hs).room.2
  obtain ⟨hlength, hnone⟩ := input_bounded_of_reaches hpolicy hle h
  refine ⟨hlength, hnone, fun hmany frame user n b hsize hlive => ?_⟩
  obtain ⟨hpolicy', hmaxInput, -⟩ := configured_of_reaches h
  have hfull : w.relay.bridge.isInputFull = true := by
    refine Bridge.isInputFull_eq_true_iff.2 ⟨by rw [hpolicy', hpolicy], Nat.le_of_eq ?_⟩
    rw [hmaxInput, hmany]
  exact Relay.turnsAway_of_full hfull hsize hlive user

/-- With room for one frame in flight, a second one is turned away while the first is under way. -/
theorem bounded_turns_second_away : ∃ w : Concurrent Nat,
    (new { maxInputQueue := 1 } 64).Reaches w ∧ w.tickets = [0] ∧ w.pending.length = 1 ∧
      w.pending.length ≤ 100 ∧ w.relay.bridge.health.value .evictions = 0 ∧
      w.relay.TurnsAway 1 8 := by
  obtain ⟨w, n, b, hreach, htickets, hlength, hsize, hlive⟩ : ∃ (w : Concurrent Nat) (n : Nat)
      (b : BufferId), (new { maxInputQueue := 1 } 64).Reaches w ∧ w.tickets = [0] ∧
        w.pending.length = 1 ∧ (w.relay.store.size 1).1 = .ok n ∧
          w.relay.store.live? 1 = some b := by
    have hstart : (new { maxInputQueue := 1 } 64 : Concurrent Nat).Reaches
        (new { maxInputQueue := 1 } 64) := .refl
    have hopen := hstart.step (.aside (.setFlushing false) trivial rfl)
    have hframes := hopen.step (.aside (.elsewhere twoFrames) trivial rfl)
    exact ⟨_, 1, 1, hframes.step (.register 0 7 rfl), rfl, rfl, rfl, rfl⟩
  obtain ⟨hmax, hinput⟩ := bounded_of_reaches hreach
  obtain ⟨-, hnone, haway⟩ := hinput rfl rfl
  exact ⟨w, hreach, htickets, hlength, hmax, hnone, haway hlength 1 8 n b hsize hlive⟩

end Concurrent

end MediaBridge
