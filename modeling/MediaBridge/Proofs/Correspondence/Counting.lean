import MediaBridge.Proofs.Correspondence.Outcomes

/-! # What is counted at each step

Every step of a submission or a delivery raises a few counters by known amounts and leaves the others
alone.  The lemmas here say so once for each step, as a chain of `Health.add`; with `Health.value_add`
they give the value of every counter after it.
-/

namespace MediaBridge

variable {α : Type u}

/-- Adding to one counter leaves the others alone. -/
theorem Health.value_add_of_ne {c d : Counter} (hne : d ≠ c) (h : Health) (n : Nat) :
    (h.add c n).value d = h.value d := by rw [Health.value_add, if_neg hne]

/-- A counter that is not among some leaves these alone. -/
theorem Health.value_add_of_mem {cs : List Counter} {c d : Counter} (hd : d ∈ cs) (hc : c ∉ cs)
    (h : Health) (n : Nat) : (h.add c n).value d = h.value d := by
  have hne : d ≠ c := fun heq => hc (heq ▸ hd)
  exact value_add_of_ne hne h n

/-- Counting once raises that counter by one. -/
theorem Health.value_add_one (h : Health) (c d : Counter) :
    (h.add c 1).value d = h.value d + if d = c then 1 else 0 := by
  -- the amount is a number that becomes a counter's word, which for one is one
  rw [Health.value_add]
  split
  · rename_i hc
    rw [hc]
    rfl
  · exact (UInt64.add_zero _).symm

namespace Bridge

/-! ## The health record after each step -/

/-- Counting is all that counting does to the record. -/
@[simp] theorem health_count (b : Bridge α) (c : Counter) (n : Nat) :
    (b.count c n).health = b.health.add c n := rfl

/-- A submission that is turned away is a rejection. -/
@[simp] theorem health_reject (b : Bridge α) : b.reject.health = b.health.add .rejections 1 := rfl

/-- Giving up the oldest entry is counted, whether or not it is noted in the log. -/
@[simp] theorem health_evict (b : Bridge α) : b.evict.health = b.health.add .evictions 1 :=
  health_noteIf ..

/-- A registration counts the entry that makes place for the new one. -/
@[simp] theorem health_enter (b : Bridge α) (timing : Timing) (user : α) :
    (b.enter timing user).health =
      if b.maxPending ≤ b.pending.length then b.health.add .evictions 1 else b.health := by
  split
  · rename_i h
    rw [enter_of_le h, health_evict]
  · rename_i h
    rw [enter_of_lt (Nat.lt_of_not_le h)]

/-- Only the count of given up entries depends on a registration, and only without room. -/
theorem value_enter (b : Bridge α) (timing : Timing) (user : α) (c : Counter) :
    (b.enter timing user).health.value c = b.health.value c +
      if c = .evictions ∧ b.maxPending ≤ b.pending.length then 1 else 0 := by
  rw [health_enter]
  -- the two sides differ in where the condition stands
  by_cases h : b.maxPending ≤ b.pending.length
  · simp only [h, if_true, and_true, Health.value_add_one]
  · simp only [h, if_false, and_false, UInt64.add_zero]

/-- All other counters are as they were. -/
theorem value_enter_of_ne {c : Counter} (hc : c ≠ .evictions) (b : Bridge α) (timing : Timing)
    (user : α) : (b.enter timing user).health.value c = b.health.value c := by
  rw [value_enter, if_neg fun h => hc h.1, UInt64.add_zero]

/-- A registration that is taken back is a rejection. -/
@[simp] theorem health_withdraw (b : Bridge α) (id : Nat) :
    (b.withdraw id).health = b.health.add .rejections 1 := rfl

/-- An accepted submission counts itself and its bytes. -/
@[simp] theorem health_confirm (b : Bridge α) (size : Nat) :
    (b.confirm size).health = (b.health.add .submitted 1).add .bytesIn size := rfl

/-- A sample that cannot be read is counted as such. -/
@[simp] theorem health_dropUnreadable (b : Bridge α) (e : Error) :
    (b.dropUnreadable e).health = b.health.add .unreadable 1 := rfl

/-- So is one without an id, whether or not it is noted in the log. -/
@[simp] theorem health_dropUncorrelated (b : Bridge α) :
    b.dropUncorrelated.health = b.health.add .uncorrelated 1 := health_noteIf ..

/-- A result counts its bytes and the entries that it passes over. -/
@[simp] theorem health_resolve (b : Bridge α) (id size : Nat) :
    (b.resolve id size).2.health =
      (b.health.add .bytesOut size).add .stale (b.pending.resolve id).1.stale := rfl

/-- A result without an entry is counted as such. -/
@[simp] theorem health_dropUnmatched (b : Bridge α) (id : Nat) :
    (b.dropUnmatched id).health = b.health.add .unmatched 1 := rfl

/-- A pair without room is counted, whether or not it is noted in the log. -/
@[simp] theorem health_dropOutput (b : Bridge α) :
    b.dropOutput.health = b.health.add .outputDrops 1 := health_noteIf ..

/-- Forgotten entries count as passed over. -/
@[simp] theorem health_resetPending (b : Bridge α) :
    b.resetPending.2.health = b.health.add .stale b.pending.length := rfl

/-! ## Entries after a registration -/

/-- A registration adds an entry if there is room, and replaces one if there is none. -/
theorem length_enter (b : Bridge α) (timing : Timing) (user : α) :
    (b.enter timing user).pending.length =
      if b.maxPending ≤ b.pending.length then b.pending.length else b.pending.length + 1 := by
  split
  · rename_i h
    rw [enter_of_le h, pending_evict, Pending.length_evict, Pending.length_register]
    omega
  · rename_i h
    rw [enter_of_lt (Nat.lt_of_not_le h), Pending.length_register]

/-- If any entry may wait, the new one does. -/
theorem nextEntry_mem_enter {b : Bridge α} (hpos : 0 < b.maxPending) (timing : Timing) (user : α) :
    b.pending.nextEntry timing user ∈ (b.enter timing user).pending.entries := by
  rcases Nat.lt_or_ge b.pending.length b.maxPending with h | h
  · rw [enter_of_lt h]
    exact List.mem_append_right _ (List.mem_singleton_self _)
  · -- there is no room, so there is an entry that can make place
    cases hentries : b.pending.entries with
    | nil =>
      have hlen : b.pending.length = 0 := by rw [Pending.length, hentries]; rfl
      omega
    | cons e rest =>
      rw [enter_of_le h, pending_evict, Pending.entries_evict, Pending.register, hentries]
      exact List.mem_append_right _ (List.mem_singleton_self _)

/-! ## Entries after a registration that was taken back -/

/-- If there is room for one entry at least, a registration that is taken back leaves the entries as
    they were, but for the oldest one if that had to make place. -/
theorem pending_withdraw_enter {b : Bridge α} (hpos : 0 < b.maxPending) (timing : Timing)
    (user : α) :
    ((b.enter timing user).withdraw b.pending.nextId).pending =
      if b.maxPending ≤ b.pending.length then b.pending.evict else b.pending := by
  split
  · rename_i h
    -- there is an oldest entry, and it is not the new one
    obtain ⟨e, rest, hentries⟩ : ∃ e rest, b.pending.entries = e :: rest := by
      cases hentries : b.pending.entries with
      | nil =>
        have hlen : b.pending.length = 0 := by rw [Pending.length, hentries]; rfl
        omega
      | cons e rest => exact ⟨e, rest, rfl⟩
    have hregister : (b.pending.register timing user).entries =
        e :: (rest ++ [b.pending.nextEntry timing user]) := by
      rw [Pending.register, hentries]
      rfl
    have hid : (b.pending.nextEntry timing user).id = b.pending.nextId := rfl
    rw [enter_of_le h, pending_withdraw, pending_evict, Pending.evict_of_entries hregister,
      Pending.evict_of_entries hentries]
    simp only [Pending.withdraw, Pending.register, if_true]
    rw [Pending.removeLast_append_self rest hid]
  · rename_i h
    rw [enter_of_lt (Nat.lt_of_not_le h), pending_withdraw]
    exact b.pending.withdraw_register timing user

end Bridge

end MediaBridge
