import MediaBridge.Proofs.Correspondence.Calls

/-! # What a run has placed

Every pair that a run places in the output queue goes back to one admission: it has the user data that
was submitted then, and its frame shows the sample's bytes with the timing that was submitted.  Ids
are admitted in strictly ascending order, and pairs are placed in strictly ascending order of their
ids.  Nothing is assumed of what the pipeline delivers.

What carries this through a run is `Tracked`: each waiting entry was admitted, and is younger than
everything placed so far.

* `tracked_of_run`        the invariant holds after every run;
* `run_places_admitted`   what a run places, and in what order.
-/

namespace MediaBridge

variable {α : Type u}

namespace Turn

/-- Something was admitted under an id. -/
def AdmitsAs (t : Turn α) (id : Nat) : Prop := ∃ timing user, t.Admits id timing user

/-- A pair was placed for a sample that carried an id. -/
def PlacesFor (t : Turn α) (id : Nat) : Prop := ∃ m c, t.Places m ∧ t.Carries id c

/-- A pair is the answer to one of the turns before: it has the user data and the timing of an
    admission, and the bytes of the sample that carried the id. -/
def Answers (t : Turn α) (prior : List (Turn α)) (m : Matched α) : Prop :=
  ∃ id c timing, t.Carries id c ∧ (∃ t' ∈ prior, t'.Admits id timing m.user) ∧
    t.after.store.content? m.frame =
      some ⟨c.bytes, { timing := { timing with offset := id }, id := some id }⟩

/-- A turn admits one frame at most. -/
theorem Admits.unique {t : Turn α} {id id' : Nat} {timing timing' : Timing} {user user' : α}
    (h : t.Admits id timing user) (h' : t.Admits id' timing' user') :
    id = id' ∧ timing = timing' ∧ user = user' := by
  obtain ⟨frame, info, hcall, -, hinfo, rfl, hafter⟩ := h
  obtain ⟨frame', info', hcall', -, hinfo', rfl, hafter'⟩ := h'
  rw [hcall] at hcall'
  cases hcall'
  rw [hinfo] at hinfo'
  cases hinfo'
  rw [hafter] at hafter'
  have hid := congrArg FrameInfo.id (Except.ok.inj hafter')
  exact ⟨Option.some.inj hid, rfl, rfl⟩

/-- A turn delivers one content at most. -/
theorem Carries.unique {t : Turn α} {id id' : Nat} {c c' : Content} (h : t.Carries id c)
    (h' : t.Carries id' c') : id = id' ∧ c = c' := by
  obtain ⟨x, hcall, hcontent, hid⟩ := h
  obtain ⟨x', hcall', hcontent', hid'⟩ := h'
  rw [hcall] at hcall'
  cases hcall'
  obtain ⟨rfl, rfl⟩ := Store.content?_unique hcontent hid hcontent' hid'
  exact ⟨rfl, rfl⟩

end Turn

/-! ## The invariant -/

/-- What the turns so far and the relay they led to have to do with each other. -/
structure Tracked (turns : List (Turn α)) (r : Relay α) : Prop where
  ascending : r.bridge.pending.Ascending
  -- Ids are admitted in ascending order.
  admissions : turns.Pairwise fun t t' =>
    ∀ id id', t.AdmitsAs id → t'.AdmitsAs id' → id < id'
  -- No id that was admitted is handed out again.
  admitted_lt : ∀ t ∈ turns, ∀ id, t.AdmitsAs id → id < r.bridge.pending.nextId
  -- What waits was admitted.
  waiting : ∀ e ∈ r.bridge.pending.entries, ∃ t ∈ turns, ∃ timing,
    t.Admits e.id timing e.user ∧ e.timing = { timing with offset := e.id }
  -- Pairs are placed in ascending order.
  placements : turns.Pairwise fun t t' =>
    ∀ id id', t.PlacesFor id → t'.PlacesFor id' → id < id'
  -- What waits is younger than what was placed.
  placed_lt : ∀ t ∈ turns, ∀ id, t.PlacesFor id →
    ∀ e ∈ r.bridge.pending.entries, id < e.id
  placed_lt_next : ∀ t ∈ turns, ∀ id, t.PlacesFor id → id < r.bridge.pending.nextId
  -- What was placed was admitted before.
  answers : ∀ prior t rest, turns = prior ++ t :: rest → ∀ m, t.Places m → t.Answers prior m

namespace Tracked

variable {turns : List (Turn α)} {t : Turn α}

/-- At the start nothing waits, and nothing was admitted or placed. -/
theorem start {r : Relay α} (h : r.bridge.pending = {}) : Tracked [] r where
  ascending := by rw [h]; exact .empty
  admissions := .nil
  admitted_lt t ht := absurd ht List.not_mem_nil
  waiting := by
    rw [h]
    exact fun e he => absurd he List.not_mem_nil
  placements := .nil
  placed_lt t ht := absurd ht List.not_mem_nil
  placed_lt_next t ht := absurd ht List.not_mem_nil
  answers prior t rest h := by
    have hlen := congrArg List.length h
    rw [List.length_append, List.length_cons, List.length_nil] at hlen
    omega

/-- A list with one more element at the end, cut at some element. -/
private theorem snoc_eq_append_cons {β : Type u} {l prior rest : List β} {a b : β}
    (h : l ++ [a] = prior ++ b :: rest) :
    (prior = l ∧ b = a ∧ rest = []) ∨ ∃ rest', l = prior ++ b :: rest' := by
  rcases List.eq_nil_or_concat rest with rfl | ⟨rest', c, rfl⟩
  · obtain ⟨rfl, hb⟩ := List.append_inj' h rfl
    cases hb
    exact .inl ⟨rfl, rfl, rfl⟩
  · refine .inr ⟨rest', ?_⟩
    rw [List.concat_eq_append, ← List.cons_append, ← List.append_assoc] at h
    exact (List.append_inj' h rfl).1

/-- One more turn, if it is in order itself. -/
theorem snoc (h : Tracked turns t.before) (hasc : t.after.bridge.pending.Ascending)
    (hnext : t.before.bridge.pending.nextId ≤ t.after.bridge.pending.nextId)
    (hadmits : ∀ id, t.AdmitsAs id →
      id = t.before.bridge.pending.nextId ∧ id < t.after.bridge.pending.nextId)
    (hwaiting : ∀ e ∈ t.after.bridge.pending.entries, e ∈ t.before.bridge.pending.entries ∨
      e.id = t.before.bridge.pending.nextId ∧ ∃ timing,
        t.Admits e.id timing e.user ∧ e.timing = { timing with offset := e.id })
    (hplaces : ∀ id, t.PlacesFor id → (∃ e ∈ t.before.bridge.pending.entries, e.id = id) ∧
      ∀ e ∈ t.after.bridge.pending.entries, id < e.id)
    (hanswers : ∀ m, t.Places m → t.Answers turns m) :
    Tracked (turns ++ [t]) t.after where
  ascending := hasc
  admissions := by
    refine List.pairwise_append.2 ⟨h.admissions, List.pairwise_singleton .., ?_⟩
    intro t' ht' t'' ht'' id id' hid hid'
    cases List.mem_singleton.1 ht''
    rw [(hadmits id' hid').1]
    exact h.admitted_lt t' ht' id hid
  admitted_lt := by
    intro t' ht' id hid
    rcases List.mem_append.1 ht' with ht' | ht'
    · exact Nat.lt_of_lt_of_le (h.admitted_lt t' ht' id hid) hnext
    · cases List.mem_singleton.1 ht'
      exact (hadmits id hid).2
  waiting := by
    intro e he
    rcases hwaiting e he with hold | ⟨-, timing, hadmit, htiming⟩
    · obtain ⟨t', ht', hrest⟩ := h.waiting e hold
      exact ⟨t', List.mem_append_left _ ht', hrest⟩
    · exact ⟨t, List.mem_append_right _ (List.mem_singleton_self t), timing, hadmit, htiming⟩
  placements := by
    refine List.pairwise_append.2 ⟨h.placements, List.pairwise_singleton .., ?_⟩
    intro t' ht' t'' ht'' id id' hid hid'
    cases List.mem_singleton.1 ht''
    -- the new pair's entry was waiting until now
    obtain ⟨⟨e, he, rfl⟩, -⟩ := hplaces id' hid'
    exact h.placed_lt t' ht' id hid e he
  placed_lt := by
    intro t' ht' id hid e he
    rcases List.mem_append.1 ht' with ht' | ht'
    · -- a new entry has the next id, and nothing was placed with that
      rcases hwaiting e he with hold | ⟨hnew, -⟩
      · exact h.placed_lt t' ht' id hid e hold
      · rw [hnew]
        exact h.placed_lt_next t' ht' id hid
    · cases List.mem_singleton.1 ht'
      exact (hplaces id hid).2 e he
  placed_lt_next := by
    intro t' ht' id hid
    rcases List.mem_append.1 ht' with ht' | ht'
    · exact Nat.lt_of_lt_of_le (h.placed_lt_next t' ht' id hid) hnext
    · cases List.mem_singleton.1 ht'
      obtain ⟨⟨e, he, rfl⟩, -⟩ := hplaces id hid
      exact Nat.lt_of_lt_of_le (h.ascending.below e he) hnext
  answers := by
    intro prior t' rest heq m hm
    rcases snoc_eq_append_cons heq with ⟨rfl, rfl, -⟩ | ⟨rest', hold⟩
    · exact hanswers m hm
    · exact h.answers prior t' rest' hold m hm

/-! ## Every turn is in order -/

/-- A turn that admits a frame has the youngest entry, and places nothing. -/
theorem admitted {timing : Timing} {user : α} (h : Tracked turns t.before)
    (ha : t.Admits t.before.bridge.pending.nextId timing user) (hp : ∀ m, ¬t.Places m)
    (hpending : t.after.bridge.pending = (t.before.bridge.enter timing user).pending) :
    Tracked (turns ++ [t]) t.after := by
  have hnext : t.after.bridge.pending.nextId = t.before.bridge.pending.nextId + 1 := by
    rw [hpending, Bridge.nextId_enter]
  apply h.snoc
  · rw [hpending]
    exact Bridge.ascending_enter h.ascending timing user
  · omega
  · rintro id ⟨timing', user', ha'⟩
    have hid := (ha'.unique ha).1
    omega
  · intro e he
    rw [hpending] at he
    rcases Bridge.mem_entries_enter he with hold | rfl
    · exact .inl hold
    · exact .inr ⟨rfl, timing, ha, rfl⟩
  · rintro id ⟨m, c, hm, -⟩
    exact absurd hm (hp m)
  · exact fun m hm => absurd hm (hp m)

/-- A turn that places a pair had its entry waiting, and passes the older ones over. -/
theorem placed {id : Nat} {c : Content} {m : Matched α} {e : PendingEntry α}
    (h : Tracked turns t.before) (ha : ∀ id timing user, ¬t.Admits id timing user)
    (hc : t.Carries id c) (hp : t.Places m)
    (hm : (t.before.bridge.pending.resolve id).1.result = .found e) (huser : m.user = e.user)
    (hshown : t.after.store.content? m.frame = some { c with info := c.info.withTiming e.timing })
    (hpending : t.after.bridge.pending = (t.before.bridge.pending.resolve id).2) :
    Tracked (turns ++ [t]) t.after := by
  obtain ⟨he, heid⟩ := (Pending.found_iff_mem h.ascending).1 hm
  apply h.snoc
  · rw [hpending]
    exact h.ascending.resolve id
  · exact Nat.le_of_eq (by rw [hpending, Pending.nextId_resolve])
  · rintro k ⟨timing, user, hk⟩
    exact absurd hk (ha k timing user)
  · intro f hf
    rw [hpending, Pending.entries_resolve h.ascending] at hf
    exact .inl (List.mem_filter.1 hf).1
  · rintro k ⟨m', c', -, hc'⟩
    rw [(hc'.unique hc).1]
    refine ⟨⟨e, he, heid⟩, fun f hf => ?_⟩
    rw [hpending, Pending.entries_resolve h.ascending] at hf
    simpa using (List.mem_filter.1 hf).2
  · intro m' hm'
    -- one pair only comes last
    have heq : m' = m := by
      rw [Turn.Places] at hp hm'
      rw [hp] at hm'
      exact (List.singleton_inj.1 (List.append_cancel_left hm')).symm
    -- the entry was waiting, so its admission is among the turns before
    obtain ⟨t', ht', timing, hadmit, htiming⟩ := h.waiting e he
    obtain ⟨x, hcall, hcontent, hid⟩ := hc
    rw [heid] at hadmit htiming
    refine ⟨id, c, timing, ⟨x, hcall, hcontent, hid⟩, ⟨t', ht', ?_⟩, ?_⟩
    · rw [heq, huser]
      exact hadmit
    · rw [heq, hshown, FrameInfo.withTiming, htiming, hid]

/-- A turn that does neither takes entries away at most. -/
theorem quiet (h : Tracked turns t.before) (ha : ∀ id timing user, ¬t.Admits id timing user)
    (hp : ∀ m, ¬t.Places m)
    (hnext : t.after.bridge.pending.nextId = t.before.bridge.pending.nextId)
    (hasc : t.after.bridge.pending.Ascending)
    (hentries : t.after.bridge.pending.entries ⊆ t.before.bridge.pending.entries) :
    Tracked (turns ++ [t]) t.after := by
  apply h.snoc hasc (Nat.le_of_eq hnext.symm)
  · rintro id ⟨timing, user, hid⟩
    exact absurd hid (ha id timing user)
  · exact fun e he => .inl (hentries he)
  · rintro id ⟨m, c, hm, -⟩
    exact absurd hm (hp m)
  · exact fun m hm => absurd hm (hp m)

end Tracked

/-- The invariant holds after every run. -/
theorem tracked_of_run {s : Settings} {ingestMax : Nat} {turns : List (Turn α)} {r : Relay α}
    (run : Run (.new s ingestMax) turns r) : Tracked turns r := by
  induction run with
  | start => exact .start rfl
  | turn run h ih =>
    have heffect := Turn.effect_of_call? h
    cases heffect with
    | admitted ha hp hpending => exact ih.admitted ha hp hpending
    | placed ha hc hp hm huser hshown hpending =>
      exact ih.placed ha hc hp hm huser hshown hpending
    | quiet ha hp hnext hentries =>
      obtain ⟨hasc, hsub⟩ := hentries ih.ascending
      exact ih.quiet ha hp hnext hasc hsub

/-- Whatever the pipeline delivers, a pair that comes into the output queue answers one admission,
    no two admissions have the same id, and pairs come in strictly ascending order of their ids. -/
theorem run_places_admitted {s : Settings} {ingestMax : Nat} {turns : List (Turn α)} {r : Relay α}
    (run : Run (.new s ingestMax) turns r) :
    (∀ prior t rest, turns = prior ++ t :: rest → ∀ m, t.Places m →
      ∃ id c timing, t.Carries id c ∧ (∃ t' ∈ prior, t'.Admits id timing m.user) ∧
        t.after.store.content? m.frame =
          some ⟨c.bytes, { timing := { timing with offset := id }, id := some id }⟩) ∧
    (turns.Pairwise fun t t' => ∀ id timing user id' timing' user',
      t.Admits id timing user → t'.Admits id' timing' user' → id < id') ∧
    turns.Pairwise fun t t' => ∀ m id c m' id' c',
      t.Places m → t.Carries id c → t'.Places m' → t'.Carries id' c' → id < id' := by
  have h := tracked_of_run run
  refine ⟨h.answers, h.admissions.imp fun hlt id timing user id' timing' user' ha ha' => ?_,
    h.placements.imp fun hlt m id c m' id' c' hm hc hm' hc' => ?_⟩
  · exact hlt id id' ⟨timing, user, ha⟩ ⟨timing', user', ha'⟩
  · exact hlt id id' ⟨m, c, hm, hc⟩ ⟨m', c', hm', hc'⟩

/-- A frame is submitted, pulled, and delivered as it is. -/
def echo : List (Call Nat) :=
  [.setFlushing false, .elsewhere (Store.newBuffer {} { bytes := ⟨#[1, 2, 3]⟩ }).2, .submit 0 7,
    .pull, .deliver (.sample ⟨0, none⟩)]

/-- What comes back is the frame that went in. -/
theorem run_places_echo : ∃ (prior rest : List (Turn Nat)) (t : Turn Nat) (r : Relay Nat)
    (m : Matched Nat), Run (.new {} 64) (prior ++ t :: rest) r ∧ t.Places m ∧
      ∃ id c timing, t.Carries id c ∧ (∃ t' ∈ prior, t'.Admits id timing m.user) ∧
        t.after.store.content? m.frame =
          some ⟨c.bytes, { timing := { timing with offset := id }, id := some id }⟩ := by
  obtain ⟨t₁, t₂, t₃, t₄, t₅, r, m, hturns, hplaces⟩ :
      ∃ t₁ t₂ t₃ t₄ t₅ r m,
        (Relay.new {} 64 : Relay Nat).turns? echo = some ([t₁, t₂, t₃, t₄, t₅], r) ∧
          t₅.Places m :=
    ⟨_, _, _, _, _, _, ⟨2, 7⟩, rfl, rfl⟩
  have hrun : Run (.new {} 64) ([t₁, t₂, t₃, t₄] ++ t₅ :: []) r := run_of_turns? hturns
  exact ⟨[t₁, t₂, t₃, t₄], [], t₅, r, m, hrun, hplaces,
    (run_places_admitted hrun).1 _ t₅ [] rfl m hplaces⟩

end MediaBridge
