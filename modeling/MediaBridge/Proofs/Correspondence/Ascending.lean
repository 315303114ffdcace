import MediaBridge.Correspondence.Pending

/-! # Pending entries in ascending order

The entries of a bridge stand in strictly ascending order of their ids, and every id is below the
next one that is handed out.  Every operation on pending entries keeps this order, whatever ids it is
given.  With it, the walk over the front of the queue has a description in terms of ids alone:

* `entries_resolve`       a result leaves the entries with greater ids;
* `stale_resolve`         it passes over the entries with smaller ids;
* `found_iff_mem`         it finds the entry with its id, wherever that stands;
* `result_ne_outOfOrder`  it is in order if its entry waits or its id is below the watermark;
* `entries_withdraw`      a withdrawal removes the entries with the id, of which there is at most one;
* `withdraw_register`     a withdrawal right after the registration leaves what was there before.
-/

namespace MediaBridge.Pending

variable {α : Type u}

/-- Entries stand in ascending order of their ids, all of them below the next id. -/
structure Ascending (p : Pending α) : Prop where
  sorted : p.entries.Pairwise fun a b => a.id < b.id
  below : ∀ e ∈ p.entries, e.id < p.nextId

/-! ## Lists in order -/

/-- In a list in order, passing the older entries over at the front removes all of them. -/
private theorem dropWhile_eq_filter {l : List (PendingEntry α)} (id : Nat)
    (h : l.Pairwise fun a b => a.id < b.id) :
    l.dropWhile (fun e => e.id < id) = l.filter fun e => id ≤ e.id := by
  -- the rest of the list is in order as well, so an induction on the list will do
  induction l with
  | nil => rfl
  | cons a rest ih =>
    obtain ⟨ha, hrest⟩ := List.pairwise_cons.1 h
    by_cases hlt : a.id < id
    · rw [List.dropWhile_cons_of_pos (by simpa using hlt),
        List.filter_cons_of_neg (by simpa using hlt)]
      exact ih hrest
    · -- from the first entry that is not older on, none is older
      rw [List.dropWhile_cons_of_neg (by simpa using hlt)]
      refine (List.filter_eq_self.2 fun e he => ?_).symm
      have hle : a.id ≤ e.id := by
        rcases List.mem_cons.1 he with rfl | he
        · exact Nat.le_refl _
        · exact Nat.le_of_lt (ha e he)
      simp only [decide_eq_true_eq]
      omega

/-- In a list in order at most one entry has an id, so removing one removes all. -/
private theorem eraseP_eq_filter {l : List (PendingEntry α)} (id : Nat)
    (h : l.Pairwise fun a b => b.id < a.id) :
    l.eraseP (fun e => e.id = id) = l.filter fun e => e.id ≠ id := by
  induction l with
  | nil => rfl
  | cons a rest ih =>
    obtain ⟨ha, hrest⟩ := List.pairwise_cons.1 h
    by_cases hid : a.id = id
    · rw [List.eraseP_cons_of_pos (by simpa using hid),
        List.filter_cons_of_neg (by simpa using hid)]
      -- the entries behind it are smaller, and none of them is removed
      refine (List.filter_eq_self.2 fun e he => ?_).symm
      have hlt := ha e he
      simp only [decide_eq_true_eq]
      omega
    · rw [List.eraseP_cons_of_neg (by simpa using hid),
        List.filter_cons_of_pos (by simpa using hid), ih hrest]

/-- Registering adds one entry. -/
theorem length_register (p : Pending α) (timing : Timing) (user : α) :
    (p.register timing user).length = p.length + 1 := List.length_append ..

/-! ## What a withdrawal removes -/

/-- Only the youngest entry is looked at if it has the id. -/
theorem removeLast_append_self {id : Nat} {e : PendingEntry α} (entries : List (PendingEntry α))
    (h : e.id = id) : removeLast id (entries ++ [e]) = entries := by
  rw [removeLast, List.reverse_append, List.reverse_singleton, List.singleton_append,
    List.eraseP_cons_of_pos (by simpa using h), List.reverse_reverse]

/-- A withdrawal removes the entries with the id, wherever they stand. -/
theorem entries_withdraw {p : Pending α} (h : p.entries.Pairwise fun a b => a.id < b.id)
    (id : Nat) : (p.withdraw id).entries = p.entries.filter fun e => e.id ≠ id := by
  -- a withdrawal looks for the youngest entry first, that is, in the reversed list
  have hrev : p.entries.reverse.Pairwise fun a b => b.id < a.id := List.pairwise_reverse.2 h
  simp only [withdraw, removeLast]
  rw [eraseP_eq_filter id hrev, ← List.filter_reverse, List.reverse_reverse]

/-- A withdrawal right after the registration leaves what was there before. -/
theorem withdraw_register (p : Pending α) (timing : Timing) (user : α) :
    (p.register timing user).withdraw p.nextId = p := by
  have hid : (p.nextEntry timing user).id = p.nextId := rfl
  simp only [withdraw, register, if_true]
  rw [removeLast_append_self p.entries hid]

/-- The next id goes back only to an id that was the last one handed out. -/
theorem nextId_withdraw (p : Pending α) (id : Nat) :
    (p.withdraw id).nextId = if p.nextId = id + 1 then id else p.nextId := rfl

/-! ## Giving up the oldest entry -/

/-- The oldest entry goes, and with it every id up to its own is given up. -/
theorem evict_of_entries {p : Pending α} {e : PendingEntry α} {rest : List (PendingEntry α)}
    (h : p.entries = e :: rest) :
    p.evict = { p with entries := rest, watermark := e.id + 1 } := by
  rw [evict, h]

/-- Without an entry there is nothing to give up. -/
theorem evict_of_nil {p : Pending α} (h : p.entries = []) : p.evict = p := by rw [evict, h]

/-- Giving up removes the first entry, if there is one. -/
theorem entries_evict (p : Pending α) : p.evict.entries = p.entries.tail := by
  cases h : p.entries with
  | nil => rw [evict_of_nil h]; exact h
  | cons e rest => rw [evict_of_entries h]; rfl

/-- There is one entry less afterwards. -/
theorem length_evict (p : Pending α) : p.evict.length = p.length - 1 := by
  rw [length, entries_evict, List.length_tail]
  rfl

/-- No id is handed out or taken back. -/
@[simp] theorem nextId_evict (p : Pending α) : p.evict.nextId = p.nextId := by
  cases h : p.entries with
  | nil => rw [evict_of_nil h]
  | cons e rest => rw [evict_of_entries h]

/-! ## What a result finds and leaves -/

/-- The entries that are not older than an id: the entry with the id, if there is one, and then the
    entries with greater ids. -/
private theorem filter_le_cases {l : List (PendingEntry α)} (id : Nat)
    (h : l.Pairwise fun a b => a.id < b.id) :
    (∃ e ∈ l, e.id = id ∧
      (l.filter fun e => id ≤ e.id) = e :: l.filter fun e => id < e.id) ∨
    (∀ e ∈ l, e.id ≠ id) ∧
      (l.filter fun e => id ≤ e.id) = l.filter fun e => id < e.id := by
  -- by induction on the list: its first entry is older than the id, or nothing behind it is
  induction l with
  | nil => exact .inr ⟨nofun, rfl⟩
  | cons a rest ih =>
    obtain ⟨ha, hrest⟩ := List.pairwise_cons.1 h
    by_cases hlt : a.id < id
    · -- an older entry counts for neither side
      rw [List.filter_cons_of_neg (by simp only [decide_eq_true_eq]; omega),
        List.filter_cons_of_neg (by simp only [decide_eq_true_eq]; omega)]
      rcases ih hrest with ⟨e, he, hid, heq⟩ | ⟨hne, heq⟩
      · exact .inl ⟨e, List.mem_cons_of_mem _ he, hid, heq⟩
      · refine .inr ⟨fun e he => ?_, heq⟩
        rcases List.mem_cons.1 he with rfl | he
        · omega
        · exact hne e he
    · -- the first entry is not older, so all the others are younger
      have hgt : ∀ e ∈ rest, id < e.id := fun e he => by
        have := ha e he
        omega
      have hall : rest.filter (fun e => id < e.id) = rest :=
        List.filter_eq_self.2 fun e he => by simpa using hgt e he
      have hall' : rest.filter (fun e => id ≤ e.id) = rest :=
        List.filter_eq_self.2 fun e he => by simpa using Nat.le_of_lt (hgt e he)
      rw [List.filter_cons_of_pos (by simp only [decide_eq_true_eq]; omega), hall']
      by_cases hid : a.id = id
      · rw [List.filter_cons_of_neg (by simp only [decide_eq_true_eq]; omega), hall]
        exact .inl ⟨a, List.mem_cons_self .., hid, rfl⟩
      · rw [List.filter_cons_of_pos (by simp only [decide_eq_true_eq]; omega), hall]
        refine .inr ⟨fun e he => ?_, rfl⟩
        rcases List.mem_cons.1 he with rfl | he
        · exact hid
        · exact Nat.ne_of_gt (hgt e he)

/-- A result leaves exactly the entries with greater ids. -/
theorem entries_resolve {p : Pending α} (h : p.Ascending) (id : Nat) :
    (p.resolve id).2.entries = p.entries.filter fun e => id < e.id := by
  unfold resolve
  rw [dropWhile_eq_filter id h.sorted]
  -- what is left over is decided by the first entry that is not older than the id
  rcases filter_le_cases id h.sorted with ⟨e, -, hid, heq⟩ | ⟨hne, heq⟩
  · simp only [heq, hid, if_true]
  · rw [heq]
    cases hleft : p.entries.filter fun e => id < e.id with
    | nil => rfl
    | cons e rest =>
      have hmem : e ∈ p.entries.filter fun e => id < e.id := by
        rw [hleft]
        exact List.mem_cons_self ..
      simp only [hne e (List.mem_filter.1 hmem).1, if_false]
      split <;> rfl

/-- A result adds no entry. -/
theorem entries_resolve_subset {p : Pending α} (h : p.Ascending) (id : Nat) :
    (p.resolve id).2.entries ⊆ p.entries := by
  rw [entries_resolve h]
  exact fun e he => (List.mem_filter.1 he).1

/-- A result finds the entry with its id, wherever that stands. -/
theorem found_iff_mem {p : Pending α} (h : p.Ascending) {id : Nat} {e : PendingEntry α} :
    (p.resolve id).1.result = .found e ↔ e ∈ p.entries ∧ e.id = id := by
  rw [resolve_found_iff, dropWhile_eq_filter id h.sorted]
  constructor
  · rintro ⟨hhead, hid⟩
    exact ⟨(List.mem_filter.1 (List.mem_of_mem_head? hhead)).1, hid⟩
  · -- the entry with the id is the first one that is not older
    rintro ⟨hmem, hid⟩
    refine ⟨?_, hid⟩
    rcases filter_le_cases id h.sorted with ⟨f, -, -, heq⟩ | ⟨hne, -⟩
    · have hmem' : e ∈ p.entries.filter fun e => id ≤ e.id :=
        List.mem_filter.2 ⟨hmem, by simp only [decide_eq_true_eq]; omega⟩
      rw [heq] at hmem' ⊢
      rcases List.mem_cons.1 hmem' with rfl | hgt
      · rfl
      · have hlt : id < e.id := by simpa using (List.mem_filter.1 hgt).2
        omega
    · exact absurd hid (hne e hmem)

/-- As many entries are passed over as have smaller ids. -/
theorem stale_resolve {p : Pending α} (h : p.Ascending) (id : Nat) :
    (p.resolve id).1.stale = p.entries.countP fun e => e.id < id := by
  have hstale : (p.resolve id).1.stale = (p.entries.takeWhile fun e => e.id < id).length := by
    unfold resolve; repeat' split
    all_goals rfl
  have hpassed : (p.entries.takeWhile fun e => e.id < id).countP (fun e => e.id < id) =
      (p.entries.takeWhile fun e => e.id < id).length :=
    List.countP_eq_length.2 (List.all_eq_true.1 List.all_takeWhile)
  have hleft : (p.entries.dropWhile fun e => e.id < id).countP (fun e => e.id < id) = 0 := by
    rw [dropWhile_eq_filter id h.sorted, List.countP_eq_zero]
    intro e he
    have hle : id ≤ e.id := by simpa using (List.mem_filter.1 he).2
    simpa using hle
  -- of the two parts of the queue the first has only older entries, and the second has none
  have hboth := congrArg (List.countP fun e : PendingEntry α => e.id < id)
    (List.takeWhile_append_dropWhile (p := fun e : PendingEntry α => decide (e.id < id))
      (l := p.entries))
  rw [List.countP_append, hpassed, hleft, ← hstale] at hboth
  exact hboth

/-- A result is in order if its entry waits, or if its id was given up before. -/
theorem result_ne_outOfOrder {p : Pending α} (h : p.Ascending) {id : Nat}
    (hid : (∃ e ∈ p.entries, e.id = id) ∨ id < p.watermark) (oldest : Nat) :
    (p.resolve id).1.result ≠ .outOfOrder oldest := by
  intro hout
  rcases hid with ⟨e, he, heid⟩ | hlt
  · rw [(found_iff_mem h).2 ⟨he, heid⟩] at hout
    exact nomatch hout
  · -- below the watermark a result is only ever unmatched
    revert hout
    unfold resolve
    split
    · exact nofun
    · split <;> exact nofun

/-- A result whose entry does not wait is judged by the oldest entry that it leaves. -/
theorem result_of_not_mem {p : Pending α} {id : Nat} (hne : ∀ e ∈ p.entries, e.id ≠ id) :
    (p.resolve id).1.result =
      match (p.resolve id).2.entries with
      | [] => .unmatched
      | e :: _ => if id < p.watermark then .unmatched else .outOfOrder e.id := by
  unfold resolve
  split
  · rfl
  · rename_i e rest hleft
    have hmem : e ∈ p.entries :=
      (List.dropWhile_sublist fun e : PendingEntry α => decide (e.id < id)).subset
        (by rw [hleft]; exact List.mem_cons_self ..)
    simp only [hne e hmem, if_false]
    split <;> rfl

/-! ## The order is kept -/

namespace Ascending

variable {p : Pending α}

/-- Nothing is out of order at the start. -/
theorem empty : ({} : Pending α).Ascending := ⟨.nil, nofun⟩

/-- A new entry gets the greatest id so far, and stands last. -/
theorem register (h : p.Ascending) (timing : Timing) (user : α) :
    (p.register timing user).Ascending := by
  constructor
  · refine List.pairwise_append.2 ⟨h.sorted, List.pairwise_singleton .., ?_⟩
    intro a ha b hb
    rw [List.mem_singleton.1 hb]
    exact h.below a ha
  · intro e he
    rcases List.mem_append.1 he with he | he
    · exact Nat.lt_succ_of_lt (h.below e he)
    · rw [List.mem_singleton.1 he]
      exact Nat.lt_succ_self _

/-- Giving the oldest entry up keeps the order. -/
theorem evict (h : p.Ascending) : p.evict.Ascending := by
  constructor
  · rw [entries_evict]
    exact h.sorted.sublist (List.tail_sublist _)
  · rw [entries_evict, nextId_evict]
    exact fun e he => h.below e (List.mem_of_mem_tail he)

/-- So does a withdrawal, although it may lower the next id. -/
theorem withdraw (h : p.Ascending) (id : Nat) : (p.withdraw id).Ascending := by
  constructor
  · rw [entries_withdraw h.sorted]
    exact h.sorted.filter _
  · intro e he
    rw [entries_withdraw h.sorted] at he
    obtain ⟨hmem, hne⟩ := List.mem_filter.1 he
    have hlt := h.below e hmem
    have hid : e.id ≠ id := by simpa using hne
    rw [nextId_withdraw]
    -- if the next id is lowered, the entry with that id is gone
    split <;> omega

/-- Forgetting all entries leaves nothing that could be out of order. -/
theorem reset (p : Pending α) : p.reset.Ascending := ⟨.nil, nofun⟩

/-- A result keeps the order of the entries that it leaves. -/
theorem resolve (h : p.Ascending) (id : Nat) : (p.resolve id).2.Ascending := by
  constructor
  · rw [entries_resolve h]
    exact h.sorted.filter _
  · rw [entries_resolve h, nextId_resolve]
    exact fun e he => h.below e (List.mem_filter.1 he).1

end Ascending

end MediaBridge.Pending
