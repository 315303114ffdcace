/-! # Tables with fresh keys

A table keeps values under keys that it hands out itself, in ascending order and never twice, so a
key whose value was taken out stays without a value for good.

The view of a table is `get?`; each operation has one equation for it:

* `get?_add`     the new key has the new value, the others are as before;
* `get?_update`  one value is changed in place;
* `get?_erase`   one key loses its value.

`count` counts the values with a property, and `count_add`, `count_update` and `count_erase` say how
an operation moves that number.
-/

namespace MediaBridge

/-- Values under keys of the table's own choice. -/
structure Table (α : Type u) where
  /-- The next key. -/
  next : Nat
  /-- The keys in use with their values, newest first. -/
  cells : List (Nat × α)
  descending : cells.Pairwise fun a b => b.1 < a.1
  below : ∀ c ∈ cells, c.1 < next

namespace Table

variable {α : Type u}

/-- The table without values. -/
def empty : Table α := ⟨0, [], .nil, by simp⟩

instance : Inhabited (Table α) := ⟨empty⟩

/-- The value of a key. -/
def get? (t : Table α) (k : Nat) : Option α := t.cells.lookup k

/-- Stores a value under a new key. -/
def add (t : Table α) (v : α) : Nat × Table α :=
  (t.next, ⟨t.next + 1, (t.next, v) :: t.cells, List.pairwise_cons.2 ⟨t.below, t.descending⟩,
    fun c h => by
      rcases List.mem_cons.1 h with rfl | h
      · exact Nat.lt_succ_self _
      · exact Nat.lt_succ_of_lt (t.below c h)⟩)

/-- Changes the value of one key in place. -/
def update (t : Table α) (k : Nat) (f : α → α) : Table α :=
  ⟨t.next, t.cells.map fun c => if c.1 = k then (c.1, f c.2) else c,
    List.pairwise_map.2 (t.descending.imp fun h => by split <;> split <;> exact h),
    fun c h => by
      obtain ⟨d, hd, rfl⟩ := List.mem_map.1 h
      have := t.below d hd
      split <;> exact this⟩

/-- Replaces the value of one key. -/
def set (t : Table α) (k : Nat) (v : α) : Table α := t.update k fun _ => v

/-- Takes the value of a key out. -/
def erase (t : Table α) (k : Nat) : Table α :=
  ⟨t.next, t.cells.filter fun c => c.1 != k, t.descending.filter _,
    fun c h => t.below c (List.mem_filter.1 h).1⟩

/-- The number of values with a property. -/
def count (t : Table α) (p : α → Bool) : Nat := t.cells.countP fun c => p c.2

/-! ## The value of a key -/

/-- The first cell comes before the others. -/
private theorem lookup_cons_ite (k : Nat) (c : Nat × α) (r : List (Nat × α)) :
    (c :: r).lookup k = if k = c.1 then some c.2 else r.lookup k := by
  rw [List.lookup_cons]
  by_cases e : k = c.1
  · simp [e]
  · rw [beq_false_of_ne e, if_neg e]

@[simp] theorem get?_empty (k : Nat) : (empty : Table α).get? k = none := rfl

@[simp] theorem fst_add (t : Table α) (v : α) : (t.add v).1 = t.next := rfl

/-- A new value is found under the key that was handed out for it, and the others as before. -/
@[simp] theorem get?_add (t : Table α) (v : α) (k : Nat) :
    (t.add v).2.get? k = if k = t.next then some v else t.get? k :=
  lookup_cons_ite ..

/-- Only the value of the key is changed. -/
@[simp] theorem get?_update (t : Table α) (k : Nat) (f : α → α) (j : Nat) :
    (t.update k f).get? j = if j = k then (t.get? j).map f else t.get? j := by
  simp only [get?, update]
  induction t.cells with
  | nil => simp
  | cons c r ih =>
    rw [List.map_cons, lookup_cons_ite, lookup_cons_ite, ih]
    -- the cell in front has the key looked for, or the key changed, or neither
    by_cases e : j = k
    · subst e
      by_cases e' : j = c.1
      · simp [e']
      · simp [e', Ne.symm e']
    · by_cases e' : j = c.1
      · subst e'; simp [e]
      · by_cases e'' : c.1 = k <;> simp [e, e', e'']

@[simp] theorem get?_set (t : Table α) (k : Nat) (v : α) (j : Nat) :
    (t.set k v).get? j = if j = k then (t.get? j).map fun _ => v else t.get? j :=
  get?_update ..

/-- A value that was taken out is not found any more. -/
@[simp] theorem get?_erase (t : Table α) (k j : Nat) :
    (t.erase k).get? j = if j = k then none else t.get? j := by
  simp only [get?, erase]
  induction t.cells with
  | nil => simp
  | cons c r ih =>
    by_cases e : c.1 = k
    · rw [List.filter_cons_of_neg (by simp [e]), ih, lookup_cons_ite]
      by_cases e' : j = k
      · simp [e']
      · rw [if_neg e', if_neg e', if_neg (fun h => e' (h.trans e))]
    · rw [List.filter_cons_of_pos (by simp [e]), lookup_cons_ite, ih, lookup_cons_ite]
      by_cases e' : j = k
      · subst e'; rw [if_pos rfl, if_pos rfl, if_neg (Ne.symm e)]
      · rw [if_neg e', if_neg e']

/-- Keys still to be handed out have no value. -/
theorem get?_of_next_le (t : Table α) {k : Nat} (h : t.next ≤ k) : t.get? k = none := by
  unfold get?
  have hb := t.below
  generalize t.cells = cells at hb
  induction cells with
  | nil => rfl
  | cons c r ih =>
    have := hb c (List.mem_cons_self ..)
    rw [lookup_cons_ite, if_neg (by omega)]
    exact ih fun d hd => hb d (List.mem_cons_of_mem _ hd)

/-- What is in a table is found under its key. -/
theorem get?_of_mem {t : Table α} {c : Nat × α} (hc : c ∈ t.cells) : t.get? c.1 = some c.2 := by
  have hd := t.descending
  unfold get?
  generalize t.cells = cells at hc hd
  induction cells with
  | nil => cases hc
  | cons d r ih =>
    obtain ⟨hlt, hr⟩ := List.pairwise_cons.1 hd
    rw [lookup_cons_ite]
    rcases List.mem_cons.1 hc with rfl | hmem
    · rw [if_pos rfl]
    · rw [if_neg (Nat.ne_of_lt (hlt c hmem))]
      exact ih hmem hr

/-! ## Counting values -/

@[simp] theorem count_empty (p : α → Bool) : (empty : Table α).count p = 0 := rfl

@[simp] theorem count_add (t : Table α) (v : α) (p : α → Bool) :
    (t.add v).2.count p = t.count p + if p v then 1 else 0 := List.countP_cons ..

/-- A key that is larger than all others changes nothing. -/
private theorem map_update_of_lt {k : Nat} {cells : List (Nat × α)} (f : α → α)
    (h : ∀ c ∈ cells, c.1 < k) :
    (cells.map fun c => if c.1 = k then (c.1, f c.2) else c) = cells := by
  induction cells with
  | nil => rfl
  | cons c r ih =>
    have := h c (List.mem_cons_self ..)
    rw [List.map_cons, if_neg (by omega), ih fun d hd => h d (List.mem_cons_of_mem _ hd)]

/-- A key that is larger than all others takes nothing out. -/
private theorem filter_ne_of_lt {k : Nat} {cells : List (Nat × α)} (h : ∀ c ∈ cells, c.1 < k) :
    (cells.filter fun c => c.1 != k) = cells :=
  List.filter_eq_self.2 fun c hc => by have := h c hc; simp; omega

/-- Changing one value moves the count by what that value counted before and counts after. -/
theorem count_update {t : Table α} {k : Nat} {v : α} (h : t.get? k = some v) (f : α → α)
    (p : α → Bool) :
    (t.update k f).count p + (if p v then 1 else 0) = t.count p + if p (f v) then 1 else 0 := by
  simp only [get?] at h
  simp only [count, update]
  have hd := t.descending
  generalize t.cells = cells at h hd
  induction cells with
  | nil => simp at h
  | cons c r ih =>
    obtain ⟨hc, hr⟩ := List.pairwise_cons.1 hd
    rw [lookup_cons_ite] at h
    -- keys descend, so the cell with the key is the only one
    split at h
    · rename_i e
      subst e
      simp only [Option.some.injEq] at h
      subst h
      simp only [List.map_cons, if_true, List.countP_cons, map_update_of_lt f hc]
      omega
    · rename_i e
      have := ih h hr
      simp only [List.map_cons, if_neg (fun x => e (Eq.symm x)), List.countP_cons] at this ⊢
      omega

/-- Replacing one value moves the count by what the two values count. -/
theorem count_set {t : Table α} {k : Nat} {v : α} (h : t.get? k = some v) (w : α) (p : α → Bool) :
    (t.set k w).count p + (if p v then 1 else 0) = t.count p + if p w then 1 else 0 :=
  count_update h ..

/-- Taking a value out lowers the count by what it counted. -/
theorem count_erase {t : Table α} {k : Nat} {v : α} (h : t.get? k = some v) (p : α → Bool) :
    (t.erase k).count p + (if p v then 1 else 0) = t.count p := by
  simp only [get?] at h
  simp only [count, erase]
  have hd := t.descending
  generalize t.cells = cells at h hd
  induction cells with
  | nil => simp at h
  | cons c r ih =>
    obtain ⟨hc, hr⟩ := List.pairwise_cons.1 hd
    rw [lookup_cons_ite] at h
    split at h
    · rename_i e
      subst e
      simp only [Option.some.injEq] at h
      subst h
      rw [List.filter_cons_of_neg (by simp), filter_ne_of_lt hc, List.countP_cons]
    · rename_i e
      have := ih h hr
      rw [List.filter_cons_of_pos (by simpa using fun x => e (Eq.symm x)), List.countP_cons,
        List.countP_cons]
      omega

/-- Some value has a property exactly when the count of it is positive. -/
theorem count_pos_of_get? {t : Table α} {k : Nat} {v : α} (h : t.get? k = some v) {p : α → Bool}
    (hp : p v) : 0 < t.count p := by
  have := count_erase h p
  rw [hp] at this
  simp only [if_true] at this
  omega

/-- Where something counts, some value has the property. -/
theorem exists_of_count_pos {t : Table α} {p : α → Bool} (h : 0 < t.count p) :
    ∃ k v, t.get? k = some v ∧ p v := by
  obtain ⟨c, hc, hp⟩ := List.countP_pos_iff.1 h
  exact ⟨c.1, c.2, get?_of_mem hc, hp⟩

/-- If the count is one, no two keys have a value with the property. -/
theorem eq_of_count_eq_one {t : Table α} {p : α → Bool} {k j : Nat} {v w : α} (h : t.count p = 1)
    (hk : t.get? k = some v) (hv : p v) (hj : t.get? j = some w) (hw : p w) : j = k := by
  refine Decidable.byContradiction fun hne => ?_
  have hrest := count_erase hk p
  have hpos : 0 < (t.erase k).count p :=
    count_pos_of_get? (by rw [get?_erase, if_neg hne, hj]) hw
  rw [if_pos hv] at hrest
  omega

/-- A key without a value can be taken out for nothing. -/
theorem count_erase_of_none {t : Table α} {k : Nat} (h : t.get? k = none) (p : α → Bool) :
    (t.erase k).count p = t.count p := by
  have hcells : (t.erase k).cells = t.cells := by
    refine List.filter_eq_self.2 fun c hc => ?_
    have hne : c.1 ≠ k := by
      rintro rfl
      rw [get?_of_mem hc] at h
      cases h
    simpa using hne
  rw [count, hcells, count]

end Table

end MediaBridge
