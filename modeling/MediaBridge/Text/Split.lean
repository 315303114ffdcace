/-! # Cutting a text at a separator

* `pieces` cuts at every separator and always yields at least one piece;
* `cut` cuts at the first separator, if there is one;
* `pieces_join`, `cut_eq_some_iff` say that cutting undoes joining.
-/

namespace MediaBridge.Text

/-- The stretches of a text between separators, empty ones included. -/
def pieces (sep : Char) : List Char → List (List Char)
  | [] => [[]]
  | c :: r =>
    if c = sep then [] :: pieces sep r
    else match pieces sep r with
      | [] => [[c]]
      | p :: ps => (c :: p) :: ps

theorem pieces_ne_nil (sep : Char) (s : List Char) : pieces sep s ≠ [] := by
  cases s with
  | nil => simp [pieces]
  | cons c r =>
    rw [pieces]
    split
    · simp
    · split <;> simp

/-- No piece holds the separator. -/
theorem not_mem_of_mem_pieces {sep : Char} {s p : List Char} (h : p ∈ pieces sep s) : sep ∉ p := by
  induction s generalizing p with
  | nil => simp [pieces] at h; simp [h]
  | cons c r ih =>
    rw [pieces] at h
    split at h
    · rcases List.mem_cons.1 h with rfl | h
      · simp
      · exact ih h
    · rename_i hc
      split at h
      · rename_i hr; exact absurd hr (pieces_ne_nil sep r)
      · rename_i q qs hr
        rcases List.mem_cons.1 h with rfl | h
        · have := ih (p := q) (by rw [hr]; exact List.mem_cons_self ..)
          simpa [Ne.symm hc] using this
        · exact ih (by rw [hr]; exact List.mem_cons_of_mem _ h)

/-- A text without the separator is its only piece. -/
theorem pieces_of_not_mem {sep : Char} {s : List Char} (h : sep ∉ s) : pieces sep s = [s] := by
  induction s with
  | nil => rfl
  | cons c r ih =>
    have : c ≠ sep := fun e => h (e ▸ List.mem_cons_self ..)
    simp [pieces, this, ih (fun m => h (List.mem_cons_of_mem _ m))]

/-- A first stretch without the separator is the first piece. -/
theorem pieces_append_sep {sep : Char} {s : List Char} (h : sep ∉ s) (r : List Char) :
    pieces sep (s ++ sep :: r) = s :: pieces sep r := by
  induction s with
  | nil => simp [pieces]
  | cons c t ih =>
    have : c ≠ sep := fun e => h (e ▸ List.mem_cons_self ..)
    simp [pieces, this, ih (fun m => h (List.mem_cons_of_mem _ m))]

/-- Cutting undoes joining, if nothing that is joined holds the separator. -/
theorem pieces_join {sep : Char} {s : List Char} {rest : List (List Char)} (hs : sep ∉ s)
    (hrest : ∀ p ∈ rest, sep ∉ p) : pieces sep (s ++ rest.flatMap (sep :: ·)) = s :: rest := by
  induction rest generalizing s with
  | nil => rw [List.flatMap_nil, List.append_nil, pieces_of_not_mem hs]
  | cons p rest ih =>
    obtain ⟨hp, hrest⟩ := List.forall_mem_cons.1 hrest
    rw [List.flatMap_cons, List.cons_append, pieces_append_sep hs, ih hp hrest]

/-- What stands before and after the first separator. -/
def cut (sep : Char) : List Char → Option (List Char × List Char)
  | [] => none
  | c :: r => if c = sep then some ([], r) else (cut sep r).map fun p => (c :: p.1, p.2)

@[simp] theorem cut_eq_none_iff {sep : Char} {s : List Char} : cut sep s = none ↔ sep ∉ s := by
  induction s with
  | nil => simp [cut]
  | cons c r ih =>
    by_cases h : c = sep
    · simp [cut, h]
    · simp [cut, h, ih, Ne.symm h]

/-- A text is cut where its first separator stands. -/
theorem cut_eq_some_iff {sep : Char} {s p q : List Char} :
    cut sep s = some (p, q) ↔ s = p ++ sep :: q ∧ sep ∉ p := by
  induction s generalizing p with
  | nil => simp [cut]
  | cons c r ih =>
    by_cases h : c = sep
    · subst h
      simp only [cut, if_true, Option.some.injEq, Prod.mk.injEq]
      constructor
      · rintro ⟨rfl, rfl⟩; simp
      · rintro ⟨e, hp⟩
        cases p with
        | nil => simpa using e
        | cons d p => simp at e; simp [e.1] at hp
    · simp only [cut, h, if_false, Option.map_eq_some_iff, Prod.mk.injEq, Prod.exists]
      constructor
      · rintro ⟨p', q', hr, rfl, rfl⟩
        have := ih.1 hr
        simp [this.1, this.2, Ne.symm h]
      · rintro ⟨e, hp⟩
        cases p with
        | nil => simp at e; exact absurd e.1 h
        | cons d p =>
          simp only [List.cons_append, List.cons.injEq] at e
          exact ⟨p, q, ih.2 ⟨e.2, fun m => hp (List.mem_cons_of_mem _ m)⟩, by rw [e.1], rfl⟩

end MediaBridge.Text
