/-! # Blank characters

The characters that count as white space, and the text left when they are taken off both ends.

* `isBlank_of_isWhitespace` the ASCII class of the standard library is part of the class;
* `trim_eq_self_iff`        a text stays as it is exactly when neither end is blank;
* `exists_blanks_trim`      what is taken off is blank.
-/

namespace MediaBridge.Text

/-- The white space of the Unicode standard. -/
def isBlank (c : Char) : Bool :=
  let n := c.toNat
  (0x9 ≤ n && n ≤ 0xd) || n == 0x20 || n == 0x85 || n == 0xa0 || n == 0x1680 ||
    (0x2000 ≤ n && n ≤ 0x200a) || n == 0x2028 || n == 0x2029 || n == 0x202f || n == 0x205f ||
    n == 0x3000

/-- What is white space in ASCII is blank. -/
theorem isBlank_of_isWhitespace {c : Char} (h : c.isWhitespace) : isBlank c := by
  simp only [Char.isWhitespace, Bool.or_eq_true, decide_eq_true_eq] at h
  rcases h with ((rfl | rfl) | rfl) | rfl <;> rfl

/-- A text without the blanks at its ends. -/
def trim (s : List Char) : List Char :=
  ((s.dropWhile isBlank).reverse.dropWhile isBlank).reverse

@[simp] theorem trim_nil : trim [] = [] := rfl

/-- Whether a text has no blank at either end. -/
def IsTrimmed (s : List Char) : Prop :=
  (∀ c, s.head? = some c → isBlank c = false) ∧ (∀ c, s.getLast? = some c → isBlank c = false)

/-- Nothing is dropped if the first character fails the test. -/
private theorem dropWhile_eq_self_iff_head (p : Char → Bool) (s : List Char) :
    s.dropWhile p = s ↔ ∀ c, s.head? = some c → p c = false := by
  cases s with
  | nil => simp
  | cons c r =>
    simp only [List.dropWhile_cons, List.head?_cons, Option.some.injEq, forall_eq']
    constructor
    · intro h
      split at h
      · have := congrArg List.length h
        have := (List.dropWhile_sublist (l := r) p).length_le
        simp at *; omega
      · simpa using ‹¬p c = true›
    · intro h; simp [h]

/-- Taking blanks off a text without blank ends changes nothing. -/
theorem trim_of_isTrimmed {s : List Char} (h : IsTrimmed s) : trim s = s := by
  rw [trim, (dropWhile_eq_self_iff_head _ _).2 h.1, (dropWhile_eq_self_iff_head _ _).2,
    List.reverse_reverse]
  simpa [List.head?_reverse] using h.2

/-- The first character left by `dropWhile` fails the test. -/
private theorem head?_dropWhile_false (p : Char → Bool) (s : List Char) {c : Char}
    (h : (s.dropWhile p).head? = some c) : p c = false := by
  induction s with
  | nil => simp at h
  | cons d r ih =>
    rw [List.dropWhile_cons] at h
    split at h
    · exact ih h
    · simp only [List.head?_cons, Option.some.injEq] at h; subst h; simpa using ‹¬p d = true›

/-- What is left after taking blanks off has none at its ends. -/
theorem isTrimmed_trim (s : List Char) : IsTrimmed (trim s) := by
  refine ⟨fun c h => ?_, fun c h => ?_⟩
  · simp only [trim, List.head?_reverse] at h
    have hl : ((s.dropWhile isBlank).reverse.takeWhile isBlank ++
        (s.dropWhile isBlank).reverse.dropWhile isBlank).getLast? = some c := by
      rw [List.getLast?_append, h, Option.some_or]
    rw [List.takeWhile_append_dropWhile] at hl
    rw [List.getLast?_reverse] at hl
    exact head?_dropWhile_false _ _ hl
  · simp only [trim, List.getLast?_reverse] at h
    exact head?_dropWhile_false _ _ h

/-- A text stays as it is exactly when neither end is blank. -/
theorem trim_eq_self_iff {s : List Char} : trim s = s ↔ IsTrimmed s :=
  ⟨fun h => h ▸ isTrimmed_trim s, trim_of_isTrimmed⟩

/-! ## What is taken off -/

/-- Blanks in front are taken off. -/
theorem trim_blanks_append {a : List Char} (ha : ∀ c ∈ a, isBlank c = true) (s : List Char) :
    trim (a ++ s) = trim s := by
  rw [trim, List.dropWhile_append_of_pos ha, trim]

/-- Blanks at the end are taken off. -/
theorem trim_append_blanks {b : List Char} (hb : ∀ c ∈ b, isBlank c = true) (s : List Char) :
    trim (s ++ b) = trim s := by
  have hrev : ∀ c ∈ b.reverse, isBlank c = true := fun c hc => hb c (List.mem_reverse.1 hc)
  have hall : b.dropWhile isBlank = [] := by
    rw [← List.append_nil b, List.dropWhile_append_of_pos hb, List.dropWhile_nil]
  rw [trim, trim, List.dropWhile_append]
  split
  · rename_i hs
    rw [hall, List.isEmpty_iff.1 hs]
  · rw [List.reverse_append, List.dropWhile_append_of_pos hrev]

/-- A text is what is left of it between the blanks at its ends. -/
theorem exists_blanks_trim (s : List Char) : ∃ a b, s = a ++ trim s ++ b ∧
    (∀ c ∈ a, isBlank c = true) ∧ ∀ c ∈ b, isBlank c = true := by
  refine ⟨s.takeWhile isBlank, ((s.dropWhile isBlank).reverse.takeWhile isBlank).reverse, ?_,
    List.all_eq_true.1 List.all_takeWhile,
    fun c hc => List.all_eq_true.1 List.all_takeWhile c (List.mem_reverse.1 hc)⟩
  rw [trim, List.append_assoc, ← List.reverse_append, List.takeWhile_append_dropWhile,
    List.reverse_reverse, List.takeWhile_append_dropWhile]

/-- Nothing is put into a text by trimming it. -/
theorem mem_of_mem_trim {s : List Char} {c : Char} (h : c ∈ trim s) : c ∈ s := by
  obtain ⟨a, b, hs, -, -⟩ := exists_blanks_trim s
  rw [hs]
  exact List.mem_append_left b (List.mem_append_right a h)

/-- Nothing is left exactly if all of a text is blank. -/
theorem trim_eq_nil_iff {s : List Char} : trim s = [] ↔ ∀ c ∈ s, isBlank c = true := by
  obtain ⟨a, b, hs, ha, hb⟩ := exists_blanks_trim s
  constructor
  · intro h c hc
    rw [hs, h, List.append_nil] at hc
    exact (List.mem_append.1 hc).elim (ha c) (hb c)
  · intro h
    rw [← List.append_nil s, trim_blanks_append h, trim_nil]

/-- Two texts with a character between them that is not blank have no blank ends, if neither of them
    has. -/
theorem IsTrimmed.append_cons {s t : List Char} {c : Char} (hs : IsTrimmed s) (ht : IsTrimmed t)
    (hc : isBlank c = false) : IsTrimmed (s ++ c :: t) := by
  constructor
  · intro d hd
    cases s with
    | nil =>
      cases hd
      exact hc
    | cons => exact hs.1 d hd
  · intro d hd
    rw [List.getLast?_append, List.getLast?_cons] at hd
    cases ht' : t.getLast? with
    | none =>
      rw [ht'] at hd
      cases hd
      exact hc
    | some e =>
      rw [ht'] at hd
      cases hd
      exact ht.2 e ht'

end MediaBridge.Text
