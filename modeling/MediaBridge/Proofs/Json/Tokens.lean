import MediaBridge.Json.Reader

/-! # The tokens of JSON

White space, strings and numerals as the grammar has them, each with what the reader makes of a text
that begins with one.  A numeral has no mark at its end; so it is read in full only where something
follows that cannot go on with it.

* `string_eq_some_iff`  the reader takes a string exactly if it is written as one;
* `numeral_append`      the reader takes the numeral in front of what ends it;
* `numeral_eq_some`     it takes nothing else for a numeral;
* `isWhole_toDigits`    the decimal digits of a number are one.
-/

namespace MediaBridge.Json

open Reader

/-! ## White space -/

/-- Whether all of a text is white space. -/
def IsSpaces (s : List Char) : Prop := ∀ c ∈ s, isSpace c = true

variable {a s t rest ds : List Char} {c : Char} {f e : Option (List Char)}

theorem isSpaces_nil : IsSpaces [] := nofun

/-- White space in front of a text is skipped with that of the text. -/
theorem skipSpace_append (ha : IsSpaces a) (s : List Char) : skipSpace (a ++ s) = skipSpace s :=
  List.dropWhile_append_of_pos ha

/-- Nothing is skipped where there is no white space. -/
theorem skipSpace_cons (hc : isSpace c = false) (s : List Char) :
    skipSpace (c :: s) = c :: s := by
  rw [skipSpace, List.dropWhile_cons_of_neg (by rw [hc]; exact Bool.false_ne_true)]

/-- A text is what is left of it behind its white space. -/
theorem exists_spaces (s : List Char) : ∃ a, IsSpaces a ∧ s = a ++ skipSpace s :=
  ⟨s.takeWhile isSpace, List.all_eq_true.1 List.all_takeWhile,
    List.takeWhile_append_dropWhile.symm⟩

/-! ## Strings -/

/-- How the units of a string are written. -/
inductive UnitsText : List StringUnit → List Char → Prop where
  | nil : UnitsText [] []
  | char {c : Char} {us : List StringUnit} {s : List Char} (hc : 0x20 ≤ c.toNat) (hquote : c ≠ '"')
    (hescape : c ≠ '\\') (h : UnitsText us s) : UnitsText (.char c :: us) (c :: s)
  | short {e c : Char} {us : List StringUnit} {s : List Char} (hc : shortEscape e = some c)
    (h : UnitsText us s) : UnitsText (.char c :: us) ('\\' :: e :: s)
  | code {a b c d : Char} {u : Nat} {us : List StringUnit} {s : List Char}
    (hu : hex4 [a, b, c, d] = some (u, [])) (h : UnitsText us s) :
    UnitsText (.code u :: us) ('\\' :: 'u' :: a :: b :: c :: d :: s)

/-- The reader takes the units of a string up to its quotation mark. -/
theorem stringUnits_append {us : List StringUnit} (h : UnitsText us s) (rest : List Char) :
    stringUnits (s ++ '"' :: rest) = some (us, rest) := by
  induction h with
  | nil => simp [stringUnits]
  | char hc hquote hescape h ih => simp [stringUnits, hescape, hc, ih]
  | @short e c us s hc h ih =>
    have he : e ≠ 'u' := by
      rintro rfl
      exact nomatch hc
    simp [stringUnits, he, hc, ih]
  | code hu h ih => simp [stringUnits, hu, ih]

/-- Four digits are all that is read of four characters. -/
theorem rest_of_hex4 {x y z w : Char} {u : Nat} (h : hex4 [x, y, z, w] = some (u, rest)) :
    rest = [] := by
  simp only [hex4] at h
  split at h
  · exact (congrArg Prod.snd (Option.some.inj h)).symm
  · exact nomatch h

/-- The reader takes nothing else for the units of a string. -/
theorem unitsText_of_stringUnits {us : List StringUnit} (h : stringUnits s = some (us, rest)) :
    ∃ t, UnitsText us t ∧ s = t ++ '"' :: rest := by
  fun_induction stringUnits s generalizing us with
  | case1 | case4 | case6 | case7 => exact nomatch h
  | case2 r =>
    cases h
    exact ⟨[], .nil, rfl⟩
  | case3 x y z w r u tail hu ih =>
    obtain ⟨⟨us', r'⟩, hrest, heq⟩ := Option.map_eq_some_iff.1 h
    cases heq
    cases rest_of_hex4 hu
    obtain ⟨t, ht, rfl⟩ := ih hrest
    exact ⟨_, .code hu ht, rfl⟩
  | case5 e r _ c hc ih =>
    obtain ⟨⟨us', r'⟩, hrest, heq⟩ := Option.map_eq_some_iff.1 h
    cases heq
    obtain ⟨t, ht, rfl⟩ := ih hrest
    exact ⟨_, .short hc ht, rfl⟩
  | case8 c r hquote _ _ hplain ih =>
    obtain ⟨⟨us', r'⟩, hrest, heq⟩ := Option.map_eq_some_iff.1 h
    cases heq
    obtain ⟨t, ht, rfl⟩ := ih hrest
    simp only [Bool.or_eq_true, decide_eq_true_eq, not_or, Nat.not_lt] at hplain
    exact ⟨_, .char hplain.1 hquote hplain.2 ht, rfl⟩

/-- The reader takes a string exactly if it is written as one. -/
theorem string_eq_some_iff {text : Option (List Char)} :
    Reader.string s = some (text, rest) ↔
      ∃ us t, UnitsText us t ∧ decodeUnits us = text ∧ s = t ++ '"' :: rest := by
  unfold Reader.string
  constructor
  · intro h
    obtain ⟨⟨us, r⟩, hunits, heq⟩ := Option.map_eq_some_iff.1 h
    cases heq
    obtain ⟨t, ht, rfl⟩ := unitsText_of_stringUnits hunits
    exact ⟨us, t, ht, rfl, rfl⟩
  · rintro ⟨us, t, ht, rfl, rfl⟩
    rw [stringUnits_append ht, Option.map_some]

/-! ## Numerals -/

/-- One digit or more. -/
structure IsDigits (ds : List Char) : Prop where
  ne_nil : ds ≠ []
  isDigit : ∀ c ∈ ds, c.isDigit = true

/-- How a whole number is written: without zeros in front. -/
structure IsWhole (n : Nat) (ds : List Char) : Prop where
  digits : IsDigits ds
  canonical : ∀ more, ds = '0' :: more → more = []
  value : digitsValue ds = n

/-- How a fraction is written, if there is one. -/
inductive FractionText : Option (List Char) → List Char → Prop where
  | none : FractionText none []
  | some {ds : List Char} (h : IsDigits ds) : FractionText (some ds) ('.' :: ds)

/-- How an exponent is written, if there is one, with its sign. -/
inductive ExponentText : Option (List Char) → List Char → Prop where
  | none : ExponentText none []
  | some {e : Char} {ds x : List Char} (he : e = 'e' ∨ e = 'E') (h : IsDigits ds)
    (hx : x = ds ∨ x = '+' :: ds ∨ x = '-' :: ds) : ExponentText (some x) (e :: x)

/-- How a numeral is written. -/
inductive NumeralText : Numeral → List Char → Prop where
  | natural {n : Nat} {f e : Option (List Char)} {s t u : List Char} (hs : IsWhole n s)
    (ht : FractionText f t) (hu : ExponentText e u) :
    NumeralText ⟨false, n, f, e⟩ (s ++ (t ++ u))
  | negative {n : Nat} {f e : Option (List Char)} {s t u : List Char} (hs : IsWhole n s)
    (ht : FractionText f t) (hu : ExponentText e u) :
    NumeralText ⟨true, n, f, e⟩ ('-' :: (s ++ (t ++ u)))

/-- Whether a text begins with something that ends a value. -/
def Ends (rest : List Char) : Prop :=
  ∀ c, rest.head? = some c → isSpace c = true ∨ c = ',' ∨ c = ']' ∨ c = '\x7d'

/-- Whether digits in front of a text end there. -/
def EndsDigits (rest : List Char) : Prop := ∀ c, rest.head? = some c → c.isDigit = false

/-- The reader takes as many digits as there are, and at least one. -/
theorem digits_eq_some_iff :
    digits s = some (ds, rest) ↔ IsDigits ds ∧ EndsDigits rest ∧ s = ds ++ rest := by
  unfold digits
  constructor
  · intro h
    split at h
    · exact nomatch h
    · rename_i hne
      cases h
      refine ⟨⟨fun hnil => hne hnil, List.all_eq_true.1 List.all_takeWhile⟩, fun c hc => ?_,
        List.takeWhile_append_dropWhile.symm⟩
      have hnot := List.head?_dropWhile_not Char.isDigit s
      rw [hc] at hnot
      exact hnot
  · rintro ⟨hds, hrest, rfl⟩
    have htaken : (ds ++ rest).takeWhile Char.isDigit = ds := by
      rw [List.takeWhile_append_of_pos hds.isDigit]
      cases rest with
      | nil => rw [List.takeWhile_nil, List.append_nil]
      | cons c rest =>
        rw [List.takeWhile_cons_of_neg (by rw [hrest c rfl]; exact Bool.false_ne_true),
          List.append_nil]
    have hleft : (ds ++ rest).dropWhile Char.isDigit = rest := by
      have hall := List.takeWhile_append_dropWhile (p := Char.isDigit) (l := ds ++ rest)
      rw [htaken] at hall
      exact List.append_cancel_left hall
    rw [htaken, hleft]
    split
    · exact absurd rfl hds.ne_nil
    · rfl

/-- The reader takes a whole number exactly if it is written as one. -/
theorem whole_eq_some_iff {n : Nat} :
    whole s = some (n, rest) ↔ ∃ ds, IsWhole n ds ∧ EndsDigits rest ∧ s = ds ++ rest := by
  unfold whole
  constructor
  · intro h
    split at h
    · exact nomatch h
    · rename_i ds r hzero hdigits
      cases h
      obtain ⟨hds, hrest, rfl⟩ := digits_eq_some_iff.1 hdigits
      refine ⟨ds, ⟨hds, fun more hmore => ?_, rfl⟩, hrest, rfl⟩
      cases more with
      | nil => rfl
      | cons c more =>
        subst hmore
        exact (hzero c more rfl).elim
    · exact nomatch h
  · rintro ⟨ds, hds, hrest, rfl⟩
    rw [digits_eq_some_iff.2 ⟨hds.digits, hrest, rfl⟩]
    split
    · rename_i heq
      cases heq
      exact nomatch hds.canonical _ rfl
    · rename_i heq
      cases heq
      rw [hds.value]
    · rename_i heq
      exact nomatch heq

/-- The reader takes nothing else for a fraction. -/
theorem fraction_eq_some (h : fraction s = some (f, rest)) :
    ∃ t, FractionText f t ∧ s = t ++ rest := by
  unfold fraction at h
  split at h
  · obtain ⟨⟨ds, r⟩, hdigits, heq⟩ := Option.map_eq_some_iff.1 h
    cases heq
    obtain ⟨hds, -, rfl⟩ := digits_eq_some_iff.1 hdigits
    exact ⟨_, .some hds, rfl⟩
  · cases h
    exact ⟨_, .none, rfl⟩

/-- The reader takes nothing else for an exponent. -/
theorem exponent_eq_some (h : exponent s = some (e, rest)) :
    ∃ t, ExponentText e t ∧ s = t ++ rest := by
  unfold exponent at h
  split at h
  · rename_i x r
    by_cases hx : x = 'e' ∨ x = 'E'
    · rw [if_pos (by simpa using hx)] at h
      split at h
      all_goals
        obtain ⟨⟨ds, r⟩, hdigits, heq⟩ := Option.map_eq_some_iff.1 h
        cases heq
        obtain ⟨hds, -, rfl⟩ := digits_eq_some_iff.1 hdigits
      · exact ⟨_, .some hx hds (.inr (.inl rfl)), rfl⟩
      · exact ⟨_, .some hx hds (.inr (.inr rfl)), rfl⟩
      · exact ⟨_, .some hx hds (.inl rfl), rfl⟩
    · rw [if_neg (by simpa using hx)] at h
      cases h
      exact ⟨_, .none, rfl⟩
  · cases h
    exact ⟨_, .none, rfl⟩

/-- The reader takes nothing else for a numeral. -/
theorem numeral_eq_some {n : Numeral} (h : numeral s = some (n, rest)) :
    ∃ t, NumeralText n t ∧ s = t ++ rest := by
  unfold numeral at h
  split at h
  rename_i hsign
  split at h
  · exact nomatch h
  · rename_i hwhole
    split at h
    · exact nomatch h
    · rename_i hfraction
      obtain ⟨⟨e, r⟩, hexponent, heq⟩ := Option.map_eq_some_iff.1 h
      cases heq
      obtain ⟨ds, hds, -, rfl⟩ := whole_eq_some_iff.1 hwhole
      obtain ⟨t, ht, rfl⟩ := fraction_eq_some hfraction
      obtain ⟨u, hu, rfl⟩ := exponent_eq_some hexponent
      split at hsign
      · cases hsign
        exact ⟨_, .negative hds ht hu, by simp only [List.cons_append, List.append_assoc]⟩
      · cases hsign
        exact ⟨_, .natural hds ht hu, by simp only [List.append_assoc]⟩

/-- What ends a value does not go on with a numeral. -/
theorem Ends.stops (h : Ends rest) : EndsDigits rest ∧ rest.head? ≠ some '.' ∧
    rest.head? ≠ some 'e' ∧ rest.head? ≠ some 'E' := by
  refine ⟨fun c hc => ?_, fun hc => ?_, fun hc => ?_, fun hc => ?_⟩
  · rcases h c hc with hspace | rfl | rfl | rfl
    · simp only [isSpace, Bool.or_eq_true, beq_iff_eq] at hspace
      rcases hspace with ((rfl | rfl) | rfl) | rfl <;> rfl
    all_goals rfl
  all_goals exact absurd (h _ hc) (by decide)

/-- The reader takes the fraction in front of what does not go on with it. -/
theorem fraction_append (h : FractionText f t) (hdigits : EndsDigits rest)
    (hpoint : rest.head? ≠ some '.') : fraction (t ++ rest) = some (f, rest) := by
  cases h with
  | none =>
    rw [List.nil_append]
    unfold fraction
    split
    · exact absurd rfl hpoint
    · rfl
  | some hds =>
    rw [List.cons_append, fraction, digits_eq_some_iff.2 ⟨hds, hdigits, rfl⟩, Option.map_some]

/-- The reader takes the exponent in front of what does not go on with it. -/
theorem exponent_append (h : ExponentText e t) (hdigits : EndsDigits rest)
    (hsmall : rest.head? ≠ some 'e') (hlarge : rest.head? ≠ some 'E') :
    exponent (t ++ rest) = some (e, rest) := by
  cases h with
  | none =>
    rw [List.nil_append]
    unfold exponent
    split
    · rename_i x r
      rw [if_neg]
      simp only [Bool.or_eq_true, decide_eq_true_eq, not_or]
      exact ⟨fun h => hsmall (by rw [h]; rfl), fun h => hlarge (by rw [h]; rfl)⟩
    · rfl
  | @some x ds y hx hds hy =>
    have hread := digits_eq_some_iff.2 ⟨hds, hdigits, rfl⟩
    -- digits do not begin with a sign
    have hsign : ∀ c r, ds ++ rest = c :: r → c ≠ '+' ∧ c ≠ '-' := by
      intro c r heq
      obtain ⟨d, ds, rfl⟩ := List.exists_cons_of_ne_nil hds.ne_nil
      cases heq
      have hdigit := hds.isDigit c List.mem_cons_self
      constructor <;> rintro rfl <;> exact nomatch hdigit
    unfold exponent
    simp only [List.cons_append]
    rw [if_pos (by simpa using hx)]
    rcases hy with rfl | rfl | rfl
    · split
      · rename_i heq
        exact absurd rfl (hsign _ _ heq).1
      · rename_i heq
        exact absurd rfl (hsign _ _ heq).2
      · rw [hread, Option.map_some]
    · simp only [List.cons_append, hread, Option.map_some]
    · simp only [List.cons_append, hread, Option.map_some]

/-- What may stand behind the digits of a numeral's integer or fraction. -/
theorem endsDigits_exponent (h : ExponentText e t) (hrest : EndsDigits rest) :
    EndsDigits (t ++ rest) ∧ (rest.head? ≠ some '.' → (t ++ rest).head? ≠ some '.') := by
  cases h with
  | none => exact ⟨hrest, id⟩
  | some he =>
    refine ⟨fun c hc => ?_, fun _ hc => ?_⟩
    · cases hc
      rcases he with rfl | rfl <;> rfl
    · cases hc
      exact absurd he (by decide)

/-- The reader takes the numeral in front of what ends it. -/
theorem numeral_append {n : Numeral} (h : NumeralText n s) (hrest : Ends rest) :
    numeral (s ++ rest) = some (n, rest) := by
  obtain ⟨hdigits, hpoint, hsmall, hlarge⟩ := hrest.stops
  have hparts : ∀ {w : Nat} {f e : Option (List Char)} {ds t u : List Char},
      IsWhole w ds → FractionText f t → ExponentText e u →
      whole (ds ++ (t ++ (u ++ rest))) = some (w, t ++ (u ++ rest)) ∧
        fraction (t ++ (u ++ rest)) = some (f, u ++ rest) ∧
        exponent (u ++ rest) = some (e, rest) := by
    intro w f e ds t u hds ht hu
    obtain ⟨hbehind, hnone⟩ := endsDigits_exponent hu hdigits
    have hfraction : EndsDigits (t ++ (u ++ rest)) := by
      cases ht with
      | none => exact hbehind
      | some =>
        intro c hc
        cases hc
        rfl
    exact ⟨whole_eq_some_iff.2 ⟨ds, hds, hfraction, rfl⟩,
      fraction_append ht hbehind (hnone hpoint), exponent_append hu hdigits hsmall hlarge⟩
  cases h with
  | @natural w f e ds t u hds ht hu =>
    obtain ⟨hwhole, hfraction, hexponent⟩ := hparts hds ht hu
    obtain ⟨d, more, rfl⟩ := List.exists_cons_of_ne_nil hds.digits.ne_nil
    have hsign : d ≠ '-' := by
      rintro rfl
      exact nomatch hds.digits.isDigit _ List.mem_cons_self
    simp only [List.append_assoc, List.cons_append] at hwhole ⊢
    unfold numeral
    split
    rename_i negative s hs
    split at hs
    · rename_i heq
      exact absurd (List.cons.inj heq).1 hsign
    · cases hs
      simp only [hwhole, hfraction, hexponent, Option.map_some]
  | negative hds ht hu =>
    obtain ⟨hwhole, hfraction, hexponent⟩ := hparts hds ht hu
    simp only [List.cons_append, List.append_assoc, numeral, hwhole, hfraction, hexponent,
      Option.map_some]

/-! ## Decimal digits -/

/-- The decimal digits of a number have its value. -/
theorem digitsValue_toDigits (n : Nat) : digitsValue (Nat.toDigits 10 n) = n := by
  have hread := Nat.ofDigitChars_toDigits (n := n) (by decide : 1 < 10) (by decide)
  rw [Nat.ofDigitChars_eq_foldl] at hread
  simp only [Nat.mul_comm 10] at hread
  exact hread

/-- The decimal digits of a number are one. -/
theorem isWhole_toDigits (n : Nat) : IsWhole n (Nat.toDigits 10 n) where
  digits := ⟨Nat.toDigits_ne_nil, fun c => Nat.isDigit_of_mem_toDigits (by decide) (by decide)⟩
  canonical more hmore := by
    -- over all but the last digit
    induction n using Nat.strongRecOn generalizing more with
    | ind n ih =>
      rw [Nat.toDigits_eq_if (by decide)] at hmore
      split at hmore
      · exact (List.cons.inj hmore).2.symm
      · rename_i hlarge
        have hne : Nat.toDigits 10 (n / 10) ≠ [] := Nat.toDigits_ne_nil
        obtain ⟨d, ds, hds⟩ := List.exists_cons_of_ne_nil hne
        rw [hds, List.cons_append] at hmore
        obtain ⟨rfl, -⟩ := List.cons.inj hmore
        -- a number whose digits begin with a zero is zero
        cases ih (n / 10) (by omega) ds hds
        have hvalue := digitsValue_toDigits (n / 10)
        rw [hds] at hvalue
        have hzero : 0 = n / 10 := hvalue
        omega
  value := digitsValue_toDigits n

end MediaBridge.Json
