import MediaBridge.Proofs.Json.Tokens

/-! # The grammar of JSON

What it means that a text is written for a value, with white space wherever the grammar allows it.
The reader accepts exactly the texts that are written for a value, and no text is written for two.

* `reads_text`          the reader takes the value in front of what ends it;
* `text_of_reads`       it takes nothing else for a value;
* `parse_eq_some_iff`   a whole text is read exactly if it is written for a value;
* `SpacedText.unique`   no text is written for two values;
* `membersText_join`    how members are written without white space.
-/

namespace MediaBridge.Json

open Reader

/-! ## Texts for values -/

/-- How the name of a member is written, with white space around it. -/
inductive NameText : Option (List Char) → List Char → Prop where
  | intro {a s b : List Char} {us : List StringUnit} (ha : IsSpaces a) (h : UnitsText us s)
    (hb : IsSpaces b) : NameText (decodeUnits us) (a ++ '"' :: (s ++ '"' :: b))

mutual

/-- How a value is written. -/
inductive ValueText : Json → List Char → Prop where
  | null : ValueText .null ['n', 'u', 'l', 'l']
  | true : ValueText (.bool true) ['t', 'r', 'u', 'e']
  | false : ValueText (.bool false) ['f', 'a', 'l', 's', 'e']
  | number {n : Numeral} {s : List Char} (h : NumeralText n s) : ValueText (.number n) s
  | string {us : List StringUnit} {s : List Char} (h : UnitsText us s) :
    ValueText (.string (decodeUnits us)) ('"' :: (s ++ ['"']))
  | emptyArray {a : List Char} (ha : IsSpaces a) : ValueText (.array []) ('[' :: (a ++ [']']))
  | array {vs : List Json} {s : List Char} (h : ElementsText vs s) :
    ValueText (.array vs) ('[' :: (s ++ [']']))
  | emptyObject {a : List Char} (ha : IsSpaces a) :
    ValueText (.object []) ('\x7b' :: (a ++ ['\x7d']))
  | object {ms : List (Option (List Char) × Json)} {s : List Char} (h : MembersText ms s) :
    ValueText (.object ms) ('\x7b' :: (s ++ ['\x7d']))

/-- How a value is written with white space around it. -/
inductive SpacedText : Json → List Char → Prop where
  | intro {v : Json} {a s b : List Char} (ha : IsSpaces a) (h : ValueText v s) (hb : IsSpaces b) :
    SpacedText v (a ++ (s ++ b))

/-- How the elements of an array are written. -/
inductive ElementsText : List Json → List Char → Prop where
  | one {v : Json} {s : List Char} (h : SpacedText v s) : ElementsText [v] s
  | more {v : Json} {vs : List Json} {s t : List Char} (h : SpacedText v s)
    (hrest : ElementsText vs t) : ElementsText (v :: vs) (s ++ ',' :: t)

/-- How the members of an object are written. -/
inductive MembersText : List (Option (List Char) × Json) → List Char → Prop where
  | one {key : Option (List Char)} {v : Json} {k s : List Char} (hkey : NameText key k)
    (h : SpacedText v s) : MembersText [(key, v)] (k ++ ':' :: s)
  | more {key : Option (List Char)} {v : Json} {ms : List (Option (List Char) × Json)}
    {k s t : List Char} (hkey : NameText key k) (h : SpacedText v s) (hrest : MembersText ms t) :
    MembersText ((key, v) :: ms) (k ++ ':' :: (s ++ ',' :: t))

end

variable {v : Json} {vs : List Json} {ms : List (Option (List Char) × Json)} {s rest : List Char}

/-! ## Where texts begin -/

/-- A numeral begins with a digit or a minus sign. -/
theorem cons_of_numeralText {n : Numeral} (h : NumeralText n s) :
    ∃ c t, s = c :: t ∧ (c.isDigit = true ∨ c = '-') := by
  cases h with
  | natural hs =>
    obtain ⟨d, more, rfl⟩ := List.exists_cons_of_ne_nil hs.digits.ne_nil
    exact ⟨d, _, rfl, .inl (hs.digits.isDigit d List.mem_cons_self)⟩
  | negative => exact ⟨'-', _, rfl, .inr rfl⟩

/-- A value begins with a character that is neither blank nor closes an array. -/
theorem cons_of_valueText (h : ValueText v s) :
    ∃ c t, s = c :: t ∧ isSpace c = false ∧ c ≠ ']' := by
  cases h with
  | number h =>
    obtain ⟨c, t, rfl, hc⟩ := cons_of_numeralText h
    have hspace : isSpace c = false := by
      simp only [isSpace, Bool.or_eq_false_iff, beq_eq_false_iff_ne]
      refine ⟨⟨⟨?_, ?_⟩, ?_⟩, ?_⟩ <;> rintro rfl <;> exact absurd hc (by decide)
    refine ⟨c, t, rfl, hspace, ?_⟩
    rintro rfl
    exact absurd hc (by decide)
  | _ => exact ⟨_, _, rfl, by decide, by decide⟩

/-- What stands behind the white space in front of a value. -/
theorem skipSpace_value {a : List Char} (ha : IsSpaces a) (h : ValueText v s) (rest : List Char) :
    skipSpace (a ++ (s ++ rest)) = s ++ rest := by
  obtain ⟨c, t, rfl, hc, -⟩ := cons_of_valueText h
  rw [skipSpace_append ha, List.cons_append, skipSpace_cons hc]

/-- No value is written as nothing. -/
theorem length_pos_of_spacedText (h : SpacedText v s) : 0 < s.length := by
  cases h with
  | intro ha h hb =>
    obtain ⟨c, t, rfl, -⟩ := cons_of_valueText h
    simp only [List.length_append, List.length_cons]
    omega

/-- What stands behind the white space in front of elements does not close the array. -/
theorem skipSpace_elements (h : ElementsText vs s) (rest : List Char) :
    ∃ c t, skipSpace (s ++ rest) = c :: t ∧ c ≠ ']' := by
  have hspaced : ∀ {v : Json} {s : List Char}, SpacedText v s → ∀ rest,
      ∃ c t, skipSpace (s ++ rest) = c :: t ∧ c ≠ ']' := by
    intro v s h rest
    cases h with
    | intro ha h hb =>
      rw [List.append_assoc, List.append_assoc, skipSpace_value ha h]
      obtain ⟨c, t, rfl, -, hc⟩ := cons_of_valueText h
      exact ⟨c, _, rfl, hc⟩
  cases h with
  | one h => exact hspaced h rest
  | more h =>
    rw [List.append_assoc]
    exact hspaced h _

/-- What stands behind the white space in front of a name. -/
theorem skipSpace_name {key : Option (List Char)} (h : NameText key s) (rest : List Char) :
    ∃ t b, IsSpaces b ∧ Reader.string t = some (key, b ++ rest) ∧
      skipSpace (s ++ rest) = '"' :: t := by
  cases h with
  | @intro a t b us ha h hb =>
    refine ⟨t ++ '"' :: (b ++ rest), b, hb, string_eq_some_iff.2 ⟨us, t, h, rfl, rfl⟩, ?_⟩
    simp only [List.append_assoc, List.cons_append]
    rw [skipSpace_append ha, skipSpace_cons (by decide)]

/-- Behind the white space in front of members there is the quotation mark of a name. -/
theorem skipSpace_members (h : MembersText ms s) (rest : List Char) :
    ∃ t, skipSpace (s ++ rest) = '"' :: t := by
  cases h with
  | one hkey =>
    rw [List.append_assoc]
    obtain ⟨_, _, -, -, hskip⟩ := skipSpace_name hkey _
    exact ⟨_, hskip⟩
  | more hkey =>
    rw [List.append_assoc]
    obtain ⟨_, _, -, -, hskip⟩ := skipSpace_name hkey _
    exact ⟨_, hskip⟩

/-! ## Texts are read -/

/-- White space is skipped once. -/
@[simp] theorem skipSpace_skipSpace (s : List Char) : skipSpace (skipSpace s) = skipSpace s := by
  obtain ⟨a, ha, hs⟩ := exists_spaces s
  exact (congrArg skipSpace hs).trans (skipSpace_append ha _) |>.symm

/-- It does not matter for a value whether white space was skipped before. -/
theorem value_skipSpace (steps : Nat) (s : List Char) :
    value steps (skipSpace s) = value steps s := by
  cases steps with
  | zero => rfl
  | succ steps => rw [value, value, skipSpace_skipSpace]

/-- It does not matter for elements whether white space was skipped before. -/
theorem elements_skipSpace (steps : Nat) (s : List Char) :
    elements steps (skipSpace s) = elements steps s := by
  cases steps with
  | zero => rfl
  | succ steps => rw [elements, elements, value_skipSpace]

/-- It does not matter for members whether white space was skipped before. -/
theorem members_skipSpace (steps : Nat) (s : List Char) :
    members steps (skipSpace s) = members steps s := by
  cases steps with
  | zero => rfl
  | succ steps => rw [members, members, skipSpace_skipSpace]

/-- What the reader makes of a quotation mark. -/
theorem value_string (steps : Nat) (r : List Char) :
    value (steps + 1) ('"' :: r) = (Reader.string r).map fun p => (.string p.1, p.2) := rfl

/-- What the reader makes of an opening bracket. -/
theorem value_array (steps : Nat) (r : List Char) :
    value (steps + 1) ('[' :: r) =
      match skipSpace r with
      | ']' :: r => some (.array [], r)
      | r => (elements steps r).map fun p => (.array p.1, p.2) := rfl

/-- What the reader makes of an opening brace. -/
theorem value_object (steps : Nat) (r : List Char) :
    value (steps + 1) ('\x7b' :: r) =
      match skipSpace r with
      | '\x7d' :: r => some (.object [], r)
      | r => (members steps r).map fun p => (.object p.1, p.2) := rfl

/-- What the reader makes of a digit or a minus sign. -/
theorem value_numeral {c : Char} {t : List Char} (steps : Nat) (hs : skipSpace s = c :: t)
    (hc : c.isDigit = true ∨ c = '-') :
    value (steps + 1) s = (numeral (c :: t)).map fun p => (.number p.1, p.2) := by
  unfold value
  rw [hs]
  split
  case h_7 => rfl
  all_goals
    rename_i heq
    cases heq
    exact absurd hc (by decide)

/-- White space in front of what ends a value ends it. -/
theorem Ends.spaces_append {b : List Char} (hb : IsSpaces b) (h : Ends rest) :
    Ends (b ++ rest) := by
  cases b with
  | nil => exact h
  | cons c b =>
    intro d hd
    cases hd
    exact .inl (hb c List.mem_cons_self)

/-- Commas and closing brackets end a value. -/
theorem ends_cons {c : Char} (hc : c = ',' ∨ c = ']' ∨ c = '\x7d') (t : List Char) :
    Ends (c :: t) := by
  intro d hd
  cases hd
  exact .inr hc

/-- The reader takes a value, if it takes what stands inside of it. -/
theorem value_append {steps : Nat} (h : ValueText v s) (hsteps : 2 * s.length ≤ steps + 1)
    (hrest : Ends rest)
    (helements : ∀ {vs s rest}, ElementsText vs s → 2 * s.length + 1 ≤ steps →
      elements steps (s ++ ']' :: rest) = some (vs, rest))
    (hmembers : ∀ {ms s rest}, MembersText ms s → 2 * s.length + 1 ≤ steps →
      members steps (s ++ '\x7d' :: rest) = some (ms, rest)) :
    value (steps + 1) (s ++ rest) = some (v, rest) := by
  cases h with
  | null | true | false => rfl
  | number h =>
    have hread := numeral_append h hrest
    obtain ⟨c, t, rfl, hc⟩ := cons_of_numeralText h
    obtain ⟨_, _, heq, hspace, -⟩ := cons_of_valueText (.number h)
    cases heq
    rw [List.cons_append] at hread ⊢
    rw [value_numeral steps (skipSpace_cons hspace (t ++ rest)) hc, hread, Option.map_some]
  | @string us s h =>
    have hread := string_eq_some_iff.2 ⟨us, s, h, rfl, (rfl : s ++ '"' :: rest = _)⟩
    rw [List.cons_append, List.append_assoc, List.singleton_append, value_string, hread,
      Option.map_some]
  | emptyArray ha =>
    rw [List.cons_append, List.append_assoc, List.singleton_append, value_array,
      skipSpace_append ha, skipSpace_cons (by decide)]
    rfl
  | emptyObject ha =>
    rw [List.cons_append, List.append_assoc, List.singleton_append, value_object,
      skipSpace_append ha, skipSpace_cons (by decide)]
    rfl
  | @array vs s h =>
    simp only [List.length_cons, List.length_append, List.length_nil] at hsteps
    obtain ⟨c, t, hskip, hc⟩ := skipSpace_elements h (']' :: rest)
    rw [List.cons_append, List.append_assoc, List.singleton_append, value_array, hskip]
    split
    · rename_i heq
      exact absurd (List.cons.inj heq).1 hc
    · rw [← hskip, elements_skipSpace, helements h (by omega), Option.map_some]
  | @object ms s h =>
    simp only [List.length_cons, List.length_append, List.length_nil] at hsteps
    obtain ⟨t, hskip⟩ := skipSpace_members h ('\x7d' :: rest)
    rw [List.cons_append, List.append_assoc, List.singleton_append, value_object, hskip]
    show (members steps ('"' :: t)).map _ = _
    rw [← hskip, members_skipSpace, hmembers h (by omega), Option.map_some]

/-- The reader takes a value, the elements of an array and the members of an object in front of what
    ends them.  Every character of a text is good for two steps. -/
theorem reads_text (steps : Nat) :
    (∀ {v s rest}, SpacedText v s → 2 * s.length ≤ steps → Ends rest →
      ∃ b, IsSpaces b ∧ value steps (s ++ rest) = some (v, b ++ rest)) ∧
    (∀ {vs s rest}, ElementsText vs s → 2 * s.length + 1 ≤ steps →
      elements steps (s ++ ']' :: rest) = some (vs, rest)) ∧
    (∀ {ms s rest}, MembersText ms s → 2 * s.length + 1 ≤ steps →
      members steps (s ++ '\x7d' :: rest) = some (ms, rest)) := by
  -- a value takes one step for itself and leaves the rest to what stands inside of it, which is
  -- shorter
  induction steps with
  | zero =>
    refine ⟨fun h hsteps _ => ?_, fun _ hsteps => ?_, fun _ hsteps => ?_⟩
    · have hpos := length_pos_of_spacedText h
      omega
    · omega
    · omega
  | succ steps ih =>
    obtain ⟨ihvalue, ihelements, ihmembers⟩ := ih
    refine ⟨?_, ?_, ?_⟩
    · intro v s rest h hsteps hrest
      cases h with
      | @intro v a s b ha h hb =>
        simp only [List.length_append] at hsteps
        refine ⟨b, hb, ?_⟩
        rw [List.append_assoc, List.append_assoc, ← value_skipSpace, skipSpace_value ha h]
        exact value_append h (by omega) (hrest.spaces_append hb) ihelements ihmembers
    · intro vs s rest h hsteps
      cases h with
      | one h =>
        obtain ⟨b, hb, hread⟩ := ihvalue h (by omega) (ends_cons (.inr (.inl rfl)) rest)
        simp only [elements, hread, skipSpace_append hb,
          skipSpace_cons (by decide : isSpace ']' = false)]
      | @more v vs s t h hmore =>
        simp only [List.length_append, List.length_cons] at hsteps
        obtain ⟨b, hb, hread⟩ :=
          ihvalue h (by omega) (ends_cons (.inl rfl) (t ++ ']' :: rest))
        simp only [List.append_assoc, List.cons_append, elements, hread, skipSpace_append hb,
          skipSpace_cons (by decide : isSpace ',' = false), ihelements hmore (by omega),
          Option.map_some]
    · intro ms s rest h hsteps
      cases h with
      | @one key v k s hkey h =>
        simp only [List.length_append, List.length_cons] at hsteps
        obtain ⟨t, c, hc, hname, hskip⟩ := skipSpace_name hkey (':' :: (s ++ '\x7d' :: rest))
        obtain ⟨b, hb, hread⟩ := ihvalue h (by omega) (ends_cons (.inr (.inr rfl)) rest)
        simp only [List.append_assoc, List.cons_append, members, hskip, hname, skipSpace_append hc,
          skipSpace_cons (by decide : isSpace ':' = false), hread, skipSpace_append hb,
          skipSpace_cons (by decide : isSpace '\x7d' = false)]
      | @more key v ms k s t hkey h hmore =>
        simp only [List.length_append, List.length_cons] at hsteps
        obtain ⟨u, c, hc, hname, hskip⟩ :=
          skipSpace_name hkey (':' :: (s ++ ',' :: (t ++ '\x7d' :: rest)))
        obtain ⟨b, hb, hread⟩ :=
          ihvalue h (by omega) (ends_cons (.inl rfl) (t ++ '\x7d' :: rest))
        simp only [List.append_assoc, List.cons_append, members, hskip, hname, skipSpace_append hc,
          skipSpace_cons (by decide : isSpace ':' = false), hread, skipSpace_append hb,
          skipSpace_cons (by decide : isSpace ',' = false), ihmembers hmore (by omega),
          Option.map_some]

/-! ## What is read was written -/

/-- A text behind its white space. -/
theorem append_of_skipSpace {t : List Char} (h : skipSpace s = t) :
    ∃ a, IsSpaces a ∧ s = a ++ t := by
  obtain ⟨a, ha, hs⟩ := exists_spaces s
  exact ⟨a, ha, h ▸ hs⟩

/-- The reader takes nothing else for a value, if that is so of what stands inside of it. -/
theorem value_eq_some {steps : Nat} (h : value (steps + 1) s = some (v, rest))
    (helements : ∀ {s vs rest}, elements steps s = some (vs, rest) →
      ∃ t, ElementsText vs t ∧ s = t ++ ']' :: rest)
    (hmembers : ∀ {s ms rest}, members steps s = some (ms, rest) →
      ∃ t, MembersText ms t ∧ s = t ++ '\x7d' :: rest) :
    ∃ a t, IsSpaces a ∧ ValueText v t ∧ s = a ++ (t ++ rest) := by
  have hwhole : ∀ {w}, skipSpace s = w ++ rest → ValueText v w →
      ∃ a t, IsSpaces a ∧ ValueText v t ∧ s = a ++ (t ++ rest) := by
    intro w hw hv
    obtain ⟨a, ha, hs⟩ := append_of_skipSpace hw
    exact ⟨a, w, ha, hv, hs⟩
  unfold value at h
  -- as the reader tries them: the three words, a string, an array, an object, a numeral
  split at h
  case h_1 hskip =>
    cases h
    exact hwhole hskip .null
  case h_2 hskip =>
    cases h
    exact hwhole hskip .true
  case h_3 hskip =>
    cases h
    exact hwhole hskip .false
  case h_4 r hskip =>
    obtain ⟨⟨text, r'⟩, hread, heq⟩ := Option.map_eq_some_iff.1 h
    cases heq
    obtain ⟨us, t, ht, rfl, rfl⟩ := string_eq_some_iff.1 hread
    exact hwhole (hskip.trans (by simp)) (.string ht)
  case h_5 r hskip =>
    split at h
    · rename_i r' hinner
      cases h
      obtain ⟨a, ha, rfl⟩ := append_of_skipSpace hinner
      exact hwhole (hskip.trans (by simp)) (.emptyArray ha)
    · obtain ⟨⟨vs, r'⟩, hread, heq⟩ := Option.map_eq_some_iff.1 h
      cases heq
      rw [elements_skipSpace] at hread
      obtain ⟨t, ht, rfl⟩ := helements hread
      exact hwhole (hskip.trans (by simp)) (.array ht)
  case h_6 r hskip =>
    split at h
    · rename_i r' hinner
      cases h
      obtain ⟨a, ha, rfl⟩ := append_of_skipSpace hinner
      exact hwhole (hskip.trans (by simp)) (.emptyObject ha)
    · obtain ⟨⟨ms, r'⟩, hread, heq⟩ := Option.map_eq_some_iff.1 h
      cases heq
      rw [members_skipSpace] at hread
      obtain ⟨t, ht, rfl⟩ := hmembers hread
      exact hwhole (hskip.trans (by simp)) (.object ht)
  case h_7 =>
    obtain ⟨⟨n, r'⟩, hread, heq⟩ := Option.map_eq_some_iff.1 h
    cases heq
    obtain ⟨t, ht, hs⟩ := numeral_eq_some hread
    exact hwhole hs (.number ht)

/-- The reader takes nothing else for a value, for the elements of an array or for the members of an
    object. -/
theorem text_of_reads (steps : Nat) :
    (∀ {s v rest}, value steps s = some (v, rest) →
      ∃ a t, IsSpaces a ∧ ValueText v t ∧ s = a ++ (t ++ rest)) ∧
    (∀ {s vs rest}, elements steps s = some (vs, rest) →
      ∃ t, ElementsText vs t ∧ s = t ++ ']' :: rest) ∧
    (∀ {s ms rest}, members steps s = some (ms, rest) →
      ∃ t, MembersText ms t ∧ s = t ++ '\x7d' :: rest) := by
  induction steps with
  | zero => exact ⟨nofun, nofun, nofun⟩
  | succ steps ih =>
    obtain ⟨ihvalue, ihelements, ihmembers⟩ := ih
    refine ⟨fun h => value_eq_some h ihelements ihmembers, ?_, ?_⟩
    · intro s vs rest h
      unfold elements at h
      split at h
      · exact nomatch h
      · rename_i v r hvalue
        obtain ⟨a, t, ha, ht, rfl⟩ := ihvalue hvalue
        split at h
        · rename_i r' hskip
          obtain ⟨b, hb, rfl⟩ := append_of_skipSpace hskip
          obtain ⟨⟨vs, r''⟩, hmore, heq⟩ := Option.map_eq_some_iff.1 h
          cases heq
          obtain ⟨u, hu, rfl⟩ := ihelements hmore
          exact ⟨_, .more (.intro ha ht hb) hu, by simp only [List.append_assoc, List.cons_append]⟩
        · rename_i r' hskip
          cases h
          obtain ⟨b, hb, rfl⟩ := append_of_skipSpace hskip
          exact ⟨_, .one (.intro ha ht hb), by simp only [List.append_assoc]⟩
        · exact nomatch h
    · -- a name, a colon and a value, and then a comma or the brace
      intro s ms rest h
      unfold members at h
      split at h
      case h_2 => exact nomatch h
      case h_1 r hskip =>
      obtain ⟨a, ha, rfl⟩ := append_of_skipSpace hskip
      split at h
      · exact nomatch h
      · rename_i key r' hname
        obtain ⟨us, t, ht, rfl, rfl⟩ := string_eq_some_iff.1 hname
        split at h
        case h_2 => exact nomatch h
        case h_1 r'' hcolon =>
        obtain ⟨b, hb, rfl⟩ := append_of_skipSpace hcolon
        have hkey : NameText (decodeUnits us) (a ++ '"' :: (t ++ '"' :: b)) := .intro ha ht hb
        split at h
        · exact nomatch h
        · rename_i v q hvalue
          obtain ⟨c, u, hc, hu, rfl⟩ := ihvalue hvalue
          split at h
          · rename_i q' hcomma
            obtain ⟨d, hd, rfl⟩ := append_of_skipSpace hcomma
            obtain ⟨⟨ms, q''⟩, hmore, heq⟩ := Option.map_eq_some_iff.1 h
            cases heq
            obtain ⟨w, hw, rfl⟩ := ihmembers hmore
            exact ⟨_, .more hkey (.intro hc hu hd) hw,
              by simp only [List.append_assoc, List.cons_append]⟩
          · rename_i q' hclose
            cases h
            obtain ⟨d, hd, rfl⟩ := append_of_skipSpace hclose
            exact ⟨_, .one hkey (.intro hc hu hd),
              by simp only [List.append_assoc, List.cons_append]⟩
          · exact nomatch h

/-- A whole text is read exactly if it is written for a value, with white space around it. -/
theorem parse_eq_some_iff {text : String} :
    Json.parse text = some v ↔ SpacedText v text.toList := by
  unfold Json.parse
  constructor
  · intro h
    simp only at h
    split at h
    · rename_i w r hvalue
      split at h
      · rename_i hend
        cases h
        obtain ⟨a, t, ha, ht, hs⟩ := (text_of_reads _).1 hvalue
        obtain ⟨b, hb, rfl⟩ := append_of_skipSpace hend
        rw [hs, List.append_nil]
        exact .intro ha ht hb
      · exact nomatch h
    · exact nomatch h
  · intro h
    have hends : Ends [] := nofun
    -- two steps for each character are enough for the whole text
    obtain ⟨b, hb, hread⟩ := (reads_text (2 * text.toList.length + 2)).1 h (by omega) hends
    have hend : skipSpace b = [] := by
      rw [← List.append_nil b, skipSpace_append hb]
      rfl
    rw [List.append_nil, List.append_nil] at hread
    simp only [hread, hend, if_true]

/-- No text is written for two values. -/
theorem SpacedText.unique {w : Json} (hv : SpacedText v s) (hw : SpacedText w s) : v = w := by
  rw [← String.toList_ofList (l := s)] at hv hw
  exact Option.some.inj ((parse_eq_some_iff.2 hv).symm.trans (parse_eq_some_iff.2 hw))

/-! ## Writing without white space -/

/-- Whether a character stands for itself in a string. -/
def isPlain (c : Char) : Bool := 0x20 ≤ c.toNat && c != '"' && c != '\\'

/-- Plain characters are written as they are. -/
theorem unitsText_plain (h : s.all isPlain = true) : UnitsText (s.map .char) s := by
  induction s with
  | nil => exact .nil
  | cons c s ih =>
    rw [List.all_cons, Bool.and_eq_true] at h
    obtain ⟨hc, hs⟩ := h
    simp only [isPlain, Bool.and_eq_true, decide_eq_true_eq, bne_iff_ne] at hc
    exact .char hc.1.1 hc.1.2 hc.2 (ih hs)

/-- Plain characters are read as they are. -/
theorem decodeUnits_plain (s : List Char) : decodeUnits (s.map .char) = some s := by
  induction s with
  | nil => rfl
  | cons c s ih => rw [List.map_cons, decodeUnits, ih, Option.map_some]

/-- A name of plain characters is written between quotation marks. -/
theorem nameText_plain (h : s.all isPlain = true) : NameText (some s) ('"' :: (s ++ ['"'])) := by
  rw [← decodeUnits_plain s]
  exact .intro (a := []) isSpaces_nil (unitsText_plain h) isSpaces_nil

/-- A string of plain characters is written between quotation marks. -/
theorem valueText_plain (h : s.all isPlain = true) :
    ValueText (.string (some s)) ('"' :: (s ++ ['"'])) := by
  rw [← decodeUnits_plain s]
  exact .string (unitsText_plain h)

/-- A natural number as a value. -/
def natural (n : Nat) : Json := .number ⟨false, n, none, none⟩

/-- A natural number is written with its decimal digits. -/
theorem valueText_natural (n : Nat) : ValueText (natural n) (toString n).toList := by
  have hdigits : NumeralText ⟨false, n, none, none⟩ (Nat.toDigits 10 n ++ ([] ++ [])) :=
    .natural (isWhole_toDigits n) .none .none
  rw [List.append_nil, List.append_nil] at hdigits
  rw [show (toString n).toList = Nat.toDigits 10 n from Nat.toList_repr]
  exact .number hdigits

/-- There need not be any white space. -/
theorem spacedText_of_valueText (h : ValueText v s) : SpacedText v s := by
  have hspaced := SpacedText.intro isSpaces_nil h isSpaces_nil
  rwa [List.append_nil] at hspaced

/-- Members that are written one after the other, with commas between them. -/
theorem membersText_join {κ : Type} {name : κ → String} {value : κ → Json} {text : κ → String}
    {cs : List κ} (hne : cs ≠ []) (hname : ∀ c ∈ cs, (name c).toList.all isPlain = true)
    (htext : ∀ c ∈ cs, ValueText (value c) (text c).toList) :
    MembersText (cs.map fun c => (some (name c).toList, value c))
      (String.intercalate "," (cs.map fun c => "\"" ++ name c ++ "\":" ++ text c)).toList := by
  induction cs with
  | nil => exact absurd rfl hne
  | cons c rest ih =>
    obtain ⟨hc, hrest⟩ := List.forall_mem_cons.1 hname
    obtain ⟨hv, htexts⟩ := List.forall_mem_cons.1 htext
    have hkey := nameText_plain hc
    have hspaced := spacedText_of_valueText hv
    cases rest with
    | nil =>
      have hone := MembersText.one hkey hspaced
      simpa using hone
    | cons d rest =>
      have hmore := MembersText.more hkey hspaced (ih (List.cons_ne_nil d rest) hrest htexts)
      simpa using hmore

end MediaBridge.Json
