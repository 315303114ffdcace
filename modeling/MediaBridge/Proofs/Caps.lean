import Mathlib.Data.List.Basic
import MediaBridge.Caps

/-! # Reading format descriptions back

A description is written as its parts, joined by commas, and read by cutting at the commas.  Blanks
around a part, a key or a value get lost on the way, and a separator inside of one ends it too
early.  Descriptions without these read back as they are, and no others are ever read.

* `parse_eq_ok_iff`  the texts that are read, and what is read;
* `parse_render`     a well-formed description is read from its text;
* `reads_iff`        reading and writing, in both directions.
-/

namespace MediaBridge

/-! ## Blanks and separators -/

namespace Text

variable {sep : Char} {s p q : List Char}

/-- Only blanks are trimmed. -/
theorem mem_trim_iff (hsep : isBlank sep = false) : sep ∈ trim s ↔ sep ∈ s := by
  refine ⟨mem_of_mem_trim, fun h => ?_⟩
  obtain ⟨a, b, hs, ha, hb⟩ := exists_blanks_trim s
  rw [hs] at h
  rcases List.mem_append.1 h with h | h
  · rcases List.mem_append.1 h with h | h
    · exact absurd (hsep.symm.trans (ha sep h)) Bool.false_ne_true
    · exact h
  · exact absurd (hsep.symm.trans (hb sep h)) Bool.false_ne_true

/-- Something is left of a text if not all of it is blank. -/
theorem trim_ne_nil_iff : trim s ≠ [] ↔ ∃ c ∈ s, isBlank c = false := by
  simp only [ne_eq, trim_eq_nil_iff, Classical.not_forall, Bool.not_eq_true, exists_prop]

/-- The blanks around a text are blanks around what it is cut into. -/
theorem cut_trim (hsep : isBlank sep = false) (h : cut sep (trim s) = some (p, q)) :
    ∃ p' q', cut sep s = some (p', q') ∧ trim p' = trim p ∧ trim q' = trim q := by
  obtain ⟨a, b, hs, ha, hb⟩ := exists_blanks_trim s
  obtain ⟨htrim, hp⟩ := cut_eq_some_iff.1 h
  refine ⟨a ++ p, q ++ b, cut_eq_some_iff.2 ⟨?_, ?_⟩, trim_blanks_append ha p,
    trim_append_blanks hb q⟩
  · rw [hs, htrim]
    simp only [List.append_assoc, List.cons_append]
  · intro hmem
    rcases List.mem_append.1 hmem with hmem | hmem
    · exact absurd (hsep.symm.trans (ha sep hmem)) Bool.false_ne_true
    · exact hp hmem

end Text

namespace Caps

open Text (pieces cut trim isBlank IsTrimmed)

/-! ## Several fields -/

/-- The description with several fields added or replaced, one after the other. -/
def withFields (c : Caps) (fields : List (String × String)) : Caps :=
  fields.foldl (fun c f => c.withField f.1 f.2) c

@[simp] theorem mediaType_withFields (c : Caps) (fields : List (String × String)) :
    (c.withFields fields).mediaType = c.mediaType := by
  induction fields generalizing c with
  | nil => rfl
  | cons f rest ih => exact ih (c.withField f.1 f.2)

/-- Every field was there or was added. -/
theorem mem_withFields {c : Caps} {fields : List (String × String)} {f : String × String}
    (h : f ∈ (c.withFields fields).fields) : f ∈ c.fields ∨ f ∈ fields := by
  induction fields generalizing c with
  | nil => exact .inl h
  | cons g rest ih =>
    rcases ih (c := c.withField g.1 g.2) h with hold | hnew
    · rcases mem_insertField hold with rfl | hold
      · exact .inr List.mem_cons_self
      · exact .inl hold
    · exact .inr (List.mem_cons_of_mem g hnew)

/-- A key has the value that it was given last. -/
theorem field_withFields (c : Caps) (fields : List (String × String)) (key : String) :
    (c.withFields fields).field key = (fields.reverse.lookup key).or (c.field key) := by
  induction fields generalizing c with
  | nil => rfl
  | cons f rest ih =>
    rw [withFields, List.foldl_cons, ← withFields, ih, field_withField, List.reverse_cons,
      List.lookup_append, Option.or_assoc, List.lookup_cons, List.lookup_nil]
    -- of two values for a key the one that is added later counts
    by_cases heq : key = f.1
    · rw [if_pos heq, heq, beq_self_eq_true, Option.some_or]
    · rw [if_neg heq, beq_false_of_ne heq, Option.none_or]

/-- A key behind all others is put at the end. -/
theorem insertField_of_last {fields : List (String × String)} {key value : String}
    (h : ∀ f ∈ fields, f.1 < key) : insertField key value fields = fields ++ [(key, value)] := by
  induction fields with
  | nil => rfl
  | cons f rest ih =>
    obtain ⟨hf, hrest⟩ := List.forall_mem_cons.1 h
    have hne : key ≠ f.1 := by
      rintro rfl
      exact String.lt_irrefl f.1 hf
    rw [insertField, if_neg (String.lt_asymm hf), if_neg hne, ih hrest, List.cons_append]

/-- Fields that come in ascending order stay in that order. -/
theorem fields_withFields {c : Caps} {fields : List (String × String)}
    (h : Ascending (c.fields ++ fields)) : (c.withFields fields).fields = c.fields ++ fields := by
  induction fields generalizing c with
  | nil => rw [List.append_nil]; rfl
  | cons f rest ih =>
    have hlast : (c.withField f.1 f.2).fields = c.fields ++ [f] :=
      insertField_of_last fun g hg => (List.pairwise_append.1 h).2.2 g hg f List.mem_cons_self
    rw [List.append_cons] at h ⊢
    rw [← hlast] at h ⊢
    exact ih h

/-- Every description comes from its media type by adding fields. -/
theorem withFields_new (c : Caps) : (new c.mediaType).withFields c.fields = c := by
  have hfields : ((new c.mediaType).withFields c.fields).fields = c.fields :=
    fields_withFields (c := new c.mediaType) c.ascending
  have htype := mediaType_withFields (new c.mediaType) c.fields
  cases c
  cases h : withFields _ _
  rw [h] at hfields htype
  cases htype
  cases hfields
  rfl

/-! ## Parts of a text -/

/-- The field that a part of a text gives, if it has an equality sign. -/
def field? (part : List Char) : Option (String × String) :=
  (cut '=' part).map fun (key, value) => (String.ofList (trim key), String.ofList (trim value))

/-- Only a part without an equality sign gives no field. -/
theorem field?_eq_none_iff {part : List Char} : field? part = none ↔ '=' ∉ part := by
  rw [field?, Option.map_eq_none_iff, Text.cut_eq_none_iff]

/-- Blanks around a part do not matter. -/
theorem field?_trim (part : List Char) : field? (trim part) = field? part := by
  cases h : cut '=' (trim part) with
  | none =>
    have hnone : '=' ∉ part := fun hmem => Text.cut_eq_none_iff.1 h ((Text.mem_trim_iff rfl).2 hmem)
    rw [field?_eq_none_iff.2 hnone, field?, h, Option.map_none]
  | some parts =>
    obtain ⟨key, value, hcut, hkey, hvalue⟩ := Text.cut_trim rfl h
    rw [field?, h, field?, hcut]
    simp only [Option.map_some, hkey, hvalue]

/-- Parts are read if each has an equality sign, and then their fields are added. -/
theorem addFields_eq_ok_iff {c c' : Caps} {parts : List (List Char)} :
    c.addFields parts = .ok c' ↔
      (∀ part ∈ parts, '=' ∈ part) ∧ c.withFields (parts.filterMap field?) = c' := by
  induction parts generalizing c with
  | nil =>
    rw [addFields, Except.ok.injEq]
    exact ⟨fun h => ⟨nofun, h⟩, fun h => h.2⟩
  | cons part rest ih =>
    rw [addFields, List.forall_mem_cons]
    cases hcut : cut '=' part with
    | none =>
      exact iff_of_false nofun fun h => Text.cut_eq_none_iff.1 hcut h.1.1
    | some halves =>
      obtain ⟨key, value⟩ := halves
      have hmem : '=' ∈ part := by
        rw [(Text.cut_eq_some_iff.1 hcut).1]
        exact List.mem_append_right key List.mem_cons_self
      have hfield : field? part = some (String.ofList (trim key), String.ofList (trim value)) := by
        rw [field?, hcut, Option.map_some]
      rw [List.filterMap_cons_some hfield]
      simp only [ih, hmem, true_and]
      rfl

/-- A text is read exactly if its first part is not blank and every other has an equality sign. -/
theorem parse_eq_ok_iff {s : String} {c : Caps} :
    parse s = .ok c ↔ ∃ first parts, pieces ',' s.toList = first :: parts ∧
      (∃ x ∈ first, isBlank x = false) ∧ (∀ part ∈ parts, '=' ∈ part) ∧
      (new (String.ofList (trim first))).withFields (parts.filterMap field?) = c := by
  have hparts : ∀ (c' : Caps) (parts : List (List Char)),
      c'.addFields (parts.map trim) = .ok c ↔
        (∀ part ∈ parts, '=' ∈ part) ∧ c'.withFields (parts.filterMap field?) = c := by
    intro c' parts
    have hequals : isBlank '=' = false := rfl
    simp only [addFields_eq_ok_iff, List.forall_mem_map, Text.mem_trim_iff hequals,
      List.filterMap_map, Function.comp_def, field?_trim]
  unfold parse
  cases hpieces : pieces ',' s.toList with
  | nil => exact absurd hpieces (Text.pieces_ne_nil ',' s.toList)
  | cons first parts =>
    simp only [List.map_cons, List.cons.injEq, ← Text.trim_ne_nil_iff]
    cases hfirst : trim first with
    | nil =>
      refine iff_of_false nofun ?_
      rintro ⟨_, _, ⟨rfl, rfl⟩, hne, -⟩
      exact hne hfirst
    | cons x rest =>
      rw [hparts, ← hfirst]
      constructor
      · rintro ⟨hequals, hc⟩
        exact ⟨first, parts, ⟨rfl, rfl⟩, hfirst ▸ List.cons_ne_nil x rest, hequals, hc⟩
      · rintro ⟨_, _, ⟨rfl, rfl⟩, -, hequals, hc⟩
        exact ⟨hequals, hc⟩

/-! ## Well-formed descriptions -/

/-- Whether a description is told by its text: nothing in it has blanks around it, and nothing holds
    a separator that would end it. -/
structure WellFormed (c : Caps) : Prop where
  named : c.mediaType ≠ ""
  mediaType : IsTrimmed c.mediaType.toList ∧ ',' ∉ c.mediaType.toList
  key : ∀ f ∈ c.fields, IsTrimmed f.1.toList ∧ ',' ∉ f.1.toList ∧ '=' ∉ f.1.toList
  value : ∀ f ∈ c.fields, IsTrimmed f.2.toList ∧ ',' ∉ f.2.toList

/-- What is read from a text is well formed. -/
theorem wellFormed_of_parse {s : String} {c : Caps} (h : parse s = .ok c) : c.WellFormed := by
  obtain ⟨first, parts, hpieces, hfirst, -, rfl⟩ := parse_eq_ok_iff.1 h
  have hcomma : ∀ part ∈ first :: parts, ',' ∉ part := fun part hpart =>
    Text.not_mem_of_mem_pieces (hpieces ▸ hpart)
  -- every field comes from a part, which has no comma, and it was cut at its first equality sign
  have hfields : ∀ f ∈ ((new (String.ofList (trim first))).withFields
      (parts.filterMap field?)).fields, ∃ key value, ',' ∉ key ∧ '=' ∉ key ∧ ',' ∉ value ∧
        f = (String.ofList (trim key), String.ofList (trim value)) := by
    intro f hf
    rcases mem_withFields hf with hnone | hmem
    · exact absurd hnone List.not_mem_nil
    · obtain ⟨part, hpart, hfield⟩ := List.mem_filterMap.1 hmem
      obtain ⟨⟨key, value⟩, hcut, rfl⟩ := Option.map_eq_some_iff.1 hfield
      obtain ⟨rfl, hkey⟩ := Text.cut_eq_some_iff.1 hcut
      have hnone := hcomma _ (List.mem_cons_of_mem first hpart)
      simp only [List.mem_append, List.mem_cons, not_or] at hnone
      exact ⟨key, value, hnone.1, hkey, hnone.2.2, rfl⟩
  constructor
  · rw [mediaType_withFields]
    intro hempty
    exact Text.trim_ne_nil_iff.2 hfirst (String.ofList_eq_empty_iff.1 hempty)
  · rw [mediaType_withFields]
    simp only [new, String.toList_ofList]
    exact ⟨Text.isTrimmed_trim first, fun hmem =>
      hcomma first List.mem_cons_self (Text.mem_of_mem_trim hmem)⟩
  · intro f hf
    obtain ⟨key, value, hkey, hequals, -, rfl⟩ := hfields f hf
    simp only [String.toList_ofList]
    exact ⟨Text.isTrimmed_trim key, mt Text.mem_of_mem_trim hkey, mt Text.mem_of_mem_trim hequals⟩
  · intro f hf
    obtain ⟨key, value, -, -, hvalue, rfl⟩ := hfields f hf
    simp only [String.toList_ofList]
    exact ⟨Text.isTrimmed_trim value, mt Text.mem_of_mem_trim hvalue⟩

/-! ## Reading what was written -/

/-- A field as it is written. -/
def writtenField (f : String × String) : List Char := ' ' :: f.1.toList ++ '=' :: f.2.toList

/-- A description is written as its media type, and then its fields with a comma in front of each.
    -/
theorem toList_render (c : Caps) : c.render.toList =
    c.mediaType.toList ++ (c.fields.map writtenField).flatMap (',' :: ·) := by
  have hfold : ∀ (fields : List (String × String)) (s : String),
      (fields.foldl (fun s f => s ++ ", " ++ f.1 ++ "=" ++ f.2) s).toList =
        s.toList ++ (fields.map writtenField).flatMap (',' :: ·) := by
    intro fields
    induction fields with
    | nil => simp
    | cons f rest ih =>
      intro s
      rw [List.foldl_cons, ih]
      simp [writtenField]
  exact hfold c.fields c.mediaType

/-- A field is read as it was written. -/
theorem field?_writtenField {f : String × String} (hkey : IsTrimmed f.1.toList)
    (hequals : '=' ∉ f.1.toList) (hvalue : IsTrimmed f.2.toList) :
    field? (writtenField f) = some f := by
  have hcut : cut '=' (writtenField f) = some (' ' :: f.1.toList, f.2.toList) := by
    refine Text.cut_eq_some_iff.2 ⟨rfl, fun hmem => ?_⟩
    rcases List.mem_cons.1 hmem with hspace | hmem
    · exact absurd hspace (by decide)
    · exact hequals hmem
  have hspace : ∀ c ∈ [' '], isBlank c = true := List.forall_mem_singleton.2 rfl
  have htrim : trim (' ' :: f.1.toList) = f.1.toList := by
    rw [← List.singleton_append, Text.trim_blanks_append hspace, Text.trim_of_isTrimmed hkey]
  rw [field?, hcut]
  simp only [Option.map_some, htrim, Text.trim_of_isTrimmed hvalue, String.ofList_toList]

/-- A well-formed description is read from its text. -/
theorem parse_render {c : Caps} (h : c.WellFormed) : parse c.render = .ok c := by
  have hparts : ∀ part ∈ c.fields.map writtenField, ',' ∉ part ∧ '=' ∈ part := by
    intro part hpart
    obtain ⟨f, hf, rfl⟩ := List.mem_map.1 hpart
    have hkey := (h.key f hf).2.1
    have hvalue := (h.value f hf).2
    simp [writtenField, hkey, hvalue]
  -- the blank that is written in front of a key is trimmed
  have hfields : (c.fields.map writtenField).filterMap field? = c.fields := by
    calc (c.fields.map writtenField).filterMap field?
        = c.fields.filterMap (field? ∘ writtenField) := List.filterMap_map ..
      _ = c.fields.filterMap some := List.filterMap_congr fun f hf =>
          field?_writtenField (h.key f hf).1 (h.key f hf).2.2 (h.value f hf).1
      _ = c.fields := List.filterMap_some ..
  refine parse_eq_ok_iff.2 ⟨c.mediaType.toList, c.fields.map writtenField, ?_, ?_,
    fun part hpart => (hparts part hpart).2, ?_⟩
  · rw [toList_render, Text.pieces_join h.mediaType.2 fun part hpart => (hparts part hpart).1]
  · rw [← Text.trim_ne_nil_iff, Text.trim_of_isTrimmed h.mediaType.1, ne_eq,
      String.toList_eq_nil_iff]
    exact h.named
  · rw [Text.trim_of_isTrimmed h.mediaType.1, String.ofList_toList, hfields, withFields_new]

/-- A description is read from its text exactly if it is well formed.  A text is read exactly if its
    first part is not blank and every other has an equality sign; what is read is well formed, so it
    is read from its own text again, and it has the first part as its media type and the last value
    given for each key. -/
theorem reads_iff :
    (∀ c : Caps, parse c.render = .ok c ↔ c.WellFormed) ∧
    (∀ s : String, (∃ c, parse s = .ok c) ↔ ∃ first parts, pieces ',' s.toList = first :: parts ∧
      (∃ x ∈ first, isBlank x = false) ∧ ∀ part ∈ parts, '=' ∈ part) ∧
    ∀ (s : String) (c : Caps), parse s = .ok c → c.WellFormed ∧ parse c.render = .ok c ∧
      ∀ first parts, pieces ',' s.toList = first :: parts →
        c.mediaType = String.ofList (trim first) ∧
        ∀ key, c.field key = (parts.filterMap field?).reverse.lookup key := by
  refine ⟨fun c => ⟨wellFormed_of_parse, parse_render⟩, fun s => ⟨?_, ?_⟩, fun s c h => ?_⟩
  · rintro ⟨c, hc⟩
    obtain ⟨first, parts, hpieces, hfirst, hparts, -⟩ := parse_eq_ok_iff.1 hc
    exact ⟨first, parts, hpieces, hfirst, hparts⟩
  · rintro ⟨first, parts, hpieces, hfirst, hparts⟩
    exact ⟨_, parse_eq_ok_iff.2 ⟨first, parts, hpieces, hfirst, hparts, rfl⟩⟩
  · have hwell := wellFormed_of_parse h
    obtain ⟨first, parts, hpieces, -, -, rfl⟩ := parse_eq_ok_iff.1 h
    refine ⟨hwell, parse_render hwell, fun first' parts' hpieces' => ?_⟩
    cases hpieces.symm.trans hpieces'
    refine ⟨mediaType_withFields .., fun key => ?_⟩
    rw [field_withFields]
    exact Option.or_none

end Caps

end MediaBridge
