import MediaBridge.Error
import MediaBridge.Text.Blank
import MediaBridge.Text.Split

/-! # Format descriptions

A format is a media type with named fields, such as `video/x-raw, format=RGB, width=640`.  Nothing
here interprets it; it is read, stored and written.  Fields are kept in ascending order of their
keys, one value a key, so two descriptions of the same fields are equal.

* `field_withField` a field reads back as it was last written;
* `Caps.parse` and `Caps.render` are reading and writing.
-/

namespace MediaBridge

/-- Fields in strictly ascending order of their keys. -/
def Ascending (fields : List (String × String)) : Prop := fields.Pairwise fun a b => a.1 < b.1

/-- Puts a field where its key belongs, in place of the one with that key. -/
def insertField (key value : String) : List (String × String) → List (String × String)
  | [] => [(key, value)]
  | f :: r =>
    if key < f.1 then (key, value) :: f :: r
    else if key = f.1 then (key, value) :: r
    else f :: insertField key value r

theorem mem_insertField {key value : String} {fields : List (String × String)} {f : String × String}
    (h : f ∈ insertField key value fields) : f = (key, value) ∨ f ∈ fields := by
  induction fields with
  | nil => simpa [insertField] using h
  | cons g r ih =>
    rw [insertField] at h
    split at h
    · simpa using h
    · split at h
      · simp only [List.mem_cons] at h ⊢
        exact h.imp_right .inr
      · rcases List.mem_cons.1 h with rfl | h
        · simp
        · exact (ih h).imp_right (List.mem_cons_of_mem _)

theorem Ascending.insertField {fields : List (String × String)} (h : Ascending fields)
    (key value : String) : Ascending (insertField key value fields) := by
  induction fields with
  | nil => simp [MediaBridge.insertField, Ascending]
  | cons f r ih =>
    obtain ⟨hf, hr⟩ := List.pairwise_cons.1 h
    rw [MediaBridge.insertField]
    split
    · rename_i lt
      refine List.pairwise_cons.2 ⟨fun g hg => ?_, h⟩
      rcases List.mem_cons.1 hg with rfl | hg
      · exact lt
      · exact String.lt_trans lt (hf g hg)
    · split
      · rename_i e
        exact List.pairwise_cons.2 ⟨fun g hg => e ▸ hf g hg, hr⟩
      · rename_i nlt ne
        refine List.pairwise_cons.2 ⟨fun g hg => ?_, ih hr⟩
        rcases mem_insertField hg with rfl | hg
        · rcases Decidable.em (f.1 < key) with lt | nlt'
          · exact lt
          · exact absurd (String.le_antisymm (String.not_lt.1 nlt') (String.not_lt.1 nlt)) ne
        · exact hf g hg

/-- A media type with its fields. -/
structure Caps where
  mediaType : String
  fields : List (String × String)
  ascending : Ascending fields
  deriving DecidableEq

namespace Caps

/-- A media type without fields. -/
def new (mediaType : String) : Caps := ⟨mediaType, [], .nil⟩

instance : Inhabited Caps := ⟨new ""⟩

/-- The description with a field added or replaced. -/
def withField (c : Caps) (key value : String) : Caps :=
  ⟨c.mediaType, insertField key value c.fields, c.ascending.insertField key value⟩

/-- The value of a field. -/
def field (c : Caps) (key : String) : Option String := c.fields.lookup key

/-- The media type, then each field after a comma. -/
def render (c : Caps) : String :=
  c.fields.foldl (fun s f => s ++ ", " ++ f.1 ++ "=" ++ f.2) c.mediaType

instance : ToString Caps := ⟨render⟩

/-- Adds fields written `key=value`, blanks around either side left out. -/
def addFields (c : Caps) : List (List Char) → Except CapsFault Caps
  | [] => .ok c
  | part :: rest =>
    match Text.cut '=' part with
    | none => .error (.malformedField (String.ofList part))
    | some (key, value) =>
      (c.withField (String.ofList (Text.trim key)) (String.ofList (Text.trim value))).addFields rest

/-- Reads a description: parts between commas, each without the blanks around it, the first the
    media type and the others fields. -/
def parse (s : String) : Except CapsFault Caps :=
  match (Text.pieces ',' s.toList).map Text.trim with
  | [] | [] :: _ => .error (.noMediaType s)
  | mediaType :: parts => (new (String.ofList mediaType)).addFields parts

private theorem lookup_field_cons (k : String) (f : String × String) (r : List (String × String)) :
    (f :: r).lookup k = if k = f.1 then some f.2 else r.lookup k := by
  rw [List.lookup_cons]
  by_cases e : k = f.1
  · simp [e]
  · rw [beq_false_of_ne e, if_neg e]

private theorem lookup_insertField (key value k : String) (fields : List (String × String)) :
    (insertField key value fields).lookup k = if k = key then some value else fields.lookup k := by
  induction fields with
  | nil => rw [insertField, lookup_field_cons]
  | cons f r ih =>
    rw [insertField]
    split
    · rw [lookup_field_cons]
    · split
      · rename_i e
        rw [lookup_field_cons, lookup_field_cons, ← e]
        split <;> rfl
      · rename_i ne
        rw [lookup_field_cons, ih, lookup_field_cons]
        by_cases e : k = key
        · subst e; simp [ne]
        · simp [e]

/-- A field reads back as it was last written, and the others as before. -/
theorem field_withField (c : Caps) (key value k : String) :
    (c.withField key value).field k = if k = key then some value else c.field k :=
  lookup_insertField key value k c.fields

end Caps

end MediaBridge
