import MediaBridge.Timing

/-! # Pending entries

Every frame that enters the pipeline leaves an entry behind, which waits under the frame's
correspondence id for the result.  Entries stand in ascending order of their ids, since ids are handed
out in ascending order.

When a result comes back, `resolve` takes the entry with its id.  Older entries are passed over for
good: their frames were merged or dropped inside the pipeline.  A result that is older than every
entry may belong to an entry that was given up, which the watermark tells.

* `resolve_found_iff`   what is found is the entry with the id, if older ones come first;
* `length_resolve_add`  every entry is passed over, found or left.
-/

namespace MediaBridge

/-- What waits for the result of a submitted frame. -/
structure PendingEntry (α : Type u) where
  /-- The correspondence id. -/
  id : Nat
  /-- The timing of the frame when it was submitted, its offset being the id. -/
  timing : Timing
  /-- What the caller wants back with the result. -/
  user : α
  deriving DecidableEq, Repr

/-- The entries that wait, oldest first. -/
structure Pending (α : Type u) where
  entries : List (PendingEntry α) := []
  /-- The id of the next entry. -/
  nextId : Nat := 0
  /-- Results with an id below this one may belong to entries that were given up. -/
  watermark : Nat := 0
  deriving DecidableEq, Repr, Inhabited

/-- What a result's id came to. -/
inductive Match (α : Type u) where
  /-- The entry with the id. -/
  | found (entry : PendingEntry α)
  /-- There is no such entry, and that may happen. -/
  | unmatched
  /-- There is no such entry, and that must not happen: the id is smaller than the oldest one
      pending. -/
  | outOfOrder (oldest : Nat)
  deriving DecidableEq, Repr

/-- The outcome for a result with the number of entries it passed over. -/
structure Resolution (α : Type u) where
  result : Match α
  stale : Nat
  deriving DecidableEq, Repr

namespace Pending

variable {α : Type u}

/-- The number of entries. -/
def length (p : Pending α) : Nat := p.entries.length

/-- The entry of a frame that is submitted next. -/
def nextEntry (p : Pending α) (timing : Timing) (user : α) : PendingEntry α :=
  ⟨p.nextId, { timing with offset := p.nextId }, user⟩

/-- Adds the entry of a frame under the next id. -/
def register (p : Pending α) (timing : Timing) (user : α) : Pending α :=
  { p with entries := p.entries ++ [p.nextEntry timing user], nextId := p.nextId + 1 }

/-- Gives the oldest entry up. -/
def evict (p : Pending α) : Pending α :=
  match p.entries with
  | [] => p
  | e :: rest => { p with entries := rest, watermark := e.id + 1 }

/-- Removes the youngest entry with an id. -/
def removeLast (id : Nat) (entries : List (PendingEntry α)) : List (PendingEntry α) :=
  (entries.reverse.eraseP fun e => e.id = id).reverse

/-- Takes the registration of a refused frame back.  Its id is handed out again if no later one was
    handed out in the meantime. -/
def withdraw (p : Pending α) (id : Nat) : Pending α :=
  { p with
    entries := removeLast id p.entries
    nextId := if p.nextId = id + 1 then id else p.nextId }

/-- Forgets every entry; results for them are to be expected. -/
def reset (p : Pending α) : Pending α := { p with entries := [], watermark := p.nextId }

/-- Takes the entry with an id, after passing over the entries with smaller ones. -/
def resolve (p : Pending α) (id : Nat) : Resolution α × Pending α :=
  let stale := (p.entries.takeWhile fun e => e.id < id).length
  match p.entries.dropWhile fun e => e.id < id with
  | [] => (⟨.unmatched, stale⟩, { p with entries := [] })
  | e :: rest =>
    if e.id = id then (⟨.found e, stale⟩, { p with entries := rest })
    -- the entry may have been given up while its frame was under way
    else if id < p.watermark then (⟨.unmatched, stale⟩, { p with entries := e :: rest })
    else (⟨.outOfOrder e.id, stale⟩, { p with entries := e :: rest })

/-! ## What a result leaves -/

@[simp] theorem nextId_resolve (p : Pending α) (id : Nat) : (p.resolve id).2.nextId = p.nextId := by
  unfold resolve; repeat' split
  all_goals rfl

@[simp] theorem watermark_resolve (p : Pending α) (id : Nat) :
    (p.resolve id).2.watermark = p.watermark := by
  unfold resolve; repeat' split
  all_goals rfl

/-- Every entry is accounted for: those passed over, the one found, and those that stay. -/
theorem length_resolve_add (p : Pending α) (id : Nat) :
    p.length = (p.resolve id).1.stale + (match (p.resolve id).1.result with
      | .found _ => 1
      | _ => 0) + (p.resolve id).2.length := by
  have h := congrArg List.length
    (List.takeWhile_append_dropWhile (p := fun e : PendingEntry α => decide (e.id < id))
      (l := p.entries))
  rw [List.length_append] at h
  unfold resolve length
  split
  · rename_i e; rw [e] at h; simpa using h.symm
  · rename_i e; rw [e] at h
    split
    · simp at h ⊢; omega
    · split <;> simp at h ⊢ <;> omega

/-- An entry is found exactly if the first entry that is not older has the id. -/
theorem resolve_found_iff {p : Pending α} {id : Nat} {e : PendingEntry α} :
    (p.resolve id).1.result = .found e ↔
      (p.entries.dropWhile fun e => e.id < id).head? = some e ∧ e.id = id := by
  unfold resolve
  split
  · rename_i h; simp [h]
  · rename_i f rest h
    rw [h]
    split
    · rename_i hid
      simp only [Match.found.injEq, List.head?_cons, Option.some.injEq]
      exact ⟨fun he => ⟨he, he ▸ hid⟩, fun he => he.1⟩
    · rename_i hid
      split <;> simp only [reduceCtorEq, List.head?_cons, Option.some.injEq, false_iff] <;>
        exact fun he => hid (he.1 ▸ he.2)

end Pending

end MediaBridge
