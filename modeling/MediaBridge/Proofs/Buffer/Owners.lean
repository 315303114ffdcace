import MediaBridge.Proofs.Buffer.Changes

/-! # Who owns a buffer

A buffer is owned by handles and by references, and it counts them.  `Owned` says that the count is right.
So a buffer lives for as long as somebody owns it, and a buffer that lost its last owner has nobody left who
could lose it again.

* `owned_of_change`     no change breaks the invariant;
* `owned_performAll`    and so no operation does;
* `Owned.pos_of_owning` who owns a buffer keeps it alive.
-/

namespace MediaBridge

variable {α : Type u}

namespace Table

/-- A value that counts as before is changed for nothing. -/
theorem count_update_of_same {t : Table α} {k : Nat} {f : α → α} {p : α → Bool}
    (h : ∀ v, t.get? k = some v → p (f v) = p v) : (t.update k f).count p = t.count p := by
  simp only [count, update, List.countP_map]
  refine List.countP_congr fun c hc => ?_
  simp only [Function.comp_apply]
  split
  · rename_i heq
    rw [h c.2 (heq ▸ get?_of_mem hc)]
  · rfl

end Table

namespace Store

/-- How many handles own a buffer. -/
def owning (s : Store) (b : BufferId) : Nat := s.handles.count fun x => x.target = some ⟨b, true⟩

/-- How many references own a buffer. -/
def referring (s : Store) (b : BufferId) : Nat := s.references.count fun b' => b' = b

/-- Every buffer knows how many own it. -/
def Owned (s : Store) : Prop := ∀ b, s.ownersOf b = s.owning b + s.referring b

/-- Nobody owns anything at the start. -/
theorem owned_empty : Owned {} := fun _ => rfl

/-! ## Owners after each change -/

section

variable {s s' : Store} {h : HandleId} {b : BufferId}

/-- A buffer is alive just if somebody owns it. -/
theorem isAlive_iff : s.isAlive b ↔ 0 < s.ownersOf b := by
  unfold isAlive ownersOf
  cases s.buffers.get? b with
  | none => simp
  | some x => simp

/-- A change to something else leaves the number of owners. -/
theorem ownersOf_update {f : Buffer → Buffer} (hf : ∀ x, (f x).owners = x.owners)
    (b' : BufferId) :
    ({ s with buffers := s.buffers.update b f } : Store).ownersOf b' = s.ownersOf b' := by
  simp only [ownersOf, Table.get?_update]
  split
  · cases s.buffers.get? b' with
    | none => rfl
    | some x => exact hf x
  · rfl

/-- A new buffer has the owners that it was made with. -/
theorem ownersOf_add (x : Buffer) (b' : BufferId) :
    ({ s with buffers := (s.buffers.add x).2 } : Store).ownersOf b' =
      s.ownersOf b' + if b' = s.buffers.next then x.owners else 0 := by
  simp only [ownersOf, Table.get?_add]
  split
  · rename_i heq
    rw [heq, s.buffers.get?_of_next_le (Nat.le_refl _)]
    exact (Nat.zero_add _).symm
  · rfl

/-- An owned buffer that is adopted has one owner more. -/
theorem ownersOf_adopt (hb : 0 < s.ownersOf b) (b' : BufferId) :
    (s.adopt b).ownersOf b' = s.ownersOf b' + if b' = b then 1 else 0 := by
  simp only [adopt, ownersOf, Table.get?_update]
  split
  · rename_i heq
    unfold ownersOf at hb
    rw [heq]
    cases hx : s.buffers.get? b with
    | none =>
      rw [hx] at hb
      cases hb
    | some x => rfl
  · rfl

/-- A buffer that is disowned has one owner less, if it had any. -/
theorem ownersOf_disown (s : Store) (b b' : BufferId) :
    (s.disown b).ownersOf b' + (if b' = b ∧ 0 < s.ownersOf b then 1 else 0) = s.ownersOf b' := by
  by_cases hne : b' = b
  · subst hne
    simp only [true_and]
    unfold disown
    cases hx : s.buffers.get? b' with
    | none => simp only [ownersOf, hx, Option.map_none, Option.getD_none, Nat.lt_irrefl, if_false]
    | some x =>
      have howners : s.ownersOf b' = x.owners := by rw [ownersOf, hx]; rfl
      have hleft : ({ s with buffers := s.buffers.set b' { x with owners := x.owners - 1 } } :
          Store).ownersOf b' = x.owners - 1 := by
        rw [ownersOf, Table.get?_set, if_pos rfl, hx]
        rfl
      -- a payload that goes home is no owner
      have hparted : ∀ u : Store, (u.recycle x).ownersOf b' = u.ownersOf b' :=
        fun u => by rw [ownersOf, buffers_recycle]; rfl
      simp only
      split
      · rw [ownersOf_sweep, hparted, hleft, howners]
        split <;> omega
      · rw [hleft, howners]
        split <;> omega
  · rw [if_neg fun hand => hne hand.1, Nat.add_zero, ownersOf, get?_buffers_disown_of_ne s hne]
    rfl

/-- A handle that keeps its buffer counts as before. -/
theorem owning_update (f : Handle → Handle) (hf : ∀ x, (f x).target = x.target)
    (b : BufferId) : ({ s with handles := s.handles.update h f } : Store).owning b = s.owning b :=
  Table.count_update_of_same fun x _ => by rw [hf]

/-- A new handle counts for the buffer that it owns. -/
theorem owning_addHandle (x : Handle) (b : BufferId) :
    (s.addHandle x).2.owning b = s.owning b + if x.target = some ⟨b, true⟩ then 1 else 0 := by
  have hcount := Table.count_add s.handles x fun y => y.target = some ⟨b, true⟩
  simp only [decide_eq_true_eq] at hcount
  exact hcount

/-- A handle that forgets its buffer does not count any more. -/
theorem owning_forget {t : Target} (ht : (s.handle h).target = some t) (b : BufferId) :
    ({ s with handles := s.handles.set h { target := none } } : Store).owning b +
      (if t = ⟨b, true⟩ then 1 else 0) = s.owning b := by
  have hcount := Table.count_set (get?_handles_of_target ht) { target := none }
    fun y => y.target = some ⟨b, true⟩
  simp only [ht, decide_eq_true_eq, Option.some.injEq, reduceCtorEq, if_false] at hcount
  exact hcount

/-- A handle without a buffer owns nothing. -/
theorem owning_erase (ht : (s.handle h).target = none) (b : BufferId) :
    ({ s with handles := s.handles.erase h } : Store).owning b = s.owning b := by
  show (s.handles.erase h).count _ = _
  cases hget : s.handles.get? h with
  | none => exact Table.count_erase_of_none hget _
  | some x =>
    rw [handle, hget] at ht
    have hcount := Table.count_erase hget fun y => y.target = some ⟨b, true⟩
    rw [if_neg (by simpa using fun heq => by rw [show x.target = none from ht] at heq; cases heq)]
      at hcount
    exact hcount

/-- A new reference counts for its buffer. -/
theorem referring_add (b b' : BufferId) :
    ({ s with references := (s.references.add b).2 } : Store).referring b' =
      s.referring b' + if b = b' then 1 else 0 := by
  have hcount := Table.count_add s.references b fun y => y = b'
  simp only [decide_eq_true_eq] at hcount
  exact hcount

/-- A reference that is dropped does not count any more. -/
theorem referring_erase {r : ReferenceId} (hr : s.references.get? r = some b) (b' : BufferId) :
    ({ s with references := s.references.erase r } : Store).referring b' +
      (if b = b' then 1 else 0) = s.referring b' := by
  have hcount := Table.count_erase hr fun y => y = b'
  simp only [decide_eq_true_eq] at hcount
  exact hcount

/-! ## Counting owners -/

namespace Owned

/-- Handles, references and counts are as they were. -/
theorem of_same (hs : s.Owned) (howners : ∀ b, s'.ownersOf b = s.ownersOf b)
    (howning : ∀ b, s'.owning b = s.owning b) (hreferences : s'.references = s.references) :
    s'.Owned := by
  intro b
  rw [howners, howning, referring, hreferences]
  exact hs b

/-- Whoever owns a buffer keeps it alive. -/
theorem pos_of_owning (hs : s.Owned) (ht : (s.handle h).target = some ⟨b, true⟩) :
    0 < s.ownersOf b := by
  have hpos : 0 < s.owning b :=
    Table.count_pos_of_get? (get?_handles_of_target ht) (decide_eq_true ht)
  rw [hs b]
  omega

/-- A buffer that a reference owns is alive. -/
theorem pos_of_referring (hs : s.Owned) {r : ReferenceId} (hr : s.references.get? r = some b) :
    0 < s.ownersOf b := by
  have hpos : 0 < s.referring b := Table.count_pos_of_get? hr (decide_eq_true rfl)
  rw [hs b]
  omega

/-- A handle that is added owns its buffer if the buffer counts it. -/
theorem addHandle (hs : ∀ b', s.ownersOf b' = s.owning b' + s.referring b' +
      if b' = b then 1 else 0) : (s.addHandle { target := some ⟨b, true⟩ }).2.Owned := by
  intro b'
  have hadd := s.owning_addHandle { target := some ⟨b, true⟩ } b'
  simp only [Option.some.injEq, Target.mk.injEq, and_true] at hadd
  show s.ownersOf b' = _ + s.referring b'
  rw [hadd, hs b']
  simp only [eq_comm (a := b)]
  omega

/-- A new buffer has one owner, the handle that comes with it. -/
theorem newBuffer (hs : s.Owned) {x : Buffer} (hx : x.owners = 1) : (s.newBuffer x).2.Owned := by
  refine addHandle (s := { s with buffers := (s.buffers.add x).2 }) (b := s.buffers.next) ?_
  intro b'
  rw [ownersOf_add, hx, hs b']
  rfl

/-- Whoever adopts a buffer is counted by it first, and is there only afterwards. -/
theorem adopt (hs : s.Owned) (hb : 0 < s.ownersOf b) (b' : BufferId) :
    (s.adopt b).ownersOf b' = (s.adopt b).owning b' + (s.adopt b).referring b' +
      if b' = b then 1 else 0 := by
  rw [ownersOf_adopt hb, hs b']
  rfl

/-- One owner of a buffer went, and the buffer counts one less. -/
theorem disown (hb : 0 < s.ownersOf b)
    (hs : ∀ b', s.ownersOf b' = s.owning b' + s.referring b' + if b' = b then 1 else 0) :
    (s.disown b).Owned := by
  intro b'
  have hcount := s.ownersOf_disown b b'
  have howning : (s.disown b).owning b' = s.owning b' := by rw [owning, handles_disown]; rfl
  have hreferring : (s.disown b).referring b' = s.referring b' := by
    rw [referring, references_disown]
    rfl
  -- whoever went was counted, so the buffer counts one less
  rw [hs b'] at hcount
  rw [howning, hreferring]
  simp only [hb, and_true] at hcount
  omega

end Owned

/-- No change breaks the invariant. -/
theorem owned_of_change {d : Deal} (hs : s.Owned) (h : s.Change d s') : s'.Owned := by
  cases h with
  | @map _ _ _ l =>
    exact hs.of_same (s.ownersOf_update_lock _ · (fun _ => l) _) (owning_update _ fun _ => rfl) rfl
  | @unmap h t ht hm =>
    refine hs.of_same (s.ownersOf_update_lock _ · (·.leave (s.handle h).mapping) _) (fun b => ?_) rfl
    rw [Table.set_eq_update (get?_handles_of_target ht) fun x => { x with mapping := .unmapped }]
    exact owning_update (fun x => { x with mapping := .unmapped }) (fun _ => rfl) b
  | sweep b =>
    refine hs.of_same (s.ownersOf_sweep b) (fun b' => ?_) (references_sweep s b)
    rw [owning, handles_sweep, owning]
  | edit => exact hs.of_same (ownersOf_update fun _ => rfl) (fun _ => rfl) rfl
  | inform => exact hs.of_same (ownersOf_update fun _ => rfl) (fun _ => rfl) rfl
  | make => exact hs.newBuffer rfl
  | makeReference bytes =>
    intro b
    have howners := ownersOf_add (s := s) { bytes } b
    have hreferring := referring_add (s := s) s.buffers.next b
    show _ = s.owning b + _
    refine howners.trans ?_
    rw [hs b]
    simp only [eq_comm (a := b)]
    exact (Nat.add_assoc ..).trans (congrArg (s.owning b + ·) hreferring.symm)
  | newPool => exact hs.of_same (fun _ => rfl) (fun _ => rfl) rfl
  | dropPool => exact hs.of_same (fun _ => rfl) (fun _ => rfl) rfl
  | @lend p h _ ha =>
    obtain ⟨pool, bytes, pool', -, -, -, rfl⟩ := acquire_cases ha
    refine Owned.newBuffer ?_ rfl
    exact hs.of_same (fun _ => rfl) (fun _ => rfl) rfl
  | borrow b =>
    refine hs.of_same (fun _ => rfl) (fun b' => ?_) rfl
    refine (s.owning_addHandle { target := some ⟨b, false⟩ } b').trans ?_
    simp
  -- the buffer counts the new owner before the handle is made
  | @own r b hr => exact .addHandle (hs.adopt (hs.pos_of_referring hr))
  | @refer h b hl =>
    intro b'
    have halive := isAlive_iff.1 (live?_eq_some_iff.1 hl).2
    have hreferring := referring_add (s := s) b b'
    simp only [eq_comm (a := b)] at hreferring
    have hadopt := hs.adopt halive b'
    exact (hadopt.trans (Nat.add_assoc ..)).trans (congrArg (s.owning b' + ·) hreferring.symm)
  | @forget h b ht hu =>
    refine hs.of_same (fun _ => rfl) (fun b' => ?_) rfl
    have hforget := owning_forget ht b'
    simpa using hforget
  | @leave h b _ _ ht hu hd =>
    -- the handle has forgotten its buffer already, so the buffer counts one too many
    rw [hd.eq]
    refine .disown (hs.pos_of_owning ht) fun b' => ?_
    have hforget := owning_forget ht b'
    simp only [Target.mk.injEq, and_true, eq_comm (a := b)] at hforget
    show s.ownersOf b' = _ + s.referring b' + _
    rw [hs b', ← hforget]
    omega
  | erase ht => exact hs.of_same (fun _ => rfl) (owning_erase ht) rfl
  | @dropReference r b _ _ hr hd =>
    rw [hd.eq]
    refine .disown (hs.pos_of_referring hr) fun b' => ?_
    have herase := referring_erase hr b'
    simp only [eq_comm (a := b)] at herase
    show s.ownersOf b' = s.owning b' + _ + _
    rw [hs b', ← herase]
    omega

/-- No number of operations makes the count wrong. -/
theorem owned_performAll (hs : s.Owned) (ops : List Op) : (s.performAll ops).Owned := by
  obtain ⟨deals, htrail⟩ := s.attains_performAll ops
  exact htrail.keeps owned_of_change hs

end

end Store

end MediaBridge
