import Mathlib.Data.List.Perm.Subperm
import MediaBridge.Proofs.Supervisor.Outlook

/-! # What is on its way back

Beside its core and its outlook a supervisor has a *load*: the entries, the matched frames in the output
queue, and those whose delivery waits for room.  What submitters left for their frames is part of the
load until it is taken out or lost; results only carry it along.

* `users_receive`, `load_resumeNext?`  a delivery brings nothing but what belongs to an entry;
* `load_pop?`                          what is taken out was the first in the output queue;
* `load_of_isBeside`                   most calls leave the load alone.
-/

namespace MediaBridge

variable {π : Type u} {α : Type v}

/-- A function can be applied to all the elements at once. -/
private theorem map_subperm {β : Type w} {l l' : List β} (f : β → α) (h : l.Subperm l') :
    (l.map f).Subperm (l'.map f) := by
  obtain ⟨kept, hperm, hsub⟩ := h
  exact ⟨kept.map f, hperm.map f, hsub.map f⟩

/-- The last element is filtered by itself. -/
theorem filterMap_snoc {β : Type w} (f : β → Option α) (l : List β) (x : β) :
    (l ++ [x]).filterMap f = l.filterMap f ++ (f x).toList := by
  rw [List.filterMap_append]
  cases h : f x <;> simp [h]

/-- What is on its way back to the application. -/
structure Load (α : Type v) where
  pending : Pending α
  /-- The matched frames in the output queue, oldest first. -/
  output : List (Matched α)
  /-- The matched frames whose delivery waits for room, longest first. -/
  waiting : List (Matched α)

namespace Load

/-- The matched frames, in the output queue or not. -/
def matched (l : Load α) : List (Matched α) := l.output ++ l.waiting

/-- What submitters left for the frames on their way. -/
def users (l : Load α) : List α :=
  l.pending.entries.map PendingEntry.user ++ l.matched.map Matched.user

variable {l l' : Load α}

/-- Entries and matched frames can be lost. -/
theorem users_subperm (hentries : l'.pending.entries.Sublist l.pending.entries)
    (hmatched : l'.matched.Subperm l.matched) : l'.users.Subperm l.users :=
  (hentries.map PendingEntry.user).subperm.append (map_subperm Matched.user hmatched)

/-- A frame is matched with an entry, and may be lost then. -/
theorem users_subperm_of_found {e : PendingEntry α} {m : Matched α}
    (hentries : (e :: l'.pending.entries).Sublist l.pending.entries) (huser : m.user = e.user)
    (hmatched : l'.matched.Subperm (m :: l.matched)) : l'.users.Subperm l.users := by
  have hfound := (hentries.map PendingEntry.user).append_right (l.matched.map Matched.user)
  have hmoved := map_subperm Matched.user hmatched
  rw [List.map_cons, huser] at hmoved
  -- what the matched frame has now, the entry had
  have hpassed : l'.users.Subperm
      (e.user :: (l'.pending.entries.map PendingEntry.user ++ l.matched.map Matched.user)) :=
    ((List.Subperm.refl _).append hmoved).trans List.perm_middle.subperm
  exact hpassed.trans hfound.subperm

end Load

namespace Pending

/-- A result passes older entries over. -/
theorem entries_resolve_sublist (p : Pending α) (id : Nat) :
    (p.resolve id).2.entries.Sublist p.entries := by
  have hsuffix := (List.dropWhile_suffix (fun e : PendingEntry α => decide (e.id < id))
    (l := p.entries)).sublist
  unfold resolve
  cases hrest : p.entries.dropWhile fun e => e.id < id with
  | nil => exact List.nil_sublist _
  | cons e rest =>
    rw [hrest] at hsuffix
    simp only
    split
    · exact (List.sublist_cons_self e rest).trans hsuffix
    · split <;> exact hsuffix

/-- The entry found is not left behind. -/
theorem cons_entries_resolve_sublist {p : Pending α} {id : Nat} {e : PendingEntry α}
    (h : (p.resolve id).1.result = .found e) :
    (e :: (p.resolve id).2.entries).Sublist p.entries := by
  have hsuffix := (List.dropWhile_suffix (fun e : PendingEntry α => decide (e.id < id))
    (l := p.entries)).sublist
  obtain ⟨hhead, hid⟩ := resolve_found_iff.1 h
  unfold resolve
  cases hrest : p.entries.dropWhile fun e => e.id < id with
  | nil =>
    rw [hrest] at hhead
    exact nomatch hhead
  | cons f rest =>
    rw [hrest] at hhead hsuffix
    cases hhead
    simp only [if_pos hid]
    exact hsuffix

end Pending

/-- The matched frames of a delivery that waits. -/
def Delivery.parked : Delivery α → List (Matched α)
  | .done _ => []
  | .waits m => [m]

namespace Relay

/-- What is on its way back through a relay, besides the deliveries that wait. -/
def load (r : Relay α) (waiting : List (Matched α)) : Load α where
  pending := r.bridge.pending
  output := r.bridge.output.items
  waiting := waiting

/-- A publication adds its frame to the matched ones, in the output queue or not, or drops it. -/
theorem matched_publish (r : Relay α) (m : Matched α) (waiting : List (Matched α)) :
    ((r.publish m).2.load (waiting ++ (r.publish m).1.parked)).matched.Subperm
      (m :: (r.load waiting).matched) := by
  have hp := r.publishes_publish m
  generalize r.publish m = publication at hp
  -- the frame goes to the end of the queue, or is dropped with the one drained there, or waits
  cases hp with
  | placed =>
    show ((r.bridge.output.items ++ [m]) ++ (waiting ++ [])).Subperm _
    rw [List.append_nil, List.append_assoc]
    exact List.perm_middle.subperm
  | @dropped s =>
    show (r.bridge.dropOutput.output.items ++ (waiting ++ [])).Subperm _
    rw [List.append_nil, Bridge.output_dropOutput]
    exact List.subperm_cons_self
  | waits =>
    show (r.bridge.output.items ++ (waiting ++ [m])).Subperm _
    rw [← List.append_assoc]
    exact List.perm_append_comm.subperm

/-- A delivery brings nothing but what belongs to an entry. -/
theorem users_deliver (r : Relay α) (item : Item) (waiting : List (Matched α)) :
    ((r.deliver item).2.load (waiting ++ (r.deliver item).1.parked)).users.Subperm
      (r.load waiting).users := by
  cases item with
  | endOfStream =>
    simp only [deliver, Delivery.parked, List.append_nil]
    exact .refl _
  | sample x =>
    have hd := r.delivers_deliver x
    generalize r.deliver (.sample x) = delivery at hd
    -- all but a match leave the matched frames alone, so only entries can be lost
    have hlost : ∀ {r' : Relay α}, r'.bridge.pending.entries.Sublist r.bridge.pending.entries →
        r'.bridge.output = r.bridge.output →
          (r'.load (waiting ++ [])).users.Subperm (r.load waiting).users := by
      intro r' hentries houtput
      refine Load.users_subperm hentries ?_
      rw [List.append_nil, Load.matched, load, houtput]
      exact .refl _
    cases hd with
    | unreadable => exact hlost (.refl _) rfl
    | uncorrelated =>
      refine hlost ?_ (Bridge.output_dropUncorrelated r.bridge)
      rw [Bridge.pending_dropUncorrelated]
    | unmatched => exact hlost (r.bridge.pending.entries_resolve_sublist _) rfl
    | outOfOrder => exact hlost (r.bridge.pending.entries_resolve_sublist _) rfl
    | @matched s c id e copy b d hc hid hr hm hf hd =>
      rw [hd]
      refine Load.users_subperm_of_found (e := e) (m := ⟨copy, e.user⟩) ?_ rfl
        (matched_publish ..)
      rw [load, pending_publish]
      exact Pending.cons_entries_resolve_sublist hm

end Relay

namespace Supervisor

/-- What is on its way back to the application. -/
def load (s : Supervisor π α) : Load α := s.relay.load s.waiting

/-! ## The pipeline and its messages -/

/-- A request to the pipeline leaves the load alone. -/
@[simp] theorem load_request [MediaPipeline π] (s : Supervisor π α) (p : π) (target : Phase) :
    (s.request p target).2.load = s.load := rfl

/-- Handling a message leaves the load alone. -/
@[simp] theorem load_apply (s : Supervisor π α) (m : Message) : (s.apply m).load = s.load := by
  cases m with
  | error source text details => cases details <;> rfl
  | phaseChanged source => cases source <;> rfl
  | _ => rfl

/-- Following the rest of the bus leaves the load alone. -/
@[simp] theorem load_settle (s : Supervisor π α) : s.settle.load = s.load :=
  foldl_apply_keeps load_apply ..

/-- Halting the pipeline leaves the load alone. -/
@[simp] theorem load_halt [MediaPipeline π] (s : Supervisor π α) : s.halt.load = s.load := by
  cases hp : s.pipeline with
  | none => rw [halt_of_none hp]
  | some p => rcases halt_of_some hp with h | ⟨e, h⟩ <;> rw [h] <;> rfl

/-- Reading a message leaves the load alone. -/
@[simp] theorem load_readNext (s : Supervisor π α) : s.readNext.load = s.load := by
  unfold readNext
  split
  · rename_i m rest _ _
    have happly := load_apply { s with bus := rest } m
    simp only
    split
    · split <;> exact happly
    · exact happly
  · rfl

/-! ## Frames and results -/

/-- A submission that passes its screening has changed neither the load nor the pipeline. -/
theorem load_screen_passes [MediaPipeline π] {s s' : Supervisor π α} {uptime : Span}
    {now : ClockTime} (h : s.screen uptime = (.passes now, s')) :
    s'.load = s.load ∧ s'.pipeline = s.pipeline := by
  have hscreens := s.screens_screen uptime
  rw [h] at hscreens
  cases hscreens <;> exact ⟨rfl, rfl⟩

/-- A delivery brings nothing but what belongs to an entry. -/
theorem users_receive (s : Supervisor π α) (uptime : Span) (item : Item) :
    (s.receive uptime item).2.load.users.Subperm s.load.users := by
  have hdeliver := s.relay.users_deliver item s.waiting
  unfold receive
  cases item with
  | endOfStream =>
    simp only [Relay.deliver, Delivery.parked, List.append_nil] at hdeliver
    exact hdeliver
  | sample x =>
    simp only
    generalize s.relay.deliver (.sample x) = delivery at hdeliver
    rcases delivery with ⟨(e | ⟨⟩) | m, r⟩
    · simp only [Delivery.parked, List.append_nil] at hdeliver
      exact hdeliver
    · simp only [Delivery.parked, List.append_nil] at hdeliver
      exact hdeliver
    · exact hdeliver

/-- A delivery does to the entries what the relay does. -/
theorem pending_receive (s : Supervisor π α) (uptime : Span) (item : Item) :
    (s.receive uptime item).2.load.pending = (s.relay.deliver item).2.bridge.pending := by
  unfold receive
  cases item with
  | endOfStream => rfl
  | sample x =>
    simp only
    rcases s.relay.deliver (.sample x) with ⟨(e | ⟨⟩) | m, r⟩ <;> rfl

/-- The delivery that waits longest adds its frame to the output queue, or drops it. -/
theorem load_resumeNext? {s s' : Supervisor π α} {uptime : Span}
    (h : s.resumeNext? uptime = some s') :
    s'.load.pending = s.load.pending ∧ s'.load.matched.Subperm s.load.matched ∧
      s'.waiting.Sublist s.waiting := by
  unfold resumeNext? at h
  cases hwaiting : s.waiting with
  | nil =>
    rw [hwaiting] at h
    exact nomatch h
  | cons m rest =>
    rw [hwaiting] at h
    obtain ⟨r, hr, heq⟩ := Option.map_eq_some_iff.1 h
    cases heq
    have hpending := s.relay.pending_publish m
    have hmatched := s.relay.matched_publish m rest
    rw [Relay.publish_of_publish? hr] at hpending hmatched
    simp only [Delivery.parked, List.append_nil] at hpending hmatched
    refine ⟨hpending, ?_, List.sublist_cons_self m rest⟩
    have hperm : (m :: (s.relay.load rest).matched).Perm s.load.matched := by
      rw [load, hwaiting]
      exact List.perm_middle.symm
    exact hmatched.trans hperm.subperm

/-- The frame taken out was the first in the output queue. -/
theorem load_pop? {s s' : Supervisor π α} {m : Matched α} (h : s.pop? = some (m, s')) :
    s.load = { s'.load with output := m :: s'.load.output } ∧ s'.pipeline = s.pipeline := by
  obtain ⟨⟨m₁, r⟩, hr, heq⟩ := Option.map_eq_some_iff.1 h
  cases heq
  obtain ⟨⟨m₂, output⟩, hpop, heq⟩ := Option.map_eq_some_iff.1 hr
  cases heq
  refine ⟨?_, rfl⟩
  rw [load, Relay.load, BoundedQueue.items_pop? hpop]
  rfl

/-! ## Calls -/

/-- Whether a call has nothing to do with the load. -/
def Call.IsBeside : Call π α → Prop
  | .start | .stop | .submit .. | .resumeSubmit _ | .pop | .deliver _ | .resumeDelivery => False
  | _ => True

/-- Such calls leave the load alone. -/
theorem load_of_isBeside [MediaPipeline π] {s s' : Supervisor π α} {uptime : Span} {c : Call π α}
    {a : Answer α} (h : s.call? uptime c = some (a, s')) (hc : c.IsBeside) : s'.load = s.load := by
  cases c with
  | start | stop | submit | resumeSubmit | pop | deliver | resumeDelivery => exact hc.elim
  | read =>
    cases h
    exact load_readNext s
  | _ => cases touched_of_call? h trivial <;> rfl

end Supervisor

end MediaBridge
