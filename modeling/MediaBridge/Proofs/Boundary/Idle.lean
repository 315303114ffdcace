import MediaBridge.Proofs.Boundary.Order
import MediaBridge.Supervisor.Basic

/-! # Pushing into an idle ingest

When the pipeline has pulled everything, the next frame should be let in at once, whatever its size.
Whether it is depends on what the count still holds then: the bytes of frames that could not be read
when they were pulled.  With no room at all, which the settings allow, not even an untouched ingest lets
a frame in.

* `Idle.answer?_iff`     what an ingest that holds nothing answers;
* `Idle.same_of_trail`   while a push waits there, the ingest stays as it is;
* `idle_of_reaches`      so a push is either let in at once, or waits until the ingest is closed or its
  stream is ended.
-/

namespace MediaBridge

open Relation (ReflTransGen)

/-- An offer that may come in does. -/
theorem Ingest.settle?_eq_ok {p : Ingest} (h : p.answer? = some .ok) (s : Store) (o : Offer) :
    p.settle? s o = some (.ok, p.accept o, s) := by
  rw [settle?, h]
  rfl

/-- Where there is no answer, an offer waits. -/
theorem Ingest.settle?_eq_none {p : Ingest} (h : p.answer? = none) (s : Store) (o : Offer) :
    p.settle? s o = none := by
  rw [settle?, h]
  rfl

/-- An ingest that is open stays as it is when it is opened. -/
theorem Ingest.reopen_eq_self {p : Ingest} (hopen : p.flushing = false) (hgoes : p.ended = false) :
    p.reopen = p := by
  cases p
  cases hopen
  cases hgoes
  rfl

/-- A frame that can be read is offered with the size that it has. -/
theorem Store.measure_of_size {s s' : Store} {h : HandleId} {n : Nat} (hs : s.size h = (.ok n, s')) :
    s.measure h = (some ⟨h, n⟩, s'.unmap h) := by
  rw [measure, hs]

namespace Metered

variable {π : Type u} {α : Type v} {w w' : Metered} {d : Deed} {deeds : List Deed} {maxBytes : Nat}

/-- The ingest of a supervisor, with the store of its frames. -/
def ofSupervisor (sup : Supervisor π α) : Metered :=
  { store := sup.relay.store, ingest := sup.relay.ingest }

/-- The room that a supervisor gives its ingest is the one in the settings. -/
theorem ofSupervisor_new (s : Settings) :
    ofSupervisor (Supervisor.new s : Supervisor π α) = new s.ingestMaxBytes.toNat := rfl

/-- An ingest that is open and holds nothing, and whose stream goes on. -/
structure Idle (w : Metered) : Prop where
  isOpen : w.ingest.flushing = false
  goesOn : w.ingest.ended = false
  empty : w.ingest.queue = []

/-- An idle ingest lets a push wait for the bytes that earlier pulls left in the count, and for them
    alone. -/
theorem Idle.answer?_iff (hidle : w.Idle) (hw : w.Passed maxBytes deeds) :
    (w.ingest.answer? = some .ok ↔ bytes w.unread < maxBytes) ∧
      (w.ingest.answer? = none ↔ maxBytes ≤ bytes w.unread) := by
  have hqueued : w.queued = [] := List.map_eq_nil_iff.1 (hw.sound.queue.symm.trans hidle.empty)
  have hcount := hw.sound.count
  rw [hqueued, bytes_nil, Nat.zero_add] at hcount
  rw [Ingest.answer?_eq_ok_iff, Ingest.answer?_eq_none_iff, hcount, hw.room]
  simp only [hidle.isOpen, hidle.goesOn, true_and]

/-- The answer to whoever waits changes only when the ingest is closed or its stream is ended: nothing
    can be pulled, and nothing is let in. -/
theorem Idle.same_of_does (hidle : w.Idle) (hwaits : w.ingest.answer? = none) (h : w.Does d w')
    (hd : d ≠ .ended ∧ ∀ frames, d ≠ .closed frames) : w'.ingest = w.ingest := by
  cases h with
  | offer _ _ hingest _ | fail _ _ hingest _ | elsewhere _ _ _ hingest _ => exact hingest
  | accept _ hs _ | refuse _ hs _ _ =>
    have hanswer := Ingest.answer?_of_settle? hs
    rw [hwaits] at hanswer
    cases hanswer
  | pull _ hp _ =>
    obtain ⟨rest, hqueue, -⟩ := Ingest.pull_cases hp
    rw [hidle.empty] at hqueue
    cases hqueue
  | close => exact absurd rfl (hd.2 _)
  | reopen _ hingest _ => exact hingest.trans (Ingest.reopen_eq_self hidle.isOpen hidle.goesOn)
  | finish => exact absurd rfl hd.1

/-- While no push is let in, an idle ingest stays as it is, whatever else is done. -/
theorem Idle.same_of_trail (hidle : w.Idle) (hwaits : w.ingest.answer? = none)
    (h : Trail Does w deeds w') (hdeeds : ∀ d ∈ deeds, d ≠ .ended ∧ ∀ frames, d ≠ .closed frames) :
    w'.ingest = w.ingest := by
  induction h with
  | refl => rfl
  | @tail names d v v' _ hdoes ih =>
    have hsame := ih fun d hd => hdeeds d (List.mem_append_left _ hd)
    have hidle' : v.Idle := ⟨hsame ▸ hidle.isOpen, hsame ▸ hidle.goesOn, hsame ▸ hidle.empty⟩
    have hstep := hidle'.same_of_does (hsame ▸ hwaits) hdoes (hdeeds d (List.mem_concat_self ..))
    exact hstep.trans hsame

/-- A frame that can be read is pushed into an idle ingest.  It is let in at once exactly if the frames
    that could not be read when they were pulled, since the ingest was last closed, leave room; then it is
    let in whatever its size.  If they do not, the push waits, and so does every other one, until the
    ingest is closed or its stream is ended. -/
theorem idle_of_reaches (s : Settings)
    (h : (ofSupervisor (Supervisor.new s : Supervisor π α)).Reaches w) (hidle : w.Idle) {f : HandleId}
    {n : Nat} {t : Store} (hsize : w.store.size f = (.ok n, t)) :
    w.store.measure f = (some ⟨f, n⟩, t.unmap f) ∧
      (bytes w.unread < s.ingestMaxBytes.toNat →
        w.ingest.settle? (t.unmap f) ⟨f, n⟩ =
          some (.ok, w.ingest.accept ⟨f, n⟩, t.unmap f)) ∧
      (s.ingestMaxBytes.toNat ≤ bytes w.unread → ∀ deeds w', Trail Does w deeds w' →
        (∀ d ∈ deeds, d ≠ .ended ∧ ∀ frames, d ≠ .closed frames) →
        ∀ o, w'.ingest.settle? w'.store o = none) := by
  rw [ofSupervisor_new] at h
  obtain ⟨earlier, htrail⟩ := trail_of_reaches h
  obtain ⟨hok, hnone⟩ := hidle.answer?_iff (passed_of_trail htrail)
  refine ⟨Store.measure_of_size hsize, ?_, ?_⟩
  · intro hroom
    exact Ingest.settle?_eq_ok (hok.2 hroom) _ _
  · -- whoever waits, waits for the count, and only closing takes anything off it now
    intro hfull deeds w' hlater hdeeds o
    have hsame := hidle.same_of_trail (hnone.2 hfull) hlater hdeeds
    exact Ingest.settle?_eq_none (hsame ▸ hnone.2 hfull) _ _

/-- Of four bytes of room, all are taken by a frame that left long ago. -/
theorem idle_of_leaked :
    ({ ingestMaxBytes := 4 } : Settings).validate = .ok () ∧
      leaked.store.measure 1 = (some ⟨1, 4⟩, (leaked.store.size 1).2.unmap 1) ∧
      leaked.ingest.settle? leaked.store ⟨1, 4⟩ = none := by
  have hreaches : (ofSupervisor (Supervisor.new { ingestMaxBytes := 4 } : Supervisor Unit Unit)).Reaches
      leaked := reaches_leaked
  obtain ⟨hmeasure, -, hwaits⟩ :=
    idle_of_reaches { ingestMaxBytes := 4 } hreaches ⟨rfl, rfl, rfl⟩ (f := 1) (n := 4) rfl
  exact ⟨rfl, hmeasure, hwaits (by decide) [] leaked .refl nofun _⟩

/-- Settings with no room at all are accepted, and then not even the first push is let in. -/
theorem not_let_in_when_idle :
    ¬∀ (s : Settings) (w : Metered), s.validate = .ok () →
      (ofSupervisor (Supervisor.new s : Supervisor Unit Unit)).Reaches w → w.Idle →
      ∀ (f : HandleId) (n : Nat) (t : Store), w.store.size f = (.ok n, t) →
        w.ingest.settle? (t.unmap f) ⟨f, n⟩ ≠ none := by
  intro h
  have hopen : (new 0).Step { new 0 with ingest := (new 0).ingest.reopen } := .reopen
  have hreaches := ReflTransGen.head hopen (.single (.elsewhere (.newFrame ⟨#[1]⟩) nofun))
  exact h { ingestMaxBytes := 0 } _ rfl hreaches ⟨rfl, rfl, rfl⟩ 0 1 _ rfl rfl

end Metered

end MediaBridge
