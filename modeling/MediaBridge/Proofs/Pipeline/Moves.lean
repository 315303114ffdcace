import MediaBridge.Pipeline.Loopback

/-! # Moves that follow each other

A pipeline walks to a distant phase move by move, and may get stuck on the way.  What it posts leads from
the phase it was in to the phase it is in then, so whoever hears of every move knows where it is.

* `leads_append`      moves lead on from where others led;
* `leads_heard_iff`   when the moves that were heard of still follow each other, if some were not;
* `Stepwise`          pipelines that post a message for each move they complete;
* `Stuck`             what they completed of a walk that they did not finish.
-/

namespace MediaBridge

variable {π : Type u}

/-! ## Moves on a bus -/

/-- The move of the pipeline that a message tells of.  Moves of single elements do not count. -/
def Message.move? : Message → Option Move
  | .phaseChanged .pipeline old new pending => some ⟨old, new, pending⟩
  | _ => none

namespace Backlog

/-- The moves of the pipeline that the messages on a bus tell of, oldest first. -/
def moves (b : Backlog) : List Move := b.filterMap Message.move?

@[simp] theorem moves_nil : moves [] = [] := rfl

/-- The moves of two stretches of a bus follow each other. -/
theorem moves_append (b b' : Backlog) : moves (b ++ b') = b.moves ++ b'.moves :=
  List.filterMap_append

/-- The first message comes first. -/
theorem moves_cons (m : Message) (b : Backlog) : moves (m :: b) = m.move?.toList ++ b.moves := by
  unfold moves
  cases h : m.move? <;> simp [h]

/-- The messages about moves of the pipeline tell of these moves. -/
theorem moves_message (ms : List Move) : moves (ms.map (·.message .pipeline)) = ms := by
  induction ms with
  | nil => rfl
  | cons m ms ih =>
    rw [List.map_cons, moves_cons, ih]
    rfl

/-- A message of another kind tells of no move. -/
theorem move?_eq_none {m : Message} (h : [MessageKind.phaseChanged].contains m.kind = false) :
    m.move? = none := by
  cases m with
  | phaseChanged => exact nomatch h
  | _ => rfl

/-- Messages of other kinds do not tell of moves. -/
theorem moves_filter (b : Backlog) : moves (b.filter fun m => m.kind = .phaseChanged) = b.moves := by
  induction b with
  | nil => rfl
  | cons m rest ih =>
    by_cases hkind : m.kind = .phaseChanged
    · rw [List.filter_cons_of_pos (by simp [hkind]), moves_cons, moves_cons, ih]
    · have hnone : m.move? = none := move?_eq_none (by simp [hkind])
      rw [List.filter_cons_of_neg (by simp [hkind]), moves_cons, hnone, ih]
      rfl

/-- Looking for the next message about a move throws no move away. -/
theorem moves_popFiltered {b rest : Backlog} {m? : Option Message}
    (h : b.popFiltered [.phaseChanged] = (m?, rest)) :
    b.moves = (m?.bind Message.move?).toList ++ rest.moves := by
  induction b with
  | nil =>
    cases h
    rfl
  | cons m b ih =>
    rw [popFiltered] at h
    cases hkind : [MessageKind.phaseChanged].contains m.kind with
    | true =>
      rw [hkind, if_pos rfl] at h
      cases h
      exact moves_cons m rest
    | false =>
      rw [hkind, if_neg (by decide)] at h
      rw [moves_cons, move?_eq_none hkind]
      exact ih h

/-- Where there is no wanted message, nothing is left. -/
theorem eq_nil_of_popFiltered {kinds : List MessageKind} {b rest : Backlog}
    (h : b.popFiltered kinds = (none, rest)) : rest = [] := by
  induction b with
  | nil =>
    cases h
    rfl
  | cons m b ih =>
    rw [popFiltered] at h
    split at h
    · cases h
    · exact ih h

end Backlog

/-! ## Leading from one phase to another -/

/-- Whether a move brings the pipeline nearer to the playing phase. -/
def Move.Ascends (m : Move) : Prop := m.old.rank < m.new.rank

namespace Phase

/-- Whether moves lead from one phase to another, each of them from where the one before it ended. -/
def Leads : Phase → List Move → Phase → Prop
  | p, [], q => p = q
  | p, m :: ms, q => m.old = p ∧ Leads m.new ms q

/-- Whether moves lead from one phase to another can be computed. -/
instance decidableLeads : (p : Phase) → (ms : List Move) → (q : Phase) → Decidable (p.Leads ms q)
  | p, [], q => inferInstanceAs (Decidable (p = q))
  | p, m :: ms, q =>
    have := decidableLeads m.new ms q
    inferInstanceAs (Decidable (m.old = p ∧ Leads m.new ms q))

/-- The phase that moves end in. -/
def after (p : Phase) (ms : List Move) : Phase := ms.foldl (fun _ m => m.new) p

/-- Later moves go on from where earlier ones ended. -/
theorem after_append (p : Phase) (ms ms' : List Move) :
    p.after (ms ++ ms') = (p.after ms).after ms' := List.foldl_append ..

variable {p q : Phase} {ms ms' : List Move}

/-- Moves that lead to a phase end there. -/
theorem Leads.eq_after (h : p.Leads ms q) : p.after ms = q := by
  induction ms generalizing p with
  | nil => exact h
  | cons m ms ih => exact ih h.2

/-- Moves lead on from where others led. -/
theorem leads_append :
    p.Leads (ms ++ ms') q ↔ p.Leads ms (p.after ms) ∧ (p.after ms).Leads ms' q := by
  induction ms generalizing p with
  | nil => exact ⟨fun h => ⟨rfl, h⟩, And.right⟩
  | cons m ms ih =>
    constructor
    · rintro ⟨hold, hrest⟩
      obtain ⟨hms, hms'⟩ := ih.1 hrest
      exact ⟨⟨hold, hms⟩, hms'⟩
    · rintro ⟨⟨hold, hms⟩, hms'⟩
      exact ⟨hold, ih.2 ⟨hms, hms'⟩⟩

/-- Moves to a phase and moves from there on lead all the way. -/
theorem Leads.append {r : Phase} (h : p.Leads ms q) (h' : q.Leads ms' r) :
    p.Leads (ms ++ ms') r := by
  have hq := h.eq_after
  subst hq
  exact leads_append.2 ⟨h, h'⟩

/-- A beginning of moves that lead somewhere leads somewhere, too. -/
theorem Leads.start (h : p.Leads ms' q) (hms : ms <+: ms') : p.Leads ms (p.after ms) := by
  obtain ⟨rest, rfl⟩ := hms
  exact (leads_append.1 h).1

/-- The moves to a phase lead there. -/
theorem leads_movesTo (p target : Phase) : p.Leads (p.movesTo target) target := by
  cases p <;> cases target <;> decide

/-! ### Upwards -/

/-- Moves that all go up lead no lower. -/
theorem Leads.rank_le (h : p.Leads ms q) (hup : ∀ m ∈ ms, m.Ascends) : p.rank ≤ q.rank := by
  induction ms generalizing p with
  | nil => exact Nat.le_of_eq (congrArg rank h)
  | cons m ms ih =>
    obtain ⟨rfl, hrest⟩ := h
    have hfirst : m.old.rank < m.new.rank := hup m List.mem_cons_self
    have hle := ih hrest fun m' hm' => hup m' (List.mem_cons_of_mem _ hm')
    omega

/-- Moves that go up do not lead back. -/
theorem Leads.rank_lt (h : p.Leads ms q) (hup : ∀ m ∈ ms, m.Ascends) (hms : ms ≠ []) :
    p.rank < q.rank := by
  cases ms with
  | nil => exact absurd rfl hms
  | cons m ms =>
    obtain ⟨rfl, hrest⟩ := h
    have hfirst : m.old.rank < m.new.rank := hup m List.mem_cons_self
    have hle := hrest.rank_le fun m' hm' => hup m' (List.mem_cons_of_mem _ hm')
    omega

/-- On the way to the playing phase a pipeline only goes up. -/
theorem ascends_movesTo (p : Phase) : ∀ m ∈ p.movesTo .playing, m.Ascends := by
  unfold Move.Ascends
  cases p <;> decide

/-! ### Hearing of some moves only -/

section Heard

variable {ι : Type u} {missed heard : ι → List Move} {xs : List ι}

/-- The first move that is heard of begins no lower than all of them. -/
theorem rank_le_heard {first : List Move} {m : Move}
    (h : p.Leads (first ++ xs.flatMap fun x => missed x ++ heard x) q)
    (hup : ∀ x ∈ xs, ∀ m ∈ missed x, m.Ascends) (hfirst : first ++ xs.flatMap heard = m :: ms) :
    p.rank ≤ m.old.rank := by
  cases first with
  | cons m' first =>
    cases hfirst
    exact Nat.le_of_eq (congrArg rank h.1.symm)
  | nil =>
    -- what was missed before the first move that was heard of went up
    induction xs generalizing p with
    | nil => exact nomatch hfirst
    | cons x xs ih =>
      rw [List.nil_append, List.flatMap_cons, List.append_assoc, leads_append] at h
      obtain ⟨hmissed, hrest⟩ := h
      have hle := hmissed.rank_le (hup x List.mem_cons_self)
      refine Nat.le_trans hle ?_
      rw [List.nil_append, List.flatMap_cons] at hfirst
      cases hx : heard x with
      | nil =>
        rw [hx] at hfirst hrest
        exact ih (fun x' hx' => hup x' (List.mem_cons_of_mem _ hx')) hrest hfirst
      | cons m' rest =>
        rw [hx] at hfirst hrest
        cases hfirst
        exact Nat.le_of_eq (congrArg rank hrest.1.symm)

/-- Suppose that all moves follow each other, and that those that nobody heard of went up.  Then the
    others follow each other exactly if nothing is heard after a move was missed. -/
theorem leads_heard_iff (h : p.Leads (xs.flatMap fun x => missed x ++ heard x) q)
    (hup : ∀ x ∈ xs, ∀ m ∈ missed x, m.Ascends) :
    (∃ r, p.Leads (xs.flatMap heard) r) ↔
      ∀ earlier x later, xs = earlier ++ x :: later → missed x ≠ [] →
        (x :: later).flatMap heard = [] := by
  induction xs generalizing p with
  | nil =>
    refine ⟨fun _ earlier x later hsplit => ?_, fun _ => ⟨p, rfl⟩⟩
    exact absurd hsplit (by simp)
  | cons x xs ih =>
    rw [List.flatMap_cons, List.append_assoc, leads_append] at h
    obtain ⟨hmissed, hrest⟩ := h
    have hup' : ∀ x ∈ xs, ∀ m ∈ missed x, m.Ascends :=
      fun x' hx' => hup x' (List.mem_cons_of_mem _ hx')
    by_cases hx : missed x = []
    · -- nothing is missed here, so it is up to the rest
      have hstart : p.after (missed x) = p := by rw [hx]; rfl
      rw [hstart] at hrest
      obtain ⟨hheard, hrest⟩ := leads_append.1 hrest
      have hhead : (∃ r, p.Leads ((x :: xs).flatMap heard) r) ↔
          ∃ r, (p.after (heard x)).Leads (xs.flatMap heard) r := by
        rw [List.flatMap_cons]
        refine exists_congr fun r => ?_
        rw [leads_append]
        exact and_iff_right hheard
      rw [hhead, ih hrest hup']
      constructor
      · intro hall earlier x' later hsplit hmiss
        rcases List.cons_eq_append_iff.1 hsplit with ⟨rfl, hcons⟩ | ⟨earlier', rfl, hsplit'⟩
        · cases hcons
          exact absurd hx hmiss
        · exact hall earlier' x' later hsplit' hmiss
      · intro hall earlier x' later hsplit
        exact hall (x :: earlier) x' later (by rw [hsplit]; rfl)
    · have hlt := hmissed.rank_lt (hup x List.mem_cons_self) hx
      constructor
      · rintro ⟨r, hr⟩
        -- the first move heard of would have to begin both at `p` and higher up
        have hnone : (x :: xs).flatMap heard = [] := by
          cases hfirst : (x :: xs).flatMap heard with
          | nil => rfl
          | cons m ms =>
            rw [hfirst] at hr
            have hle := rank_le_heard hrest hup' hfirst
            rw [hr.1] at hle
            omega
        intro earlier x' later hsplit _
        rw [hsplit, List.flatMap_append, List.append_eq_nil_iff] at hnone
        exact hnone.2
      · intro hall
        rw [hall [] x xs rfl hx]
        exact ⟨p, rfl⟩

end Heard

end Phase

/-! ## Pipelines -/

/-- Pipelines whose phase is known, and which post a message for each move that they complete on the way
    to a phase they are asked for.  They may refuse it before any of these moves, or after. -/
structure Stepwise [MediaPipeline π] (phase : π → Phase) : Prop where
  walks (p : π) (target : Phase) (store : Store) (caps : Option Caps) :
    Backlog.moves (MediaPipeline.setPhase p target store caps).posted <+: (phase p).movesTo target
  stands (p : π) (target : Phase) (store : Store) (caps : Option Caps) :
    phase (MediaPipeline.setPhase p target store caps).pipeline =
      (phase p).after (Backlog.moves (MediaPipeline.setPhase p target store caps).posted)

/-- What is posted at a request leads from the old phase to the new one. -/
theorem Stepwise.leads [MediaPipeline π] {phase : π → Phase} (h : Stepwise phase) (p : π)
    (target : Phase) (store : Store) (caps : Option Caps) :
    (phase p).Leads (Backlog.moves (MediaPipeline.setPhase p target store caps).posted)
      (phase (MediaPipeline.setPhase p target store caps).pipeline) := by
  rw [h.stands]
  exact ((phase p).leads_movesTo target).start (h.walks ..)

/-- Moves that a pipeline completed before it refused the playing phase. -/
def Stuck (π : Type u) [MediaPipeline π] (ms : List Move) : Prop :=
  ∃ (p : π) (store : Store) (caps : Option Caps) (e : Error),
    (MediaPipeline.setPhase p .playing store caps).result = .error e ∧
      ms = Backlog.moves (MediaPipeline.setPhase p .playing store caps).posted

/-- A pipeline that got stuck on its way to the playing phase only went up. -/
theorem Stepwise.ascends_of_stuck [MediaPipeline π] {phase : π → Phase} (h : Stepwise phase)
    {ms : List Move} (hms : Stuck π ms) : ∀ m ∈ ms, m.Ascends := by
  obtain ⟨p, store, caps, -, -, rfl⟩ := hms
  exact fun m hm => (phase p).ascends_movesTo m ((h.walks ..).subset hm)

namespace Loopback

/-- Making moves posts a message for each, and ends in the phase of the last one. -/
theorem moves_foldl_move (caps : Option Caps) (ms : List Move) (t : Transition Loopback) :
    Backlog.moves (ms.foldl (move caps) t).posted = Backlog.moves t.posted ++ ms ∧
      (ms.foldl (move caps) t).pipeline.phase = t.pipeline.phase.after ms ∧
        (ms.foldl (move caps) t).result = t.result := by
  induction ms generalizing t with
  | nil => exact ⟨(List.append_nil _).symm, rfl, rfl⟩
  | cons m ms ih =>
    obtain ⟨hmoves, hphase, hresult⟩ := ih (move caps t m)
    have hfirst : Backlog.moves (move caps t m).posted = Backlog.moves t.posted ++ [m] :=
      Backlog.moves_append ..
    rw [List.foldl_cons, hmoves, hphase, hresult, hfirst, List.append_assoc]
    exact ⟨rfl, rfl, rfl⟩

/-- A loopback pipeline refuses at once, or it makes all the moves. -/
theorem setPhase_cases (l : Loopback) (target : Phase) (store : Store) (caps : Option Caps) :
    Backlog.moves (l.setPhase target store caps).posted = [] ∧
      (l.setPhase target store caps).pipeline.phase = l.phase ∨
    Backlog.moves (l.setPhase target store caps).posted = l.phase.movesTo target ∧
      (l.setPhase target store caps).pipeline.phase = target ∧
        (l.setPhase target store caps).result = .ok () := by
  unfold setPhase
  split
  · exact .inl ⟨rfl, rfl⟩
  · obtain ⟨hmoves, hphase, hresult⟩ := moves_foldl_move caps (l.phase.movesTo target)
      { pipeline := l, store, result := .ok () }
    exact .inr ⟨hmoves, hphase.trans (Phase.leads_movesTo ..).eq_after, hresult⟩

theorem stepwise : Stepwise Loopback.phase where
  walks l target store caps := by
    show Backlog.moves (l.setPhase target store caps).posted <+: _
    rcases l.setPhase_cases target store caps with ⟨hmoves, -⟩ | ⟨hmoves, -, -⟩
    · rw [hmoves]
      exact List.nil_prefix
    · exact ⟨[], by rw [List.append_nil, hmoves]⟩
  stands l target store caps := by
    show (l.setPhase target store caps).pipeline.phase =
      l.phase.after (Backlog.moves (l.setPhase target store caps).posted)
    rcases l.setPhase_cases target store caps with ⟨hmoves, hphase⟩ | ⟨hmoves, hphase, -⟩
    · rw [hmoves, hphase]
      rfl
    · rw [hmoves, hphase, (Phase.leads_movesTo ..).eq_after]

/-- A loopback pipeline completes no move before it refuses. -/
theorem eq_nil_of_stuck {ms : List Move} (h : Stuck Loopback ms) : ms = [] := by
  obtain ⟨l, store, caps, e, hresult, rfl⟩ := h
  rcases l.setPhase_cases .playing store caps with ⟨hmoves, -⟩ | ⟨-, -, hok⟩
  · exact hmoves
  · exact nomatch hok.symm.trans hresult

end Loopback

/-- A pipeline that gets stuck on its way. -/
structure Faltering where
  phase : Phase := .null
  /-- How many moves the next requests get through, one number for each.  All others are met. -/
  limits : List Nat := []
  deriving DecidableEq, Repr

namespace Faltering

/-- Asks for a phase. -/
def setPhase (p : Faltering) (target : Phase) (store : Store) : Transition Faltering :=
  let moves := p.phase.movesTo target
  let done := moves.take (p.limits.headD moves.length)
  { pipeline := { phase := p.phase.after done, limits := p.limits.tail }, store
    posted := done.map (·.message .pipeline)
    result := if done = moves then .ok () else .error (.phaseRefused target) }

instance : MediaPipeline Faltering where
  name _ := "faltering"
  clockTime _ uptime := .ofSpan uptime
  setPhase p target store _ := p.setPhase target store

theorem stepwise : Stepwise Faltering.phase := by
  have hposted : ∀ (p : Faltering) (target : Phase) (store : Store),
      Backlog.moves (p.setPhase target store).posted =
        (p.phase.movesTo target).take (p.limits.headD (p.phase.movesTo target).length) :=
    fun p target store => Backlog.moves_message _
  constructor
  · intro p target store _
    show Backlog.moves (p.setPhase target store).posted <+: _
    rw [hposted]
    exact List.take_prefix ..
  · intro p target store _
    show _ = p.phase.after (Backlog.moves (p.setPhase target store).posted)
    rw [hposted]
    rfl

end Faltering

end MediaBridge
