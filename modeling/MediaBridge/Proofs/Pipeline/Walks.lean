import MediaBridge.Proofs.Pipeline.Moves
import MediaBridge.Proofs.Trail

/-! # Walks of a loopback pipeline

A request that is not refused is a walk: for each move the pipeline enters the next phase, which may end a
worker or start one, and then posts a message about its element and one about itself.  Between any two
of these legs others may act.  The worker goes on and posts what it has to say, faults are turned on and
off, and errors are put in from outside.

None of that touches the phase.  So the messages about moves are those of the requests that were met, walked
one after the other, and what others post can only come between them.

* `reaches_setPhase`   a request is its legs;
* `tracked_of_step`    every step keeps track of the requests that were met;
* `walks_of_trail`     what is on the bus after any requests.
-/

namespace MediaBridge

/-! ## Walking one way after the other -/

namespace Phase

/-- The phase after some requests were met. -/
def last (p : Phase) (targets : List Phase) : Phase := targets.getLastD p

/-- The moves of requests that are met one after the other. -/
def walks : Phase → List Phase → List Move
  | _, [] => []
  | p, target :: targets => p.movesTo target ++ target.walks targets

/-- One more request is walked from where the others ended. -/
theorem walks_concat (p : Phase) (targets : List Phase) (target : Phase) :
    p.walks (targets ++ [target]) = p.walks targets ++ (p.last targets).movesTo target := by
  induction targets generalizing p with
  | nil => exact List.append_nil _
  | cons t targets ih =>
    have hlast : p.last (t :: targets) = t.last targets := List.getLastD_cons ..
    rw [List.cons_append, walks, walks, ih t, hlast, List.append_assoc]

/-- The moves of the requests lead to the phase asked for last. -/
theorem leads_walks (p : Phase) (targets : List Phase) : p.Leads (p.walks targets) (p.last targets) := by
  induction targets generalizing p with
  | nil => rfl
  | cons t targets ih =>
    have hlast : p.last (t :: targets) = t.last targets := List.getLastD_cons ..
    rw [walks, hlast]
    exact (p.leads_movesTo t).append (ih t)

/-- Every move is on the way of some request. -/
theorem mem_walks {p : Phase} {targets : List Phase} {m : Move} (h : m ∈ p.walks targets) :
    ∃ q target, m ∈ Phase.movesTo q target := by
  induction targets generalizing p with
  | nil => exact absurd h List.not_mem_nil
  | cons t targets ih =>
    rcases List.mem_append.1 h with hfirst | hrest
    · exact ⟨p, t, hfirst⟩
    · exact ih hrest

/-- All moves of a request but the last one are on the way to the phase that was asked for. -/
theorem pending_movesTo (p target : Phase) :
    (p.movesTo target).map Move.pending =
      ((p.movesTo target).dropLast.map fun _ => some target) ++
        (p.movesTo target).getLast?.toList.map fun _ => none := by
  cases p <;> cases target <;> rfl

end Phase

/-- What is posted for a move: first about an element, and then about the pipeline. -/
def Move.messages (m : Move) (e : Source) : List Message := [m.message e, m.message .pipeline]

namespace Loopback

/-! ## Requests -/

/-- A request is refused exactly if it is one to play while that is refused. -/
theorem refused_iff (l : Loopback) (target : Phase) (s : Store) (caps : Option Caps) :
    (∃ e, (l.setPhase target s caps).result = .error e) ↔
      target = .playing ∧ l.faults.refusesPlaying := by
  unfold setPhase
  split
  · rename_i hrefused
    exact iff_of_true ⟨_, rfl⟩ hrefused
  · rename_i hmet
    obtain ⟨-, -, hresult⟩ := moves_foldl_move caps (l.phase.movesTo target)
      { pipeline := l, store := s, result := .ok () }
    refine iff_of_false ?_ hmet
    rintro ⟨e, he⟩
    cases hresult.symm.trans he

/-- A request that is refused posts nothing and changes nothing. -/
theorem setPhase_of_refused {l : Loopback} {target : Phase} {s : Store} {caps : Option Caps} {e : Error}
    (h : (l.setPhase target s caps).result = .error e) :
    l.setPhase target s caps = { pipeline := l, store := s, result := .error e } := by
  have hrefused := (l.refused_iff target s caps).1 ⟨e, h⟩
  simp only [setPhase, if_pos hrefused] at h ⊢
  rw [h]

/-- Part of a walk. -/
inductive Leg where
  | enter (m : Move)
  | post (m : Move) (source : Source)

/-- The legs of a move. -/
def legs (l : Loopback) (m : Move) : List Leg :=
  [.enter m, .post m l.transformElement, .post m .pipeline]

/-- The move of a leg, if that is to be made. -/
def Leg.move? : Leg → Option Move
  | .enter m => some m
  | .post .. => none

/-- The message of a leg. -/
def Leg.message? : Leg → Option Message
  | .enter _ => none
  | .post m source => some (m.message source)

/-- A loopback pipeline on its way, with all that was ever posted. -/
structure Walker where
  pipeline : Loopback
  /-- What is left of the request under way. -/
  rest : List Leg := []
  bus : Backlog := []

/-- What a step is to requests. -/
inductive Turn where
  | met (target : Phase)
  | refused (target : Phase)
  | other

/-- The request that was met. -/
def Turn.met? : Turn → Option Phase
  | .met target => some target
  | _ => none

namespace Walker

/-- One step of the walk, or of anybody else.  A request waits for the one before it, and the faults, the
    buffers and the ingest may be anything at any time. -/
inductive Step (w : Walker) : Turn → Walker → Prop where
  | refuse (target : Phase) (s : Store) (caps : Option Caps) {e : Error} (hrest : w.rest = [])
    (h : (w.pipeline.setPhase target s caps).result = .error e) :
    w.Step (.refused target)
      { w with
        pipeline := (w.pipeline.setPhase target s caps).pipeline
        bus := w.bus ++ (w.pipeline.setPhase target s caps).posted }
  | meet (target : Phase) (s : Store) (caps : Option Caps) (hrest : w.rest = [])
    (h : (w.pipeline.setPhase target s caps).result = .ok ()) :
    w.Step (.met target)
      { w with rest := (w.pipeline.phase.movesTo target).flatMap w.pipeline.legs }
  -- The pipeline enters the next phase.
  | enter {m : Move} {rest : List Leg} (hrest : w.rest = .enter m :: rest) (s : Store)
    (caps : Option Caps) :
    w.Step .other { w with pipeline := (w.pipeline.enter m.new s caps).1, rest }
  -- It posts a message.
  | post {m : Move} {source : Source} {rest : List Leg} (hrest : w.rest = .post m source :: rest) :
    w.Step .other { w with rest, bus := w.bus ++ [m.message source] }
  | control (f : Faults) : w.Step .other { w with pipeline := { w.pipeline with faults := f } }
  -- The worker goes on.
  | work {s : Store} {p : Ingest} {caps : Option Caps} {waited : Bool} {r : WorkerStep} {l : Loopback}
    (h : w.pipeline.step? s p caps waited = some (r, l)) : w.Step .other { w with pipeline := l }
  | answer (answer : Flow) :
    w.Step .other
      { w with
        pipeline := (w.pipeline.answered answer).1
        bus := w.bus ++ (w.pipeline.answered answer).2 }
  | inject (text : String) : w.Step .other { w with bus := w.bus ++ [injected text] }

end Walker

/-! ## What a step leaves alone -/

/-- A pipeline that enters a phase is in it. -/
theorem phase_enter (l : Loopback) (new : Phase) (s : Store) (caps : Option Caps) :
    (l.enter new s caps).1.phase = new := by
  unfold enter
  by_cases hphase : l.phase = .playing
  · rw [if_pos hphase]
  · rw [if_neg hphase]

/-- The element keeps its name from phase to phase. -/
theorem transformElement_enter (l : Loopback) (new : Phase) (s : Store) (caps : Option Caps) :
    (l.enter new s caps).1.transformElement = l.transformElement := by
  unfold enter
  by_cases hphase : l.phase = .playing
  · rw [if_pos hphase]
    rfl
  · rw [if_neg hphase]
    rfl

/-- A pipeline that enters a phase has a worker exactly if it plays then. -/
theorem worker_enter {l : Loopback} (h : l.worker.isSome ↔ l.phase = .playing) (new : Phase) (s : Store)
    (caps : Option Caps) : (l.enter new s caps).1.worker.isSome ↔ new = .playing := by
  unfold enter
  by_cases hnew : new = .playing
  · simp only [hnew, if_true, Option.isSome_some]
  · by_cases hphase : l.phase = .playing
    · simp [hnew, hphase, stopWorker]
    · simpa [hnew, hphase] using h

/-- The worker's steps change nothing but the worker. -/
theorem step?_eq {l l' : Loopback} {s : Store} {p : Ingest} {caps : Option Caps} {waited : Bool}
    {r : WorkerStep} (h : l.step? s p caps waited = some (r, l')) :
    l.worker.isSome ∧ l' = { l with worker := some r.worker } := by
  unfold step? at h
  obtain ⟨worker, hworker, hstep⟩ := Option.bind_eq_some_iff.1 h
  obtain ⟨r', -, heq⟩ := Option.map_eq_some_iff.1 hstep
  cases heq
  exact ⟨by rw [hworker]; rfl, rfl⟩

/-- What a worker posts is not about moves. -/
theorem kind_answered (w : Worker) (o : LoopbackOptions) (answer : Flow) :
    ∀ m ∈ (w.answered o answer).2, m.kind ≠ .phaseChanged := by
  intro m hm
  unfold Worker.answered at hm
  cases hactivity : w.activity with
  | delivering =>
    rw [hactivity] at hm
    cases answer with
    | error =>
      rw [List.mem_singleton.1 hm]
      exact nofun
    | ok | flushing | ended => exact absurd hm List.not_mem_nil
  | ending =>
    rw [hactivity] at hm
    rw [List.mem_singleton.1 hm]
    exact nofun
  | polling | holding | finished =>
    rw [hactivity] at hm
    exact absurd hm List.not_mem_nil

/-- The answer to what was handed on changes nothing but the worker, and no message about a move is
    posted for it. -/
theorem answered_eq (l : Loopback) (answer : Flow) :
    (∃ worker, (l.answered answer).1 = { l with worker } ∧ (worker.isSome ↔ l.worker.isSome)) ∧
      ∀ m ∈ (l.answered answer).2, m.kind ≠ .phaseChanged := by
  unfold answered
  cases hworker : l.worker with
  | none =>
    have hsame : { l with worker := none } = l := by rw [← hworker]
    exact ⟨⟨none, hsame.symm, Iff.rfl⟩, fun m hm => absurd hm List.not_mem_nil⟩
  | some worker => exact ⟨⟨_, rfl, Iff.rfl⟩, kind_answered worker l.options answer⟩

namespace Walker

/-! ## Keeping track -/

variable {w w' : Walker}

/-- The messages about moves among those on the bus. -/
def heard (w : Walker) : Backlog := w.bus.filter fun m => m.kind = .phaseChanged

/-- Messages of other kinds do not count among those about moves. -/
theorem heard_of_posted {posted : List Message} (h : ∀ m ∈ posted, m.kind ≠ .phaseChanged)
    (b : Backlog) : ((b ++ posted).filter fun m => m.kind = .phaseChanged) =
      b.filter fun m => m.kind = .phaseChanged := by
  have hnone : (posted.filter fun m => m.kind = .phaseChanged) = [] :=
    List.filter_eq_nil_iff.2 fun m hm => by simpa using h m hm
  rw [List.filter_append, hnone, List.append_nil]

/-- The requests that were met account for the messages about moves, for the legs that are left, and for
    the phase. -/
structure Tracked (e : Source) (targets : List Phase) (w : Walker) : Prop where
  /-- What is left to post follows upon what was posted. -/
  posted : w.heard ++ w.rest.filterMap Leg.message? =
    (Phase.null.walks targets).flatMap (·.messages e)
  /-- The moves that are left lead to the phase asked for last. -/
  leads : w.pipeline.phase.Leads (w.rest.filterMap Leg.move?) (Phase.null.last targets)
  element : w.pipeline.transformElement = e
  worker : w.pipeline.worker.isSome ↔ w.pipeline.phase = .playing

/-- The legs of some moves post the messages about them. -/
theorem messages_legs (l : Loopback) (ms : List Move) :
    (ms.flatMap l.legs).filterMap Leg.message? = ms.flatMap (·.messages l.transformElement) := by
  induction ms with
  | nil => rfl
  | cons m ms ih =>
    rw [List.flatMap_cons, List.filterMap_append, ih]
    rfl

/-- The messages about some moves tell of them once. -/
theorem moves_messages (name : String) (ms : List Move) :
    Backlog.moves (ms.flatMap (·.messages (.element name))) = ms := by
  induction ms with
  | nil => rfl
  | cons m ms ih =>
    rw [List.flatMap_cons, Backlog.moves_append, ih]
    rfl

/-- The legs of some moves make them. -/
theorem moves_legs (l : Loopback) (ms : List Move) :
    (ms.flatMap l.legs).filterMap Leg.move? = ms := by
  induction ms with
  | nil => rfl
  | cons m ms ih =>
    rw [List.flatMap_cons, List.filterMap_append, ih]
    rfl

variable {e : Source} {targets : List Phase}

/-- A step of others that posts nothing about moves. -/
theorem Tracked.of_same (h : w.Tracked e targets) (hheard : w'.heard = w.heard)
    (hrest : w'.rest = w.rest) (hphase : w'.pipeline.phase = w.pipeline.phase)
    (helement : w'.pipeline.transformElement = w.pipeline.transformElement)
    (hworker : w'.pipeline.worker.isSome ↔ w.pipeline.worker.isSome) : w'.Tracked e targets where
  posted := by rw [hheard, hrest]; exact h.posted
  leads := by rw [hphase, hrest]; exact h.leads
  element := helement.trans h.element
  worker := by rw [hworker, hphase]; exact h.worker

/-- Every step keeps track of the requests that were met. -/
theorem tracked_of_step {turn : Turn} (h : w.Tracked e targets) (hstep : w.Step turn w') :
    w'.Tracked e (targets ++ turn.met?.toList) := by
  -- a step that is no request leaves the requests as they were
  have hidle : ∀ {u : Walker}, u.Tracked e targets → u.Tracked e (targets ++ []) := by
    intro u hu
    rw [List.append_nil]
    exact hu
  cases hstep with
  | refuse target s caps hrest hrefused =>
    rw [setPhase_of_refused hrefused, List.append_nil]
    exact hidle h
  | meet target s caps hrest hmet =>
    have hposted := h.posted
    have hphase := h.leads
    rw [hrest] at hposted hphase
    have hlast : w.pipeline.phase = Phase.null.last targets := hphase
    have hwalks := Phase.null.walks_concat targets target
    constructor
    · show w.heard ++ List.filterMap Leg.message? _ = (Phase.null.walks (targets ++ [target])).flatMap _
      rw [messages_legs, h.element, hwalks, List.flatMap_append, ← hposted, hlast]
      simp only [List.filterMap_nil, List.append_nil]
    · show w.pipeline.phase.Leads (List.filterMap Leg.move? _) (Phase.null.last (targets ++ [target]))
      rw [moves_legs, Phase.last, List.getLastD_concat]
      exact w.pipeline.phase.leads_movesTo target
    · exact h.element
    · exact h.worker
  | @enter m rest hrest s caps =>
    have hposted := h.posted
    have hleads := h.leads
    rw [hrest] at hposted hleads
    obtain ⟨-, hleft⟩ := hleads
    refine hidle ⟨hposted, ?_, ?_, ?_⟩
    · rw [phase_enter]
      exact hleft
    · exact (transformElement_enter w.pipeline m.new s caps).trans h.element
    · rw [phase_enter]
      exact worker_enter h.worker m.new s caps
  | @post m source rest hrest =>
    have hposted := h.posted
    have hleads := h.leads
    rw [hrest] at hposted hleads
    refine hidle ⟨?_, hleads, h.element, h.worker⟩
    have hheard : heard { w with rest, bus := w.bus ++ [m.message source] } =
        w.heard ++ [m.message source] := List.filter_append ..
    rw [hheard, List.append_assoc]
    exact hposted
  | control f => exact hidle (h.of_same rfl rfl rfl rfl Iff.rfl)
  | work hwork =>
    obtain ⟨hworker, rfl⟩ := step?_eq hwork
    exact hidle (h.of_same rfl rfl rfl rfl ⟨fun _ => hworker, fun _ => rfl⟩)
  | answer answer =>
    obtain ⟨⟨worker, heq, hworker⟩, hkinds⟩ := w.pipeline.answered_eq answer
    refine hidle (h.of_same (heard_of_posted hkinds _) rfl ?_ ?_ ?_)
    · rw [heq]
    · rw [heq]
      rfl
    · rw [heq]
      exact hworker
  | inject text =>
    refine hidle (h.of_same (heard_of_posted ?_ _) rfl rfl rfl Iff.rfl)
    intro m hm
    rw [List.mem_singleton.1 hm]
    exact nofun

/-- The requests that were met, oldest first. -/
def met (turns : List Turn) : List Phase := turns.filterMap Turn.met?

/-- Whatever happens, the requests that were met are kept track of. -/
theorem tracked_of_trail {options : LoopbackOptions} {turns : List Turn}
    (h : Trail Step { pipeline := { options } } turns w) :
    w.Tracked (.element (options.name ++ "-transform")) (met turns) := by
  induction h with
  | refl => exact ⟨rfl, rfl, rfl, iff_of_false nofun nofun⟩
  | @tail turns turn w w' _ hstep ih =>
    have hmet : met (turns ++ [turn]) = met turns ++ turn.met?.toList := by
      rw [met, List.filterMap_append]
      cases turn <;> rfl
    rw [hmet]
    exact tracked_of_step ih hstep

/-! ## Requests and their legs -/

/-- Requests that are met later are counted later. -/
theorem met_append (turns turns' : List Turn) : met (turns ++ turns') = met turns ++ met turns' :=
  List.filterMap_append

/-- A pipeline goes by the same legs from every phase. -/
theorem legs_enter (l : Loopback) (new : Phase) (s : Store) (caps : Option Caps) :
    (l.enter new s caps).1.legs = l.legs := by
  funext m
  rw [legs, legs, transformElement_enter]

/-- The legs of some moves, one after the other, are what these moves come to. -/
theorem trail_legs (caps : Option Caps) (b : Backlog) (ms : List Move) (t : Transition Loopback) :
    ∃ turns, Trail Step ⟨t.pipeline, ms.flatMap t.pipeline.legs, b ++ t.posted⟩ turns
        ⟨(ms.foldl (move caps) t).pipeline, [], b ++ (ms.foldl (move caps) t).posted⟩ ∧
      met turns = [] := by
  induction ms generalizing t with
  | nil => exact ⟨[], .refl, rfl⟩
  | cons m ms ih =>
    obtain ⟨turns, htrail, hmet⟩ := ih (move caps t m)
    have hlegs : (move caps t m).pipeline.legs = t.pipeline.legs :=
      legs_enter t.pipeline m.new t.store caps
    -- the first move is entered, and posted for the element and for the pipeline
    have hposted : b ++ (move caps t m).posted =
        b ++ t.posted ++ [m.message t.pipeline.transformElement] ++ [m.message .pipeline] := by
      simp only [List.append_assoc]
      rfl
    rw [hlegs, hposted] at htrail
    have hentered : Trail Step ⟨t.pipeline, (m :: ms).flatMap t.pipeline.legs, b ++ t.posted⟩ _ _ :=
      .tail .refl (.enter rfl t.store caps)
    have htold := (hentered.tail (.post rfl)).tail (.post rfl)
    exact ⟨_, htold.trans htrail, by rw [met_append, hmet]; rfl⟩

/-- A request that is met is a trail of its legs. -/
theorem reaches_setPhase {w₀ : Walker} {before : List Turn} (htrail : Trail Step w₀ before w)
    (hrest : w.rest = []) (target : Phase) (s : Store) (caps : Option Caps)
    (h : (w.pipeline.setPhase target s caps).result = .ok ()) :
    ∃ turns, Trail Step w₀ turns
        { w with
          pipeline := (w.pipeline.setPhase target s caps).pipeline
          bus := w.bus ++ (w.pipeline.setPhase target s caps).posted } ∧
      met turns = met before ++ [target] := by
  have hmet : ¬(target = .playing ∧ w.pipeline.faults.refusesPlaying) := by
    rw [← w.pipeline.refused_iff target s caps]
    rintro ⟨e, he⟩
    cases h.symm.trans he
  obtain ⟨turns, hlegs, hnone⟩ := trail_legs caps w.bus (w.pipeline.phase.movesTo target)
    { pipeline := w.pipeline, store := s, result := .ok () }
  have hset : w.pipeline.setPhase target s caps = (w.pipeline.phase.movesTo target).foldl (move caps)
      { pipeline := w.pipeline, store := s, result := .ok () } := if_neg hmet
  rw [List.append_nil, ← hset] at hlegs
  have hbegun := htrail.tail (.meet target s caps hrest h)
  have hall := hbegun.trans hlegs
  rw [hrest]
  exact ⟨_, hall, by rw [met_append, met_append, hnone, List.append_nil]; rfl⟩

/-! ## Any requests -/

/-- Whatever is asked of a new pipeline, and whatever goes on meanwhile, it has a worker exactly while it
    plays.  Between requests the messages about moves on the bus are pairs, one of them about the element
    and then the same about the pipeline, with nothing about a move in between, and they are all there is
    if nobody posted anything else.  The moves are those of the requests that were met, one walk after
    the other.  Each walk begins where the one before it ended, the first one in the null phase, and the
    last one ends in the phase the pipeline is in; each move goes to a neighbour; and the phase asked for
    is pending on all moves of a walk but the last one.  A request is refused exactly if it is one to play
    while that is refused, and then it posts nothing and changes nothing. -/
theorem walks_of_trail {options : LoopbackOptions} {turns : List Turn}
    (h : Trail Step { pipeline := { options } } turns w) :
    (w.pipeline.worker.isSome ↔ w.pipeline.phase = .playing) ∧
    (w.rest = [] →
      w.heard = (Backlog.moves w.bus).flatMap
        (·.messages (.element (options.name ++ "-transform"))) ∧
      ((∀ m ∈ w.bus, m.kind = .phaseChanged) → w.heard = w.bus) ∧
      Backlog.moves w.bus = Phase.null.walks (met turns) ∧
      Phase.null.Leads (Backlog.moves w.bus) w.pipeline.phase ∧
      ∀ m ∈ Backlog.moves w.bus, m.old.canTransitionTo m.new ∧ m.old ≠ m.new) ∧
    (∀ p target : Phase, (p.movesTo target).map Move.pending =
      ((p.movesTo target).dropLast.map fun _ => some target) ++
        (p.movesTo target).getLast?.toList.map fun _ => none) ∧
    ∀ target s caps,
      ((∃ e, (w.pipeline.setPhase target s caps).result = .error e) ↔
        target = .playing ∧ w.pipeline.faults.refusesPlaying) ∧
      ∀ e, (w.pipeline.setPhase target s caps).result = .error e →
        w.pipeline.setPhase target s caps = { pipeline := w.pipeline, store := s, result := .error e } := by
  have htracked := tracked_of_trail h
  refine ⟨htracked.worker, fun hrest => ?_, Phase.pending_movesTo, fun target s caps =>
    ⟨w.pipeline.refused_iff target s caps, fun e => setPhase_of_refused⟩⟩
  have hposted := htracked.posted
  have hleads := htracked.leads
  rw [hrest] at hposted hleads
  have hphase : w.pipeline.phase = Phase.null.last (met turns) := hleads
  have hheard : w.heard = (Phase.null.walks (met turns)).flatMap
      (·.messages (.element (options.name ++ "-transform"))) := (List.append_nil _).symm.trans hposted
  have hmoves : Backlog.moves w.bus = Phase.null.walks (met turns) := by
    rw [← Backlog.moves_filter]
    exact (congrArg Backlog.moves hheard).trans (moves_messages _ _)
  rw [hmoves, hphase]
  refine ⟨hheard, fun hall => List.filter_eq_self.2 fun m hm => decide_eq_true (hall m hm), rfl,
    Phase.leads_walks .., fun m hm => ?_⟩
  obtain ⟨q, target, hm⟩ := Phase.mem_walks hm
  exact Phase.movesTo_canTransitionTo q target m hm

/-- A pipeline goes up, refuses to play once more while an error is put in, and goes down again. -/
theorem walks_of_refused : ∃ turns w, Trail Step { pipeline := {} } turns w ∧
    w.rest = [] ∧ Backlog.moves w.bus = Phase.null.walks [.playing, .null] ∧
      w.heard.length + 1 = w.bus.length ∧ w.pipeline.worker.isNone := by
  have hstart : Trail Step ({ pipeline := {} } : Walker) [] { pipeline := {} } := .refl
  obtain ⟨up, hup, hmetUp⟩ := reaches_setPhase hstart rfl .playing {} none rfl
  have hcontrol := hup.tail (.control { refusesPlaying := true })
  have hrefused := hcontrol.tail (.refuse .playing {} none rfl rfl)
  have hinjected := hrefused.tail (.inject "broken")
  obtain ⟨down, hdown, hmetDown⟩ := reaches_setPhase hinjected rfl .null {} none rfl
  have hmet : met down = [.playing, .null] := by
    rw [hmetDown, met_append, met_append, met_append, hmetUp]
    rfl
  obtain ⟨-, hwalks, -⟩ := walks_of_trail hdown
  obtain ⟨-, -, hmoves, -⟩ := hwalks rfl
  rw [hmet] at hmoves
  exact ⟨down, _, hdown, rfl, hmoves, rfl, rfl⟩

end Walker

end Loopback

end MediaBridge
