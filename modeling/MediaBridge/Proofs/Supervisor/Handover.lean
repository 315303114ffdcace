import MediaBridge.Pipeline.Scripted
import MediaBridge.Proofs.Pipeline.Moves
import MediaBridge.Proofs.Supervisor.Load
import MediaBridge.Proofs.Trail

/-! # From the reader to the stop

While a pipeline runs, the reader takes the messages off the bus, one after the other.  A stop tells the
reader to quit, asks the pipeline for the null phase, waits until the reader is gone, and follows the
moves that are left on the bus.  All the while the pipeline may post, and the reader, which may have
quit long before, may be anywhere between two messages.

Every move that the pipeline posted is in one of three places: it was followed, the reader holds it, or it
is on the bus, and they follow each other in this order (`Tracks.moves`).

* `reaches_of_call?`, `reaches_bringDown`, `reaches_submit`  calls are made of steps;
* `tracks_of_step`      no step loses a move, doubles it, or takes it out of order;
* `followed_of_steps`   what was followed of a run, when it is over and before.
-/

namespace MediaBridge

variable {π : Type u} {α : Type v}

/-- What people see, after a message was applied. -/
theorem Outlook.hear_eq (o : Outlook) (m : Message) :
    (o.hear m).phase = (m.move?.map Move.new).getD o.phase ∧
      (o.hear m).reports = o.reports ++ m.move?.toList.flatMap fun move =>
        o.observer.toList.map (⟨·, move⟩) := by
  cases m with
  | phaseChanged source old new pending =>
    cases source with
    | pipeline => exact ⟨rfl, by simp [hear, Message.move?]⟩
    | element name => exact ⟨rfl, by simp [hear, Message.move?]⟩
  | _ => exact ⟨rfl, by simp [hear, Message.move?]⟩

namespace Supervisor

/-! ## The reader's work -/

/-- Applying a message takes nothing from the bus. -/
@[simp] theorem bus_apply (s : Supervisor π α) (m : Message) : (s.apply m).bus = s.bus := by
  cases m with
  | error source text details => cases details <;> rfl
  | phaseChanged source => cases source <;> rfl
  | _ => rfl

/-- Applying a message is nothing to the reader. -/
@[simp] theorem reader_apply (s : Supervisor π α) (m : Message) : (s.apply m).reader = s.reader := by
  cases m with
  | error source text details => cases details <;> rfl
  | phaseChanged source => cases source <;> rfl
  | _ => rfl

/-- Applying a message asks the pipeline for nothing. -/
theorem pipeline_apply (s : Supervisor π α) (m : Message) : (s.apply m).pipeline = s.pipeline := by
  cases m with
  | error source text details => cases details <;> rfl
  | phaseChanged source => cases source <;> rfl
  | _ => rfl

/-- Applies a message that the reader took off the bus, and lets the reader quit if that ends its
    work. -/
def handle (s : Supervisor π α) (m : Message) : Supervisor π α :=
  if endsReading m then
    let ended := { s.apply m with reader := .finished }
    if ended.failed then ended.setFlushing true else ended
  else s.apply m

/-- The reader takes a message off the bus and applies it. -/
theorem readNext_eq_handle {s : Supervisor π α} {m : Message} {rest : Backlog}
    (hr : s.reader = .reading) (hbus : s.bus = m :: rest) :
    s.readNext = { s with bus := rest }.handle m := by
  unfold readNext handle
  rw [hr, hbus]

/-- Either the reader takes a message, or it has nothing to do. -/
theorem readNext_cases (s : Supervisor π α) :
    (∃ m rest, s.reader = .reading ∧ s.bus = m :: rest ∧
      s.readNext = { s with bus := rest }.handle m) ∨ s.readNext = s := by
  by_cases hr : s.reader = .reading
  · cases hbus : s.bus with
    | nil =>
      right
      rw [readNext, hr, hbus]
    | cons m rest => exact .inl ⟨m, rest, hr, rfl, readNext_eq_handle hr hbus⟩
  · right
    unfold readNext
    split
    · rename_i hreading _
      exact absurd hreading hr
    · rfl

/-- A message that the reader handles changes what people see as any other does. -/
theorem outlook_handle (s : Supervisor π α) (m : Message) :
    (s.handle m).outlook = s.outlook.hear m := by
  have happly := s.outlook_apply m
  unfold handle
  simp only
  split
  · split <;> exact happly
  · exact happly

/-- Handling a message takes nothing from the bus. -/
theorem bus_handle (s : Supervisor π α) (m : Message) : (s.handle m).bus = s.bus := by
  have happly := s.bus_apply m
  unfold handle
  simp only
  split
  · split <;> exact happly
  · exact happly

/-- Handling a message asks the pipeline for nothing. -/
theorem pipeline_handle (s : Supervisor π α) (m : Message) :
    (s.handle m).pipeline = s.pipeline := by
  have happly := s.pipeline_apply m
  unfold handle
  simp only
  split
  · split <;> exact happly
  · exact happly

/-! ## What leaves the bus alone -/

/-- The bus, the reader and what people see are the same. -/
structure Unseen (s s' : Supervisor π α) : Prop where
  bus : s'.bus = s.bus
  reader : s'.reader = s.reader
  phase : s'.phase = s.phase
  reports : s'.reports = s.reports

/-- Nothing was done. -/
theorem Unseen.refl (s : Supervisor π α) : s.Unseen s := ⟨rfl, rfl, rfl, rfl⟩

/-- What two steps leave alone, both together do. -/
theorem Unseen.trans {s s' s'' : Supervisor π α} (h : s.Unseen s') (h' : s'.Unseen s'') :
    s.Unseen s'' :=
  ⟨h'.bus.trans h.bus, h'.reader.trans h.reader, h'.phase.trans h.phase,
    h'.reports.trans h.reports⟩

/-- A notice leaves the bus and what people see alone. -/
theorem unseen_note (s : Supervisor π α) (n : Notice) : s.Unseen (s.note n) := ⟨rfl, rfl, rfl, rfl⟩

/-- Letting go of those who wait leaves the bus and what people see alone. -/
theorem unseen_letGo (s : Supervisor π α) (uptime : Span) : s.Unseen (s.letGo uptime) := by
  have hcore := s.core_letGo uptime
  have hbus : (s.letGo uptime).bus = s.bus := congrArg Core.bus hcore
  have hreader : (s.letGo uptime).reader = s.reader := congrArg Core.reader hcore
  rcases s.eased_letGo uptime with houtlook | houtlook
  · exact ⟨hbus, hreader, congrArg Outlook.phase houtlook, congrArg Outlook.reports houtlook⟩
  · exact ⟨hbus, hreader, congrArg Outlook.phase houtlook, congrArg Outlook.reports houtlook⟩

/-- A frame that goes to the ingest leaves the bus and what people see alone. -/
theorem unseen_forward (s : Supervisor π α) (frame : HandleId) (user : α) (now : ClockTime) :
    s.Unseen (s.forward frame user now).2 := by
  unfold forward
  split
  · exact ⟨rfl, rfl, rfl, rfl⟩
  · split <;> exact ⟨rfl, rfl, rfl, rfl⟩

/-- A sample that is handed over leaves the bus and what people see alone, whatever becomes of it.
    -/
theorem unseen_receive (s : Supervisor π α) (uptime : Span) (item : Item) :
    s.Unseen (s.receive uptime item).2 := by
  unfold receive
  cases item with
  | endOfStream => exact ⟨rfl, rfl, rfl, rfl⟩
  | sample x =>
    simp only
    rcases s.relay.deliver (.sample x) with ⟨(e | ⟨⟩) | m, r⟩ <;> exact ⟨rfl, rfl, rfl, rfl⟩

/-- A delivery that goes on leaves the bus and what people see alone. -/
theorem unseen_resumeNext? {s s' : Supervisor π α} {uptime : Span}
    (h : s.resumeNext? uptime = some s') : s.Unseen s' := by
  have hcore := (alike_resumeNext? h).core
  have houtlook := outlook_resumeNext? h
  exact ⟨congrArg Core.bus hcore, congrArg Core.reader hcore, congrArg Outlook.phase houtlook,
    congrArg Outlook.reports houtlook⟩

/-- Whether a call leaves the bus and what people see alone. -/
def Call.IsUnseen : Call π α → Prop
  | .start | .stop | .submit .. | .read | .post _ => False
  | _ => True

section Calls

variable [MediaPipeline π]

/-- A screening that lets the frame pass leaves the bus and what people see alone. -/
theorem unseen_screen_passes {s s' : Supervisor π α} {uptime : Span} {now : ClockTime}
    (h : s.screen uptime = (.passes now, s')) : s.Unseen s' := by
  have hscreens := s.screens_screen uptime
  rw [h] at hscreens
  cases hscreens <;> exact ⟨rfl, rfl, rfl, rfl⟩

/-- Calls that neither start, stop, submit, read nor post leave the bus and what people see alone.
    -/
theorem unseen_of_call? {s s' : Supervisor π α} {uptime : Span} {c : Call π α} {a : Answer α}
    (h : s.call? uptime c = some (a, s')) (hc : c.IsUnseen) : s.Unseen s' := by
  cases c with
  | start | stop | submit | read | post => exact hc.elim
  | resumeSubmit w =>
    obtain ⟨⟨accepted, s₁⟩, hresume, heq⟩ := Option.map_eq_some_iff.1 h
    cases heq
    obtain ⟨⟨taken, r⟩, -, heq⟩ := Option.map_eq_some_iff.1 hresume
    cases taken <;> cases heq <;> exact ⟨rfl, rfl, rfl, rfl⟩
  | deliver item =>
    cases h
    exact s.unseen_receive uptime item
  | resumeDelivery =>
    obtain ⟨s₁, hresume, heq⟩ := Option.map_eq_some_iff.1 h
    cases heq
    exact unseen_resumeNext? hresume
  | _ => cases touched_of_call? h trivial <;> exact ⟨rfl, rfl, rfl, rfl⟩

/-! ## Starting and halting -/

/-- The messages that the pipeline posts while it is asked for the playing phase, after the bus was
    emptied. -/
def opening (s : Supervisor π α) (p : π) : List Message :=
  (MediaPipeline.setPhase p .playing s.prepare.relay.store s.prepare.relay.ingest.caps).posted

/-- A start empties the bus, and what is on it then was posted since. -/
theorem bus_launch (s : Supervisor π α) (p : π) (uptime : Span) :
    (s.launch p uptime).2.bus = s.opening p := by
  have hbus : (s.prepare.request p .playing).2.bus = s.opening p := List.nil_append _
  unfold launch
  generalize s.prepare.request p .playing = requested at hbus
  rcases requested with ⟨_ | _, s₁⟩ <;> exact hbus

end Calls

end Supervisor

/-! ## Steps -/

/-- How far a stop has come. -/
inductive Ending where
  /-- Nobody stops the pipeline. -/
  | running
  /-- The reader is told to quit. -/
  | cancelled
  /-- The pipeline was asked for the null phase, and has these messages still to post. -/
  | halting (unposted : List Message)
  /-- The pipeline has answered. -/
  | halted
  /-- The reader is gone, and the moves that are left are followed. -/
  | following
  | finished
  deriving DecidableEq

/-- Whether the pipeline has answered the request for the null phase. -/
def Ending.isHalted : Ending → Bool
  | running | cancelled | halting _ => false
  | halted | following | finished => true

/-- A supervisor from the beginning of a run to the end of the stop that follows. -/
structure Handover (π : Type u) (α : Type v) where
  supervisor : Supervisor π α
  /-- The message that the reader took off the bus and has still to apply. -/
  held : Option Message := none
  ending : Ending := .running

/-- What a step is, as far as messages go. -/
inductive Tiding where
  /-- A message was posted before the pipeline answered the request for the null phase. -/
  | posted (m : Message)
  /-- A message was posted after that. -/
  | late (m : Message)
  /-- A message was applied, when this was the observer. -/
  | applied (observer : Option String) (m : Message)
  | other

namespace Tiding

/-- The message that was posted in time, if one was. -/
def posted? : Tiding → Option Message
  | posted m => some m
  | _ => none

/-- The message that was posted too late, if one was. -/
def late? : Tiding → Option Message
  | late m => some m
  | _ => none

/-- The move that was followed, and who was told. -/
def followed? : Tiding → Option (Option String × Move)
  | applied observer m => m.move?.map (observer, ·)
  | _ => none

/-- The messages that were posted in time. -/
def due (tidings : List Tiding) : Backlog := tidings.filterMap posted?

/-- The messages that were posted too late. -/
def tardy (tidings : List Tiding) : Backlog := tidings.filterMap late?

/-- The moves that were followed, each with who was told. -/
def followed (tidings : List Tiding) : List (Option String × Move) := tidings.filterMap followed?

/-- What observers were told. -/
def reports (followed : List (Option String × Move)) : List Report :=
  followed.flatMap fun t => t.1.toList.map (⟨·, t.2⟩)

end Tiding

namespace Handover

/-- The beginning of a run, when nobody has read anything. -/
def new (s : Supervisor π α) : Handover π α := { supervisor := s }

section Steps

variable [MediaPipeline π]

/-- One step of the pipeline, of the reader, of the stop, or of anybody else. -/
inductive Step (h : Handover π α) : Tiding → Handover π α → Prop where
  | post (m : Message) (hearly : h.ending.isHalted = false) :
    h.Step (.posted m) { h with supervisor := h.supervisor.post [m] }
  | late (m : Message) (hlate : h.ending.isHalted = true) :
    h.Step (.late m) { h with supervisor := h.supervisor.post [m] }
  -- The reader takes the next message off the bus.
  | take {m : Message} {rest : Backlog} (hr : h.supervisor.reader = .reading)
    (hheld : h.held = none) (hbus : h.supervisor.bus = m :: rest) :
    h.Step .other { h with supervisor := { h.supervisor with bus := rest }, held := some m }
  -- The reader applies the message that it took.
  | apply {m : Message} (hheld : h.held = some m) :
    h.Step (.applied h.supervisor.observer m)
      { h with supervisor := h.supervisor.handle m, held := none }
  -- The reader sees that it was told to quit, if it has not come to its end before.
  | quit (hending : h.ending ≠ .running) (hheld : h.held = none)
    (hr : h.supervisor.reader = .reading) :
    h.Step .other { h with supervisor := { h.supervisor with reader := .finished } }
  -- A stop begins.
  | cancel (uptime : Span) (hending : h.ending = .running) :
    h.Step .other { h with supervisor := h.supervisor.letGo uptime, ending := .cancelled }
  -- The pipeline is asked for the null phase.  Its messages are posted one by one.
  | halt {posted : List Message} (hending : h.ending = .cancelled)
    (hposted : h.supervisor.halt.bus = h.supervisor.bus ++ posted) :
    h.Step .other
      { h with
        supervisor := { h.supervisor.halt with bus := h.supervisor.bus }
        ending := .halting posted }
  | haltPost {m : Message} {unposted : List Message} (hending : h.ending = .halting (m :: unposted)) :
    h.Step (.posted m)
      { h with supervisor := h.supervisor.post [m], ending := .halting unposted }
  | answer (hending : h.ending = .halting []) : h.Step .other { h with ending := .halted }
  -- The reader is gone.
  | join (hending : h.ending = .halted) (hheld : h.held = none)
    (hr : h.supervisor.reader ≠ .reading) :
    h.Step .other
      { h with supervisor := { h.supervisor with reader := .absent }, ending := .following }
  -- The stop takes the next message about a move off the bus and applies it.
  | follow {m : Message} {rest : Backlog} (hending : h.ending = .following)
    (hpop : h.supervisor.bus.popFiltered [.phaseChanged] = (some m, rest)) :
    h.Step (.applied h.supervisor.observer m)
      { h with supervisor := { h.supervisor with bus := rest }.apply m }
  -- The stop finds no such message any more.
  | settle {rest : Backlog} (hending : h.ending = .following)
    (hpop : h.supervisor.bus.popFiltered [.phaseChanged] = (none, rest)) :
    h.Step .other { h with supervisor := { h.supervisor with bus := rest }, ending := .finished }
  -- Something that leaves the bus and what people see alone.
  | aside {s : Supervisor π α} (hs : h.supervisor.Unseen s) :
    h.Step .other { h with supervisor := s }

/-- The steps that lead from one moment to another, oldest first. -/
abbrev Steps (h : Handover π α) : List Tiding → Handover π α → Prop := Trail Step h

/-! ## Reading and stopping that nobody interrupts -/

/-- One moment can come after another. -/
abbrev Reaches (h h' : Handover π α) : Prop := Attains Step h h'

/-- The reader takes a message and applies it. -/
theorem reaches_readNext (s : Supervisor π α) (ending : Ending) :
    Reaches { supervisor := s, ending } { supervisor := s.readNext, ending } := by
  rcases s.readNext_cases with ⟨m, rest, hr, hbus, hread⟩ | hidle
  · have htaken : Reaches { supervisor := s, ending } _ := .one (.take hr rfl hbus)
    rw [hread]
    exact htaken.step (.apply rfl)
  · rw [hidle]
    exact .refl _

/-- Messages are posted one by one. -/
theorem reaches_post (messages : List Message) (s : Supervisor π α) (ending : Ending) :
    Reaches { supervisor := s, ending } { supervisor := s.post messages, ending } := by
  induction messages generalizing s with
  | nil =>
    rw [Supervisor.post, List.append_nil]
    exact .refl _
  | cons m rest ih =>
    have hposted : Reaches { supervisor := s, ending } { supervisor := s.post [m], ending } := by
      cases hhalted : ending.isHalted with
      | false => exact .one (.post m hhalted)
      | true => exact .one (.late m hhalted)
    have hsame : (s.post [m]).post rest = s.post (m :: rest) := by
      simp only [Supervisor.post, List.append_assoc, List.singleton_append]
    rw [← hsame]
    exact hposted.trans (ih _)

/-- Calls that neither start nor stop the pipeline can be made at any moment. -/
theorem reaches_of_call? {s s' : Supervisor π α} {uptime : Span} {c : Supervisor.Call π α}
    {a : Supervisor.Answer α} (h : s.call? uptime c = some (a, s')) (hc : ¬c.IsControl)
    (ending : Ending) : Reaches { supervisor := s, ending } { supervisor := s', ending } := by
  cases c with
  | start | stop | submit => exact absurd trivial hc
  | read =>
    cases h
    exact reaches_readNext s ending
  | post messages =>
    cases h
    exact reaches_post messages s ending
  | _ => exact .one (.aside (Supervisor.unseen_of_call? h trivial))

/-- The pipeline posts what it has still to post, and answers. -/
theorem reaches_halted (posted : List Message) (s : Supervisor π α) :
    Reaches { supervisor := s, ending := .halting posted }
      { supervisor := s.post posted, ending := .halted } := by
  induction posted generalizing s with
  | nil =>
    have hsame : s.post [] = s := by rw [Supervisor.post, List.append_nil]
    rw [hsame]
    exact .one (.answer rfl)
  | cons m unposted ih =>
    have hposted : Reaches { supervisor := s, ending := .halting (m :: unposted) } _ :=
      .one (.haltPost rfl)
    have hsame : (s.post [m]).post unposted = s.post (m :: unposted) := by
      simp only [Supervisor.post, List.append_assoc, List.singleton_append]
    rw [← hsame]
    exact hposted.trans (ih _)

/-- The moves that are left on the bus are followed one by one.  Messages in front of them may have been
    thrown away already. -/
theorem reaches_followed (b : Backlog) (s : Supervisor π α)
    (hbus : s.bus.popFiltered [.phaseChanged] = b.popFiltered [.phaseChanged]) :
    Reaches { supervisor := s, ending := .following }
      { supervisor := (b.filter fun m => m.kind = .phaseChanged).foldl Supervisor.apply
          { s with bus := [] }
        ending := .finished } := by
  induction b generalizing s with
  | nil => exact .one (.settle rfl hbus)
  | cons m rest ih =>
    rw [Backlog.popFiltered] at hbus
    by_cases hkind : m.kind = .phaseChanged
    · rw [if_pos (by simp [hkind])] at hbus
      have hfollowed : Reaches { supervisor := s, ending := .following } _ :=
        .one (.follow rfl hbus)
      have hsame : ({ Supervisor.apply { s with bus := rest } m with bus := [] } :
          Supervisor π α) = Supervisor.apply { s with bus := [] } m := by
        cases m with
        | phaseChanged source => cases source <;> rfl
        | _ => cases hkind
      have hrest := ih (Supervisor.apply { s with bus := rest } m) (by rw [Supervisor.bus_apply])
      rw [hsame] at hrest
      rw [List.filter_cons_of_pos (by simp [hkind]), List.foldl_cons]
      exact hfollowed.trans hrest
    · -- a message of another kind is thrown away with the first move behind it
      rw [if_neg (by simpa using hkind)] at hbus
      rw [List.filter_cons_of_neg (by simp [hkind])]
      exact ih s hbus

/-- A stop goes on to its end. -/
theorem reaches_bringDown (s : Supervisor π α) (uptime : Span) :
    Reaches { supervisor := s } { supervisor := s.bringDown uptime, ending := .finished } := by
  obtain ⟨posted, hposted⟩ : ∃ posted, (s.letGo uptime).halt.bus = (s.letGo uptime).bus ++ posted := by
    obtain ⟨⟨posted, hcore⟩, -⟩ := (s.letGo uptime).halt_cases
    exact ⟨posted, congrArg Core.bus hcore⟩
  have hcancelled : Reaches { supervisor := s } _ := .one (.cancel uptime rfl)
  have hhalting := hcancelled.step (.halt rfl hposted)
  have hhalted := hhalting.trans (reaches_halted posted _)
  have hsame : Supervisor.post { (s.letGo uptime).halt with bus := (s.letGo uptime).bus } posted =
      (s.letGo uptime).halt := by
    rw [Supervisor.post, ← hposted]
  rw [hsame] at hhalted
  -- the reader quits now, unless it did so before
  have hjoined : Reaches { supervisor := s } { supervisor :=
      { (s.letGo uptime).halt with reader := .absent }, ending := .following } := by
    by_cases hr : (s.letGo uptime).halt.reader = .reading
    · have hquit := hhalted.step (.quit nofun rfl hr)
      exact hquit.step (.join rfl rfl nofun)
    · exact hhalted.step (.join rfl rfl hr)
  exact hjoined.trans (reaches_followed _ _ rfl)

/-- A submission lets the run go on, or it stops the pipeline, which may be started anew then. -/
theorem reaches_submit (s : Supervisor π α) (uptime : Span) (frame : HandleId) (user : α) :
    Reaches { supervisor := s } { supervisor := (s.submit uptime frame user).2 } ∨
      ∃ s₁, Reaches { supervisor := s } { supervisor := s₁, ending := .finished } ∧
        ((s.submit uptime frame user).2 = s₁.discard frame ∨
          ∃ p, (s.submit uptime frame user).2 = (s₁.launch p uptime).2.discard frame) := by
  have hscreens := s.screens_screen uptime
  have hpasses : ∀ {now s'}, s.screen uptime = (.passes now, s') →
      Reaches { supervisor := s } { supervisor := (s'.forward frame user now).2 } := by
    intro now s' hscreen
    exact .one (.aside ((Supervisor.unseen_screen_passes hscreen).trans (s'.unseen_forward ..)))
  rw [Supervisor.submit_eq_screen]
  generalize hscreen : s.screen uptime = screened at hscreens
  cases hscreens with
  | uninstalled => exact .inl (.one (.aside ⟨rfl, rfl, rfl, rfl⟩))
  | turnedDown => exact .inl (.one (.aside ⟨rfl, rfl, rfl, rfl⟩))
  | idle => exact .inl (hpasses hscreen)
  | lively => exact .inl (hpasses hscreen)
  | struck => exact .inl (hpasses hscreen)
  | broughtDown =>
    have hnoted : Reaches { supervisor := s } { supervisor := s.note .stoppingFailed } :=
      .one (.aside (s.unseen_note _))
    exact .inr ⟨_, hnoted.trans (reaches_bringDown _ uptime), .inl rfl⟩
  -- a restart is a stop and a launch, and the launch begins another run
  | restarted hp _ _ _ _ h | unrestarted hp _ _ _ _ h =>
    have hnoted : Reaches { supervisor := s } { supervisor :=
        (Supervisor.note { s with stalls := s.stalls + 1 } .watchdog).count .restarts } :=
      .one (.aside ⟨rfl, rfl, rfl, rfl⟩)
    obtain ⟨p, -, hrestart⟩ :=
      Supervisor.restart_eq_launch (s := { s with stalls := s.stalls + 1 }) hp uptime
    rw [h] at hrestart
    exact .inr ⟨_, hnoted.trans (reaches_bringDown _ uptime), .inr ⟨p, by rw [← hrestart]⟩⟩

end Steps

/-! ## Where the moves are -/

/-- The moves that were not followed yet. -/
def unfollowed (h : Handover π α) : List Move := Backlog.moves (h.held.toList ++ h.supervisor.bus)

/-- Where the moves that were posted since the bus was emptied are, and what came of those that were
    followed. -/
structure Tracks (s : Supervisor π α) (tidings : List Tiding) (h : Handover π α) : Prop where
  moves : Backlog.moves (s.bus ++ Tiding.due tidings) ++ Backlog.moves (Tiding.tardy tidings) =
    (Tiding.followed tidings).map Prod.snd ++ h.unfollowed
  phase : h.supervisor.phase = ((Tiding.followed tidings).getLast?.map (·.2.new)).getD s.phase
  reports : h.supervisor.reports = s.reports ++ Tiding.reports (Tiding.followed tidings)
  /-- Nothing is late before the pipeline has answered. -/
  punctual : h.ending.isHalted = false → Tiding.tardy tidings = []
  /-- The reader is gone before the stop follows anything. -/
  gone : h.ending = .following ∨ h.ending = .finished → h.held = none ∧ h.supervisor.reader ≠ .reading
  /-- When the stop is over, nothing that was due is missing. -/
  complete : h.ending = .finished →
    Backlog.moves (s.bus ++ Tiding.due tidings) <+: (Tiding.followed tidings).map Prod.snd

namespace Tracks

variable {s : Supervisor π α} {tidings : List Tiding} {h h' : Handover π α}

/-- Nothing was followed at the beginning. -/
theorem new (s : Supervisor π α) : Tracks s [] (.new s) where
  moves := by simp [Handover.new, unfollowed, Tiding.due, Tiding.tardy, Tiding.followed, Backlog.moves]
  phase := rfl
  reports := (List.append_nil _).symm
  punctual := fun _ => rfl
  gone := nofun
  complete := nofun

/-- What one more step has to account for. -/
theorem snoc (ht : Tracks s tidings h) (t : Tiding)
    (hmoves : h.unfollowed ++ Backlog.moves (t.posted?.toList ++ t.late?.toList) =
      t.followed?.toList.map Prod.snd ++ h'.unfollowed)
    (hphase : h'.supervisor.phase = (t.followed?.map (·.2.new)).getD h.supervisor.phase)
    (hreports : h'.supervisor.reports =
      h.supervisor.reports ++ Tiding.reports t.followed?.toList)
    (hposted : t.posted?.isSome = true → h.ending.isHalted = false)
    (hpunctual : h'.ending.isHalted = false → h.ending.isHalted = false ∧ t.late? = none)
    (hgone : h'.ending = .following ∨ h'.ending = .finished →
      h'.held = none ∧ h'.supervisor.reader ≠ .reading)
    (hover : h'.ending = .finished → h.ending = .finished ∧ t.posted? = none ∨ h'.unfollowed = []) :
    Tracks s (tidings ++ [t]) h' := by
  have hdue : Tiding.due (tidings ++ [t]) = Tiding.due tidings ++ t.posted?.toList :=
    filterMap_snoc ..
  have htardy : Tiding.tardy (tidings ++ [t]) = Tiding.tardy tidings ++ t.late?.toList :=
    filterMap_snoc ..
  have hfollowed : Tiding.followed (tidings ++ [t]) = Tiding.followed tidings ++ t.followed?.toList :=
    filterMap_snoc ..
  -- the bookkeeping of the one step comes at the end of what was due, late or followed
  have hall : Backlog.moves (s.bus ++ Tiding.due (tidings ++ [t])) ++
      Backlog.moves (Tiding.tardy (tidings ++ [t])) =
        (Tiding.followed (tidings ++ [t])).map Prod.snd ++ h'.unfollowed := by
    rw [hfollowed, List.map_append, List.append_assoc, ← hmoves, ← List.append_assoc, ← ht.moves,
      hdue, htardy]
    cases hp : t.posted? with
    | none => simp [Backlog.moves_append]
    | some m =>
      -- what is posted in time comes before anything that is late
      have hlate := ht.punctual (hposted (by rw [hp]; rfl))
      simp only [hlate, Backlog.moves_append, Backlog.moves_nil, List.nil_append, List.append_nil,
        List.append_assoc]
  constructor
  case moves => exact hall
  case phase =>
    rw [hfollowed, hphase, ht.phase]
    cases t.followed? <;> simp
  case reports =>
    rw [hfollowed, hreports, ht.reports, List.append_assoc]
    simp [Tiding.reports]
  case punctual =>
    intro hending
    obtain ⟨hbefore, hnone⟩ := hpunctual hending
    rw [htardy, ht.punctual hbefore, hnone]
    rfl
  case gone => exact hgone
  case complete =>
    intro hending
    rcases hover hending with ⟨hbefore, hnone⟩ | hempty
    · rw [hdue, hnone, hfollowed, List.map_append, Option.toList_none, List.append_nil]
      exact (ht.complete hbefore).trans (List.prefix_append _ _)
    · rw [hempty, List.append_nil] at hall
      exact ⟨_, hall⟩

/-- A step that neither posts nor applies anything, before the stop follows anything. -/
theorem aside (ht : Tracks s tidings h) (hmoves : h'.unfollowed = h.unfollowed)
    (hphase : h'.supervisor.phase = h.supervisor.phase)
    (hreports : h'.supervisor.reports = h.supervisor.reports)
    (hpunctual : h'.ending.isHalted = false → h.ending.isHalted = false)
    (hgone : h'.ending = .following ∨ h'.ending = .finished →
      h'.held = none ∧ h'.supervisor.reader ≠ .reading)
    (hover : h'.ending = .finished → h.ending = .finished ∨ h'.unfollowed = []) :
    Tracks s (tidings ++ [.other]) h' := by
  refine ht.snoc .other ?_ hphase ?_ nofun (fun hh => ⟨hpunctual hh, rfl⟩) hgone ?_
  · simp [Tiding.posted?, Tiding.late?, Tiding.followed?, hmoves]
  · simp [Tiding.followed?, Tiding.reports, hreports]
  · exact fun hending => (hover hending).imp (⟨·, rfl⟩) id

/-- A message was posted before the pipeline answered. -/
theorem posted (ht : Tracks s tidings h) {m : Message} {ending : Ending}
    (hearly : h.ending.isHalted = false) (hending : ending.isHalted = false) :
    Tracks s (tidings ++ [.posted m])
      { h with supervisor := h.supervisor.post [m], ending := ending } := by
  refine ht.snoc (.posted m) ?_ rfl ?_ (fun _ => hearly) (fun _ => ⟨hearly, rfl⟩) ?_ ?_
  · show h.unfollowed ++ Backlog.moves [m] = Backlog.moves (h.held.toList ++ (h.supervisor.bus ++ [m]))
    rw [unfollowed, ← Backlog.moves_append, List.append_assoc]
  · exact (List.append_nil _).symm
  · rintro (rfl | rfl) <;> exact nomatch hending
  · rintro rfl
    exact nomatch hending

/-- A message was posted after the pipeline answered. -/
theorem late (ht : Tracks s tidings h) {m : Message} (hlate : h.ending.isHalted = true) :
    Tracks s (tidings ++ [.late m]) { h with supervisor := h.supervisor.post [m] } := by
  refine ht.snoc (.late m) ?_ rfl ?_ nofun (fun hh => nomatch hlate.symm.trans hh) ht.gone ?_
  · show h.unfollowed ++ Backlog.moves [m] = Backlog.moves (h.held.toList ++ (h.supervisor.bus ++ [m]))
    rw [unfollowed, ← Backlog.moves_append, List.append_assoc]
  · exact (List.append_nil _).symm
  · exact fun hover => .inl ⟨hover, rfl⟩

/-- A message was applied; it was the first of those that had not been. -/
theorem applied (ht : Tracks s tidings h) {m : Message}
    (hmoves : h.unfollowed = m.move?.toList ++ h'.unfollowed)
    (houtlook : h'.supervisor.outlook = h.supervisor.outlook.hear m)
    (hending : h'.ending = h.ending)
    (hgone : h'.ending = .following ∨ h'.ending = .finished →
      h'.held = none ∧ h'.supervisor.reader ≠ .reading) :
    Tracks s (tidings ++ [.applied h.supervisor.observer m]) h' := by
  obtain ⟨hphase, hreports⟩ := h.supervisor.outlook.hear_eq m
  rw [← houtlook] at hphase hreports
  refine ht.snoc (.applied h.supervisor.observer m) ?_ ?_ ?_ nofun ?_ hgone ?_
  · show h.unfollowed ++ [] = _
    rw [hmoves]
    cases hm : m.move? <;> simp [Tiding.followed?, hm]
  · refine hphase.trans ?_
    cases hm : m.move? <;> simp [Tiding.followed?, hm, Supervisor.outlook]
  · refine hreports.trans ?_
    cases hm : m.move? <;> simp [Tiding.followed?, Tiding.reports, hm, Supervisor.outlook]
  · exact fun hh => ⟨hending ▸ hh, rfl⟩
  · exact fun hh => .inl ⟨hending ▸ hh, rfl⟩

end Tracks

variable [MediaPipeline π]

/-- No step loses a move, doubles it, or takes it out of order. -/
theorem tracks_of_step {s : Supervisor π α} {tidings : List Tiding} {h h' : Handover π α} {t : Tiding}
    (ht : Tracks s tidings h) (hstep : h.Step t h') : Tracks s (tidings ++ [t]) h' := by
  cases hstep with
  | post m hearly => exact ht.posted hearly hearly
  | late m hlate => exact ht.late hlate
  -- the message passes from the bus into the hands of the reader
  | @take m rest hr hheld hbus =>
    refine ht.aside ?_ rfl rfl id (fun hending => ?_) .inl
    · show Backlog.moves (m :: rest) = Backlog.moves (h.held.toList ++ h.supervisor.bus)
      rw [hheld, hbus]
      rfl
    · exact absurd hr (ht.gone hending).2
  | @apply m hheld =>
    refine ht.applied ?_ (Supervisor.outlook_handle ..) rfl (fun hending => ?_)
    · show Backlog.moves (h.held.toList ++ h.supervisor.bus) =
        m.move?.toList ++ Backlog.moves (h.supervisor.handle m).bus
      rw [hheld, Supervisor.bus_handle]
      exact Backlog.moves_cons ..
    · have hnone := (ht.gone hending).1
      rw [hheld] at hnone
      exact nomatch hnone
  | quit hending hheld _ => exact ht.aside rfl rfl rfl id (fun _ => ⟨hheld, nofun⟩) .inl
  -- deliveries that were waiting may end here, but they are nothing to the bus
  | cancel uptime hending =>
    have hunseen := h.supervisor.unseen_letGo uptime
    refine ht.aside ?_ hunseen.phase hunseen.reports (fun _ => by rw [hending]; rfl)
      (fun hh => hh.elim nofun nofun) nofun
    rw [unfollowed, hunseen.bus]
    rfl
  | halt hending hposted =>
    have houtlook := h.supervisor.outlook_halt
    exact ht.aside rfl (congrArg Outlook.phase houtlook) (congrArg Outlook.reports houtlook)
      (fun _ => by rw [hending]; rfl) (fun hh => hh.elim nofun nofun) nofun
  | haltPost hending => exact ht.posted (by rw [hending]; rfl) rfl
  | answer hending =>
    exact ht.aside rfl rfl rfl (fun _ => by rw [hending]; rfl) (fun hh => hh.elim nofun nofun) nofun
  | join hending hheld hr => exact ht.aside rfl rfl rfl nofun (fun _ => ⟨hheld, nofun⟩) nofun
  | @follow m rest hending hpop =>
    obtain ⟨hheld, hr⟩ := ht.gone (.inl hending)
    refine ht.applied ?_ (Supervisor.outlook_apply ..) rfl (fun _ => ⟨hheld, ?_⟩)
    · show Backlog.moves (h.held.toList ++ h.supervisor.bus) =
        m.move?.toList ++ Backlog.moves (h.held.toList ++ Supervisor.bus (Supervisor.apply _ m))
      rw [hheld, Supervisor.bus_apply]
      exact Backlog.moves_popFiltered hpop
    · rw [Supervisor.reader_apply]
      exact hr
  | @settle rest hending hpop =>
    have hgone := ht.gone (.inl hending)
    have hbus := Backlog.moves_popFiltered hpop
    cases Backlog.eq_nil_of_popFiltered hpop
    have hempty : h.unfollowed = [] := by
      rw [unfollowed, hgone.1]
      exact hbus
    have hempty' : Backlog.moves (h.held.toList ++ []) = [] := by rw [hgone.1]; rfl
    exact ht.aside (hempty'.trans hempty.symm) rfl rfl nofun (fun _ => hgone) (fun _ => .inr hempty')
  | aside hs =>
    refine ht.aside ?_ hs.phase hs.reports id (fun hh => ?_) .inl
    · rw [unfollowed, hs.bus]
      rfl
    · rw [hs.reader]
      exact ht.gone hh

/-- After any steps every move that was posted is in one of the three places. -/
theorem tracks_of_steps {s : Supervisor π α} {tidings : List Tiding} {h : Handover π α}
    (hsteps : (Handover.new s).Steps tidings h) : Tracks s tidings h := by
  induction hsteps with
  | refl => exact .new s
  | tail _ hstep ih => exact tracks_of_step ih hstep

/-- Let a run begin, and let it and the stop that follows go on in any way.  The moves that were
    followed are those that were posted since the bus was emptied, in their order and each of them once,
    as far as it went; the phase is where the last of them led, and whoever observed was told of each.
    When the stop is over, all were followed that were posted before the pipeline had answered the
    request for the null phase, and then perhaps some that came too late. -/
theorem followed_of_steps {s₀ s : Supervisor π α} {p : π} {uptime : Span} {tidings : List Tiding}
    {h : Handover π α} (hlaunch : s₀.launch p uptime = (.ok (), s))
    (hsteps : (Handover.new s).Steps tidings h) :
    (Tiding.followed tidings).map Prod.snd <+:
      Backlog.moves (s₀.opening p ++ Tiding.due tidings ++ Tiding.tardy tidings) ∧
    h.supervisor.phase = ((Tiding.followed tidings).getLast?.map (·.2.new)).getD s.phase ∧
    h.supervisor.reports = s.reports ++ Tiding.reports (Tiding.followed tidings) ∧
    (h.ending = .finished → ∃ late, late <+: Backlog.moves (Tiding.tardy tidings) ∧
      (Tiding.followed tidings).map Prod.snd =
        Backlog.moves (s₀.opening p ++ Tiding.due tidings) ++ late) ∧
    (h.ending = .finished → Tiding.tardy tidings = [] → h.supervisor.phase =
      ((Backlog.moves (s₀.opening p ++ Tiding.due tidings)).getLast?.map Move.new).getD s.phase) := by
  have ht := tracks_of_steps hsteps
  have hmoves := ht.moves
  have hover := ht.complete
  have hbus := s₀.bus_launch p uptime
  rw [hlaunch] at hbus
  rw [hbus] at hmoves hover
  -- what was followed reaches past everything due, so the rest of it came too late
  have hall : h.ending = .finished → ∃ late, late <+: Backlog.moves (Tiding.tardy tidings) ∧
      (Tiding.followed tidings).map Prod.snd =
        Backlog.moves (s₀.opening p ++ Tiding.due tidings) ++ late := by
    intro hending
    obtain ⟨late, hlate⟩ := hover hending
    rw [← hlate, List.append_assoc] at hmoves
    exact ⟨late, ⟨_, (List.append_cancel_left hmoves).symm⟩, hlate.symm⟩
  refine ⟨?_, ht.phase, ht.reports, hall, fun hending htardy => ?_⟩
  · rw [Backlog.moves_append, hmoves]
    exact List.prefix_append ..
  · obtain ⟨late, hlate, hfollowed⟩ := hall hending
    rw [htardy, Backlog.moves_nil, List.prefix_nil] at hlate
    rw [hlate, List.append_nil] at hfollowed
    rw [ht.phase, ← hfollowed, List.getLast?_map, Option.map_map]
    rfl

/-- A scripted pipeline with an observer, about to be started. -/
def observed : Supervisor Scripted Nat := ((Supervisor.new {}).install (.ok {})).2.observe "display"

/-- The reader quits at the end of the stream, and the stop follows the moves back to the null phase. -/
theorem followed_after_end : ∃ (s : Supervisor Scripted Nat) (tidings : List Tiding)
    (h : Handover Scripted Nat),
    observed.launch {} .zero = (.ok (), s) ∧ (Handover.new s).Steps tidings h ∧ h.ending = .finished ∧
      Tiding.tardy tidings = [] ∧
      (∃ late, late <+: Backlog.moves (Tiding.tardy tidings) ∧
        (Tiding.followed tidings).map Prod.snd =
          Backlog.moves (observed.opening {} ++ Tiding.due tidings) ++ late) ∧
      (Backlog.moves (observed.opening {} ++ Tiding.due tidings)).map Move.new =
        [.ready, .paused, .playing, .paused, .ready, .null] ∧
      h.supervisor.phase = .null ∧ h.supervisor.reports.map (·.move.new) =
        [.ready, .paused, .playing, .paused, .ready, .null] := by
  have hlaunch : observed.launch {} .zero = (.ok (), (observed.launch {} .zero).2) := rfl
  have hnew : (Handover.new (observed.launch {} .zero).2).Steps [] _ := .refl
  have htaken₁ := hnew.tail (.take rfl rfl rfl)
  have hready := htaken₁.tail (.apply rfl)
  have hended := hready.tail (.post .endOfStream rfl)
  have htaken₂ := hended.tail (.take rfl rfl rfl)
  have hpaused := htaken₂.tail (.apply rfl)
  have htaken₃ := hpaused.tail (.take rfl rfl rfl)
  have hplays := htaken₃.tail (.apply rfl)
  have hlast := hplays.tail (.take rfl rfl rfl)
  have hscaler := hlast.tail (.post (.phaseChanged (.element "scale") .playing .paused none) rfl)
  have hquit := hscaler.tail (.apply rfl)
  -- nobody reads any more
  have hcancelled := hquit.tail (.cancel .zero rfl)
  have hhalting := hcancelled.tail (.halt rfl rfl)
  have hposted₁ := hhalting.tail (.haltPost rfl)
  have hposted₂ := hposted₁.tail (.haltPost rfl)
  have hposted₃ := hposted₂.tail (.haltPost rfl)
  have hhalted := hposted₃.tail (.answer rfl)
  have hjoined := hhalted.tail (.join rfl rfl nofun)
  -- the move of the element is passed over, and the other three are followed
  have hpassed := hjoined.tail (.follow rfl rfl)
  have hpausedAgain := hpassed.tail (.follow rfl rfl)
  have hreadyAgain := hpausedAgain.tail (.follow rfl rfl)
  have hnull := hreadyAgain.tail (.follow rfl rfl)
  have hover := hnull.tail (.settle rfl rfl)
  obtain ⟨-, -, -, hall, -⟩ := followed_of_steps hlaunch hover
  exact ⟨_, _, _, hlaunch, hover, rfl, rfl, hall rfl, rfl, rfl, rfl⟩

end Handover

end MediaBridge
