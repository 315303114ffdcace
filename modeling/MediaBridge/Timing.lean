import MediaBridge.Time

/-! # Frame timing

What travels with a frame besides its bytes: presentation timing, and the correspondence id that
the bridge attaches to find the frame again when it comes back.
-/

namespace MediaBridge

/-- The timing fields of a frame.  The offset doubles as the correspondence id of a submitted
    frame. -/
structure Timing where
  /-- When the frame is to be presented. -/
  pts : Option ClockTime := none
  /-- When the frame is to be decoded. -/
  dts : Option ClockTime := none
  /-- How long the frame lasts. -/
  duration : Option Span := none
  /-- The frame's place in the sequence. -/
  offset : Nat := 0
  /-- Where the frame ends in the sequence; only carried along. -/
  offsetEnd : Option Nat := none
  deriving DecidableEq, Repr, Inhabited

/-- Everything attached to a frame besides its bytes. -/
structure FrameInfo where
  timing : Timing := {}
  /-- The correspondence id on the side channel. -/
  id : Option Nat := none
  deriving DecidableEq, Repr, Inhabited

namespace FrameInfo

/-- The info with the timing replaced. -/
def withTiming (i : FrameInfo) (t : Timing) : FrameInfo := { i with timing := t }

/-- The info with a correspondence id attached. -/
def withId (i : FrameInfo) (id : Nat) : FrameInfo := { i with id := some id }

/-- The info of an admitted frame: its timing with the correspondence id for offset, and the id
    on the side channel. -/
def stamped (i : FrameInfo) (timing : Timing) (id : Nat) : FrameInfo :=
  (i.withTiming { timing with offset := id }).withId id

@[simp] theorem stamped_id (i : FrameInfo) (t : Timing) (id : Nat) :
    (i.stamped t id).id = some id := rfl

@[simp] theorem stamped_offset (i : FrameInfo) (t : Timing) (id : Nat) :
    (i.stamped t id).timing.offset = id := rfl

end FrameInfo

/-- Presentation times for frames that have none.  A frame that follows the previous accepted one
    within a frame period is placed one period after it; any other is placed at the present. -/
structure FrameClock where
  /-- The nominal time between frames. -/
  period : Span
  /-- The clock reading at the previous accepted frame. -/
  previous : Option ClockTime := none
  deriving DecidableEq, Repr

namespace FrameClock

/-- The presentation time for a frame submitted at `now`. -/
def ptsAt (c : FrameClock) (now : ClockTime) : ClockTime :=
  match c.previous with
  | some previous => if now.since previous ≤ c.period then previous.add c.period else now
  | none => now

/-- The timing for a frame submitted at `now`, its offset still open. -/
def timingAt (c : FrameClock) (now : ClockTime) : Timing :=
  { pts := some (c.ptsAt now), duration := some c.period }

/-- Remembers that the frame submitted at `now` was accepted. -/
def commit (c : FrameClock) (now : ClockTime) : FrameClock := { c with previous := some now }

/-- Forgets the previous frame. -/
def reset (c : FrameClock) : FrameClock := { c with previous := none }

@[simp] theorem ptsAt_reset (c : FrameClock) (now : ClockTime) : c.reset.ptsAt now = now := rfl

theorem ptsAt_commit (c : FrameClock) (before now : ClockTime) :
    (c.commit before).ptsAt now =
      if now.since before ≤ c.period then before.add c.period else now := rfl

end FrameClock

end MediaBridge
