import MediaBridge.Buffer.Store

/-! # Frames in words

One-line descriptions of handles and buffers for people who look into a running program.
-/

namespace MediaBridge

/-- A clock time with its unit left to the reader. -/
def ClockTime.describe (t : ClockTime) : String := "ClockTime(" ++ ToString.toString t.nanos ++ ")"

/-- The fields of a frame's timing. -/
def Timing.describe (t : Timing) : String :=
  Text.braced "FrameTiming" [("pts", Text.optional ClockTime.describe t.pts),
    ("dts", Text.optional ClockTime.describe t.dts),
    ("duration", Text.optional Span.describe t.duration), ("offset", toString t.offset),
    ("offset_end", Text.optional toString t.offsetEnd)]

/-- The fields of a frame's info. -/
def FrameInfo.describe (i : FrameInfo) : String :=
  Text.braced "BufferMeta" [("timing", i.timing.describe),
    ("correspondence_id", Text.optional toString i.id)]

/-- The info of a buffer and whether a pool lent it. -/
def Buffer.describe (b : Buffer) : String :=
  Text.braced "NativeBuffer" [("meta", b.info.describe), ("pooled", toString b.pool.isSome)]

/-- What a handle is to its buffer. -/
def Handle.describe (h : Handle) : String :=
  Text.braced "FrameBuffer" [("owns", toString h.owns), ("released", toString h.isReleased),
    ("map_state", h.mapping.name)]

end MediaBridge
