import MediaBridge.Time
import MediaBridge.Decimal.Fixed

/-! # Throughput windows

Frames and bytes are counted over an interval.  Once the interval is over, the next frame closes the
window with a report of its rates and opens a new one.
-/

namespace MediaBridge

/-- One closed window. -/
structure RateReport where
  frames : Nat
  rateHz : Float
  kibPerSecond : Float

/-- Both rates with one decimal. -/
def RateReport.render (r : RateReport) : String :=
  Decimal.fixed 1 r.rateHz ++ " Hz, bandwidth " ++ Decimal.fixed 1 r.kibPerSecond ++ " KiB/s"

instance : ToString RateReport := ⟨RateReport.render⟩

/-- The count of frames and bytes since a window was opened. -/
structure RateWindow where
  /-- How long a window stays open. -/
  interval : Span
  /-- When the window was opened. -/
  opened : Span := .zero
  frames : Nat := 0
  bytes : Nat := 0

namespace RateWindow

/-- A span in seconds, at least the smallest positive difference from one. -/
private def inSeconds (d : Span) : Float :=
  let s := d.seconds.toFloat + d.subsecond.toFloat / 1000000000.0
  let least := Float.ofBits 0x3cb0000000000000
  if s < least then least else s

/-- Counts a frame of `bytes` bytes at time `now`; a window that is over yields its report. -/
def record (w : RateWindow) (now : Span) (bytes : Nat) : RateWindow × Option RateReport :=
  let frames := w.frames + 1
  let total := w.bytes + bytes
  let elapsed : Span := ⟨now.nanos - w.opened.nanos⟩
  if w.interval ≤ elapsed then
    let seconds := inSeconds elapsed
    ({ interval := w.interval, opened := now },
      some ⟨frames, frames.toFloat / seconds, total.toFloat / seconds / 1024.0⟩)
  else ({ w with frames := frames, bytes := total }, none)

end RateWindow

end MediaBridge
