import MediaBridge.Time
import MediaBridge.Decimal.Fixed

/-! # Health counters

Twelve counters say what became of the frames that went through the bridge.  They are 64-bit words
and wrap.  The record also remembers the time of the last delivery, in whole microseconds since it
was made, from which a stall is told.
-/

namespace MediaBridge

/-- What is counted. -/
inductive Counter where
  /-- Frames accepted by the pipeline's ingest. -/
  | submitted
  /-- Matched frames put into the output queue. -/
  | delivered
  /-- Submissions turned away. -/
  | rejections
  /-- Pending entries given up because too many were waiting. -/
  | evictions
  /-- Matched frames that found no room in the output queue. -/
  | outputDrops
  /-- Results without a correspondence id. -/
  | uncorrelated
  /-- Results for which no entry was pending. -/
  | unmatched
  /-- Pending entries passed over by a later result or forgotten at a restart. -/
  | stale
  /-- Results that could not be read. -/
  | unreadable
  /-- Restarts forced by the watchdog. -/
  | restarts
  /-- Payload bytes that went in. -/
  | bytesIn
  /-- Payload bytes that came out. -/
  | bytesOut
  deriving DecidableEq, Repr, Inhabited

/-- Every counter, in the order of a summary. -/
def Counter.all : List Counter :=
  [submitted, delivered, rejections, evictions, outputDrops, uncorrelated, unmatched, stale,
    unreadable, restarts, bytesIn, bytesOut]

/-- The name of a counter in a report. -/
def Counter.name : Counter → String
  | submitted => "frames_submitted"
  | delivered => "frames_delivered"
  | rejections => "input_rejections"
  | evictions => "pending_evictions"
  | outputDrops => "output_drops"
  | uncorrelated => "uncorrelated"
  | unmatched => "unmatched"
  | stale => "stale_skipped"
  | unreadable => "map_failures"
  | restarts => "watchdog_restarts"
  | bytesIn => "bytes_in"
  | bytesOut => "bytes_out"

/-- The counters and the time of the last delivery. -/
structure Health where
  submitted : UInt64 := 0
  delivered : UInt64 := 0
  rejections : UInt64 := 0
  evictions : UInt64 := 0
  outputDrops : UInt64 := 0
  uncorrelated : UInt64 := 0
  unmatched : UInt64 := 0
  stale : UInt64 := 0
  unreadable : UInt64 := 0
  restarts : UInt64 := 0
  bytesIn : UInt64 := 0
  bytesOut : UInt64 := 0
  /-- Microseconds from the record's start to the last delivery. -/
  lastDelivery : Nat := 0
  deriving DecidableEq, Repr, Inhabited

namespace Health

/-- The value of a counter. -/
def value (h : Health) : Counter → UInt64
  | .submitted => h.submitted
  | .delivered => h.delivered
  | .rejections => h.rejections
  | .evictions => h.evictions
  | .outputDrops => h.outputDrops
  | .uncorrelated => h.uncorrelated
  | .unmatched => h.unmatched
  | .stale => h.stale
  | .unreadable => h.unreadable
  | .restarts => h.restarts
  | .bytesIn => h.bytesIn
  | .bytesOut => h.bytesOut

/-- The record with one counter set. -/
def set (h : Health) (c : Counter) (n : UInt64) : Health :=
  match c with
  | .submitted => { h with submitted := n }
  | .delivered => { h with delivered := n }
  | .rejections => { h with rejections := n }
  | .evictions => { h with evictions := n }
  | .outputDrops => { h with outputDrops := n }
  | .uncorrelated => { h with uncorrelated := n }
  | .unmatched => { h with unmatched := n }
  | .stale => { h with stale := n }
  | .unreadable => { h with unreadable := n }
  | .restarts => { h with restarts := n }
  | .bytesIn => { h with bytesIn := n }
  | .bytesOut => { h with bytesOut := n }

/-- The record with one counter raised by `n`. -/
def add (h : Health) (c : Counter) (n : Nat) : Health := h.set c (h.value c + UInt64.ofNat n)

/-- The record with one counter raised by one. -/
def bump (h : Health) (c : Counter) : Health := h.add c 1

@[simp] theorem value_set (h : Health) (c d : Counter) (n : UInt64) :
    (h.set c n).value d = if d = c then n else h.value d := by
  cases c <;> cases d <;> rfl

@[simp] theorem value_add (h : Health) (c d : Counter) (n : Nat) :
    (h.add c n).value d = if d = c then h.value c + UInt64.ofNat n else h.value d :=
  value_set ..

@[simp] theorem lastDelivery_add (h : Health) (c : Counter) (n : Nat) :
    (h.add c n).lastDelivery = h.lastDelivery := by cases c <;> rfl

/-- A frame of `size` bytes was accepted. -/
def recordSubmit (h : Health) (size : Nat) : Health := (h.bump .submitted).add .bytesIn size

/-- A result was delivered when the record was `uptime` old. -/
def markDelivery (h : Health) (uptime : Span) : Health := { h with lastDelivery := uptime.micros }

/-- The time since the last delivery, or since the start if there was none. -/
def sinceDelivery (h : Health) (uptime : Span) : Span :=
  ⟨uptime.nanos - h.lastDelivery * 1000⟩

/-- Whether nothing was delivered for at least `threshold`. -/
def isStalled (h : Health) (uptime threshold : Span) : Bool := threshold ≤ h.sinceDelivery uptime

/-- The percentage of submitted frames that did not reach the output queue. -/
def lossRate (h : Health) : Float :=
  let submitted := h.value .submitted
  if submitted = 0 then 0.0
  else
    let delivered := min (h.value .delivered) submitted
    (submitted - delivered).toFloat / submitted.toFloat * 100.0

/-- How many results were dealt with, one way or another. -/
def dealtWith (h : Health) : Nat :=
  [Counter.delivered, .outputDrops, .uncorrelated, .unmatched, .unreadable].foldl
    (fun n c => n + (h.value c).toNat) 0

/-- The counters on one line. -/
def summary (h : Health) : String :=
  s!"Health: {h.value .submitted} submitted, {h.value .delivered} delivered (" ++
    Decimal.fixed 2 h.lossRate ++
    s!"% lost), {h.value .rejections} rejected, {h.value .evictions} evicted, " ++
    s!"{h.value .outputDrops} output drops, {h.value .uncorrelated} uncorrelated, " ++
    s!"{h.value .unmatched} unmatched, {h.value .stale} stale, " ++
    s!"{h.value .unreadable} unreadable, {h.value .restarts} watchdog restarts, " ++
    s!"{h.value .bytesIn} bytes in, {h.value .bytesOut} bytes out"

end Health

end MediaBridge
