import MediaBridge.Error
import MediaBridge.Time

/-! # Settings

The settings of a bridge and of the supervisor around it, their defaults, and the conditions they
have to meet.

* `validate_eq_ok_iff` says which settings are accepted; of several faults the first in the order of
  `validate` is named.
-/

namespace MediaBridge

/-- Which side gives way when the bridge is full. -/
inductive DiscardPolicy where
  /-- Submissions are turned away while too many frames are in flight, and a result waits for room
      in the output queue. -/
  | discardInput
  /-- Every submission is admitted, and a result that finds no room is dropped. -/
  | discardOutput
  deriving DecidableEq, Repr, Inhabited

/-- The written form of a policy. -/
def DiscardPolicy.name : DiscardPolicy → String
  | discardInput => "discard_input"
  | discardOutput => "discard_output"

/-- The policy with a written form. -/
def DiscardPolicy.ofName? (s : String) : Option DiscardPolicy :=
  if s = discardInput.name then some discardInput
  else if s = discardOutput.name then some discardOutput
  else none

@[simp] theorem DiscardPolicy.ofName?_name (p : DiscardPolicy) : ofName? p.name = some p := by
  cases p <;> decide

instance : ToString DiscardPolicy := ⟨DiscardPolicy.name⟩

/-- When a pipeline counts as stalled. -/
structure WatchdogSettings where
  /-- Milliseconds without a delivery after which a submission counts as stalled. -/
  timeoutMs : UInt64 := 2000
  /-- Stalled submissions in a row that cause a restart. -/
  resetCount : UInt32 := 10
  deriving DecidableEq, Repr, Inhabited

/-- The time without a delivery after which a submission counts as stalled. -/
def WatchdogSettings.timeout (w : WatchdogSettings) : Span := .ofMillis w.timeoutMs.toNat

/-- The settings of a bridge and its supervisor. -/
structure Settings where
  discardPolicy : DiscardPolicy := .discardInput
  /-- Frames the output queue holds. -/
  maxOutputQueue : UInt64 := 5
  /-- Frames in flight above which submissions are turned away, if the input gives way. -/
  maxInputQueue : UInt64 := 3
  /-- Pending entries above which the oldest is given up, under either policy. -/
  maxPending : UInt64 := 100
  /-- One in this many frame drops is reported. -/
  frameDropReportRate : UInt32 := 10
  /-- One in this many results without an id is reported. -/
  correspondenceFailReportRate : UInt32 := 5
  pushPollIntervalMs : UInt64 := 100
  statusPollIntervalMs : UInt64 := 100
  /-- The nominal time between frames. -/
  framePeriodMs : UInt64 := 100
  rateReportIntervalMs : UInt64 := 1000
  /-- Bytes waiting at the ingest at which a push has to wait. -/
  ingestMaxBytes : UInt64 := 5000000
  watchdog : WatchdogSettings := {}
  deriving DecidableEq, Repr, Inhabited

namespace Settings

/-- How often a waiting push looks again. -/
def pushPollInterval (s : Settings) : Span := .ofMillis s.pushPollIntervalMs.toNat

/-- How often a waiting status reader looks again. -/
def statusPollInterval (s : Settings) : Span := .ofMillis s.statusPollIntervalMs.toNat

/-- The nominal time between frames. -/
def framePeriod (s : Settings) : Span := .ofMillis s.framePeriodMs.toNat

/-- The time over which rates are measured. -/
def rateReportInterval (s : Settings) : Span := .ofMillis s.rateReportIntervalMs.toNat

/-- Names the first fault of settings that cannot be used. -/
def validate (s : Settings) : Except SettingsFault Unit :=
  if s.maxOutputQueue = 0 then .error .noOutputRoom
  else if s.maxInputQueue = 0 then .error .noInputRoom
  else if s.maxPending < s.maxInputQueue then
    .error (.pendingBelowInput s.maxPending.toNat s.maxInputQueue.toNat)
  else if s.framePeriodMs = 0 then .error .noFramePeriod
  else if s.pushPollIntervalMs = 0 || s.statusPollIntervalMs = 0 then .error .noPollInterval
  else .ok ()

/-- Settings that can be used: there is room on both sides, pending entries are not bounded more
    tightly than frames in flight, and no interval is empty. -/
def IsValid (s : Settings) : Prop :=
  s.maxOutputQueue ≠ 0 ∧ s.maxInputQueue ≠ 0 ∧ s.maxInputQueue ≤ s.maxPending ∧
    s.framePeriodMs ≠ 0 ∧ s.pushPollIntervalMs ≠ 0 ∧ s.statusPollIntervalMs ≠ 0

theorem validate_eq_ok_iff {s : Settings} : s.validate = .ok () ↔ s.IsValid := by
  unfold validate IsValid
  rw [← UInt64.not_lt]
  simp only [Bool.or_eq_true, decide_eq_true_eq]
  repeat' split
  all_goals simp_all
  rename_i h
  exact fun h' => h.resolve_left h'

/-- Valid settings leave room for every frame that may be in flight, and for one at least. -/
theorem IsValid.room {s : Settings} (h : s.IsValid) :
    0 < s.maxPending.toNat ∧ s.maxInputQueue.toNat ≤ s.maxPending.toNat := by
  obtain ⟨-, hne, hle, -⟩ := h
  have hle' := UInt64.le_iff_toNat_le.1 hle
  have hne' : s.maxInputQueue.toNat ≠ 0 := fun h0 => hne (UInt64.toNat_inj.1 h0)
  exact ⟨by omega, hle'⟩

end Settings

end MediaBridge
