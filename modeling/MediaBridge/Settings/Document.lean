import MediaBridge.Settings.Basic
import MediaBridge.Json.Reader

/-! # Settings documents

Settings are written as a JSON object with a member for each setting.  A reader gives a setting that
is left out its default, passes over members it does not know and refuses a setting that is given
twice.  In place of an object, an array may give the settings in their order, the last ones left out.

* `Settings.render` writes every setting, without white space;
* `Settings.load`   reads a document, and accepts it only if the settings can be used.
-/

namespace MediaBridge

namespace Json

/-- A number written as a natural number below a bound. -/
def word? (bound : Nat) : Json → Option Nat
  | number n => n.natural?.filter (· < bound)
  | _ => none

/-- A 64-bit word. -/
def word64? (v : Json) : Option UInt64 := (v.word? UInt64.size).map UInt64.ofNat

/-- A 32-bit word. -/
def word32? (v : Json) : Option UInt32 := (v.word? UInt32.size).map UInt32.ofNat

/-- A policy: its name, or an object whose one member has that name and the value null. -/
def policy? : Json → Option DiscardPolicy
  | string (some text) => DiscardPolicy.ofName? (String.ofList text)
  | object [(some key, null)] => DiscardPolicy.ofName? (String.ofList key)
  | _ => none

end Json

/-- A setting of a record: its name in a document, how a value is put into the record, and whether a
    record was given it. -/
structure Setting (ρ : Type) where
  name : String
  /-- The record with the setting taken from a value, if the value fits. -/
  put : Json → ρ → Option ρ

namespace Setting

/-- Puts a document's members into a record.  Members whose name belongs to no setting are passed
    over; `seen` holds the names of the settings that were given already. -/
def putMembers (settings : List (Setting ρ)) :
    (seen : List String) → List (Option (List Char) × Json) → ρ → Option ρ
  | _, [], r => some r
  | _, (none, _) :: _, _ => none
  | seen, (some key, v) :: rest, r =>
    let key := String.ofList key
    match settings.find? (·.name = key) with
    -- unknown members may be repeated
    | none => putMembers settings seen rest r
    | some s =>
      if seen.contains key then none
      else match s.put v r with
        | none => none
        | some r => putMembers settings (key :: seen) rest r

/-- Puts values into a record in the order of its settings; the last settings may be left out. -/
def putElements : List (Setting ρ) → List Json → ρ → Option ρ
  | _, [], r => some r
  | [], _ :: _, _ => none
  | s :: settings, v :: rest, r =>
    match s.put v r with
    | none => none
    | some r => putElements settings rest r

/-- Puts a document into a record: an object by names, an array by order. -/
def putDocument (settings : List (Setting ρ)) (r : ρ) : Json → Option ρ
  | .object members => putMembers settings [] members r
  | .array elements => putElements settings elements r
  | _ => none

end Setting

/-- The settings of a watchdog, in order. -/
def WatchdogSettings.entries : List (Setting WatchdogSettings) := [
  ⟨"timeout_ms", fun v w => v.word64?.map fun n => { w with timeoutMs := n }⟩,
  ⟨"reset_count", fun v w => v.word32?.map fun n => { w with resetCount := n }⟩]

namespace Settings

/-- The settings of a bridge and its supervisor, in order. -/
def entries : List (Setting Settings) := [
  ⟨"discard_policy", fun v s => v.policy?.map fun p => { s with discardPolicy := p }⟩,
  ⟨"max_output_queue", fun v s => v.word64?.map fun n => { s with maxOutputQueue := n }⟩,
  ⟨"max_input_queue", fun v s => v.word64?.map fun n => { s with maxInputQueue := n }⟩,
  ⟨"max_pending", fun v s => v.word64?.map fun n => { s with maxPending := n }⟩,
  ⟨"frame_drop_report_rate", fun v s => v.word32?.map fun n => { s with frameDropReportRate := n }⟩,
  ⟨"correspondence_fail_report_rate",
    fun v s => v.word32?.map fun n => { s with correspondenceFailReportRate := n }⟩,
  ⟨"push_poll_interval_ms", fun v s => v.word64?.map fun n => { s with pushPollIntervalMs := n }⟩,
  ⟨"status_poll_interval_ms",
    fun v s => v.word64?.map fun n => { s with statusPollIntervalMs := n }⟩,
  ⟨"frame_period_ms", fun v s => v.word64?.map fun n => { s with framePeriodMs := n }⟩,
  ⟨"rate_report_interval_ms",
    fun v s => v.word64?.map fun n => { s with rateReportIntervalMs := n }⟩,
  ⟨"ingest_max_bytes", fun v s => v.word64?.map fun n => { s with ingestMaxBytes := n }⟩,
  ⟨"watchdog",
    fun v s => (Setting.putDocument WatchdogSettings.entries {} v).map fun w =>
      { s with watchdog := w }⟩]

/-- The settings of a JSON value, with defaults for those it leaves out. -/
def ofJson? (v : Json) : Option Settings := Setting.putDocument entries {} v

/-- The settings of a document, as long as they can be used. -/
def load (text : String) : Except Error Settings :=
  match (Json.parse text).bind ofJson? with
  | none => .error .malformedDocument
  | some s =>
    match s.validate with
    | .error cause => .error (.invalid (.settings cause))
    | .ok () => .ok s

/-- The settings in a file, given its bytes if there is such a file. -/
def loadFile (contents : Option ByteArray) : Except Error Settings :=
  match contents with
  | none => .error (.file .missing)
  | some bytes =>
    match String.fromUTF8? bytes with
    | none => .error (.file .notText)
    | some text => load text

/-- The names and written values of all settings, in order. -/
def written (s : Settings) : List (String × String) := [
  ("discard_policy", "\"" ++ s.discardPolicy.name ++ "\""),
  ("max_output_queue", toString s.maxOutputQueue),
  ("max_input_queue", toString s.maxInputQueue),
  ("max_pending", toString s.maxPending),
  ("frame_drop_report_rate", toString s.frameDropReportRate),
  ("correspondence_fail_report_rate", toString s.correspondenceFailReportRate),
  ("push_poll_interval_ms", toString s.pushPollIntervalMs),
  ("status_poll_interval_ms", toString s.statusPollIntervalMs),
  ("frame_period_ms", toString s.framePeriodMs),
  ("rate_report_interval_ms", toString s.rateReportIntervalMs),
  ("ingest_max_bytes", toString s.ingestMaxBytes),
  ("watchdog", "\x7b\"timeout_ms\":" ++ toString s.watchdog.timeoutMs ++ ",\"reset_count\":" ++
    toString s.watchdog.resetCount ++ "\x7d")]

/-- The settings as a JSON object without white space. -/
def render (s : Settings) : String :=
  "\x7b" ++ String.intercalate "," (s.written.map fun m => "\"" ++ m.1 ++ "\":" ++ m.2) ++ "\x7d"

/-- Loading succeeds exactly with the settings that the document gives and that can be used. -/
theorem load_eq_ok_iff {text : String} {s : Settings} :
    load text = .ok s ↔ (Json.parse text).bind ofJson? = some s ∧ s.IsValid := by
  unfold load
  cases (Json.parse text).bind ofJson? with
  | none => simp
  | some t =>
    have hv := @validate_eq_ok_iff t
    simp only [Option.some.injEq]
    split
    · rename_i cause e
      rw [e] at hv
      simp only [reduceCtorEq, false_iff] at hv ⊢
      rintro ⟨rfl, hs⟩
      exact hv hs
    · rename_i e
      have hs := hv.1 e
      simp only [Except.ok.injEq]
      exact ⟨fun h => ⟨h, h ▸ hs⟩, fun h => h.1⟩

end Settings

end MediaBridge
