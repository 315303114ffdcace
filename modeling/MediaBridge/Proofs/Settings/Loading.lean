import Mathlib.Data.List.Nodup
import MediaBridge.Settings.Document
import MediaBridge.Proofs.Json.Grammar

/-! # Loading settings

A document gives some of the settings, in any order and among members that mean nothing here, and
the others keep their defaults.  So does the object for the watchdog in it.

* `putDocument_of_givenBy`  what an object makes of a record, whatever the order of its members;
* `parse_bind_of_givenBy`   what a document gives is read from it;
* `replaced_changes`        replacing every setting leaves nothing of the defaults;
* `loads`                   documents, and settings that are read as they were written.
-/

namespace MediaBridge

/-! ## Objects -/

namespace Setting

variable {ρ κ : Type}

/-- Whether members give certain things in that order, among members whose names mean nothing.  A
    name is a text: with half of a surrogate pair in one there is no settings document. -/
inductive Mixes (known : List String) (name : κ → String) (Gives : κ → Json → Prop) :
    List κ → List (Option (List Char) × Json) → Prop where
  | nil : Mixes known name Gives [] []
  | given {c : κ} {cs : List κ} {v : Json} {ms : List (Option (List Char) × Json)} (h : Gives c v)
    (hrest : Mixes known name Gives cs ms) :
    Mixes known name Gives (c :: cs) ((some (name c).toList, v) :: ms)
  | unknown {key : List Char} {v : Json} {cs : List κ} {ms : List (Option (List Char) × Json)}
    (h : String.ofList key ∉ known) (hrest : Mixes known name Gives cs ms) :
    Mixes known name Gives cs ((some key, v) :: ms)

/-- Whether an object gives certain things, each of them once and in whatever order. -/
inductive GivenBy (known : List String) (name : κ → String) (Gives : κ → Json → Prop)
    (cs : List κ) : Json → Prop where
  | intro {order : List κ} {ms : List (Option (List Char) × Json)} (hdistinct : (cs.map name).Nodup)
    (horder : order.Perm cs) (h : Mixes known name Gives order ms) :
    GivenBy known name Gives cs (.object ms)

variable {settings : List (Setting ρ)} {name : κ → String} {Gives : κ → Json → Prop}
  {replace : ρ → κ → ρ} {cs : List κ} {ms : List (Option (List Char) × Json)}

/-- Members that give things are put into a record one after the other. -/
theorem putMembers_of_mixes
    (hput : ∀ c v, Gives c v → ∃ s, settings.find? (·.name = name c) = some s ∧
      ∀ r, s.put v r = some (replace r c))
    (h : Mixes (settings.map (·.name)) name Gives cs ms) (hdistinct : (cs.map name).Nodup)
    (seen : List String) (hseen : ∀ c ∈ cs, name c ∉ seen) (r : ρ) :
    putMembers settings seen ms r = some (cs.foldl replace r) := by
  -- over the members; the names seen so far are those of settings, and none comes again
  induction h generalizing seen r with
  | nil => rfl
  | @given c cs v ms hgives hrest ih =>
    obtain ⟨s, hfind, hs⟩ := hput c v hgives
    obtain ⟨hc, hcs⟩ := List.nodup_cons.1 hdistinct
    obtain ⟨hfresh, hothers⟩ := List.forall_mem_cons.1 hseen
    rw [putMembers]
    simp only [String.ofList_toList, hfind, hs]
    rw [if_neg (by simpa using hfresh)]
    refine ih hcs (name c :: seen) (fun d hd => ?_) (replace r c)
    rw [List.mem_cons, not_or]
    refine ⟨fun heq => hc ?_, hothers d hd⟩
    rw [← heq]
    exact List.mem_map_of_mem hd
  | @unknown key v cs ms hkey hrest ih =>
    have hfind : settings.find? (·.name = String.ofList key) = none := by
      rw [List.find?_eq_none]
      intro s hs heq
      exact hkey (of_decide_eq_true heq ▸ List.mem_map_of_mem hs)
    rw [putMembers]
    simp only [hfind]
    exact ih hdistinct seen hseen r

/-- It does not matter in which order an object gives things. -/
theorem putDocument_of_givenBy {v : Json}
    (hput : ∀ c v, Gives c v → ∃ s, settings.find? (·.name = name c) = some s ∧
      ∀ r, s.put v r = some (replace r c))
    (hcomm : ∀ c d, name c ≠ name d → ∀ r, replace (replace r c) d = replace (replace r d) c)
    (h : GivenBy (settings.map (·.name)) name Gives cs v) (r : ρ) :
    putDocument settings r v = some (cs.foldl replace r) := by
  cases h with
  | @intro order ms hdistinct horder h =>
    have hnames : (order.map name).Nodup := (horder.map name).nodup_iff.2 hdistinct
    rw [putDocument, putMembers_of_mixes hput h hnames [] (fun _ _ => List.not_mem_nil) r]
    refine congrArg some (horder.foldl_eq' (fun c hc d hd z => ?_) r)
    -- different settings of one object have different names, so they can change places
    by_cases heq : c = d
    · rw [heq]
    · exact hcomm c d (fun hname => heq (List.inj_on_of_nodup_map hnames hc hd hname)) z

/-- An object that gives nothing else, in order. -/
theorem givenBy_map {known : List String} {value : κ → Json} (hdistinct : (cs.map name).Nodup)
    (hgives : ∀ c ∈ cs, Gives c (value c)) :
    GivenBy known name Gives cs (.object (cs.map fun c => (some (name c).toList, value c))) := by
  refine .intro hdistinct (.refl cs) ?_
  clear hdistinct
  induction cs with
  | nil => exact .nil
  | cons c cs ih =>
    obtain ⟨hc, hcs⟩ := List.forall_mem_cons.1 hgives
    exact .given hc (ih hcs)

end Setting

namespace Json

/-- A natural number is read if it is small enough. -/
theorem word?_natural {bound n : Nat} (h : n < bound) : (natural n).word? bound = some n := by
  simp [natural, word?, Numeral.natural?, h]

@[simp] theorem word64?_natural (n : UInt64) : (natural n.toNat).word64? = some n := by
  rw [word64?, word?_natural n.toNat_lt, Option.map_some, UInt64.ofNat_toNat]

@[simp] theorem word32?_natural (n : UInt32) : (natural n.toNat).word32? = some n := by
  rw [word32?, word?_natural n.toNat_lt, Option.map_some, UInt32.ofNat_toNat]

/-- A policy is read from its name. -/
@[simp] theorem policy?_name (p : DiscardPolicy) :
    (string (some p.name.toList)).policy? = some p := by
  rw [policy?, String.ofList_toList, DiscardPolicy.ofName?_name]

/-- The text of an object that is written without white space. -/
def objectText (members : List (String × String)) : String :=
  "\x7b" ++ String.intercalate "," (members.map fun m => "\"" ++ m.1 ++ "\":" ++ m.2) ++ "\x7d"

/-- The text of an object is written for it if those of its members are. -/
theorem valueText_objectText {κ : Type} {name text : κ → String} {value : κ → Json} {cs : List κ}
    (hname : ∀ c ∈ cs, (name c).toList.all isPlain = true)
    (htext : ∀ c ∈ cs, ValueText (value c) (text c).toList) :
    ValueText (.object (cs.map fun c => (some (name c).toList, value c)))
      (objectText (cs.map fun c => (name c, text c))).toList := by
  rw [objectText, List.map_map, String.toList_append, String.toList_append]
  cases cs with
  | nil => exact .emptyObject isSpaces_nil
  | cons c cs => exact .object (membersText_join (List.cons_ne_nil c cs) hname htext)

end Json

/-! ## The settings of a watchdog -/

/-- A watchdog's setting with a value for it. -/
inductive WatchdogSettings.Change where
  | timeoutMs (n : UInt64)
  | resetCount (n : UInt32)
  deriving DecidableEq, Repr

namespace WatchdogSettings

namespace Change

/-- The name of the setting in a document. -/
def name : Change → String
  | timeoutMs _ => "timeout_ms"
  | resetCount _ => "reset_count"

/-- The value as it stands in a document. -/
def value : Change → Json
  | timeoutMs n => .natural n.toNat
  | resetCount n => .natural n.toNat

/-- The value as it is written. -/
def text : Change → String
  | timeoutMs n => toString n
  | resetCount n => toString n

/-- The settings with this one replaced. -/
def apply (w : WatchdogSettings) : Change → WatchdogSettings
  | timeoutMs n => { w with timeoutMs := n }
  | resetCount n => { w with resetCount := n }

/-- A value in a document replaces the setting of its name. -/
theorem put_value (c : Change) : ∃ s, entries.find? (·.name = c.name) = some s ∧
    ∀ w, s.put c.value w = some (apply w c) := by
  cases c with
  | timeoutMs n => exact ⟨_, rfl, fun w => by simp [value, apply]⟩
  | resetCount n => exact ⟨_, rfl, fun w => by simp [value, apply]⟩

/-- It does not matter in which order two settings are replaced. -/
theorem apply_comm {c d : Change} (h : c.name ≠ d.name) (w : WatchdogSettings) :
    apply (apply w c) d = apply (apply w d) c := by
  cases c <;> cases d <;> first | rfl | exact absurd rfl h

/-- The names need no escapes. -/
theorem isPlain_name (c : Change) : c.name.toList.all Json.isPlain = true := by
  cases c <;> simp only [name] <;> decide

/-- The text is one for the value. -/
theorem valueText_text (c : Change) : Json.ValueText c.value c.text.toList := by
  cases c <;> exact Json.valueText_natural _

end Change

/-- The default settings with some of them replaced. -/
def replaced (given : List Change) : WatchdogSettings := given.foldl Change.apply {}

/-- Whether an object gives certain settings, among members that mean nothing. -/
def GivenBy (given : List Change) (v : Json) : Prop :=
  Setting.GivenBy (entries.map (·.name)) Change.name (fun c v => v = c.value) given v

/-- An object is read as the default settings with those that it gives replaced. -/
theorem putDocument_of_givenBy {given : List Change} {v : Json} (h : GivenBy given v) :
    Setting.putDocument entries {} v = some (replaced given) :=
  Setting.putDocument_of_givenBy (fun c _ hv => hv ▸ c.put_value)
    (fun _ _ hname => Change.apply_comm hname) h {}

end WatchdogSettings

/-! ## The settings of a bridge -/

namespace Settings

/-- A setting with a value for it; the one for the watchdog gives some of the watchdog's. -/
inductive Change where
  | discardPolicy (p : DiscardPolicy)
  | maxOutputQueue (n : UInt64)
  | maxInputQueue (n : UInt64)
  | maxPending (n : UInt64)
  | frameDropReportRate (n : UInt32)
  | correspondenceFailReportRate (n : UInt32)
  | pushPollIntervalMs (n : UInt64)
  | statusPollIntervalMs (n : UInt64)
  | framePeriodMs (n : UInt64)
  | rateReportIntervalMs (n : UInt64)
  | ingestMaxBytes (n : UInt64)
  | watchdog (given : List WatchdogSettings.Change)
  deriving DecidableEq, Repr

namespace Change

/-- The name of the setting in a document. -/
def name : Change → String
  | discardPolicy _ => "discard_policy"
  | maxOutputQueue _ => "max_output_queue"
  | maxInputQueue _ => "max_input_queue"
  | maxPending _ => "max_pending"
  | frameDropReportRate _ => "frame_drop_report_rate"
  | correspondenceFailReportRate _ => "correspondence_fail_report_rate"
  | pushPollIntervalMs _ => "push_poll_interval_ms"
  | statusPollIntervalMs _ => "status_poll_interval_ms"
  | framePeriodMs _ => "frame_period_ms"
  | rateReportIntervalMs _ => "rate_report_interval_ms"
  | ingestMaxBytes _ => "ingest_max_bytes"
  | watchdog _ => "watchdog"

/-- The value as it stands in a document. -/
def value : Change → Json
  | discardPolicy p => .string (some p.name.toList)
  | maxOutputQueue n | maxInputQueue n | maxPending n | pushPollIntervalMs n
  | statusPollIntervalMs n | framePeriodMs n | rateReportIntervalMs n | ingestMaxBytes n =>
    .natural n.toNat
  | frameDropReportRate n | correspondenceFailReportRate n => .natural n.toNat
  | watchdog given => .object (given.map fun c => (some c.name.toList, c.value))

/-- The value as it is written. -/
def text : Change → String
  | discardPolicy p => "\"" ++ p.name ++ "\""
  | maxOutputQueue n | maxInputQueue n | maxPending n | pushPollIntervalMs n
  | statusPollIntervalMs n | framePeriodMs n | rateReportIntervalMs n | ingestMaxBytes n =>
    toString n
  | frameDropReportRate n | correspondenceFailReportRate n => toString n
  | watchdog given => Json.objectText (given.map fun c => (c.name, c.text))

/-- The settings with this one replaced. -/
def apply (s : Settings) : Change → Settings
  | discardPolicy p => { s with discardPolicy := p }
  | maxOutputQueue n => { s with maxOutputQueue := n }
  | maxInputQueue n => { s with maxInputQueue := n }
  | maxPending n => { s with maxPending := n }
  | frameDropReportRate n => { s with frameDropReportRate := n }
  | correspondenceFailReportRate n => { s with correspondenceFailReportRate := n }
  | pushPollIntervalMs n => { s with pushPollIntervalMs := n }
  | statusPollIntervalMs n => { s with statusPollIntervalMs := n }
  | framePeriodMs n => { s with framePeriodMs := n }
  | rateReportIntervalMs n => { s with rateReportIntervalMs := n }
  | ingestMaxBytes n => { s with ingestMaxBytes := n }
  | watchdog given => { s with watchdog := .replaced given }

/-- Whether a value in a document is the one for the setting.  That for the watchdog may give its
    settings in any order, too. -/
def Gives : Change → Json → Prop
  | watchdog given, v => WatchdogSettings.GivenBy given v
  | c, v => v = c.value

/-- A value that gives a setting replaces the one of its name. -/
theorem put_of_gives (c : Change) {v : Json} (h : c.Gives v) :
    ∃ e, entries.find? (·.name = c.name) = some e ∧ ∀ s, e.put v s = some (apply s c) := by
  -- only the watchdog's value is an object with settings of its own
  cases c with
  | watchdog given =>
    refine ⟨_, rfl, fun s => ?_⟩
    simp only [WatchdogSettings.putDocument_of_givenBy h, Option.map_some]
    rfl
  | _ =>
    cases h
    exact ⟨_, rfl, fun s => by simp [value, apply]⟩

/-- It does not matter in which order two settings are replaced. -/
theorem apply_comm {c d : Change} (h : c.name ≠ d.name) (s : Settings) :
    apply (apply s c) d = apply (apply s d) c := by
  cases c <;> cases d <;> first | rfl | exact absurd rfl h

/-- The names need no escapes. -/
theorem isPlain_name (c : Change) : c.name.toList.all Json.isPlain = true := by
  cases c <;> simp only [name] <;> decide

/-- The text is one for the value. -/
theorem valueText_text (c : Change) : Json.ValueText c.value c.text.toList := by
  cases c with
  | discardPolicy p =>
    have hplain : p.name.toList.all Json.isPlain = true := by cases p <;> decide
    have htext := Json.valueText_plain hplain
    simpa [value, text] using htext
  | watchdog given =>
    exact Json.valueText_objectText (fun c _ => c.isPlain_name) fun c _ => c.valueText_text
  | _ => exact Json.valueText_natural _

end Change

/-- The default settings with some of them replaced. -/
def replaced (given : List Change) : Settings := given.foldl Change.apply {}

/-- Whether an object gives certain settings, among members that mean nothing. -/
def GivenBy (given : List Change) (v : Json) : Prop :=
  Setting.GivenBy (entries.map (·.name)) Change.name Change.Gives given v

/-- An object is read as the default settings with those that it gives replaced. -/
theorem ofJson?_of_givenBy {given : List Change} {v : Json} (h : GivenBy given v) :
    ofJson? v = some (replaced given) :=
  Setting.putDocument_of_givenBy (fun c _ hv => c.put_of_gives hv)
    (fun _ _ hname => Change.apply_comm hname) h {}

/-- Every setting with its value. -/
def changes (s : Settings) : List Change := [
  .discardPolicy s.discardPolicy,
  .maxOutputQueue s.maxOutputQueue,
  .maxInputQueue s.maxInputQueue,
  .maxPending s.maxPending,
  .frameDropReportRate s.frameDropReportRate,
  .correspondenceFailReportRate s.correspondenceFailReportRate,
  .pushPollIntervalMs s.pushPollIntervalMs,
  .statusPollIntervalMs s.statusPollIntervalMs,
  .framePeriodMs s.framePeriodMs,
  .rateReportIntervalMs s.rateReportIntervalMs,
  .ingestMaxBytes s.ingestMaxBytes,
  .watchdog [.timeoutMs s.watchdog.timeoutMs, .resetCount s.watchdog.resetCount]]

/-- Where every setting is replaced, nothing of the defaults is left. -/
theorem replaced_changes (s : Settings) : replaced s.changes = s := by
  simp only [replaced, changes, List.foldl_cons, List.foldl_nil, Change.apply,
    WatchdogSettings.replaced, WatchdogSettings.Change.apply]

/-- Settings are written as the object that gives every one of them. -/
theorem render_eq (s : Settings) :
    s.render = Json.objectText (s.changes.map fun c => (c.name, c.text)) := by
  have hwatchdog : "\x7b\"timeout_ms\":" ++ toString s.watchdog.timeoutMs ++ ",\"reset_count\":" ++
      toString s.watchdog.resetCount ++ "\x7d" =
        (Change.watchdog
          [.timeoutMs s.watchdog.timeoutMs, .resetCount s.watchdog.resetCount]).text := by
    rw [← String.toList_inj]
    simp [Change.text, Json.objectText, WatchdogSettings.Change.name, WatchdogSettings.Change.text]
  have hwritten : s.written = s.changes.map fun c => (c.name, c.text) := by
    rw [written, hwatchdog]
    rfl
  rw [render, hwritten, Json.objectText]

/-! ## Documents -/

/-- A file with a text in it is read as that text. -/
theorem loadFile_toUTF8 (text : String) : loadFile (some text.toUTF8) = load text := by
  have hutf8 : String.fromUTF8? text.toUTF8 = some text := dif_pos text.isValidUTF8
  simp only [loadFile, hutf8]

/-- What a document gives is read from it. -/
theorem parse_bind_of_givenBy {given : List Change} {v : Json} {text : String} (h : GivenBy given v)
    (htext : v.SpacedText text.toList) :
    (Json.parse text).bind ofJson? = some (replaced given) := by
  rw [Json.parse_eq_some_iff.2 htext, Option.bind_some, ofJson?_of_givenBy h]

/-- What is written of settings gives all of them. -/
theorem spacedText_render (s : Settings) : GivenBy s.changes
    (.object (s.changes.map fun c => (some c.name.toList, c.value))) ∧
      Json.SpacedText (.object (s.changes.map fun c => (some c.name.toList, c.value)))
        s.render.toList := by
  constructor
  · -- the watchdog's settings are all given, too
    refine Setting.givenBy_map (by simp only [changes, List.map, Change.name]; decide) ?_
    intro c hc
    cases c with
    | watchdog given =>
      have hgiven : given =
          [.timeoutMs s.watchdog.timeoutMs, .resetCount s.watchdog.resetCount] := by
        simpa [changes] using hc
      rw [hgiven]
      exact Setting.givenBy_map (by simp only [List.map, WatchdogSettings.Change.name]; decide)
        fun _ _ => rfl
    | _ => rfl
  · rw [render_eq]
    exact Json.spacedText_of_valueText
      (Json.valueText_objectText (fun c _ => c.isPlain_name) fun c _ => c.valueText_text)

/-- An object that gives some settings, each once, in any order and among members that mean nothing,
    is read as the default settings with those replaced if these can be used; otherwise the fault is
    named.  Settings that can be used are read as they were written. -/
theorem loads :
    (∀ (given : List Change) (v : Json) (text : String), GivenBy given v →
      v.SpacedText text.toList →
        ((replaced given).validate = .ok () →
          loadFile (some text.toUTF8) = .ok (replaced given)) ∧
        ∀ cause, (replaced given).validate = .error cause →
          loadFile (some text.toUTF8) = .error (.invalid (.settings cause))) ∧
    ∀ s : Settings, s.validate = .ok () → loadFile (some s.render.toUTF8) = .ok s := by
  refine ⟨fun given v text hgiven htext => ⟨fun hvalid => ?_, fun cause hfault => ?_⟩,
    fun s hvalid => ?_⟩
  · rw [loadFile_toUTF8, load_eq_ok_iff]
    exact ⟨parse_bind_of_givenBy hgiven htext, validate_eq_ok_iff.1 hvalid⟩
  · rw [loadFile_toUTF8]
    simp only [load, parse_bind_of_givenBy hgiven htext, hfault]
  · obtain ⟨hgiven, htext⟩ := s.spacedText_render
    have hread := parse_bind_of_givenBy hgiven htext
    rw [replaced_changes] at hread
    rw [loadFile_toUTF8, load_eq_ok_iff]
    exact ⟨hread, validate_eq_ok_iff.1 hvalid⟩

/-- A document with members that mean nothing, the settings not in their usual order. -/
def sparseDocument : String :=
  Json.objectText [("note", "null"),
    ("watchdog", Json.objectText [("reset_count", toString 3), ("note", "null")]),
    ("frame_period_ms", toString 40)]

/-- The members of the document, with their values and their texts. -/
def sparseMembers : List (String × Json × String) := [
  ("note", .null, "null"),
  ("watchdog", .object [(some "reset_count".toList, .natural 3), (some "note".toList, .null)],
    Json.objectText [("reset_count", toString 3), ("note", "null")]),
  ("frame_period_ms", .natural 40, toString 40)]

/-- Only what it gives is replaced. -/
theorem loads_sparseDocument : loadFile (some sparseDocument.toUTF8) =
    .ok { framePeriodMs := 40, watchdog := { resetCount := 3 } } := by
  have hjoined : ∀ members : List (String × Json × String),
      (∀ m ∈ members, m.1.toList.all Json.isPlain = true ∧ Json.ValueText m.2.1 m.2.2.toList) →
      Json.ValueText (.object (members.map fun m => (some m.1.toList, m.2.1)))
        (Json.objectText (members.map fun m => (m.1, m.2.2))).toList := fun members h =>
    Json.valueText_objectText (fun m hm => (h m hm).1) fun m hm => (h m hm).2
  have hwatchdog := hjoined [("reset_count", .natural 3, toString 3), ("note", .null, "null")] (by
    simp only [List.forall_mem_cons]
    exact ⟨⟨by decide, Json.valueText_natural 3⟩, ⟨by decide, .null⟩, nofun⟩)
  have hdocument := hjoined sparseMembers (by
    simp only [sparseMembers, List.forall_mem_cons]
    exact ⟨⟨by decide, .null⟩, ⟨by decide, hwatchdog⟩, ⟨by decide, Json.valueText_natural 40⟩,
      nofun⟩)
  -- the two settings stand in the other order, with the note in front
  have hgiven : GivenBy [.framePeriodMs 40, .watchdog [.resetCount 3]]
      (.object (sparseMembers.map fun m => (some m.1.toList, m.2.1))) :=
    .intro (by decide) (.swap ..) (.unknown (by decide)
      (.given (.intro (by decide) (.refl _) (.given rfl (.unknown (by decide) .nil)))
        (.given rfl .nil)))
  exact (loads.1 _ _ _ hgiven (Json.spacedText_of_valueText hdocument)).1 rfl

end Settings

end MediaBridge
