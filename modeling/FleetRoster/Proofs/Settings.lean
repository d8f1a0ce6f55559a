/-
Settings are accepted exactly if they can be put to use. Whatever text they are read from, what decides is
the settings that it stands for; accepted settings are accepted again from the text that is written for
them, and metering goes by their own interval, never by the one that stands in for zero.
-/
import FleetRoster.Proofs.Meter.Waiting
import FleetRoster.Proofs.Record.RoundTrip
import FleetRoster.Proofs.Severity

namespace FleetRoster.Settings

/-- The log level spells a severity. -/
def Leveled (s : Settings) : Prop := ∃ severity : Severity, severity.SpelledBy s.logLevel.toList

/-- Settings that can be put to use: there is time between two passes, and it is known what to log. -/
structure Usable (s : Settings) : Prop where
  interval : 0 < s.interval
  leveled : s.Leveled

/-! ## Validation -/

theorem validate_of_zero {s : Settings} (h : s.interval = 0) : s.validate = .error (.settings .zeroInterval) :=
  if_pos h

theorem validate_of_not_leveled {s : Settings} (hinterval : 0 < s.interval) (h : ¬ s.Leveled) :
    s.validate = .error (.settings (.unknownLevel s.logLevel)) := by
  have hnone : Severity.ofString? s.logLevel = none := Severity.ofString?_eq_none_iff.2 h
  unfold validate
  rw [if_neg (UInt64.pos_iff_ne_zero.1 hinterval), hnone]
  rfl

theorem validate_of_usable {s : Settings} (h : s.Usable) : s.validate = .ok () := by
  obtain ⟨severity, hspelled⟩ := h.leveled
  have hsome : Severity.ofString? s.logLevel = some severity := Severity.ofString?_eq_some_iff.2 hspelled
  unfold validate
  rw [if_neg (UInt64.pos_iff_ne_zero.1 h.interval), hsome]
  rfl

theorem usable_of_validate {s : Settings} (h : s.validate = .ok ()) : s.Usable := by
  by_cases hinterval : s.interval = 0
  · rw [validate_of_zero hinterval] at h; cases h
  · have hpos : 0 < s.interval := UInt64.pos_iff_ne_zero.2 hinterval
    by_cases hleveled : s.Leveled
    · exact ⟨hpos, hleveled⟩
    · rw [validate_of_not_leveled hpos hleveled] at h; cases h

/-! ## Reading -/

/-- A text is malformed, or what it stands for is validated. -/
theorem ofJson_cases (text : String) :
    (∃ fault, codec.parse text = .error fault ∧ ofJson text = .error (.settings (.malformed fault))) ∨
    ∃ s, codec.parse text = .ok s ∧ ofJson text = s.validate.map fun _ => s := by
  unfold ofJson
  cases codec.parse text with
  | error fault => exact .inl ⟨fault, rfl, rfl⟩
  | ok s =>
    refine .inr ⟨s, rfl, ?_⟩
    show (s.validate >>= fun _ => Except.ok s) = _
    cases s.validate <;> rfl

theorem ofJson_of_parse {text : String} {s : Settings} (h : codec.parse text = .ok s) :
    ofJson text = s.validate.map fun _ => s := by
  rcases ofJson_cases text with ⟨fault, hparse, -⟩ | ⟨other, hparse, hread⟩
  · rw [h] at hparse; cases hparse
  · rw [h] at hparse; cases hparse
    exact hread

theorem ofJson_eq_ok_iff {text : String} {s : Settings} :
    ofJson text = .ok s ↔ codec.parse text = .ok s ∧ s.Usable := by
  constructor
  · intro h
    rcases ofJson_cases text with ⟨fault, -, hread⟩ | ⟨other, hparse, hread⟩
    · rw [h] at hread; cases hread
    · rw [h] at hread
      cases hvalid : other.validate with
      | error fault => rw [hvalid] at hread; cases hread
      | ok _ =>
        rw [hvalid] at hread
        cases hread
        exact ⟨hparse, usable_of_validate hvalid⟩
  · rintro ⟨hparse, husable⟩
    rw [ofJson_of_parse hparse, validate_of_usable husable]
    rfl

theorem parse_render (s : Settings) : codec.parse (codec.render s) = .ok s :=
  (readBack_record "Config" ofRow (fun _ => rfl) sound_fields s).1

/-- Settings with a positive interval and a log level that spells a severity are accepted from the compact
text that is written for them. Others are refused, for their interval if it is zero, whatever the log level,
and else for the log level. Any text that stands for settings is accepted, or refused, as this one is. And
whatever text settings are accepted from, they can be put to use and are accepted again from what is then
written for them; and metering with them keeps to their own interval, to the end. -/
theorem accepted_exactly :
    (∀ s : Settings,
      (s.Usable → ofJson (codec.render s) = .ok s) ∧
      (s.interval = 0 → ofJson (codec.render s) = .error (.settings .zeroInterval)) ∧
      (0 < s.interval → ¬ s.Leveled →
        ofJson (codec.render s) = .error (.settings (.unknownLevel s.logLevel)))) ∧
    (∀ (text : String) (s : Settings), codec.parse text = .ok s → ofJson text = ofJson (codec.render s)) ∧
    ∀ (text : String) (s : Settings), ofJson text = .ok s →
      s.Usable ∧ ofJson (codec.render s) = .ok s ∧ s.period = s.interval.toNat ∧
      ∀ (servers : ServerRoster) (clock : Nat → UInt64) (events : List Event),
        ((Schedule.start s servers clock).run clock events).period = s.interval.toNat := by
  refine ⟨fun s => ⟨fun h => ?_, fun h => ?_, fun hinterval h => ?_⟩, fun text s h => ?_, fun text s h => ?_⟩
  · exact ofJson_eq_ok_iff.2 ⟨s.parse_render, h⟩
  · rw [ofJson_of_parse s.parse_render, validate_of_zero h]
    rfl
  · rw [ofJson_of_parse s.parse_render, validate_of_not_leveled hinterval h]
    rfl
  · rw [ofJson_of_parse h, ofJson_of_parse s.parse_render]
  · obtain ⟨-, husable⟩ := ofJson_eq_ok_iff.1 h
    have hperiod : s.period = s.interval.toNat := if_neg (UInt64.pos_iff_ne_zero.1 husable.interval)
    refine ⟨husable, ofJson_eq_ok_iff.2 ⟨s.parse_render, husable⟩, hperiod, ?_⟩
    intro servers clock events
    rw [Schedule.period_run]
    exact hperiod

/-- A level spelled by its number, in a text that has it escaped, another member before it and no interval;
and settings with neither an interval nor a level. -/
theorem accepted_exactly_of_numbered_level :
    let numbered : Settings := { logLevel := "+03" }
    let idle : Settings := { interval := 0, logLevel := "loud" }
    ofJson "\x7b\"x\":[null],\"log_level\":\"+\\u00303\"\x7d" = .ok numbered ∧
    ofJson (codec.render numbered) = .ok numbered ∧ numbered.period = 3600 ∧
    ofJson "[0,true,\"loud\"]" = ofJson (codec.render idle) ∧
    ofJson (codec.render idle) = .error (.settings .zeroInterval) ∧
    ofJson (codec.render { idle with interval := 5 }) = .error (.settings (.unknownLevel "loud")) := by
  intro numbered idle
  have hread : ofJson "\x7b\"x\":[null],\"log_level\":\"+\\u00303\"\x7d" = .ok numbered := by rfl
  have hparse : codec.parse "[0,true,\"loud\"]" = .ok idle := by rfl
  have husable : numbered.Usable := ⟨by decide, .info, Severity.ofString?_eq_some_iff.1 (by decide +kernel)⟩
  have hloud : ¬ Leveled { idle with interval := 5 } := Severity.ofString?_eq_none_iff.1 (by decide +kernel)
  obtain ⟨hwritten, hsame, haccepted⟩ := accepted_exactly
  obtain ⟨-, -, hperiod, -⟩ := haccepted _ numbered hread
  obtain ⟨-, hzero, -⟩ := hwritten idle
  obtain ⟨-, -, hunknown⟩ := hwritten { idle with interval := 5 }
  exact ⟨hread, (hwritten numbered).1 husable, hperiod, hsame _ idle hparse, hzero rfl, hunknown (by decide) hloud⟩

end FleetRoster.Settings
