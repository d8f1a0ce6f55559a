/-
The spellings of severities. A text spells a severity by its name, in letters of either case, or by its
number, perhaps with a plus sign and zeros before it, and in no other way.
-/
import FleetRoster.Severity
import Mathlib.Tactic

namespace FleetRoster.Severity

/-! ## Names and numbers -/

/-- The name of a severity in small letters. -/
def name : Severity → String
  | .error => "error"
  | .warn => "warn"
  | .info => "info"
  | .debug => "debug"
  | .trace => "trace"

/-- The digit that a severity is numbered by. -/
def digit : Severity → Char
  | .error => '1'
  | .warn => '2'
  | .info => '3'
  | .debug => '4'
  | .trace => '5'

/-- The texts that spell a severity. -/
inductive SpelledBy (severity : Severity) : List Char → Prop
  | named {cs : List Char} (h : cs.map Char.toLower = severity.name.toList) : SpelledBy severity cs
  | numbered {plus : List Char} (h : plus = [] ∨ plus = ['+']) (zeros : Nat) :
    SpelledBy severity (plus ++ (List.replicate zeros '0' ++ [severity.digit]))

theorem isDigit_digit (severity : Severity) : severity.digit.isDigit = true := by
  cases severity <;> rfl

theorem ofNumber?_eq_some_iff {n : Nat} {severity : Severity} :
    ofNumber? n = some severity ↔ n = severity.digit.toNat - '0'.toNat := by
  constructor
  · intro h
    unfold ofNumber? at h
    split at h <;> cases h <;> rfl
  · rintro rfl
    cases severity <;> rfl

theorem ofName?_eq_some_iff {cs : List Char} {severity : Severity} :
    ofName? cs = some severity ↔ cs.map Char.toLower = severity.name.toList := by
  constructor
  · intro h
    have hname : String.ofList (cs.map Char.toLower) = severity.name := by
      simp only [ofName?] at h
      split_ifs at h with herror hwarn hinfo hdebug htrace <;> cases h <;> assumption
    rw [← hname, String.toList_ofList]
  · intro h
    unfold ofName?
    rw [h, String.ofList_toList]
    cases severity <;> rfl

/-! ## Numbers in digits -/

/-- The number that digits stand for. -/
def decimal (digits : List Char) : Nat := digits.foldl (fun n c => n * 10 + (c.toNat - '0'.toNat)) 0

/-- A number of one digit has nothing but zeros before it. -/
theorem decimal_concat_eq_iff {digits : List Char} {last d : Char} (hlast : last.isDigit = true) (hd : d.isDigit = true) :
    decimal (digits ++ [last]) = d.toNat - '0'.toNat ↔ decimal digits = 0 ∧ last = d := by
  have hconcat : decimal (digits ++ [last]) = decimal digits * 10 + (last.toNat - '0'.toNat) := by
    unfold decimal
    rw [List.foldl_append]
    rfl
  have hzero : '0'.toNat = 48 := rfl
  have hnine : '9'.toNat = 57 := rfl
  rw [Char.isDigit_iff_toNat] at hlast hd
  rw [hconcat, ← Char.toNat_inj]
  omega

theorem decimal_eq_zero_iff {digits : List Char} (h : ∀ c ∈ digits, c.isDigit = true) :
    decimal digits = 0 ↔ digits = List.replicate digits.length '0' := by
  induction digits using List.reverseRecOn with
  | nil => simp [decimal]
  | append_singleton digits last ih =>
    obtain ⟨hdigits, hlast⟩ := List.forall_mem_append.1 h
    rw [show (0 : Nat) = '0'.toNat - '0'.toNat from rfl,
      decimal_concat_eq_iff (hlast last (List.mem_singleton_self last)) rfl, ih hdigits, List.length_append,
      List.replicate_add]
    constructor
    · rintro ⟨hzeros, rfl⟩
      rw [← hzeros]
      rfl
    · intro hzeros
      obtain ⟨hinit, hzero⟩ := List.append_inj' hzeros rfl
      exact ⟨hinit, by simpa using hzero⟩

theorem decimal_eq_digit_iff {digits : List Char} {d : Char} (hne : digits ≠ [])
    (hdigits : ∀ c ∈ digits, c.isDigit = true) (hd : d.isDigit = true) :
    decimal digits = d.toNat - '0'.toNat ↔ ∃ zeros, digits = List.replicate zeros '0' ++ [d] := by
  obtain ⟨init, last, rfl⟩ := (List.eq_nil_or_concat' digits).resolve_left hne
  obtain ⟨hinit, hlast⟩ := List.forall_mem_append.1 hdigits
  rw [decimal_concat_eq_iff (hlast last (List.mem_singleton_self last)) hd, decimal_eq_zero_iff hinit]
  constructor
  · rintro ⟨hzeros, rfl⟩
    exact ⟨init.length, by rw [← hzeros]⟩
  · rintro ⟨zeros, heq⟩
    obtain ⟨rfl, hlast⟩ := List.append_inj' heq rfl
    exact ⟨by rw [List.length_replicate], List.singleton_inj.1 hlast⟩

/-- After a plus sign a number is written in digits alone, and in one at least. -/
theorem number?_plus_eq_some_iff {digits : List Char} {n : Nat} :
    number? ('+' :: digits) = some n ↔
      digits ≠ [] ∧ (∀ c ∈ digits, c.isDigit = true) ∧ decimal digits = n := by
  show (if digits.isEmpty ∨ ¬digits.all Char.isDigit then none else some (decimal digits)) = some n ↔ _
  simp [List.isEmpty_iff, and_assoc]

/-- The plus sign may be left out. -/
theorem number?_of_not_plus {cs : List Char} (h : ∀ rest, cs ≠ '+' :: rest) : number? cs = number? ('+' :: cs) := by
  -- the hypothesis decides which case of the match this is
  simp only [number?]

theorem number?_eq_some_iff {cs : List Char} {n : Nat} :
    number? cs = some n ↔ ∃ plus digits, cs = plus ++ digits ∧ (plus = [] ∨ plus = ['+']) ∧
      digits ≠ [] ∧ (∀ c ∈ digits, c.isDigit = true) ∧ decimal digits = n := by
  constructor
  · intro h
    by_cases hplus : ∃ rest, cs = '+' :: rest
    · obtain ⟨rest, rfl⟩ := hplus
      exact ⟨['+'], rest, rfl, .inr rfl, number?_plus_eq_some_iff.1 h⟩
    · rw [number?_of_not_plus (not_exists.1 hplus)] at h
      exact ⟨[], cs, rfl, .inl rfl, number?_plus_eq_some_iff.1 h⟩
  · rintro ⟨plus, digits, rfl, rfl | rfl, h⟩
    · rw [List.nil_append, number?_of_not_plus, number?_plus_eq_some_iff]
      · exact h
      · -- a plus sign is no digit
        rintro rest rfl
        exact absurd (h.2.1 '+' (List.mem_cons_self ..)) (by decide)
    · exact number?_plus_eq_some_iff.2 h

/-- The number of a severity may have a plus sign and zeros before it. -/
theorem number?_eq_digit_iff {cs : List Char} {severity : Severity} :
    number? cs = some (severity.digit.toNat - '0'.toNat) ↔ ∃ plus zeros, (plus = [] ∨ plus = ['+']) ∧
      cs = plus ++ (List.replicate zeros '0' ++ [severity.digit]) := by
  rw [number?_eq_some_iff]
  constructor
  · rintro ⟨plus, digits, rfl, hplus, hne, hdigits, hnumber⟩
    obtain ⟨zeros, rfl⟩ := (decimal_eq_digit_iff hne hdigits severity.isDigit_digit).1 hnumber
    exact ⟨plus, zeros, hplus, rfl⟩
  · rintro ⟨plus, zeros, hplus, rfl⟩
    have hdigits : ∀ c ∈ List.replicate zeros '0' ++ [severity.digit], c.isDigit = true := by
      refine List.forall_mem_append.2 ⟨fun c hc => ?_, List.forall_mem_singleton.2 severity.isDigit_digit⟩
      rw [List.eq_of_mem_replicate hc]
      rfl
    have hne : List.replicate zeros '0' ++ [severity.digit] ≠ [] := by simp
    exact ⟨plus, _, rfl, hplus, hne, hdigits,
      (decimal_eq_digit_iff hne hdigits severity.isDigit_digit).2 ⟨zeros, rfl⟩⟩

/-! ## Spellings -/

theorem toLower_of_isDigit {c : Char} (h : c.isDigit = true) : c.toLower = c := by
  have hbelow : ¬ (c.val ≥ 'A'.val ∧ c.val ≤ 'Z'.val) := by
    rintro ⟨hge, -⟩
    have hle : c.val ≤ '9'.val := (of_decide_eq_true (Bool.and_eq_true_iff.1 h).2)
    exact absurd (UInt32.le_trans hge hle) (by decide)
  exact dif_neg hbelow

/-- A text that is a number is no name, as its characters are the same in either case. -/
theorem number?_of_named {cs : List Char} {severity : Severity} (h : cs.map Char.toLower = severity.name.toList) :
    number? cs = none := by
  by_contra hsome
  obtain ⟨n, hn⟩ := Option.ne_none_iff_exists'.1 hsome
  obtain ⟨plus, digits, rfl, hplus, -, hdigits, -⟩ := number?_eq_some_iff.1 hn
  have hsame : (plus ++ digits).map Char.toLower = plus ++ digits := by
    refine (List.map_congr_left fun c hc => ?_).trans (List.map_id _)
    rcases List.mem_append.1 hc with hc | hc
    · rcases hplus with rfl | rfl
      · cases hc
      · rw [List.mem_singleton.1 hc]
        rfl
    · exact toLower_of_isDigit (hdigits c hc)
  rw [hsame] at h
  rw [h] at hsome
  exact hsome (by cases severity <;> decide)

/-- A text is read as a severity exactly if it spells it. -/
theorem ofString?_eq_some_iff {s : String} {severity : Severity} :
    ofString? s = some severity ↔ severity.SpelledBy s.toList := by
  unfold ofString?
  generalize s.toList = cs
  constructor
  · intro h
    split at h
    · rename_i n hn
      rw [ofNumber?_eq_some_iff.1 h] at hn
      obtain ⟨plus, zeros, hplus, rfl⟩ := number?_eq_digit_iff.1 hn
      exact .numbered hplus zeros
    · exact .named (ofName?_eq_some_iff.1 h)
  · intro h
    cases h with
    | named h =>
      rw [number?_of_named h]
      exact ofName?_eq_some_iff.2 h
    | @numbered plus hplus zeros =>
      rw [number?_eq_digit_iff.2 ⟨plus, zeros, hplus, rfl⟩]
      exact ofNumber?_eq_some_iff.2 rfl

theorem ofString?_eq_none_iff {s : String} :
    ofString? s = none ↔ ¬ ∃ severity : Severity, severity.SpelledBy s.toList := by
  simp only [Option.eq_none_iff_forall_ne_some, ne_eq, ofString?_eq_some_iff, not_exists]

end FleetRoster.Severity
