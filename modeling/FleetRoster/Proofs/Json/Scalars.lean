/-
Scalars are read back as they were written: numbers, truth values and strings. A number is over only
where the text cannot go on with it, so each of these facts is about a text with something after it.
-/
import FleetRoster.Json.Codec
import Mathlib.Tactic

namespace FleetRoster.Json

/-! ## Texts of values -/

/-- The text does not go on with a number that stands before it. -/
def Ends (rest : List Char) : Prop :=
  ∀ c cs, rest = c :: cs → c.isDigit = false ∧ c ≠ '.' ∧ c ≠ 'e' ∧ c ≠ 'E'

/-- The text stands for the value: it begins as a value does, and the reader takes it, and no more of
what follows, for the value. -/
structure Spells {α : Type} (read : Reader α) (text : List Char) (value : α) : Prop where
  opens : ∃ c cs, text = c :: cs ∧ isBlank c = false ∧ c ≠ ']'
  read : ∀ rest, Ends rest → read (text ++ rest) = .ok (value, rest)

theorem ends_nil : Ends [] := by rintro c cs ⟨⟩

theorem ends_mark {c : Char} (h : c ∈ [',', ']', '}']) (cs : List Char) : Ends (c :: cs) := by
  rintro _ _ ⟨⟩
  simp only [List.mem_cons, List.not_mem_nil, or_false] at h
  rcases h with rfl | rfl | rfl <;> decide

theorem Ends.startsWithDigit {rest : List Char} (h : Ends rest) : startsWithDigit rest = false := by
  cases rest with
  | nil => rfl
  | cons c cs => exact (h c cs rfl).1

theorem dropBlanks_cons {c : Char} (h : isBlank c = false) (cs : List Char) : dropBlanks (c :: cs) = c :: cs := by
  simp [dropBlanks, h]

namespace Spells

variable {α : Type} {read : Reader α} {text : List Char} {value : α}

theorem ne_nil (h : Spells read text value) : text ≠ [] := by
  obtain ⟨c, cs, rfl, -⟩ := h.opens
  exact List.cons_ne_nil c cs

/-- The text of a value alone is parsed as the value. -/
theorem parse {codec : Codec α} (h : Spells codec.read text value) : codec.parse (String.ofList text) = .ok value := by
  have hread := h.read [] ends_nil
  rw [List.append_nil] at hread
  unfold Codec.parse
  rw [String.toList_ofList, hread]
  rfl

theorem map {β : Type} {codec : Codec α} (h : Spells codec.read text value) (into : α → β) (back : β → α) :
    Spells (codec.map into back).read text (into value) where
  opens := h.opens
  read rest hrest := by
    show (codec.read (text ++ rest)).map _ = _
    rw [h.read rest hrest]
    rfl

end Spells

/-- Every value is read back from what is written for it. -/
def Codec.Faithful {α : Type} (codec : Codec α) : Prop := ∀ value, Spells codec.read (codec.write value) value

/-! ## Strings -/

theorem hexValue?_digitChar : ∀ n < 16, hexValue? (Nat.digitChar n) = some n := by decide

/-- Controls are written as code units of two digits after two zeros. -/
theorem hexUnit?_control {n : Nat} (h : n < 32) (rest : List Char) :
    hexUnit? ('0' :: '0' :: Nat.digitChar (n / 16) :: Nat.digitChar (n % 16) :: rest) = some (n, rest) := by
  have hzero : hexValue? '0' = some 0 := hexValue?_digitChar 0 (by omega)
  unfold hexUnit?
  simp only [hzero, hexValue?_digitChar (n / 16) (by omega), hexValue?_digitChar (n % 16) (by omega),
    Option.bind_eq_bind, Option.bind_some, Option.some.injEq, Prod.mk.injEq, and_true]
  omega

theorem unicodeEscape_control {n : Nat} (h : n < 32) (rest : List Char) :
    unicodeEscape ('0' :: '0' :: Nat.digitChar (n / 16) :: Nat.digitChar (n % 16) :: rest) = .ok (Char.ofNat n, rest) := by
  have hlow : isLowSurrogate n = false := by simp [isLowSurrogate]; omega
  have hhigh : isHighSurrogate n = false := by simp [isHighSurrogate]; omega
  unfold unicodeEscape hexUnit
  rw [hexUnit?_control h]
  simp [bind, Except.bind, hlow, hhigh]

/-- What is written for a character is read as that character. -/
theorem unquoteWithin_escaped (fuel : Nat) (taken : List Char) (c : Char) (rest : List Char) :
    unquoteWithin (fuel + 1) taken (escaped c ++ rest) = unquoteWithin fuel (c :: taken) rest := by
  unfold escaped
  split_ifs with hquote hback hb hf hn hr ht hcontrol
  · subst hquote; rfl
  · subst hback; rfl
  · subst hb; rfl
  · subst hf; rfl
  · subst hn; rfl
  · subst hr; rfl
  · subst ht; rfl
  · have hlt : c.toNat < 32 := hcontrol
    have hescape : escape ('u' :: '0' :: '0' :: Nat.digitChar (c.toNat / 16) :: Nat.digitChar (c.toNat % 16) :: rest) =
        .ok (c, rest) := by
      show unicodeEscape _ = _
      rw [unicodeEscape_control hlt, Char.ofNat_toNat]
    show unquoteWithin (fuel + 1) taken ('\\' :: 'u' :: '0' :: '0' :: _ :: _ :: rest) = _
    rw [unquoteWithin, if_neg (by decide), if_pos rfl, hescape]
  · show unquoteWithin (fuel + 1) taken (c :: rest) = _
    rw [unquoteWithin, if_neg hquote, if_neg hback, if_neg hcontrol]

theorem unquoteWithin_flatMap_escaped (s : List Char) {fuel : Nat} (h : s.length < fuel) (taken rest : List Char) :
    unquoteWithin fuel taken (s.flatMap escaped ++ '"' :: rest) = .ok (taken.reverse ++ s, rest) := by
  induction s generalizing fuel taken with
  | nil =>
    obtain ⟨fuel, rfl⟩ := Nat.exists_eq_succ_of_ne_zero (Nat.ne_of_gt h)
    simp [unquoteWithin]
  | cons c s ih =>
    obtain ⟨fuel, rfl⟩ := Nat.exists_eq_succ_of_ne_zero (Nat.ne_of_gt (Nat.zero_lt_of_lt h))
    rw [List.flatMap_cons, List.append_assoc, unquoteWithin_escaped, ih (Nat.lt_of_succ_lt_succ h)]
    simp

theorem length_le_flatMap_escaped (s : List Char) : s.length ≤ (s.flatMap escaped).length := by
  induction s with
  | nil => exact Nat.le_refl 0
  | cons c s ih =>
    have hone : 1 ≤ (escaped c).length := by
      unfold escaped
      split_ifs <;> simp
    rw [List.flatMap_cons, List.length_append, List.length_cons]
    omega

/-- The inside of a written string is read through its closing quote. -/
theorem unquote_flatMap_escaped (s rest : List Char) :
    unquote (s.flatMap escaped ++ '"' :: rest) = .ok (s, rest) := by
  have hlen := length_le_flatMap_escaped s
  refine unquoteWithin_flatMap_escaped s ?_ [] rest
  rw [List.length_append, List.length_cons]
  omega

@[simp]
theorem faithful_text : text.Faithful := by
  intro s
  refine ⟨⟨'"', _, rfl, by decide, by decide⟩, fun rest _ => ?_⟩
  have htext : quote s.toList ++ rest = '"' :: (s.toList.flatMap escaped ++ '"' :: rest) := by simp [quote]
  show readText (quote s.toList ++ rest) = _
  unfold readText
  rw [htext, dropBlanks_cons (by decide)]
  show (unquote (s.toList.flatMap escaped ++ '"' :: rest)).map _ = _
  rw [unquote_flatMap_escaped]
  simp [Except.map]

/-! ## Truth values -/

@[simp]
theorem faithful_boolean : boolean.Faithful := by
  rintro (_ | _)
  · exact ⟨⟨'f', _, rfl, by decide, by decide⟩, fun _ _ => rfl⟩
  · exact ⟨⟨'t', _, rfl, by decide, by decide⟩, fun _ _ => rfl⟩

/-! ## Numbers -/

theorem le_ofDigitChars (cs : List Char) (value : Nat) : value ≤ Nat.ofDigitChars 10 cs value := by
  rw [Nat.ofDigitChars_eq_ofDigitChars_zero]
  have : 1 * value ≤ 10 ^ cs.length * value := Nat.mul_le_mul_right value (Nat.one_le_pow _ _ (by omega))
  omega

/-- Digits are read to the last while their value stays within the limit. -/
theorem digitsWithin_append {limit value : Nat} {ds rest : List Char} (hds : ∀ c ∈ ds, c.isDigit = true)
    (hlimit : Nat.ofDigitChars 10 ds value ≤ limit) (hrest : startsWithDigit rest = false) (count : Nat) :
    digitsWithin limit value count (ds ++ rest) = (Nat.ofDigitChars 10 ds value, count + ds.length, rest) := by
  induction ds generalizing value count with
  | nil =>
    cases rest with
    | nil => rfl
    | cons c cs =>
      have hc : c.isDigit = false := hrest
      simp [digitsWithin, hc]
  | cons d ds ih =>
    rw [Nat.ofDigitChars_cons, Nat.mul_comm 10 value, show d.toNat - '0'.toNat = digitValue d from rfl] at hlimit ⊢
    have hd : d.isDigit = true := hds d (List.mem_cons_self ..)
    have hle : value * 10 + digitValue d ≤ limit := le_trans (le_ofDigitChars ds _) hlimit
    rw [List.cons_append, digitsWithin, hd, Bool.true_and, if_pos (decide_eq_true hle),
      ih (fun c hc => hds c (List.mem_cons_of_mem d hc)) hlimit, List.length_cons]
    simp only [Prod.mk.injEq, and_true, true_and]
    omega

theorem isDigit_of_mem_digits {n : Nat} {c : Char} (h : c ∈ digits n) : c.isDigit = true :=
  Nat.isDigit_of_mem_toDigits (by omega) (by omega) h

/-- Only zero is written with a zero first. -/
theorem digits_eq_cons (n : Nat) :
    ∃ d ds, digits n = d :: ds ∧ d.isDigit = true ∧ (d = '0' → ds = []) := by
  obtain ⟨d, ds, h⟩ := List.exists_cons_of_ne_nil (Nat.toDigits_ne_nil (n := n) (b := 10))
  refine ⟨d, ds, h, isDigit_of_mem_digits (n := n) (by rw [digits, h]; simp), ?_⟩
  induction n using Nat.strongRecOn generalizing ds with
  | ind n ih =>
    by_cases hn : n < 10
    · rw [Nat.toDigits_of_lt_base hn] at h
      cases h
      exact fun _ => rfl
    · -- the first digit is that of the number without its last digit, which is not zero
      intro hzero
      rw [Nat.toDigits_of_base_le (by omega) (by omega)] at h
      obtain ⟨e, es, hes⟩ := List.exists_cons_of_ne_nil (Nat.toDigits_ne_nil (n := n / 10) (b := 10))
      rw [hes] at h
      cases h
      have hnil := ih (n / 10) (by omega) es hes hzero
      have hvalue := Nat.ofDigitChars_ten_toDigits (n := n / 10)
      rw [hes, hnil, hzero, Nat.ofDigitChars_cons, Nat.ofDigitChars_nil] at hvalue
      have : n / 10 = 0 := hvalue.symm
      omega

/-- Digits that fit 64 bits are read as the number they were written for. -/
theorem number_digits (positive : Bool) {n : Nat} (h : n < 2 ^ 64) {rest : List Char} (hrest : Ends rest) :
    number positive (digits n ++ rest) = .ok (whole positive n, rest) := by
  have hdigit := hrest.startsWithDigit
  have hread : digitsWithin (Nat.pow 2 64 - 1) 0 0 (digits n ++ rest) = (n, 0 + (digits n).length, rest) := by
    have hvalue : Nat.ofDigitChars 10 (digits n) 0 = n := Nat.ofDigitChars_ten_toDigits
    rw [digitsWithin_append (fun c hc => isDigit_of_mem_digits hc) ?_ hdigit, hvalue]
    rw [hvalue]
    exact Nat.le_sub_one_of_lt h
  obtain ⟨d, ds, hds, hd, hzero⟩ := digits_eq_cons n
  rw [hds] at hread ⊢
  have hlead : ¬ (d = '0' ∧ startsWithDigit (ds ++ rest) = true) := by
    rintro ⟨rfl, hstarts⟩
    rw [hzero rfl, List.nil_append, hdigit] at hstarts
    cases hstarts
  rw [List.cons_append] at hread ⊢
  unfold number
  simp only [hd, not_true_eq_false, if_false, if_neg hlead, hread]
  cases rest with
  | nil => simp [dropDigits]
  | cons c cs =>
    obtain ⟨hc, hpoint, he, hE⟩ := hrest c cs rfl
    have hdrop : dropDigits (c :: cs) = c :: cs := by simp [dropDigits, hc]
    have htake : ((c :: cs).takeWhile Char.isDigit).length = 0 := by simp [hc]
    rw [hdrop, htake]
    split
    · rename_i heq; cases heq; exact absurd rfl hpoint
    · rename_i heq; cases heq; exact absurd rfl he
    · rename_i heq; cases heq; exact absurd rfl hE
    · rfl

theorem not_blank_of_isDigit {c : Char} (h : c.isDigit = true) : isBlank c = false ∧ c ≠ ']' ∧ c ≠ '-' := by
  refine ⟨?_, ?_, ?_⟩
  · by_contra hb
    simp only [isBlank, Bool.not_eq_false, Bool.or_eq_true, decide_eq_true_eq] at hb
    rcases hb with ((rfl | rfl) | rfl) | rfl <;> exact absurd h (by decide)
  · rintro rfl; exact absurd h (by decide)
  · rintro rfl; exact absurd h (by decide)

/-- A number without a sign is read by what accepts it. -/
theorem spells_digits {α : Type} {wanted : Wanted} {accept : Number → Except Fault α} {n : Nat} {value : α}
    (h : n < 2 ^ 64) (haccept : accept (.natural n) = .ok value) :
    Spells (readNumber wanted accept) (digits n) value := by
  obtain ⟨d, ds, hds, hd, -⟩ := digits_eq_cons n
  obtain ⟨hblank, hbracket, hminus⟩ := not_blank_of_isDigit hd
  refine ⟨⟨d, ds, hds, hblank, hbracket⟩, fun rest hrest => ?_⟩
  have hnumber := number_digits true h hrest
  rw [hds, List.cons_append] at hnumber ⊢
  unfold readNumber
  rw [dropBlanks_cons hblank]
  simp only [hminus, hd, or_true, if_true, if_false, hnumber]
  simp [bind, Except.bind, whole, haccept]

/-- A number with a minus sign is read by what accepts it, if it is neither zero nor below `-2^63`. -/
theorem spells_minus_digits {α : Type} {wanted : Wanted} {accept : Number → Except Fault α} {n : Nat} {value : α}
    (hpos : n ≠ 0) (h : n ≤ 2 ^ 63) (haccept : accept (.negative n) = .ok value) :
    Spells (readNumber wanted accept) ('-' :: digits n) value := by
  refine ⟨⟨'-', _, rfl, by decide, by decide⟩, fun rest hrest => ?_⟩
  have hnumber := number_digits false (n := n) (by omega) hrest
  have hwhole : whole false n = .negative n := by
    unfold whole
    rw [if_neg (by decide), if_neg]
    rintro (hzero | hlarge)
    · exact hpos hzero
    · exact absurd h (Nat.not_le.2 hlarge)
  unfold readNumber
  rw [List.cons_append, dropBlanks_cons (by decide)]
  simp only [true_or, if_true, hnumber, hwhole]
  simp [bind, Except.bind, haccept]

@[simp]
theorem faithful_unsigned64 : unsigned64.Faithful :=
  fun n => spells_digits n.toNat_lt (by simp [acceptUnsigned64])

@[simp]
theorem faithful_signed32 : signed32.Faithful := by
  intro n
  have hlow := n.le_toInt
  have hhigh := n.toInt_lt
  show Spells (readNumber .signed32 acceptSigned32)
    (if n.toInt < 0 then '-' :: digits n.toInt.natAbs else digits n.toInt.natAbs) n
  split
  · refine spells_minus_digits (by omega) (by omega) ?_
    have hn : (-(n.toInt.natAbs : Int)) = n.toInt := by omega
    have hle : n.toInt.natAbs ≤ Nat.pow 2 31 := by
      show n.toInt.natAbs ≤ 2 ^ 31
      omega
    rw [acceptSigned32, if_pos hle, hn, Int32.ofInt_toInt]
  · refine spells_digits (by omega) ?_
    have hn : ((n.toInt.natAbs : Nat) : Int) = n.toInt := by omega
    have hlt : n.toInt.natAbs < Nat.pow 2 31 := by
      show n.toInt.natAbs < 2 ^ 31
      omega
    rw [acceptSigned32, if_pos hlt, ← Int32.ofInt_eq_ofNat, hn, Int32.ofInt_toInt]

end FleetRoster.Json
