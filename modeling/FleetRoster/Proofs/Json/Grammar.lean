/-
The grammar of JSON text, said of whole texts and without any reader, and its first reader: a value that is
passed over may be any text of the grammar, however deep its containers nest. The reader keeps the open
containers in a list and never looks below the innermost, so passing over a text is the same whatever is
open around it.
-/
import FleetRoster.Proofs.Json.Scalars

namespace FleetRoster.Json

/-! ## The grammar -/

def AllBlank (cs : List Char) : Prop := ∀ c ∈ cs, isBlank c = true

instance (cs : List Char) : Decidable (AllBlank cs) := List.decidableBAll _ cs

/-- Characters that stand for themselves in a string. -/
def IsPlain (c : Char) : Prop := ¬ c < ' ' ∧ c ≠ '"' ∧ c ≠ '\\'

/-- The inside of a string. Any code unit may be escaped, surrogates without a partner too. -/
inductive IsQuoted : List Char → Prop
  | nil : IsQuoted []
  | plain {c : Char} {cs : List Char} (hc : IsPlain c) (hcs : IsQuoted cs) : IsQuoted (c :: cs)
  | letter {c : Char} {cs : List Char} (hc : (letterEscape? c).isSome) (hcs : IsQuoted cs) :
      IsQuoted ('\\' :: c :: cs)
  | unit {a b c d : Char} {cs : List Char} (h : ∀ digit ∈ [a, b, c, d], (hexValue? digit).isSome)
      (hcs : IsQuoted cs) : IsQuoted ('\\' :: 'u' :: a :: b :: c :: d :: cs)

/-- At least one digit. -/
def IsDigits (cs : List Char) : Prop := cs ≠ [] ∧ ∀ c ∈ cs, c.isDigit = true

instance (cs : List Char) : Decidable (IsDigits cs) := @instDecidableAnd _ _ _ (List.decidableBAll _ cs)

/-- The whole part of a number starts with a zero only if that is all of it. -/
def IsWhole (cs : List Char) : Prop := IsDigits cs ∧ ∀ ds, cs = '0' :: ds → ds = []

def IsFraction (cs : List Char) : Prop := cs = [] ∨ ∃ ds, IsDigits ds ∧ cs = '.' :: ds

def IsExponent (cs : List Char) : Prop :=
  cs = [] ∨ ∃ e ∈ ['e', 'E'], ∃ sign ∈ [[], ['+'], ['-']], ∃ ds, IsDigits ds ∧ cs = e :: (sign ++ ds)

inductive IsNumber : List Char → Prop
  | mk {sign whole fraction exponent : List Char} (hsign : sign ∈ [[], ['-']]) (hwhole : IsWhole whole)
      (hfraction : IsFraction fraction) (hexponent : IsExponent exponent) :
      IsNumber (sign ++ (whole ++ (fraction ++ exponent)))

theorem IsWhole.isNumber {whole : List Char} (h : IsWhole whole) : IsNumber whole := by
  have hnumber := IsNumber.mk (List.mem_cons_self ..) h (.inl rfl) (.inl rfl)
  rwa [List.append_nil, List.append_nil] at hnumber

/-- The character that begins a container. -/
def Bracket.opener : Bracket → Char
  | .list => '['
  | .object => '{'

/-- What stands before a value in a container: nothing in a list, a name and a colon in an object. -/
inductive IsLabel : Bracket → List Char → Prop
  | list : IsLabel .list []
  | object {before inside after : List Char} (hbefore : AllBlank before) (hinside : IsQuoted inside)
      (hafter : AllBlank after) : IsLabel .object (before ++ '"' :: (inside ++ '"' :: (after ++ [':'])))

/-- The parts of a JSON text that are made of others: a value, and what stands in a container that is not empty. -/
inductive Part where
  | value
  | items (container : Bracket)

inductive IsJson : Part → List Char → Prop
  | word {text : List Char} (h : text ∈ [['n', 'u', 'l', 'l'], ['t', 'r', 'u', 'e'], ['f', 'a', 'l', 's', 'e']]) :
      IsJson .value text
  | number {text : List Char} (h : IsNumber text) : IsJson .value text
  | string {inside : List Char} (h : IsQuoted inside) : IsJson .value ('"' :: (inside ++ ['"']))
  | empty (container : Bracket) {blanks : List Char} (h : AllBlank blanks) :
      IsJson .value (container.opener :: (blanks ++ [container.closer]))
  | container {container : Bracket} {items : List Char} (h : IsJson (.items container) items) :
      IsJson .value (container.opener :: (items ++ [container.closer]))
  | last {container : Bracket} {label before value after : List Char} (hlabel : IsLabel container label)
      (hbefore : AllBlank before) (hvalue : IsJson .value value) (hafter : AllBlank after) :
      IsJson (.items container) (label ++ (before ++ (value ++ after)))
  | next {container : Bracket} {label before value after items : List Char} (hlabel : IsLabel container label)
      (hbefore : AllBlank before) (hvalue : IsJson .value value) (hafter : AllBlank after)
      (hitems : IsJson (.items container) items) :
      IsJson (.items container) (label ++ (before ++ (value ++ (after ++ ',' :: items))))

/-! ## Blanks -/

theorem allBlank_nil : AllBlank [] := List.forall_mem_nil _

theorem dropBlanks_append {blanks : List Char} (h : AllBlank blanks) (cs : List Char) :
    dropBlanks (blanks ++ cs) = dropBlanks cs :=
  List.dropWhile_append_of_pos h

theorem dropBlanks_append_cons {blanks : List Char} (h : AllBlank blanks) {c : Char} (hc : isBlank c = false)
    (cs : List Char) : dropBlanks (blanks ++ c :: cs) = c :: cs := by
  rw [dropBlanks_append h, dropBlanks_cons hc]

theorem ends_append {blanks rest : List Char} (h : AllBlank blanks) (hrest : Ends rest) : Ends (blanks ++ rest) := by
  cases blanks with
  | nil => exact hrest
  | cons blank blanks =>
    rintro _ _ ⟨⟩
    have hblank := h blank (List.mem_cons_self ..)
    simp only [isBlank, Bool.or_eq_true, decide_eq_true_eq] at hblank
    rcases hblank with ((rfl | rfl) | rfl) | rfl <;> decide

/-! ## Strings -/

theorem hexUnit_of_digits {a b c d : Char} {n : Nat} (h : hexUnit? [a, b, c, d] = some (n, [])) (rest : List Char) :
    hexUnit (a :: b :: c :: d :: rest) = .ok (n, rest) := by
  simp only [hexUnit?, Option.bind_eq_bind, Option.bind_eq_some_iff, Option.some.injEq, Prod.mk.injEq, and_true] at h
  obtain ⟨x, hx, y, hy, z, hz, w, hw, rfl⟩ := h
  unfold hexUnit hexUnit?
  simp only [hx, hy, hz, hw, Option.bind_eq_bind, Option.bind_some]

/-- Four hexadecimal digits spell a code unit. -/
theorem exists_hexUnit {a b c d : Char} (h : ∀ digit ∈ [a, b, c, d], (hexValue? digit).isSome) :
    ∃ n, ∀ rest, hexUnit (a :: b :: c :: d :: rest) = .ok (n, rest) := by
  obtain ⟨x, hx⟩ := Option.isSome_iff_exists.1 (h a (by simp))
  obtain ⟨y, hy⟩ := Option.isSome_iff_exists.1 (h b (by simp))
  obtain ⟨z, hz⟩ := Option.isSome_iff_exists.1 (h c (by simp))
  obtain ⟨w, hw⟩ := Option.isSome_iff_exists.1 (h d (by simp))
  have hunit : hexUnit? [a, b, c, d] = some (((x * 16 + y) * 16 + z) * 16 + w, []) := by
    unfold hexUnit?
    simp only [hx, hy, hz, hw, Option.bind_eq_bind, Option.bind_some]
  exact ⟨_, hexUnit_of_digits hunit⟩

theorem skipQuotedWithin_append {inside : List Char} (h : IsQuoted inside) {fuel : Nat} (hfuel : inside.length < fuel)
    (rest : List Char) : skipQuotedWithin fuel (inside ++ '"' :: rest) = .ok rest := by
  induction h generalizing fuel with
  | nil =>
    obtain ⟨fuel, rfl⟩ := Nat.exists_eq_succ_of_ne_zero (Nat.ne_of_gt hfuel)
    simp [skipQuotedWithin]
  | @plain c cs hc _ ih =>
    obtain ⟨fuel, rfl⟩ := Nat.exists_eq_succ_of_ne_zero (Nat.ne_of_gt (Nat.zero_lt_of_lt hfuel))
    obtain ⟨hcontrol, hquote, hback⟩ := hc
    rw [List.cons_append, skipQuotedWithin, if_neg hquote, if_neg hback, if_neg hcontrol]
    exact ih (Nat.lt_of_succ_lt_succ hfuel)
  | @letter c cs hc _ ih =>
    obtain ⟨fuel, rfl⟩ := Nat.exists_eq_succ_of_ne_zero (Nat.ne_of_gt (Nat.zero_lt_of_lt hfuel))
    have hescape : skipEscape (c :: (cs ++ '"' :: rest)) = .ok (cs ++ '"' :: rest) := by
      unfold skipEscape
      split
      · rename_i heq; cases heq
      · rename_i heq; cases heq; exact absurd hc (by decide)
      · rename_i heq; cases heq; exact if_pos hc
    rw [List.cons_append, skipQuotedWithin, if_neg (by decide), if_pos rfl, List.cons_append, hescape]
    exact ih (by rw [List.length_cons, List.length_cons] at hfuel; omega)
  | @unit a b c d cs h _ ih =>
    obtain ⟨fuel, rfl⟩ := Nat.exists_eq_succ_of_ne_zero (Nat.ne_of_gt (Nat.zero_lt_of_lt hfuel))
    rw [List.cons_append, skipQuotedWithin, if_neg (by decide), if_pos rfl]
    have hescape : ∀ tail, skipEscape ('u' :: a :: b :: c :: d :: tail) = .ok tail := by
      intro tail
      obtain ⟨n, hunit⟩ := exists_hexUnit h
      show (hexUnit _).map Prod.snd = _
      rw [hunit]
      rfl
    simp only [List.cons_append, hescape]
    exact ih (by simp only [List.length_cons] at hfuel; omega)

/-- The inside of a string is passed over through its closing quote. -/
theorem skipQuoted_append {inside : List Char} (h : IsQuoted inside) (rest : List Char) :
    skipQuoted (inside ++ '"' :: rest) = .ok rest := by
  refine skipQuotedWithin_append h ?_ rest
  rw [List.length_append, List.length_cons]
  omega

/-! ## Numbers -/

theorem dropDigits_append {ds rest : List Char} (hds : ∀ c ∈ ds, c.isDigit = true)
    (hrest : startsWithDigit rest = false) : dropDigits (ds ++ rest) = rest := by
  unfold dropDigits
  rw [List.dropWhile_append_of_pos hds]
  cases rest with
  | nil => rfl
  | cons c cs =>
    have hc : c.isDigit = false := hrest
    rw [List.dropWhile_cons, hc]
    rfl

theorem skipDigits_append {ds rest : List Char} (hds : IsDigits ds) (hrest : startsWithDigit rest = false) :
    skipDigits (ds ++ rest) = .ok rest := by
  obtain ⟨d, ds, rfl⟩ := List.exists_cons_of_ne_nil hds.1
  have hd : startsWithDigit (d :: ds ++ rest) = true := hds.2 d (List.mem_cons_self ..)
  unfold skipDigits
  rw [if_pos hd, dropDigits_append hds.2 hrest]

theorem IsDigits.startsWithDigit_append {ds : List Char} (h : IsDigits ds) (rest : List Char) :
    ∃ d tail, ds ++ rest = d :: tail ∧ d.isDigit = true := by
  obtain ⟨d, ds, rfl⟩ := List.exists_cons_of_ne_nil h.1
  exact ⟨d, ds ++ rest, rfl, h.2 d (List.mem_cons_self ..)⟩

/-- The text does not go on with digits or a fraction. -/
def Stops (rest : List Char) : Prop := ∀ c cs, rest = c :: cs → c.isDigit = false ∧ c ≠ '.'

theorem stops_exponent {exponent rest : List Char} (h : IsExponent exponent) (hrest : Ends rest) :
    Stops (exponent ++ rest) := by
  rcases h with rfl | ⟨e, he, sign, -, ds, -, rfl⟩
  · exact fun c cs hcs => ⟨(hrest c cs hcs).1, (hrest c cs hcs).2.1⟩
  · rintro c cs ⟨⟩
    simp only [List.mem_cons, List.not_mem_nil, or_false] at he
    rcases he with rfl | rfl <;> decide

theorem Stops.startsWithDigit {rest : List Char} (h : Stops rest) : startsWithDigit rest = false := by
  cases rest with
  | nil => rfl
  | cons c cs => exact (h c cs rfl).1

theorem skipExponent_append {exponent rest : List Char} (h : IsExponent exponent) (hrest : Ends rest) :
    skipExponent (exponent ++ rest) = .ok rest := by
  rcases h with rfl | ⟨e, he, sign, hsign, ds, hds, rfl⟩
  · cases rest with
    | nil => rfl
    | cons c cs =>
      obtain ⟨-, -, he, hE⟩ := hrest c cs rfl
      exact if_neg (not_or.2 ⟨he, hE⟩)
  · have hskip := skipDigits_append hds hrest.startsWithDigit
    obtain ⟨d, tail, heq, hd⟩ := hds.startsWithDigit_append rest
    have he : e = 'e' ∨ e = 'E' := by simpa using he
    simp only [List.mem_cons, List.not_mem_nil, or_false] at hsign
    rcases hsign with rfl | rfl | rfl
    · rw [List.cons_append, List.nil_append, heq, skipExponent, if_pos he, ← heq, hskip]
      · rintro cs ⟨⟩; exact absurd hd (by decide)
      · rintro cs ⟨⟩; exact absurd hd (by decide)
    · exact (if_pos he).trans hskip
    · exact (if_pos he).trans hskip

theorem skipFraction_append {fraction rest : List Char} (h : IsFraction fraction) (hrest : Stops rest) :
    skipFraction (fraction ++ rest) = .ok rest := by
  rcases h with rfl | ⟨ds, hds, rfl⟩
  · unfold skipFraction
    split
    · rename_i cs heq
      exact absurd rfl (hrest '.' cs heq).2
    · rfl
  · exact skipDigits_append hds hrest.startsWithDigit

/-- The whole part of a number is followed by no digit. -/
theorem startsWithDigit_fraction {fraction rest : List Char} (h : IsFraction fraction) (hrest : Stops rest) :
    startsWithDigit (fraction ++ rest) = false := by
  rcases h with rfl | ⟨ds, -, rfl⟩
  · exact hrest.startsWithDigit
  · rfl

theorem skipNumber_append {whole fraction exponent rest : List Char} (hwhole : IsWhole whole)
    (hfraction : IsFraction fraction) (hexponent : IsExponent exponent) (hrest : Ends rest) :
    skipNumber (whole ++ (fraction ++ (exponent ++ rest))) = .ok rest := by
  have hstops := stops_exponent hexponent hrest
  have hnext := startsWithDigit_fraction hfraction hstops
  have hlater := skipExponent_append hexponent hrest
  obtain ⟨⟨hne, hdigits⟩, hzero⟩ := hwhole
  obtain ⟨d, ds, rfl⟩ := List.exists_cons_of_ne_nil hne
  unfold skipNumber
  rw [List.cons_append]
  simp only [bind, Except.bind]
  split
  · rename_i cs heq
    cases heq
    rw [hzero ds rfl, List.nil_append, if_neg (by rw [hnext]; decide)]
    simp only [skipFraction_append hfraction hstops, hlater]
  · rw [← List.cons_append, skipDigits_append ⟨hne, hdigits⟩ hnext]
    simp only [skipFraction_append hfraction hstops, hlater]

/-! ## Scalars -/

/-- The character begins a value that is passed over in one piece. -/
def Opens (c : Char) : Prop := isBlank c = false ∧ c ∉ ['[', '{', ']', '}', ',']

theorem opens_of_isDigit {c : Char} (h : c.isDigit = true) : Opens c := by
  refine ⟨(not_blank_of_isDigit h).1, ?_⟩
  simp only [List.mem_cons, List.not_mem_nil, or_false, not_or]
  refine ⟨?_, ?_, ?_, ?_, ?_⟩ <;> rintro rfl <;> exact absurd h (by decide)

/-- The text is passed over in one piece. -/
def PassesAtOnce (text : List Char) : Prop :=
  ∃ c cs, text = c :: cs ∧ Opens c ∧ ∀ rest, Ends rest → skipScalar c (cs ++ rest) = .ok rest

theorem passesAtOnce_word {text : List Char}
    (h : text ∈ [['n', 'u', 'l', 'l'], ['t', 'r', 'u', 'e'], ['f', 'a', 'l', 's', 'e']]) : PassesAtOnce text := by
  simp only [List.mem_cons, List.not_mem_nil, or_false] at h
  rcases h with rfl | rfl | rfl
  all_goals exact ⟨_, _, rfl, ⟨by decide, by decide⟩, fun _ _ => rfl⟩

theorem passesAtOnce_string {inside : List Char} (h : IsQuoted inside) : PassesAtOnce ('"' :: (inside ++ ['"'])) := by
  refine ⟨_, _, rfl, ⟨by decide, by decide⟩, fun rest _ => ?_⟩
  show skipQuoted (inside ++ ['"'] ++ rest) = _
  rw [List.append_assoc]
  exact skipQuoted_append h rest

theorem skipScalar_of_isDigit {c : Char} (h : c.isDigit = true) (cs : List Char) :
    skipScalar c cs = skipNumber (c :: cs) := by
  unfold skipScalar
  rw [if_neg, if_neg, if_neg, if_neg, if_neg, if_pos h]
  all_goals rintro rfl; exact absurd h (by decide)

theorem passesAtOnce_number {text : List Char} (h : IsNumber text) : PassesAtOnce text := by
  obtain ⟨hsign, hwhole, hfraction, hexponent⟩ := h
  rename_i sign whole fraction exponent
  have hskip := fun rest (hrest : Ends rest) => skipNumber_append hwhole hfraction hexponent hrest
  simp only [List.mem_cons, List.not_mem_nil, or_false] at hsign
  rcases hsign with rfl | rfl
  · obtain ⟨d, tail, heq, hd⟩ := hwhole.1.startsWithDigit_append (fraction ++ exponent)
    refine ⟨d, tail, heq, opens_of_isDigit hd, fun rest hrest => ?_⟩
    rw [skipScalar_of_isDigit hd, ← List.cons_append, ← heq, List.append_assoc, List.append_assoc]
    exact hskip rest hrest
  · refine ⟨'-', whole ++ (fraction ++ exponent), rfl, ⟨by decide, by decide⟩, fun rest hrest => ?_⟩
    show skipNumber _ = _
    rw [List.append_assoc, List.append_assoc]
    exact hskip rest hrest

/-! ## Containers -/

theorem colon_append {blanks : List Char} (h : AllBlank blanks) (cs : List Char) :
    colon (blanks ++ ':' :: cs) = .ok cs := by
  unfold colon
  rw [dropBlanks_append_cons h (by decide)]
  rfl

theorem IsLabel.skipLabel {container : Bracket} {label : List Char} (h : IsLabel container label) (cs : List Char) :
    skipLabel container (label ++ cs) = .ok cs := by
  cases h with
  | list => rfl
  | @object before inside after hbefore hinside hafter =>
    have hname := skipQuoted_append hinside (after ++ ':' :: cs)
    unfold Json.skipLabel
    rw [List.append_assoc, List.cons_append, dropBlanks_append_cons hbefore (by decide)]
    simp only [List.append_assoc, List.cons_append, List.nil_append, bind, Except.bind, hname,
      colon_append hafter]

section

variable {fuel : Nat} {opened : List Bracket}

/-- Passes over a container's label and the value after it, and all else that follows. -/
def skipItem (fuel : Nat) (container : Bracket) (opened : List Bracket) (cs : List Char) : Except Fault (List Char) :=
  match skipLabel container cs with
  | .ok cs => skipWithin fuel .beforeValue (container :: opened) cs
  | .error f => .error f

theorem skipWithin_blanks {blanks : List Char} (h : AllBlank blanks) (cs : List Char) :
    skipWithin (fuel + 1) .beforeValue opened (blanks ++ cs) = skipWithin (fuel + 1) .beforeValue opened cs := by
  rw [skipWithin, skipWithin, dropBlanks_append h]

theorem skipWithin_scalar {text : List Char} (h : PassesAtOnce text) {rest : List Char} (hrest : Ends rest) :
    skipWithin (fuel + 1) .beforeValue opened (text ++ rest) = skipWithin fuel .afterValue opened rest := by
  obtain ⟨c, cs, rfl, ⟨hblank, hbracket⟩, hskip⟩ := h
  simp only [List.mem_cons, List.not_mem_nil, or_false, not_or] at hbracket
  obtain ⟨hlist, hobject, -⟩ := hbracket
  rw [skipWithin, List.cons_append, dropBlanks_cons hblank]
  split
  · rename_i heq; cases heq
  · rename_i heq; cases heq; exact absurd rfl hlist
  · rename_i heq; cases heq; exact absurd rfl hobject
  · rename_i heq
    cases heq
    rw [hskip rest hrest]

theorem skipWithin_opener (container : Bracket) (cs : List Char) :
    skipWithin (fuel + 1) .beforeValue opened (container.opener :: cs) =
      skipWithin fuel .opened (container :: opened) cs := by
  cases container <;> rfl

/-- After the first step in a container its end has been passed over, or an item is begun. -/
theorem skipWithin_container {place : Place} (hplace : place ≠ .beforeValue) (container : Bracket)
    {blanks : List Char} (h : AllBlank blanks) {c : Char} (hc : isBlank c = false) (cs : List Char) :
    skipWithin (fuel + 1) place (container :: opened) (blanks ++ c :: cs) =
      if c = container.closer then skipWithin fuel .afterValue opened cs
      else if place = .opened ∨ c = ',' then
        skipItem fuel container opened (if place = .opened then c :: cs else cs)
      else .error (.expectedSeparator container) := by
  rw [skipWithin, dropBlanks_append_cons h hc]
  · rfl
  · exact hplace

theorem skipWithin_closer {place : Place} (hplace : place ≠ .beforeValue) (container : Bracket) {blanks : List Char}
    (h : AllBlank blanks) (cs : List Char) :
    skipWithin (fuel + 1) place (container :: opened) (blanks ++ container.closer :: cs) =
      skipWithin fuel .afterValue opened cs := by
  rw [skipWithin_container hplace container h (by cases container <;> decide), if_pos rfl]

theorem skipWithin_comma (container : Bracket) {blanks : List Char} (h : AllBlank blanks) (cs : List Char) :
    skipWithin (fuel + 1) .afterValue (container :: opened) (blanks ++ ',' :: cs) =
      skipItem fuel container opened cs := by
  rw [skipWithin_container Place.noConfusion container h (by decide), if_neg (by cases container <;> decide),
    if_pos (.inr rfl), if_neg Place.noConfusion]

theorem skipItem_blanks (container : Bracket) {blanks : List Char} (h : AllBlank blanks) (cs : List Char) :
    skipItem (fuel + 1) container opened (blanks ++ cs) = skipItem (fuel + 1) container opened cs := by
  cases container with
  | list => exact skipWithin_blanks h cs
  | object =>
    unfold skipItem skipLabel
    rw [dropBlanks_append h]

end

theorem IsJson.opens {text : List Char} (h : IsJson .value text) :
    ∃ c cs, text = c :: cs ∧ isBlank c = false ∧ c ∉ [']', '}', ','] := by
  have hscalar : ∀ {text}, PassesAtOnce text → ∃ c cs, text = c :: cs ∧ isBlank c = false ∧ c ∉ [']', '}', ','] := by
    rintro _ ⟨c, cs, rfl, ⟨hblank, hc⟩, -⟩
    exact ⟨c, cs, rfl, hblank, fun hmem => hc (List.mem_cons_of_mem _ (List.mem_cons_of_mem _ hmem))⟩
  cases h with
  | word h => exact hscalar (passesAtOnce_word h)
  | number h => exact hscalar (passesAtOnce_number h)
  | string h => exact hscalar (passesAtOnce_string h)
  | empty container _ => exact ⟨_, _, rfl, by cases container <;> decide⟩
  | @container container _ _ => exact ⟨_, _, rfl, by cases container <;> decide⟩

/-- What stands in a container begins neither with its end nor with a comma. -/
theorem IsLabel.opens {container : Bracket} {label before value : List Char} (hlabel : IsLabel container label)
    (hbefore : AllBlank before) (hvalue : IsJson .value value) (cs : List Char) :
    ∃ blanks c tail, AllBlank blanks ∧ label ++ (before ++ (value ++ cs)) = blanks ++ c :: tail ∧
      isBlank c = false ∧ c ≠ container.closer ∧ c ≠ ',' := by
  cases hlabel with
  | list =>
    obtain ⟨c, tail, rfl, hblank, hc⟩ := hvalue.opens
    refine ⟨before, c, tail ++ cs, hbefore, rfl, hblank, ?_, ?_⟩
    · exact fun heq => hc (by simp [heq, Bracket.closer])
    · exact fun heq => hc (by simp [heq])
  | @object blanks inside after hblanks hinside hafter =>
    exact ⟨blanks, '"', inside ++ '"' :: (after ++ [':']) ++ (before ++ (value ++ cs)), hblanks,
      List.append_assoc .., by decide, by decide, by decide⟩

theorem IsJson.items_open {container : Bracket} {items : List Char} (h : IsJson (.items container) items) :
    ∃ blanks c tail, AllBlank blanks ∧ items = blanks ++ c :: tail ∧ isBlank c = false ∧ c ≠ container.closer ∧
      c ≠ ',' := by
  cases h with
  | last hlabel hbefore hvalue _ => exact hlabel.opens hbefore hvalue _
  | next hlabel hbefore hvalue _ _ => exact hlabel.opens hbefore hvalue _

theorem ends_closer (container : Bracket) (rest : List Char) : Ends (container.closer :: rest) := by
  cases container <;> exact ends_mark (by decide) rest

/-- How a part of a text is passed over: a value in some steps, and what stands in a container in some steps
from its first label through the container's end, whatever containers are open around it. -/
def Passes : Part → List Char → Prop
  | .value, text =>
    ∃ steps ≤ 2 * text.length, ∀ fuel opened blanks rest, AllBlank blanks → Ends rest →
      skipWithin (fuel + steps) .beforeValue opened (blanks ++ (text ++ rest)) = skipWithin fuel .afterValue opened rest
  | .items container, items =>
    ∃ steps ≤ 2 * items.length, ∀ fuel opened rest,
      skipItem (fuel + steps + 1) container opened (items ++ container.closer :: rest) =
        skipWithin fuel .afterValue opened rest

theorem PassesAtOnce.passes {text : List Char} (h : PassesAtOnce text) : Passes .value text := by
  refine ⟨1, ?_, fun fuel opened blanks rest hblanks hrest => ?_⟩
  · obtain ⟨c, cs, rfl, -⟩ := h
    simp only [List.length_cons]
    omega
  · rw [skipWithin_blanks hblanks, skipWithin_scalar h hrest]

/-- Every text of the grammar is passed over. The steps are counted against the characters: a value takes at
most two for each, of which a container leaves one to spare for each of its brackets. -/
theorem IsJson.passes {part : Part} {text : List Char} (h : IsJson part text) : Passes part text := by
  induction h with
  | word h => exact (passesAtOnce_word h).passes
  | number h => exact (passesAtOnce_number h).passes
  | string h => exact (passesAtOnce_string h).passes
  | @empty container blanks h =>
    refine ⟨2, ?_, fun fuel opened before rest hbefore _ => ?_⟩
    · simp only [List.length_cons, List.length_append]
      omega
    · rw [skipWithin_blanks hbefore, List.cons_append, skipWithin_opener, List.append_assoc,
        List.singleton_append, skipWithin_closer Place.noConfusion container h]
  | @container container items h ih =>
    obtain ⟨steps, hsteps, hpasses⟩ := ih
    refine ⟨steps + 3, ?_, fun fuel opened before rest hbefore _ => ?_⟩
    · simp only [List.length_cons, List.length_append, List.length_nil]
      omega
    · -- the step after the opening bracket looks at what the first item begins with, so it has to be named
      obtain ⟨blanks, c, tail, hblanks, heq, hblank, hcloser, -⟩ := h.items_open
      have hitem := hpasses fuel opened rest
      rw [heq, List.append_assoc, skipItem_blanks container hblanks] at hitem
      rw [show fuel + (steps + 3) = fuel + steps + 1 + 1 + 1 by omega, skipWithin_blanks hbefore, List.cons_append,
        skipWithin_opener, heq]
      simp only [List.append_assoc, List.cons_append, List.nil_append] at hitem ⊢
      rw [skipWithin_container Place.noConfusion container hblanks hblank, if_neg hcloser, if_pos (.inl rfl),
        if_pos rfl]
      exact hitem
  | @last container label before value after hlabel hbefore _ hafter ih =>
    -- the container is now the innermost that is open around the value
    obtain ⟨steps, hsteps, hpasses⟩ := ih
    refine ⟨steps, ?_, fun fuel opened rest => ?_⟩
    · simp only [List.length_append]
      omega
    · have hvalue := hpasses (fuel + 1) (container :: opened) before _ hbefore
        (ends_append hafter (ends_closer container rest))
      unfold skipItem
      simp only [List.append_assoc]
      rw [hlabel.skipLabel]
      simp only
      rw [show fuel + steps + 1 = fuel + 1 + steps by omega, hvalue,
        skipWithin_closer Place.noConfusion container hafter]
  | @next container label before value after items hlabel hbefore _ hafter _ ihvalue ihitems =>
    obtain ⟨steps, hsteps, hpasses⟩ := ihvalue
    obtain ⟨more, hmore, hitems⟩ := ihitems
    refine ⟨steps + more + 1, ?_, fun fuel opened rest => ?_⟩
    · simp only [List.length_append, List.length_cons]
      omega
    · have hvalue := hpasses (fuel + more + 1 + 1) (container :: opened) before
        (after ++ ',' :: (items ++ container.closer :: rest)) hbefore (ends_append hafter (ends_mark (by decide) _))
      unfold skipItem
      simp only [List.append_assoc, List.cons_append]
      rw [hlabel.skipLabel]
      simp only
      rw [show fuel + (steps + more + 1) + 1 = fuel + more + 1 + 1 + steps by omega, hvalue,
        skipWithin_comma container hafter, hitems]

/-- Any JSON text is passed over as a value, and no more than it. -/
theorem skip_append {text : List Char} (h : IsJson .value text) {blanks rest : List Char} (hblanks : AllBlank blanks)
    (hrest : Ends rest) : skip (blanks ++ (text ++ rest)) = .ok rest := by
  obtain ⟨steps, hsteps, hpasses⟩ := h.passes
  have hfuel : 2 * (blanks ++ (text ++ rest)).length + 2 =
      2 * blanks.length + 2 * rest.length + (2 * text.length - steps) + 1 + 1 + steps := by
    simp only [List.length_append]
    omega
  unfold skip
  rw [hfuel, hpasses _ [] blanks rest hblanks hrest, skipWithin]
  exact Place.noConfusion

end FleetRoster.Json
