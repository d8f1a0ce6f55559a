/-
What is made of a JSON text is settled by the text: whether a reader takes it for a value or refuses it does
not depend on what follows, and a reader that takes it stops where the text does. So texts that are good JSON
but of the wrong kind are refused as a whole, and never read in part.
-/
import FleetRoster.Proofs.Json.Layout

namespace FleetRoster.Json

/-- What is made of the text is the same whatever follows, so long as it does not extend a number. -/
def Settled {α : Type} (read : Reader α) (text : List Char) : Prop := ∃ result, Reads read text result

/-- Every JSON text is read as a value, and no more than it is, or refused. -/
def Definite {α : Type} (read : Reader α) : Prop := ∀ text, IsJson .value text → Settled read text

theorem Definite.map {α β : Type} {codec : Codec α} (h : Definite codec.read) (into : α → β) (back : β → α) :
    Definite (codec.map into back).read := by
  intro text htext
  obtain ⟨result, hreads⟩ := h text htext
  exact ⟨_, hreads.map into back⟩

/-! ## Numbers -/

theorem digitValue_le {c : Char} (h : c.isDigit = true) : digitValue c ≤ 9 := by
  simp only [Char.isDigit, Bool.and_eq_true, decide_eq_true_eq] at h
  have hhigh : c.toNat ≤ 57 := h.2
  show c.toNat - 48 ≤ 9
  omega

/-- Digits are taken in part or as a whole, whatever follows them; the first is taken if the limit has room for
any digit. -/
theorem exists_digitsWithin {ds : List Char} (hds : ∀ c ∈ ds, c.isDigit = true) (limit value count : Nat) :
    ∃ v n more, (∀ c ∈ more, c.isDigit = true) ∧ count ≤ n ∧ (value * 10 + 9 ≤ limit → ds ≠ [] → count < n) ∧
      (n = count → more = ds) ∧
      ∀ rest, startsWithDigit rest = false → digitsWithin limit value count (ds ++ rest) = (v, n, more ++ rest) := by
  induction ds generalizing value count with
  | nil =>
    refine ⟨value, count, [], List.forall_mem_nil _, Nat.le_refl _, fun _ h => absurd rfl h, fun _ => rfl,
      fun rest hrest => ?_⟩
    cases rest with
    | nil => rfl
    | cons c cs =>
      have hc : c.isDigit = false := hrest
      simp [digitsWithin, hc]
  | cons d ds ih =>
    have hd : d.isDigit = true := hds d (List.mem_cons_self ..)
    by_cases hlimit : value * 10 + digitValue d ≤ limit
    · -- the first digit fits, and was one of those taken whatever becomes of the others
      obtain ⟨v, n, more, hmore, hcount, -, -, hread⟩ :=
        ih (fun c hc => hds c (List.mem_cons_of_mem d hc)) (value * 10 + digitValue d) (count + 1)
      refine ⟨v, n, more, hmore, by omega, fun _ _ => hcount, fun h => by omega, fun rest hrest => ?_⟩
      rw [List.cons_append, digitsWithin, hd, Bool.true_and, if_pos (decide_eq_true hlimit), hread rest hrest]
    · refine ⟨value, count, d :: ds, hds, Nat.le_refl _, fun hroom _ => ?_, fun _ => rfl, fun rest _ => ?_⟩
      · have := digitValue_le hd
        omega
      · rw [List.cons_append, digitsWithin, hd, Bool.true_and, if_neg (by simpa using hlimit)]

theorem startsWithDigit_append {more rest : List Char} (hmore : ∀ c ∈ more, c.isDigit = true)
    (hrest : startsWithDigit rest = false) : startsWithDigit (more ++ rest) = !more.isEmpty := by
  cases more with
  | nil => exact hrest
  | cons c cs => exact hmore c (List.mem_cons_self ..)

theorem bind_ok_eq_map {ε α β : Type} (x : Except ε α) (f : α → β) : (x >>= fun value => .ok (f value)) = x.map f := by
  cases x <;> rfl

/-- The digits of an exponent, once it is known how many of them are taken. -/
theorem exponentPart_append (positive : Bool) (significand : Nat) (start : Int) {sign : List Char}
    (hsign : sign ∈ [[], ['+'], ['-']]) {d : Char} {tail rest : List Char} (hd : d.isDigit = true) {x n : Nat}
    (hread : digitsWithin (Nat.pow 2 31 - 1) 0 0 (d :: tail) = (x, n + 1, rest)) :
    exponentPart positive significand start (sign ++ d :: tail) =
      if startsWithDigit rest then
        if significand ≠ 0 ∧ sign ≠ ['-'] then .error .numberOutOfRange
        else .ok (.floating (if positive then 0.0 else -0.0 : Float).toBits, dropDigits rest)
      else
        (floatOf positive significand (if sign ≠ ['-'] then start + x else start - x)).map
          fun number => (number, rest) := by
  simp only [List.mem_cons, List.not_mem_nil, or_false] at hsign
  rcases hsign with rfl | rfl | rfl
  · unfold exponentPart
    rw [List.nil_append]
    split
    rename_i up cs hstart
    split at hstart
    · rename_i heq; cases heq; exact absurd hd (by decide)
    · rename_i heq; cases heq; exact absurd hd (by decide)
    · cases hstart
      simp [hread, bind_ok_eq_map]
  · unfold exponentPart
    simp [hread, bind_ok_eq_map]
  · unfold exponentPart
    simp [hread, bind_ok_eq_map]

theorem settled_exponentPart (positive : Bool) (significand : Nat) (start : Int) {sign ds : List Char}
    (hsign : sign ∈ [[], ['+'], ['-']]) (hds : IsDigits ds) :
    Settled (exponentPart positive significand start) (sign ++ ds) := by
  obtain ⟨x, n, more, hmore, -, hfirst, -, hread⟩ := exists_digitsWithin hds.2 (Nat.pow 2 31 - 1) 0 0
  obtain ⟨n, rfl⟩ := Nat.exists_eq_succ_of_ne_zero (Nat.ne_of_gt (hfirst (by decide) hds.1))
  obtain ⟨d, ds, rfl⟩ := List.exists_cons_of_ne_nil hds.1
  refine ⟨if more.isEmpty then floatOf positive significand (if sign ≠ ['-'] then start + x else start - x)
    else if significand ≠ 0 ∧ sign ≠ ['-'] then .error .numberOutOfRange
    else .ok (.floating (if positive then 0.0 else -0.0 : Float).toBits), fun rest hrest => ?_⟩
  have hdigit := hrest.startsWithDigit
  have hpart := exponentPart_append positive significand start hsign (hds.2 d (List.mem_cons_self ..))
    (hread rest hdigit)
  rw [List.append_assoc]
  refine hpart.trans ?_
  rw [startsWithDigit_append hmore hdigit]
  cases hempty : more.isEmpty with
  | true =>
    rw [List.isEmpty_iff.1 hempty]
    rfl
  | false =>
    rw [dropDigits_append hmore hdigit]
    simp only [Bool.not_false, if_true, Bool.false_eq_true, if_false]
    split <;> rfl

theorem settled_scalePart (positive : Bool) (significand : Nat) (start : Int) {exponent : List Char}
    (h : IsExponent exponent) : Settled (scalePart positive significand start) exponent := by
  rcases h with rfl | ⟨e, he, sign, hsign, ds, hds, rfl⟩
  · refine ⟨floatOf positive significand start, fun rest hrest => ?_⟩
    rw [List.nil_append]
    unfold scalePart
    split
    · exact absurd rfl (hrest 'e' _ rfl).2.2.1
    · exact absurd rfl (hrest 'E' _ rfl).2.2.2
    · exact bind_ok_eq_map _ _
  · obtain ⟨result, hreads⟩ := settled_exponentPart positive significand start hsign hds
    refine ⟨result, fun rest hrest => ?_⟩
    simp only [List.mem_cons, List.not_mem_nil, or_false] at he
    rcases he with rfl | rfl
    all_goals exact hreads rest hrest

theorem settled_fractionPart (positive : Bool) (significand : Nat) (start : Int) {ds exponent : List Char}
    (hds : IsDigits ds) (hexponent : IsExponent exponent) :
    Settled (fractionPart positive significand start) (ds ++ exponent) := by
  obtain ⟨v, n, more, hmore, -, -, hnone, hread⟩ := exists_digitsWithin hds.2 (Nat.pow 2 64 - 1) significand 0
  obtain ⟨result, hreads⟩ := settled_scalePart positive v (start - n) hexponent
  refine ⟨result, fun rest hrest => ?_⟩
  have hdigit := (stops_exponent hexponent hrest).startsWithDigit
  have hsome : ¬ (n = 0 ∧ ¬ startsWithDigit (more ++ (exponent ++ rest)) = true) := by
    rintro ⟨hn, hstart⟩
    rw [startsWithDigit_append hmore hdigit, hnone hn] at hstart
    exact hstart (by simpa using hds.1)
  rw [List.append_assoc]
  unfold fractionPart
  rw [hread _ hdigit]
  simp only [if_neg hsome, dropDigits_append hmore hdigit]
  exact hreads rest hrest

theorem length_takeWhile_isDigit {more rest : List Char} (hmore : ∀ c ∈ more, c.isDigit = true)
    (hrest : startsWithDigit rest = false) : ((more ++ rest).takeWhile Char.isDigit).length = more.length := by
  rw [List.takeWhile_append_of_pos hmore]
  cases rest with
  | nil => simp
  | cons c cs =>
    have hc : c.isDigit = false := hrest
    simp [hc]

/-- Reads the rest of a number whose whole part has been read, all but `dropped` of its digits as `n`. -/
def afterWhole (positive : Bool) (n dropped : Nat) : Reader Number
  | '.' :: cs => fractionPart positive n dropped cs
  | 'e' :: cs => exponentPart positive n dropped cs
  | 'E' :: cs => exponentPart positive n dropped cs
  | cs =>
    if dropped = 0 then .ok (Json.whole positive n, cs)
    else (floatOf positive n dropped).map fun number => (number, cs)

theorem number_append (positive : Bool) {whole tail : List Char} (hwhole : IsWhole whole)
    (htail : startsWithDigit tail = false) {v n : Nat} {more : List Char} (hmore : ∀ c ∈ more, c.isDigit = true)
    (hread : digitsWithin (Nat.pow 2 64 - 1) 0 0 (whole ++ tail) = (v, n, more ++ tail)) :
    number positive (whole ++ tail) = afterWhole positive v more.length tail := by
  obtain ⟨⟨hne, hdigits⟩, hzero⟩ := hwhole
  obtain ⟨d, ds, rfl⟩ := List.exists_cons_of_ne_nil hne
  have hd : d.isDigit = true := hdigits d (List.mem_cons_self ..)
  have hlead : ¬ (d = '0' ∧ startsWithDigit (ds ++ tail) = true) := by
    rintro ⟨rfl, hstart⟩
    rw [hzero ds rfl, List.nil_append, htail] at hstart
    cases hstart
  rw [List.cons_append] at hread ⊢
  have hnumber := number.eq_def positive (d :: (ds ++ tail))
  simp only [hd, not_true_eq_false, if_false, if_neg hlead, hread, dropDigits_append hmore htail,
    length_takeWhile_isDigit hmore htail, bind_ok_eq_map] at hnumber
  exact hnumber

theorem settled_number (positive : Bool) {whole fraction exponent : List Char} (hwhole : IsWhole whole)
    (hfraction : IsFraction fraction) (hexponent : IsExponent exponent) :
    Settled (number positive) (whole ++ (fraction ++ exponent)) := by
  obtain ⟨v, n, more, hmore, -, -, -, hread⟩ := exists_digitsWithin hwhole.1.2 (Nat.pow 2 64 - 1) 0 0
  have hnumber : ∀ rest, Ends rest → number positive (whole ++ (fraction ++ (exponent ++ rest))) =
      afterWhole positive v more.length (fraction ++ (exponent ++ rest)) := by
    intro rest hrest
    have hdigit := startsWithDigit_fraction hfraction (stops_exponent hexponent hrest)
    exact number_append positive hwhole hdigit hmore (hread _ hdigit)
  rcases hfraction with rfl | ⟨ds, hds, rfl⟩
  · rcases hexponent with rfl | ⟨e, he, sign, hsign, ds, hds, rfl⟩
    · refine ⟨if more.length = 0 then .ok (Json.whole positive v) else floatOf positive v more.length,
        fun rest hrest => ?_⟩
      have hread := hnumber rest hrest
      simp only [List.nil_append, List.append_nil] at hread ⊢
      rw [hread]
      unfold afterWhole
      split
      · exact absurd rfl (hrest '.' _ rfl).2.1
      · exact absurd rfl (hrest 'e' _ rfl).2.2.1
      · exact absurd rfl (hrest 'E' _ rfl).2.2.2
      · split <;> rfl
    · obtain ⟨result, hreads⟩ := settled_exponentPart positive v more.length hsign hds
      refine ⟨result, fun rest hrest => ?_⟩
      simp only [List.mem_cons, List.not_mem_nil, or_false] at he
      rw [List.append_assoc, List.append_assoc, hnumber rest hrest]
      rcases he with rfl | rfl
      all_goals exact hreads rest hrest
  · obtain ⟨result, hreads⟩ := settled_fractionPart positive v more.length hds hexponent
    refine ⟨result, fun rest hrest => ?_⟩
    have hpart := hreads rest hrest
    rw [List.append_assoc] at hpart
    rw [List.append_assoc, List.append_assoc, hnumber rest hrest]
    exact hpart

/-! ## Strings -/

theorem unquoteWithin_escape_error {cs : List Char} {fault : Fault} (h : escape cs = .error fault) (fuel : Nat)
    (taken : List Char) : unquoteWithin (fuel + 1) taken ('\\' :: cs) = .error fault := by
  rw [unquoteWithin, if_neg (by decide), if_pos rfl, h]

/-- What an escaped code unit comes to, with what stands after it in the string. Only after the first of a
pair of surrogates does the reader look at that. -/
theorem escape_unit {a b c d : Char} (h : ∀ digit ∈ [a, b, c, d], (hexValue? digit).isSome) {inside : List Char}
    (hinside : IsQuoted inside) :
    (∃ fault, ∀ rest, escape ('u' :: a :: b :: c :: d :: (inside ++ '"' :: rest)) = .error fault) ∨
      ∃ e tail, IsQuoted tail ∧ tail.length ≤ inside.length ∧
        ∀ rest, escape ('u' :: a :: b :: c :: d :: (inside ++ '"' :: rest)) = .ok (e, tail ++ '"' :: rest) := by
  obtain ⟨m, hfirst⟩ := exists_hexUnit h
  have hescape : ∀ cs, escape ('u' :: a :: b :: c :: d :: cs) = unicodeEscape (a :: b :: c :: d :: cs) := fun _ => rfl
  unfold unicodeEscape at hescape
  simp only [hfirst, bind, Except.bind] at hescape
  cases hlow : isLowSurrogate m with
  | true => exact .inl ⟨_, fun rest => by rw [hescape, hlow]; rfl⟩
  | false =>
    cases hhigh : isHighSurrogate m with
    | false => exact .inr ⟨_, inside, hinside, Nat.le_refl _, fun rest => by rw [hescape, hlow, hhigh]; rfl⟩
    | true =>
      -- the first of a pair: all depends on what stands next in the string
      simp only [hlow, hhigh, Bool.false_eq_true, if_false, if_true] at hescape
      cases hinside with
      | nil => exact .inl ⟨_, fun rest => by rw [hescape]; rfl⟩
      | @plain c' cs hc _ =>
        refine .inl ⟨.unpairedSurrogate, fun rest => ?_⟩
        rw [hescape]
        split
        · rename_i heq; cases heq
        · rename_i heq; cases heq; exact absurd rfl hc.2.2
        · rfl
      | @letter c' cs hc _ =>
        refine .inl ⟨.unpairedSurrogate, fun rest => ?_⟩
        rw [hescape]
        simp only [List.cons_append]
        split
        · rename_i heq; cases heq
        · rename_i heq; cases heq; cases hc
        · rfl
      | @unit a' b' c' d' cs h' hcs =>
        obtain ⟨n, hsecond⟩ := exists_hexUnit h'
        cases hpair : isLowSurrogate n with
        | true =>
          refine .inr ⟨Char.ofNat (0x10000 + (m - 0xd800) * 0x400 + (n - 0xdc00)), cs, hcs,
            by simp only [List.length_cons]; omega, fun rest => ?_⟩
          rw [hescape]
          simp only [List.cons_append, hsecond, hpair, if_true]
        | false =>
          refine .inl ⟨.loneSurrogate, fun rest => ?_⟩
          rw [hescape]
          simp only [List.cons_append, hsecond, hpair, Bool.false_eq_true, if_false]

theorem IsQuoted.settled_unquoteWithin {inside : List Char} (h : IsQuoted inside) (taken : List Char) :
    ∃ result : Except Fault (List Char), ∀ fuel rest, inside.length < fuel →
      unquoteWithin fuel taken (inside ++ '"' :: rest) = result.map fun s => (s, rest) := by
  -- on the length, for a pair of surrogates takes two of the grammar's escapes at once
  induction hlength : inside.length using Nat.strongRecOn generalizing inside taken with
  | ind length ih =>
    subst hlength
    cases h with
    | nil =>
      refine ⟨.ok taken.reverse, fun fuel rest hfuel => ?_⟩
      obtain ⟨fuel, rfl⟩ := Nat.exists_eq_succ_of_ne_zero (Nat.ne_of_gt hfuel)
      rfl
    | @plain c cs hc hcs =>
      obtain ⟨result, hread⟩ := ih _ (by simp) hcs (c :: taken) rfl
      refine ⟨result, fun fuel rest hfuel => ?_⟩
      obtain ⟨fuel, rfl⟩ := Nat.exists_eq_succ_of_ne_zero (Nat.ne_of_gt (Nat.zero_lt_of_lt hfuel))
      obtain ⟨hcontrol, hquote, hback⟩ := hc
      rw [List.cons_append, unquoteWithin, if_neg hquote, if_neg hback, if_neg hcontrol]
      exact hread fuel rest (Nat.lt_of_succ_lt_succ hfuel)
    | @letter c cs hc hcs =>
      obtain ⟨e, he⟩ := Option.isSome_iff_exists.1 hc
      obtain ⟨result, hread⟩ := ih _ (by simp only [List.length_cons]; omega) hcs (e :: taken) rfl
      refine ⟨result, fun fuel rest hfuel => ?_⟩
      obtain ⟨fuel, rfl⟩ := Nat.exists_eq_succ_of_ne_zero (Nat.ne_of_gt (Nat.zero_lt_of_lt hfuel))
      rw [List.cons_append, List.cons_append, unquoteWithin_escape (escape_letter he _)]
      exact hread fuel rest (by simp only [List.length_cons] at hfuel; omega)
    | @unit a b c d cs h hcs =>
      rcases escape_unit h hcs with ⟨fault, hescape⟩ | ⟨e, tail, htail, hle, hescape⟩
      · refine ⟨.error fault, fun fuel rest hfuel => ?_⟩
        obtain ⟨fuel, rfl⟩ := Nat.exists_eq_succ_of_ne_zero (Nat.ne_of_gt (Nat.zero_lt_of_lt hfuel))
        exact unquoteWithin_escape_error (hescape rest) fuel taken
      · obtain ⟨result, hread⟩ := ih _ (by simp only [List.length_cons]; omega) htail (e :: taken) rfl
        refine ⟨result, fun fuel rest hfuel => ?_⟩
        obtain ⟨fuel, rfl⟩ := Nat.exists_eq_succ_of_ne_zero (Nat.ne_of_gt (Nat.zero_lt_of_lt hfuel))
        refine (unquoteWithin_escape (hescape rest) fuel taken).trans (hread fuel rest ?_)
        simp only [List.length_cons] at hfuel
        omega

/-- The inside of a string is read or refused as a whole. -/
theorem IsQuoted.settled_unquote {inside : List Char} (h : IsQuoted inside) :
    ∃ result : Except Fault (List Char), ∀ rest, unquote (inside ++ '"' :: rest) = result.map fun s => (s, rest) := by
  obtain ⟨result, hread⟩ := h.settled_unquoteWithin []
  refine ⟨result, fun rest => hread _ rest ?_⟩
  rw [List.length_append, List.length_cons]
  omega

/-! ## Scalars -/

/-- A number is read or refused as a whole, its sign first. -/
theorem IsNumber.settled {text : List Char} (h : IsNumber text) :
    ∃ c cs, text = c :: cs ∧ isBlank c = false ∧ (c = '-' ∨ c.isDigit = true) ∧
      ∃ result : Except Fault Number, ∀ rest, Ends rest →
        (if c = '-' then number false (cs ++ rest) else number true (c :: (cs ++ rest))) =
          result.map fun n => (n, rest) := by
  obtain ⟨hsign, hwhole, hfraction, hexponent⟩ := h
  rename_i sign whole fraction exponent
  simp only [List.mem_cons, List.not_mem_nil, or_false] at hsign
  rcases hsign with rfl | rfl
  · obtain ⟨result, hreads⟩ := settled_number true hwhole hfraction hexponent
    obtain ⟨d, tail, heq, hd⟩ := hwhole.1.startsWithDigit_append (fraction ++ exponent)
    obtain ⟨hblank, -, hminus⟩ := not_blank_of_isDigit hd
    refine ⟨d, tail, heq, hblank, .inr hd, result, fun rest hrest => ?_⟩
    rw [if_neg hminus, ← List.cons_append, ← heq]
    exact hreads rest hrest
  · obtain ⟨result, hreads⟩ := settled_number false hwhole hfraction hexponent
    exact ⟨'-', _, rfl, by decide, .inl rfl, result, hreads⟩

/-- Why a JSON text is of the wrong kind does not depend on what follows it. -/
theorem IsJson.settled_mismatch {text : List Char} (h : IsJson .value text) (wanted : Wanted) :
    ∃ fault, ∀ rest, Ends rest → mismatch wanted (text ++ rest) = fault := by
  cases h with
  | word h =>
    simp only [List.mem_cons, List.not_mem_nil, or_false] at h
    rcases h with rfl | rfl | rfl
    all_goals exact ⟨_, fun _ _ => rfl⟩
  | number h =>
    obtain ⟨c, cs, rfl, -, hc, result, hreads⟩ := h.settled
    refine ⟨match result with | .ok n => .wrongKind n.found wanted | .error fault => fault, fun rest hrest => ?_⟩
    have hread := hreads rest hrest
    rw [List.cons_append]
    unfold mismatch
    rcases hc with rfl | hdigit
    · simp only [if_true] at hread
      simp only [Char.reduceEq, if_false, if_true, hread]
      cases result <;> rfl
    · have hne : ∀ c' : Char, c'.isDigit = false → c ≠ c' := by
        rintro c' hc' rfl
        rw [hdigit] at hc'
        cases hc'
      rw [if_neg (hne '-' (by decide))] at hread
      simp only [hne 'n' (by decide), hne 't' (by decide), hne 'f' (by decide), hne '-' (by decide), hdigit, if_false,
        if_true, hread]
      cases result <;> rfl
  | @string inside h =>
    obtain ⟨result, hreads⟩ := h.settled_unquote
    refine ⟨match result with | .ok s => .wrongKind (.text (String.ofList s)) wanted | .error fault => fault,
      fun rest _ => ?_⟩
    have hread := hreads rest
    simp only [List.cons_append, List.append_assoc, List.nil_append]
    unfold mismatch
    simp only [Char.reduceEq, Char.reduceIsDigit, Bool.false_eq_true, if_false, if_true, hread]
    cases result <;> rfl
  | empty container _ => cases container <;> exact ⟨_, fun _ _ => rfl⟩
  | @container container _ _ => cases container <;> exact ⟨_, fun _ _ => rfl⟩

/-- A reader that refuses the text as one of the wrong kind, whatever follows. -/
theorem IsJson.settled_of_mismatch {α : Type} {read : Reader α} {text : List Char} (h : IsJson .value text)
    (wanted : Wanted) (hread : ∀ rest, read (text ++ rest) = .error (mismatch wanted (text ++ rest))) :
    Settled read text := by
  obtain ⟨fault, hfault⟩ := h.settled_mismatch wanted
  refine ⟨.error fault, fun rest hrest => ?_⟩
  rw [hread, hfault rest hrest]
  rfl

/-- What stands in the brackets of a container. -/
def IsContent (container : Bracket) (content : List Char) : Prop :=
  AllBlank content ∨ IsJson (.items container) content

/-- The first character of a value tells its kind. -/
theorem IsJson.first {c : Char} {cs : List Char} (h : IsJson .value (c :: cs)) :
    (c = 't' → cs = ['r', 'u', 'e']) ∧ (c = 'f' → cs = ['a', 'l', 's', 'e']) ∧
      (c = '-' ∨ c.isDigit = true → IsNumber (c :: cs)) ∧ (c = '"' → ∃ inside, IsQuoted inside ∧ cs = inside ++ ['"']) ∧
      (c = '[' → ∃ content, IsContent .list content ∧ cs = content ++ [']']) ∧
      (c = '{' → ∃ content, IsContent .object content ∧ cs = content ++ ['}']) := by
  generalize heq : c :: cs = text at h
  cases h with
  | word h =>
    simp only [List.mem_cons, List.not_mem_nil, or_false] at h
    rcases h with rfl | rfl | rfl <;> cases heq <;> simp
  | number h =>
    obtain ⟨d, ds, rfl, -, hd, -⟩ := h.settled
    cases heq
    have hne : ∀ c' ∈ ['t', 'f', '"', '[', '{'], c ≠ c' := by
      rintro _ hmem rfl
      simp only [List.mem_cons, List.not_mem_nil, or_false] at hmem
      rcases hmem with rfl | rfl | rfl | rfl | rfl <;> exact absurd hd (by decide)
    simp only [List.forall_mem_cons] at hne
    simp [hne, h]
  | string h => cases heq; simpa using h
  | @empty container blanks h => cases heq; cases container <;> simp [Bracket.opener, Bracket.closer, IsContent, h]
  | @container container items h => cases heq; cases container <;> simp [Bracket.opener, Bracket.closer, IsContent, h]

theorem definite_readNumber {α : Type} (wanted : Wanted) (accept : Number → Except Fault α) :
    Definite (readNumber wanted accept) := by
  intro text h
  obtain ⟨c, cs, rfl, hblank, -⟩ := h.opens
  obtain ⟨-, -, hnumber, -⟩ := h.first
  by_cases hc : c = '-' ∨ c.isDigit = true
  · obtain ⟨_, _, ⟨⟩, -, -, result, hreads⟩ := (hnumber hc).settled
    refine ⟨result.bind accept, fun rest hrest => ?_⟩
    have hread := hreads rest hrest
    unfold readNumber
    rw [List.cons_append, dropBlanks_cons hblank]
    simp only [if_pos hc, bind, Except.bind]
    by_cases hminus : c = '-'
    · simp only [if_pos hminus] at hread ⊢
      rw [hread]
      cases result with
      | error fault => rfl
      | ok n => simp only [Except.map]
    · simp only [if_neg hminus] at hread ⊢
      rw [hread]
      cases result with
      | error fault => rfl
      | ok n => simp only [Except.map]
  · refine h.settled_of_mismatch wanted fun rest => ?_
    unfold readNumber
    rw [List.cons_append, dropBlanks_cons hblank]
    exact if_neg hc

@[simp]
theorem definite_unsigned64 : Definite unsigned64.read := definite_readNumber _ _

@[simp]
theorem definite_signed32 : Definite signed32.read := definite_readNumber _ _

@[simp]
theorem definite_boolean : Definite boolean.read := by
  intro text h
  show Settled readBoolean text
  obtain ⟨c, cs, rfl, hblank, -⟩ := h.opens
  obtain ⟨htrue, hfalse, -⟩ := h.first
  by_cases ht : c = 't'
  · subst ht; rw [htrue rfl]; exact ⟨.ok true, fun _ _ => rfl⟩
  by_cases hf : c = 'f'
  · subst hf; rw [hfalse rfl]; exact ⟨.ok false, fun _ _ => rfl⟩
  refine h.settled_of_mismatch .boolean fun rest => ?_
  unfold readBoolean
  rw [List.cons_append, dropBlanks_cons hblank]
  split
  · rename_i heq; cases heq; exact absurd rfl ht
  · rename_i heq; cases heq; exact absurd rfl hf
  · rfl

@[simp]
theorem definite_text : Definite text.read := by
  intro text h
  show Settled readText text
  obtain ⟨c, cs, rfl, hblank, -⟩ := h.opens
  obtain ⟨-, -, -, hstring, -⟩ := h.first
  by_cases hc : c = '"'
  · obtain ⟨inside, hinside, rfl⟩ := hstring hc
    obtain ⟨result, hreads⟩ := hinside.settled_unquote
    subst hc
    refine ⟨result.map String.ofList, fun rest _ => ?_⟩
    unfold readText
    rw [List.cons_append, dropBlanks_cons hblank, List.append_assoc]
    show (unquote (inside ++ '"' :: rest)).map _ = _
    rw [hreads rest]
    cases result <;> rfl
  · refine h.settled_of_mismatch .text fun rest => ?_
    unfold readText
    rw [List.cons_append, dropBlanks_cons hblank]
    split
    · rename_i heq; cases heq; exact absurd rfl hc
    · rfl

end FleetRoster.Json
