/-
Objects laid out in any way: blanks wherever the grammar has them, and names spelled with whatever escapes.
The reader takes the members one after the other, so what it makes of an object follows from what each of
them does to the slots.
-/
import FleetRoster.Proofs.Json.Grammar
import FleetRoster.Proofs.Json.Records

namespace FleetRoster.Json

/-! ## Names -/

/-- The inside of a string spells the characters: plain, as the letter of an escape, or as the code units of
an escape, of which a character beyond 16 bits has a pair. -/
inductive Quotes : List Char → List Char → Prop
  | nil : Quotes [] []
  | plain {c : Char} {inside s : List Char} (hc : IsPlain c) (hinside : Quotes inside s) : Quotes (c :: inside) (c :: s)
  | letter {c e : Char} {inside s : List Char} (hc : letterEscape? c = some e) (hinside : Quotes inside s) :
      Quotes ('\\' :: c :: inside) (e :: s)
  | unit {a b c d : Char} {n : Nat} {inside s : List Char} (hunit : hexUnit? [a, b, c, d] = some (n, []))
      (hlow : isLowSurrogate n = false) (hhigh : isHighSurrogate n = false) (hinside : Quotes inside s) :
      Quotes ('\\' :: 'u' :: a :: b :: c :: d :: inside) (Char.ofNat n :: s)
  | pair {a b c d a' b' c' d' : Char} {m n : Nat} {inside s : List Char}
      (hfirst : hexUnit? [a, b, c, d] = some (m, [])) (hhigh : isHighSurrogate m = true)
      (hsecond : hexUnit? [a', b', c', d'] = some (n, [])) (hlow : isLowSurrogate n = true)
      (hinside : Quotes inside s) :
      Quotes ('\\' :: 'u' :: a :: b :: c :: d :: '\\' :: 'u' :: a' :: b' :: c' :: d' :: inside)
        (Char.ofNat (0x10000 + (m - 0xd800) * 0x400 + (n - 0xdc00)) :: s)

theorem not_high_of_low {n : Nat} (h : isLowSurrogate n = true) : isHighSurrogate n = false := by
  simp [isLowSurrogate, isHighSurrogate] at h ⊢
  omega

theorem unquoteWithin_escape {cs tail : List Char} {e : Char} (h : escape cs = .ok (e, tail)) (fuel : Nat)
    (taken : List Char) : unquoteWithin (fuel + 1) taken ('\\' :: cs) = unquoteWithin fuel (e :: taken) tail := by
  rw [unquoteWithin, if_neg (by decide), if_pos rfl, h]

theorem escape_letter {c e : Char} (h : letterEscape? c = some e) (cs : List Char) :
    escape (c :: cs) = .ok (e, cs) := by
  unfold escape
  split
  · rename_i heq; cases heq
  · rename_i heq; cases heq; cases h
  · rename_i heq; cases heq; rw [h]

theorem Quotes.unquoteWithin {inside s : List Char} (h : Quotes inside s) {fuel : Nat} (hfuel : s.length < fuel)
    (taken rest : List Char) :
    unquoteWithin fuel taken (inside ++ '"' :: rest) = .ok (taken.reverse ++ s, rest) := by
  induction h generalizing fuel taken with
  | nil =>
    obtain ⟨fuel, rfl⟩ := Nat.exists_eq_succ_of_ne_zero (Nat.ne_of_gt hfuel)
    simp [Json.unquoteWithin]
  | @plain c inside s hc _ ih =>
    obtain ⟨fuel, rfl⟩ := Nat.exists_eq_succ_of_ne_zero (Nat.ne_of_gt (Nat.zero_lt_of_lt hfuel))
    obtain ⟨hcontrol, hquote, hback⟩ := hc
    rw [List.cons_append, Json.unquoteWithin, if_neg hquote, if_neg hback, if_neg hcontrol,
      ih (Nat.lt_of_succ_lt_succ hfuel)]
    simp
  | @letter c e inside s hc _ ih =>
    obtain ⟨fuel, rfl⟩ := Nat.exists_eq_succ_of_ne_zero (Nat.ne_of_gt (Nat.zero_lt_of_lt hfuel))
    rw [List.cons_append, List.cons_append, unquoteWithin_escape (escape_letter hc _),
      ih (Nat.lt_of_succ_lt_succ hfuel)]
    simp
  | @unit a b c d n inside s hunit hlow hhigh _ ih =>
    obtain ⟨fuel, rfl⟩ := Nat.exists_eq_succ_of_ne_zero (Nat.ne_of_gt (Nat.zero_lt_of_lt hfuel))
    have hread : escape ('u' :: a :: b :: c :: d :: (inside ++ '"' :: rest)) =
        .ok (Char.ofNat n, inside ++ '"' :: rest) := by
      show unicodeEscape _ = _
      unfold unicodeEscape
      rw [hexUnit_of_digits hunit]
      simp only [bind, Except.bind, hlow, hhigh, Bool.false_eq_true, if_false]
    simp only [List.cons_append]
    rw [unquoteWithin_escape hread, ih (Nat.lt_of_succ_lt_succ hfuel)]
    simp
  | @pair a b c d a' b' c' d' m n inside s hfirst hhigh hsecond hlow _ ih =>
    obtain ⟨fuel, rfl⟩ := Nat.exists_eq_succ_of_ne_zero (Nat.ne_of_gt (Nat.zero_lt_of_lt hfuel))
    have hmlow : isLowSurrogate m = false := by
      by_contra h
      rw [not_high_of_low (Bool.not_eq_false _ ▸ h)] at hhigh
      cases hhigh
    have hread : escape ('u' :: a :: b :: c :: d :: '\\' :: 'u' :: a' :: b' :: c' :: d' :: (inside ++ '"' :: rest)) =
        .ok (Char.ofNat (0x10000 + (m - 0xd800) * 0x400 + (n - 0xdc00)), inside ++ '"' :: rest) := by
      show unicodeEscape _ = _
      unfold unicodeEscape
      rw [hexUnit_of_digits hfirst]
      simp only [bind, Except.bind, hmlow, hhigh, Bool.false_eq_true, if_false, if_true, hexUnit_of_digits hsecond,
        hlow]
    simp only [List.cons_append]
    rw [unquoteWithin_escape hread, ih (Nat.lt_of_succ_lt_succ hfuel)]
    simp

theorem Quotes.length_le {inside s : List Char} (h : Quotes inside s) : s.length ≤ inside.length := by
  induction h with
  | nil => exact Nat.le_refl 0
  | _ => simp only [List.length_cons] at *; omega

/-- A name is read from whatever spells it. -/
theorem Quotes.unquote {inside s : List Char} (h : Quotes inside s) (rest : List Char) :
    unquote (inside ++ '"' :: rest) = .ok (s, rest) := by
  have hlen := h.length_le
  refine h.unquoteWithin ?_ [] rest
  rw [List.length_append, List.length_cons]
  omega

theorem Quotes.escaped_append {inside s : List Char} (h : Quotes inside s) (c : Char) :
    Quotes (escaped c ++ inside) (c :: s) := by
  unfold escaped
  split_ifs with hquote hback hb hf hn hr ht hcontrol
  · subst hquote; exact .letter rfl h
  · subst hback; exact .letter rfl h
  · subst hb; exact .letter rfl h
  · subst hf; exact .letter rfl h
  · subst hn; exact .letter rfl h
  · subst hr; exact .letter rfl h
  · subst ht; exact .letter rfl h
  · have hlt : c.toNat < 32 := hcontrol
    have hunit := hexUnit?_control hlt []
    have hlow : isLowSurrogate c.toNat = false := by simp [isLowSurrogate]; omega
    have hhigh : isHighSurrogate c.toNat = false := by simp [isHighSurrogate]; omega
    have hchar := Quotes.unit hunit hlow hhigh h
    rwa [Char.ofNat_toNat] at hchar
  · exact .plain ⟨hcontrol, hquote, hback⟩ h

/-- Names as they are written are spelled so. -/
theorem quotes_escaped (s : List Char) : Quotes (s.flatMap escaped) s := by
  induction s with
  | nil => exact .nil
  | cons c s ih =>
    rw [List.flatMap_cons]
    exact ih.escaped_append c

/-! ## What a reader makes of a text -/

/-- Blanks before the text are all one to the reader. -/
def PassesBlanks {α : Type} (read : Reader α) : Prop :=
  ∀ {blanks : List Char}, AllBlank blanks → ∀ cs, read (blanks ++ cs) = read cs

/-- The reader takes the text, and no more of what follows, and this comes of it. -/
def Reads {α : Type} (read : Reader α) (text : List Char) (result : Except Fault α) : Prop :=
  ∀ rest, Ends rest → read (text ++ rest) = result.map fun value => (value, rest)

theorem Spells.reads {α : Type} {read : Reader α} {text : List Char} {value : α} (h : Spells read text value) :
    Reads read text (.ok value) := h.read

theorem Reads.map {α β : Type} {codec : Codec α} {text : List Char} {result : Except Fault α}
    (h : Reads codec.read text result) (into : α → β) (back : β → α) :
    Reads (codec.map into back).read text (result.map into) := by
  intro rest hrest
  show (codec.read (text ++ rest)).map _ = _
  rw [h rest hrest]
  cases result <;> rfl

@[simp]
theorem passesBlanks_unsigned64 : PassesBlanks unsigned64.read := by
  intro blanks h cs
  show readNumber _ _ _ = readNumber _ _ _
  unfold readNumber
  rw [dropBlanks_append h]

@[simp]
theorem passesBlanks_signed32 : PassesBlanks signed32.read := by
  intro blanks h cs
  show readNumber _ _ _ = readNumber _ _ _
  unfold readNumber
  rw [dropBlanks_append h]

@[simp]
theorem passesBlanks_boolean : PassesBlanks boolean.read := by
  intro blanks h cs
  show readBoolean _ = readBoolean _
  unfold readBoolean
  rw [dropBlanks_append h]

@[simp]
theorem passesBlanks_text : PassesBlanks text.read := by
  intro blanks h cs
  show readText _ = readText _
  unfold readText
  rw [dropBlanks_append h]

@[simp]
theorem passesBlanks_list {α : Type} (element : Codec α) : PassesBlanks (list element).read := by
  intro blanks h cs
  show readList _ _ = readList _ _
  unfold readList
  rw [dropBlanks_append h]

@[simp]
theorem passesBlanks_record (title : String) (fields : List Field) : PassesBlanks (record title fields).read := by
  intro blanks h cs
  show readRecord _ _ _ = readRecord _ _ _
  unfold readRecord
  rw [dropBlanks_append h]

@[simp]
theorem passesBlanks_map {α β : Type} {codec : Codec α} (h : PassesBlanks codec.read) (into : α → β) (back : β → α) :
    PassesBlanks (codec.map into back).read := by
  intro blanks hblanks cs
  show (codec.read _).map _ = (codec.read _).map _
  rw [h hblanks]

/-! ## Members -/

/-- A member of an object, with blanks around the name, the colon and the value. -/
inductive IsMember : List Char → Entry → Prop
  | mk {name : String} {inside value : List Char} {a b c d : List Char} (ha : AllBlank a)
      (hname : Quotes inside name.toList) (hb : AllBlank b) (hc : AllBlank c) (hd : AllBlank d) :
      IsMember (a ++ '"' :: (inside ++ '"' :: (b ++ ':' :: (c ++ (value ++ d))))) (name, value)

/-- An object of the given members, whatever their values. -/
inductive IsObject : List Char → List Entry → Prop
  | mk {blanks : List Char} {texts : List (List Char)} {entries : List Entry} (hblanks : AllBlank blanks)
      (hmembers : List.Forall₂ IsMember texts entries) :
      IsObject ('{' :: (blanks ++ ([','].intercalate texts ++ ['}']))) entries

/-- What a member does to the slots of the fields. -/
def Puts (fields : List Field) (slots : Slots fields) (entry : Entry) (result : Except Fault (Slots fields)) : Prop :=
  ∀ before after rest, AllBlank before → AllBlank after → Ends rest →
    readMember entry.1 fields slots (before ++ ':' :: (after ++ (entry.2 ++ rest))) =
      result.map fun slots => (slots, rest)

/-- A member of no field is passed over. -/
theorem puts_extra {entry : Entry} (h : IsJson .value entry.2) : Puts [] () entry (.ok ()) := by
  intro before after rest hbefore hafter hrest
  rw [readMember]
  simp only [bind, Except.bind, colon_append hbefore, skip_append h hafter hrest]
  rfl

section

variable {field : Field} {fields : List Field}

theorem puts_read (slots : Slots fields) {text : List Char} {result : Except Fault field.Value}
    (hblanks : PassesBlanks field.codec.read) (h : Reads field.codec.read text result) :
    Puts (field :: fields) (none, slots) (field.name, text) (result.map fun value => (some value, slots)) := by
  intro before after rest hbefore hafter hrest
  rw [readMember, if_pos rfl, Option.isSome_none, if_neg Bool.false_ne_true]
  simp only [bind, Except.bind, colon_append hbefore, hblanks hafter, h rest hrest]
  cases result <;> rfl

/-- A field that has been read is not read again. -/
theorem puts_repeated {slots : Slots fields} (value : field.Value) (text : List Char) :
    Puts (field :: fields) (some value, slots) (field.name, text) (.error (.repeatedField field.name)) := by
  intro before after rest _ _ _
  rw [readMember, if_pos rfl, Option.isSome_some, if_pos rfl]
  rfl

theorem Puts.beside {slots : Slots fields} {entry : Entry} {result : Except Fault (Slots fields)}
    (h : Puts fields slots entry result) (hname : entry.1 ≠ field.name) (slot : Option field.Value) :
    Puts (field :: fields) (slot, slots) entry (result.map fun slots => (slot, slots)) := by
  intro before after rest hbefore hafter hrest
  rw [readMember, if_neg hname, h before after rest hbefore hafter hrest]
  cases result <;> rfl

end

/-- What members do one after the other: the first that cannot be taken ends it. -/
inductive PutsAll (fields : List Field) : Slots fields → List Entry → Except Fault (Slots fields) → Prop
  | nil {slots : Slots fields} : PutsAll fields slots [] (.ok slots)
  | cons {slots next : Slots fields} {entry : Entry} {entries : List Entry} {result : Except Fault (Slots fields)}
      (hentry : Puts fields slots entry (.ok next)) (hentries : PutsAll fields next entries result) :
      PutsAll fields slots (entry :: entries) result
  | fail {slots : Slots fields} {entry : Entry} {entries : List Entry} {fault : Fault}
      (hentry : Puts fields slots entry (.error fault)) : PutsAll fields slots (entry :: entries) (.error fault)

theorem nextMember_append {blanks : List Char} (h : AllBlank blanks) (first : Bool) (cs : List Char) :
    nextMember first (blanks ++ cs) = nextMember first cs := by
  unfold nextMember
  rw [dropBlanks_append h]

theorem readMembersWithin_append {fields : List Field} {slots : Slots fields} (fuel : Nat) (first : Bool)
    {blanks : List Char} (h : AllBlank blanks) (cs : List Char) :
    readMembersWithin fields fuel first slots (blanks ++ cs) = readMembersWithin fields fuel first slots cs := by
  cases fuel with
  | zero => rfl
  | succ fuel => rw [readMembersWithin, readMembersWithin, nextMember_append h]

/-- The text of a member or an element, with a comma before it unless it is the first. -/
def separated (first : Bool) (cs : List Char) : List Char := if first then cs else ',' :: cs

theorem separated_append (first : Bool) (cs rest : List Char) :
    separated first cs ++ rest = separated first (cs ++ rest) := by
  cases first <;> rfl

theorem nextMember_name {blanks : List Char} (h : AllBlank blanks) (first : Bool) (cs : List Char) :
    nextMember first (separated first (blanks ++ '"' :: cs)) = .ok (true, cs) := by
  unfold nextMember separated
  cases first with
  | true => simp [dropBlanks_append_cons h (show isBlank '"' = false by decide)]
  | false =>
    simp [dropBlanks_cons (show isBlank ',' = false by decide),
      dropBlanks_append_cons h (show isBlank '"' = false by decide)]

/-- A member of an object is taken as it stands, whatever its layout. -/
theorem readMembersWithin_puts {fields : List Field} {slots : Slots fields} {text : List Char} {entry : Entry}
    {result : Except Fault (Slots fields)} (hmember : IsMember text entry) (h : Puts fields slots entry result)
    (fuel : Nat) (first : Bool) {rest : List Char} (hrest : Ends rest) :
    readMembersWithin fields (fuel + 1) first slots (separated first (text ++ rest)) =
      result.bind fun slots => readMembersWithin fields fuel false slots rest := by
  cases hmember with
  | @mk name inside value a b c d ha hname hb hc hd =>
    have hread := h b c (d ++ rest) hb hc (ends_append hd hrest)
    simp only [List.append_assoc, List.cons_append]
    rw [readMembersWithin, nextMember_name ha]
    simp only [hname.unquote, String.ofList_toList, hread]
    cases result with
    | error fault => rfl
    | ok next => exact readMembersWithin_append fuel false hd rest

theorem readMembersWithin_putsAll {fields : List Field} {slots : Slots fields} {texts : List (List Char)}
    {entries : List Entry} {result : Except Fault (Slots fields)} (hmembers : List.Forall₂ IsMember texts entries)
    (h : PutsAll fields slots entries result) {fuel : Nat} (hfuel : entries.length < fuel) (first : Bool)
    (rest : List Char) :
    readMembersWithin fields fuel first slots (commaed first texts ++ '}' :: rest) =
      result.map fun slots => (slots, rest) := by
  induction hmembers generalizing slots fuel first with
  | nil =>
    obtain ⟨fuel, rfl⟩ := Nat.exists_eq_succ_of_ne_zero (Nat.ne_of_gt hfuel)
    cases h
    simp [readMembersWithin, commaed, nextMember_close, Except.map]
  | @cons text entry texts entries hmember _ ih =>
    obtain ⟨fuel, rfl⟩ := Nat.exists_eq_succ_of_ne_zero (Nat.ne_of_gt (Nat.zero_lt_of_lt hfuel))
    have hends := ends_commaed '}' (by decide) texts rest
    rw [show commaed first (text :: texts) = separated first text ++ commaed false texts from rfl, List.append_assoc,
      separated_append]
    cases h with
    | cons hentry hentries =>
      rw [readMembersWithin_puts hmember hentry fuel first hends]
      exact ih hentries (Nat.lt_of_succ_lt_succ hfuel) false
    | fail hentry =>
      rw [readMembersWithin_puts hmember hentry fuel first hends]
      rfl

theorem PutsAll.append {fields : List Field} {slots next : Slots fields} {before after : List Entry}
    {result : Except Fault (Slots fields)} (hbefore : PutsAll fields slots before (.ok next))
    (hafter : PutsAll fields next after result) : PutsAll fields slots (before ++ after) result := by
  induction before generalizing slots with
  | nil => cases hbefore; exact hafter
  | cons entry before ih =>
    cases hbefore with
    | cons hentry hentries => exact .cons hentry (ih hentries)

theorem IsMember.ne_nil {text : List Char} {entry : Entry} (h : IsMember text entry) : text ≠ [] := by
  cases h
  simp

theorem IsObject.opens {text : List Char} {entries : List Entry} (h : IsObject text entries) :
    ∃ c cs, text = c :: cs ∧ isBlank c = false ∧ c ≠ ']' := by
  cases h
  exact ⟨'{', _, rfl, by decide, by decide⟩

/-- What is made of an object is what its members make of empty slots. -/
theorem reads_object (title : String) {fields : List Field} {text : List Char} {entries : List Entry}
    {result : Except Fault (Slots fields)} (h : IsObject text entries)
    (hputs : PutsAll fields (Slots.empty fields) entries result) :
    Reads (record title fields).read text (result.bind (Slots.row fields)) := by
  obtain ⟨hblanks, hmembers⟩ := h
  rename_i blanks texts
  intro rest _
  have hne : ∀ text ∈ texts, text ≠ [] := by
    intro text htext
    obtain ⟨i, hi, rfl⟩ := List.getElem_of_mem htext
    exact (hmembers.get hi (hmembers.length_eq ▸ hi)).ne_nil
  have hlen := length_le_commaed hne true
  rw [hmembers.length_eq] at hlen
  show readRecord title fields ('{' :: _ ++ rest) = _
  unfold readRecord
  rw [List.cons_append, dropBlanks_cons (by decide), List.append_assoc, intercalate_eq_commaed, List.append_assoc,
    List.singleton_append]
  simp only [bind, Except.bind]
  rw [readMembersWithin_append _ _ hblanks, readMembersWithin_putsAll hmembers hputs]
  · cases result with
    | error fault => rfl
    | ok slots => simp only [Except.map]
  · simp only [List.length_append, List.length_cons]
    omega

theorem isMember_text (entry : Entry) : IsMember entry.text entry := by
  have h : IsMember _ (entry.1, entry.2) :=
    .mk allBlank_nil (quotes_escaped entry.1.toList) allBlank_nil allBlank_nil allBlank_nil
  simpa [Entry.text, member, quote] using h

/-- The object that is written is laid out in one of the ways. -/
theorem isObject_bracketed (entries : List Entry) : IsObject (bracketed '{' '}' (entries.map Entry.text)) entries :=
  .mk allBlank_nil (List.forall₂_map_left_iff.2 (List.forall₂_same.2 fun entry _ => isMember_text entry))

end FleetRoster.Json
