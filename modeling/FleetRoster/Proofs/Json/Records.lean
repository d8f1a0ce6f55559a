/-
Lists and records are read back as they were written, given that their elements and fields are. A record
is read from an object by putting its members into slots one after the other, and from a list by taking
one field after the other, so either container with the fields in the order they are declared gives the
row it was written for.
-/
import FleetRoster.Json.Record
import FleetRoster.Proofs.Json.Scalars

namespace FleetRoster.Json

/-! ## Texts with commas between them -/

/-- The texts with a comma before each of them, the first one aside if `first`. -/
def commaed (first : Bool) : List (List Char) → List Char
  | [] => []
  | part :: parts => (if first then part else ',' :: part) ++ commaed false parts

theorem intercalate_eq_commaed (parts : List (List Char)) : [','].intercalate parts = commaed true parts := by
  induction parts with
  | nil => rfl
  | cons part parts ih =>
    cases parts with
    | nil => simp [commaed]
    | cons next parts =>
      rw [List.intercalate_cons_cons, ih]
      simp [commaed]

theorem bracketed_eq (opening closing : Char) (parts : List (List Char)) :
    bracketed opening closing parts = opening :: (commaed true parts ++ [closing]) := by
  rw [bracketed, intercalate_eq_commaed]; rfl

theorem length_le_commaed {parts : List (List Char)} (h : ∀ part ∈ parts, part ≠ []) (first : Bool) :
    parts.length ≤ (commaed first parts).length := by
  induction parts generalizing first with
  | nil => exact Nat.le_refl 0
  | cons part parts ih =>
    obtain ⟨hpart, hparts⟩ := List.forall_mem_cons.1 h
    have hone : 1 ≤ part.length := List.length_pos_of_ne_nil hpart
    have hrest := ih hparts false
    cases first <;> simp only [commaed, List.length_append, List.length_cons, if_true, Bool.false_eq_true, if_false] <;> omega

/-- What follows a value inside a container does not extend it. -/
theorem ends_commaed (closing : Char) (h : closing ∈ [']', '}']) (parts : List (List Char)) (rest : List Char) :
    Ends (commaed false parts ++ closing :: rest) := by
  cases parts with
  | nil => exact ends_mark (List.mem_cons_of_mem ',' h) rest
  | cons part parts => exact ends_mark (by decide) _

/-! ## Lists -/

theorem Spells.nextElement? {α : Type} {read : Reader α} {text : List Char} {value : α} (h : Spells read text value)
    (first : Bool) (rest : List Char) :
    nextElement? first ((if first then text else ',' :: text) ++ rest) = .ok (some (text ++ rest)) := by
  obtain ⟨c, cs, rfl, hblank, hbracket⟩ := h.opens
  unfold Json.nextElement?
  cases first with
  | true => simp [dropBlanks_cons hblank, hbracket]
  | false => simp [dropBlanks_cons (show isBlank ',' = false by decide), dropBlanks_cons hblank, hbracket]

theorem nextElement?_close (first : Bool) (rest : List Char) : nextElement? first (']' :: rest) = .ok none := by
  unfold nextElement?
  rw [dropBlanks_cons (by decide)]
  rfl

theorem closeList_close (rest : List Char) : closeList (']' :: rest) = .ok rest := by
  unfold closeList
  rw [dropBlanks_cons (by decide)]
  rfl

theorem readElementsWithin_spelled {α : Type} {element : Reader α} {texts : List (List Char)} {values : List α}
    (h : List.Forall₂ (Spells element) texts values) {fuel : Nat} (hfuel : texts.length < fuel) (taken : List α)
    (rest : List Char) :
    readElementsWithin element fuel taken (commaed taken.isEmpty texts ++ ']' :: rest) =
      .ok (taken.reverse ++ values, rest) := by
  induction h generalizing fuel taken with
  | nil =>
    obtain ⟨fuel, rfl⟩ := Nat.exists_eq_succ_of_ne_zero (Nat.ne_of_gt hfuel)
    simp [readElementsWithin, commaed, nextElement?_close, closeList_close, Except.map]
  | @cons text value texts values hvalue _ ih =>
    obtain ⟨fuel, rfl⟩ := Nat.exists_eq_succ_of_ne_zero (Nat.ne_of_gt (Nat.zero_lt_of_lt hfuel))
    have hread := hvalue.read _ (ends_commaed ']' (by decide) texts rest)
    have hrest := ih (Nat.lt_of_succ_lt_succ hfuel) (value :: taken)
    rw [List.isEmpty_cons] at hrest
    rw [commaed, List.append_assoc, readElementsWithin, hvalue.nextElement?]
    simp only [hread, hrest, List.reverse_cons, List.append_assoc, List.singleton_append]

@[simp]
theorem faithful_list {α : Type} {element : Codec α} (h : element.Faithful) : (list element).Faithful := by
  intro values
  have htexts : List.Forall₂ (Spells element.read) (values.map element.write) values := by
    induction values with
    | nil => exact .nil
    | cons value values ih => exact .cons (h value) ih
  show Spells (readList element.read) (bracketed '[' ']' (values.map element.write)) values
  rw [bracketed_eq]
  refine ⟨⟨'[', _, rfl, by decide, by decide⟩, fun rest _ => ?_⟩
  have hne : ∀ text ∈ values.map element.write, text ≠ [] := by
    simp only [List.mem_map, forall_exists_index, and_imp, forall_apply_eq_imp_iff₂]
    exact fun value _ => (h value).ne_nil
  have hlen := length_le_commaed hne true
  unfold readList
  rw [List.cons_append, dropBlanks_cons (by decide), List.append_assoc]
  refine readElementsWithin_spelled htexts ?_ [] rest
  simp only [List.length_append, List.length_cons]
  omega

/-! ## Rows -/

@[simp]
theorem faithful_required {α : Type} (name : String) (codec : Codec α) :
    (Field.required name codec).codec.Faithful ↔ codec.Faithful := Iff.rfl

@[simp]
theorem faithful_optional {α : Type} (name : String) (codec : Codec α) (value : α) :
    (Field.optional name codec value).codec.Faithful ↔ codec.Faithful := Iff.rfl

/-- The fields have different names, and their values are read back from what is written for them. -/
structure Sound (fields : List Field) : Prop where
  names : (fields.map (·.name)).Nodup
  faithful : ∀ field ∈ fields, field.codec.Faithful

/-- Each of the texts stands for the value of its field. -/
inductive Row.Spelled : (fields : List Field) → Row fields → List (List Char) → Prop
  | nil : Spelled [] () []
  | cons {field : Field} {fields : List Field} {value : field.Value} {row : Row fields} {text : List Char}
      {texts : List (List Char)} (hvalue : Spells field.codec.read text value) (hrow : Spelled fields row texts) :
      Spelled (field :: fields) (value, row) (text :: texts)

theorem Row.spelled_values {fields : List Field} (h : ∀ field ∈ fields, field.codec.Faithful) (row : Row fields) :
    Row.Spelled fields row row.values := by
  induction fields with
  | nil => exact .nil
  | cons field fields ih =>
    obtain ⟨hfield, hfields⟩ := List.forall_mem_cons.1 h
    exact .cons (hfield row.1) (ih hfields row.2)

theorem readFields_spelled (title : String) (total : Nat) {fields : List Field} {row : Row fields}
    {texts : List (List Char)} (h : Row.Spelled fields row texts) (count : Nat) (rest : List Char) :
    readFields title total count fields (commaed (count = 0) texts ++ ']' :: rest) = .ok (row, ']' :: rest) := by
  induction h generalizing count with
  | nil => rfl
  | @cons field fields value row text texts hvalue _ ih =>
    have hread := hvalue.read _ (ends_commaed ']' (by decide) texts rest)
    have hrest := ih (count + 1)
    rw [show decide (count + 1 = 0) = false from rfl] at hrest
    rw [commaed, List.append_assoc, readFields, hvalue.nextElement?]
    simp only [bind, Except.bind, hread, hrest]

/-- A record is read from the list of its fields' values. -/
theorem spells_bracketed_values (title : String) {fields : List Field} {row : Row fields} {texts : List (List Char)}
    (h : Row.Spelled fields row texts) : Spells (record title fields).read (bracketed '[' ']' texts) row := by
  show Spells (readRecord title fields) _ row
  rw [bracketed_eq]
  refine ⟨⟨'[', _, rfl, by decide, by decide⟩, fun rest _ => ?_⟩
  have hread := readFields_spelled title fields.length h 0 rest
  rw [show decide (0 = 0) = true from rfl] at hread
  unfold readRecord
  rw [List.cons_append, dropBlanks_cons (by decide), List.append_assoc]
  simp only [bind, Except.bind, List.singleton_append, hread, closeList_close]

/-! ## Members -/

/-- The slots of a row all of which has been read. -/
def Row.slots : (fields : List Field) → Row fields → Slots fields
  | [], () => ()
  | _ :: fields, (value, row) => (some value, Row.slots fields row)

theorem Row.row_slots {fields : List Field} (row : Row fields) : row.slots.row = .ok row := by
  induction fields with
  | nil => rfl
  | cons field fields ih =>
    obtain ⟨value, row⟩ := row
    show ((Row.slots fields row).row).map _ = _
    rw [ih]; rfl

/-- A member of an object: its name and the text of its value. -/
abbrev Entry := String × List Char

def Entry.text (entry : Entry) : List Char := member entry.1 entry.2

/-- The members of a record whose fields have the given texts. -/
def entries (fields : List Field) (texts : List (List Char)) : List Entry := (fields.map (·.name)).zip texts

theorem Row.members_eq {fields : List Field} (row : Row fields) :
    row.members = (entries fields row.values).map Entry.text := by
  induction fields with
  | nil => rfl
  | cons field fields ih =>
    obtain ⟨value, row⟩ := row
    show member field.name (field.codec.write value) :: Row.members fields row = _
    rw [ih]; rfl

/-- Reading the members takes the slots from what they are before to what they are after. -/
inductive Fills (fields : List Field) : Slots fields → List Entry → Slots fields → Prop
  | nil {slots : Slots fields} : Fills fields slots [] slots
  | cons {slots next last : Slots fields} {name : String} {value : List Char} {entries : List Entry}
      (hmember : ∀ rest, Ends rest → readMember name fields slots (':' :: (value ++ rest)) = .ok (next, rest))
      (hentries : Fills fields next entries last) : Fills fields slots ((name, value) :: entries) last

theorem nextMember_member (first : Bool) (name : String) (value rest : List Char) :
    nextMember first ((if first then member name value else ',' :: member name value) ++ rest) =
      .ok (true, name.toList.flatMap escaped ++ '"' :: ':' :: (value ++ rest)) := by
  unfold nextMember member quote
  cases first with
  | true => simp [dropBlanks_cons (show isBlank '"' = false by decide)]
  | false =>
    simp [dropBlanks_cons (show isBlank ',' = false by decide), dropBlanks_cons (show isBlank '"' = false by decide)]

theorem nextMember_close (first : Bool) (rest : List Char) : nextMember first ('}' :: rest) = .ok (false, rest) := by
  unfold nextMember
  rw [dropBlanks_cons (by decide)]
  rfl

theorem readMembersWithin_fills {fields : List Field} {slots last : Slots fields} {entries : List Entry}
    (h : Fills fields slots entries last) {fuel : Nat} (hfuel : entries.length < fuel) (first : Bool) (rest : List Char) :
    readMembersWithin fields fuel first slots
        (commaed first (entries.map Entry.text) ++ '}' :: rest) = .ok (last, rest) := by
  induction h generalizing fuel first with
  | nil =>
    obtain ⟨fuel, rfl⟩ := Nat.exists_eq_succ_of_ne_zero (Nat.ne_of_gt hfuel)
    simp [readMembersWithin, commaed, nextMember_close]
  | @cons slots next last name value entries hmember _ ih =>
    obtain ⟨fuel, rfl⟩ := Nat.exists_eq_succ_of_ne_zero (Nat.ne_of_gt (Nat.zero_lt_of_lt hfuel))
    have hread := hmember _ (ends_commaed '}' (by decide) (entries.map Entry.text) rest)
    have hrest := ih (Nat.lt_of_succ_lt_succ hfuel) false
    rw [List.map_cons, commaed, List.append_assoc, readMembersWithin, Entry.text, nextMember_member]
    simp only [unquote_flatMap_escaped, String.ofList_toList, hread, hrest]

/-- Members of other names pass a field by. -/
theorem Fills.beside {field : Field} {fields : List Field} {slots last : Slots fields}
    {entries : List Entry} (h : Fills fields slots entries last)
    (hnames : ∀ entry ∈ entries, entry.1 ≠ field.name) (slot : Option field.Value) :
    Fills (field :: fields) (slot, slots) entries (slot, last) := by
  induction h with
  | nil => exact .nil
  | @cons slots next last name value entries hmember _ ih =>
    obtain ⟨hname, hnames⟩ := List.forall_mem_cons.1 hnames
    have hpassed : ∀ rest, Ends rest → readMember name (field :: fields) (slot, slots) (':' :: (value ++ rest)) =
        .ok ((slot, next), rest) := by
      intro rest hrest
      rw [readMember, if_neg hname, hmember rest hrest]
      rfl
    exact .cons hpassed (ih hnames)

/-- Members in the order of the fields fill one slot after the other. -/
theorem Row.Spelled.fills {fields : List Field} {row : Row fields} {texts : List (List Char)}
    (h : Row.Spelled fields row texts) (hnames : (fields.map (·.name)).Nodup) :
    Fills fields (Slots.empty fields) (entries fields texts) row.slots := by
  induction h with
  | nil => exact .nil
  | @cons field fields value row text texts hvalue _ ih =>
    rw [List.map_cons, List.nodup_cons] at hnames
    have hfirst : ∀ rest, Ends rest → readMember field.name (field :: fields) (none, Slots.empty fields)
        (':' :: (text ++ rest)) = .ok ((some value, Slots.empty fields), rest) := by
      intro rest hrest
      have hcolon : colon (':' :: (text ++ rest)) = .ok (text ++ rest) := by
        unfold colon
        rw [dropBlanks_cons (by decide)]
        rfl
      rw [readMember, if_pos rfl, Option.isSome_none, if_neg Bool.false_ne_true]
      simp only [bind, Except.bind, hcolon, hvalue.read rest hrest]
    refine .cons hfirst ((ih hnames.2).beside (fun entry hentry heq => hnames.1 ?_) _)
    rw [← heq]; exact (List.of_mem_zip hentry).1

/-- A record is read from the object of its members in the order of the fields. -/
theorem spells_bracketed_members (title : String) {fields : List Field} {row : Row fields} {texts : List (List Char)}
    (h : Row.Spelled fields row texts) (hnames : (fields.map (·.name)).Nodup) :
    Spells (record title fields).read (bracketed '{' '}' ((entries fields texts).map Entry.text)) row := by
  have hfills := h.fills hnames
  have hne : ∀ part ∈ (entries fields texts).map Entry.text, part ≠ [] := by
    simp only [List.mem_map, forall_exists_index, and_imp, forall_apply_eq_imp_iff₂]
    exact fun entry _ => List.cons_ne_nil _ _
  have hlen := length_le_commaed hne true
  show Spells (readRecord title fields) _ row
  rw [bracketed_eq]
  refine ⟨⟨'{', _, rfl, by decide, by decide⟩, fun rest _ => ?_⟩
  unfold readRecord
  rw [List.cons_append, dropBlanks_cons (by decide), List.append_assoc, List.singleton_append]
  rw [List.length_map] at hlen
  simp only [bind, Except.bind]
  rw [readMembersWithin_fills hfills (by rw [List.length_append]; omega)]
  simp only [row.row_slots]

end FleetRoster.Json
