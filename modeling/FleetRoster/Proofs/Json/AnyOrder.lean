/-
Records from objects whose members stand in any order, with others among them. After some members the slots
hold the values of the fields named so far and nothing else, in whatever order they came; so the members
that are there decide what is read, and which fault there is if one is missing or comes twice.
-/
import FleetRoster.Proofs.Json.Layout

namespace FleetRoster.Json

/-- The names of the fields. -/
def names (fields : List Field) : List String := fields.map (·.name)

/-- The slots in which the fields of the given names have the values of the row. -/
def Row.given {fields : List Field} (row : Row fields) (given : List String) : Slots fields :=
  match fields, row with
  | [], () => ()
  | field :: _, (value, row) => (if field.name ∈ given then some value else none, Row.given row given)

/-- The row in which the fields that are not given have their defaults. -/
def Row.restored {fields : List Field} (row : Row fields) (given : List String) : Row fields :=
  match fields, row with
  | [], () => ()
  | field :: _, (value, row) =>
    (if field.name ∈ given then value else field.default?.getD value, Row.restored row given)

/-- The member may stand among those of the row: it gives the value of its field, or is of no field and holds
any JSON text. -/
inductive Row.Holds : (fields : List Field) → Row fields → Entry → Prop
  | extra {entry : Entry} (h : IsJson .value entry.2) : Holds [] () entry
  | here {field : Field} {fields : List Field} {value : field.Value} {row : Row fields} {text : List Char}
      (h : Spells field.codec.read text value) : Holds (field :: fields) (value, row) (field.name, text)
  | beside {field : Field} {fields : List Field} {value : field.Value} {row : Row fields} {entry : Entry}
      (hname : entry.1 ≠ field.name) (h : Holds fields row entry) : Holds (field :: fields) (value, row) entry

/-! ## Slots -/

section

variable {fields : List Field}

theorem Row.given_nil (row : Row fields) : row.given [] = Slots.empty fields := by
  induction fields with
  | nil => rfl
  | cons field fields ih =>
    obtain ⟨value, row⟩ := row
    simp only [Row.given, Slots.empty, ih row, List.not_mem_nil, if_false]
    rfl

theorem Row.given_cons_of_not_mem (row : Row fields) {name : String} (h : name ∉ names fields) (given : List String) :
    row.given (name :: given) = row.given given := by
  induction fields with
  | nil => rfl
  | cons field fields ih =>
    obtain ⟨hfield, hfields⟩ := not_or.1 (List.mem_cons.not.1 h)
    obtain ⟨value, row⟩ := row
    simp only [Row.given, ih row hfields, List.mem_cons, Ne.symm hfield, false_or]
    rfl

theorem Row.given_congr (row : Row fields) {given given' : List String} (h : ∀ name, name ∈ given ↔ name ∈ given') :
    row.given given = row.given given' := by
  induction fields with
  | nil => rfl
  | cons field fields ih =>
    obtain ⟨value, row⟩ := row
    simp only [Row.given, ih row, h]
    rfl

/-- The slots make up a row if what is not given has a default; else the first field that is missing is the fault. -/
theorem Row.row_given (row : Row fields) (given : List String) :
    (row.given given).row =
      match fields.find? fun field => field.default?.isNone && field.name ∉ given with
      | some field => .error (.missingField field.name)
      | none => .ok (row.restored given) := by
  induction fields with
  | nil => rfl
  | cons field fields ih =>
    obtain ⟨value, row⟩ := row
    simp only [Row.given, Row.restored, Slots.row, List.find?_cons, ih row]
    by_cases hgiven : field.name ∈ given
    · simp only [hgiven, if_true, not_true_eq_false, decide_false, Bool.and_false]
      cases List.find? _ fields <;> rfl
    · cases hdefault : field.default? with
      | none => simp [hgiven]
      | some value =>
        simp only [hgiven]
        cases List.find? _ fields <;> rfl

/-- Fields without a default have no other values than those of the row. -/
theorem Row.restored_of_required (h : ∀ field ∈ fields, field.default? = none) (row : Row fields)
    (given : List String) : row.restored given = row := by
  induction fields with
  | nil => rfl
  | cons field fields ih =>
    obtain ⟨hfield, hfields⟩ := List.forall_mem_cons.1 h
    obtain ⟨value, row⟩ := row
    simp only [Row.restored, ih hfields, hfield, Option.getD_none, ite_self]
    rfl

/-! ## One member after the other -/

variable {row : Row fields} {given : List String}

/-- A member that the row may have is the next to be given. -/
theorem Row.Holds.puts (hnames : (names fields).Nodup) (hblanks : ∀ field ∈ fields, PassesBlanks field.codec.read)
    {entry : Entry} (h : Row.Holds fields row entry) (honce : entry.1 ∈ names fields → entry.1 ∉ given) :
    Puts fields (row.given given) entry (.ok (row.given (entry.1 :: given))) := by
  induction h with
  | extra h => exact puts_extra h
  | @here field fields value row text h =>
    obtain ⟨hfield, -⟩ := List.nodup_cons.1 hnames
    have hnew : field.name ∉ given := honce (List.mem_cons_self ..)
    have hputs := puts_read (row.given given) (hblanks field (List.mem_cons_self ..)) h.reads
    simp only [Row.given, hnew, if_false, List.mem_cons_self, if_true, row.given_cons_of_not_mem hfield]
    exact hputs
  | @beside field fields value row entry hname h ih =>
    obtain ⟨-, hnames⟩ := List.nodup_cons.1 hnames
    have hputs := ih hnames (fun field hmem => hblanks field (List.mem_cons_of_mem _ hmem))
      (fun hmem => honce (List.mem_cons_of_mem _ hmem))
    have hslot : (field.name ∈ entry.1 :: given) = (field.name ∈ given) := by
      simp only [List.mem_cons, Ne.symm hname, false_or]
    simp only [Row.given, hslot]
    exact hputs.beside hname _

/-- A field that is given again is a fault, whatever its value. -/
theorem Row.puts_again (row : Row fields) {entry : Entry} (hname : entry.1 ∈ names fields) (hgiven : entry.1 ∈ given) :
    Puts fields (row.given given) entry (.error (.repeatedField entry.1)) := by
  induction fields with
  | nil => cases hname
  | cons field fields ih =>
    obtain ⟨value, row⟩ := row
    obtain ⟨name, text⟩ := entry
    by_cases hfield : name = field.name
    · subst hfield
      rw [Row.given, if_pos hgiven]
      exact puts_repeated value text
    · have hrest : name ∈ names fields := (List.mem_cons.1 hname).resolve_left hfield
      exact (ih row hrest).beside hfield _

/-- No field is given twice. -/
def Once (fields : List Field) (entries : List Entry) : Prop :=
  entries.Pairwise fun entry later => entry.1 ∈ names fields → later.1 ≠ entry.1

instance (fields : List Field) (entries : List Entry) : Decidable (Once fields entries) :=
  inferInstanceAs (Decidable (entries.Pairwise _))

/-- Members that the row may have leave the fields of their names given. -/
theorem Row.putsAll (hnames : (names fields).Nodup) (hblanks : ∀ field ∈ fields, PassesBlanks field.codec.read)
    {entries : List Entry} (h : ∀ entry ∈ entries, Row.Holds fields row entry) (honce : Once fields entries)
    (given : List String) (hgiven : ∀ entry ∈ entries, entry.1 ∈ names fields → entry.1 ∉ given) :
    PutsAll fields (row.given given) entries (.ok (row.given (entries.map (·.1) ++ given))) := by
  induction entries generalizing given with
  | nil => exact .nil
  | cons entry entries ih =>
    obtain ⟨hentry, hentries⟩ := List.forall_mem_cons.1 h
    obtain ⟨hlater, honce⟩ := List.pairwise_cons.1 honce
    obtain ⟨hnew, hgiven⟩ := List.forall_mem_cons.1 hgiven
    have hnext : ∀ later ∈ entries, later.1 ∈ names fields → later.1 ∉ entry.1 :: given := by
      intro later hmem hname hcons
      rcases List.mem_cons.1 hcons with heq | hold
      · exact hlater later hmem (heq ▸ hname) heq
      · exact hgiven later hmem hname hold
    have hrest := ih hentries honce _ hnext
    -- the order of the names does not matter to the slots
    have hsame : row.given (entries.map (·.1) ++ entry.1 :: given) =
        row.given ((entry :: entries).map (·.1) ++ given) := by
      refine row.given_congr fun name => ?_
      simp only [List.map_cons, List.mem_append, List.mem_cons]
      tauto
    rw [hsame] at hrest
    exact .cons (hentry.puts hnames hblanks hnew) hrest

/-! ## The members of a record -/

/-- The members are those of a record, whose fields have the given texts, in any order, perhaps without some
of them, and with any number of others among them, of other names and with any JSON texts as values. -/
structure Arranged (fields : List Field) (texts : List (List Char)) (members : List Entry) : Prop where
  known : (members.filter fun entry => entry.1 ∈ names fields).Subperm (entries fields texts)
  others : ∀ entry ∈ members, entry.1 ∉ names fields → IsJson .value entry.2

theorem Row.Spelled.length_eq {texts : List (List Char)} (h : Row.Spelled fields row texts) :
    fields.length = texts.length := by
  induction h with
  | nil => rfl
  | cons _ _ ih => rw [List.length_cons, List.length_cons, ih]

theorem Row.holds_other (row : Row fields) {entry : Entry} (hname : entry.1 ∉ names fields)
    (h : IsJson .value entry.2) : Row.Holds fields row entry := by
  induction fields with
  | nil => exact .extra h
  | cons field fields ih =>
    obtain ⟨hfield, hfields⟩ := not_or.1 (List.mem_cons.not.1 hname)
    exact .beside hfield (ih row.2 hfields)

theorem Row.Spelled.holds {texts : List (List Char)} (h : Row.Spelled fields row texts)
    (hnames : (names fields).Nodup) {entry : Entry} (hmem : entry ∈ entries fields texts) :
    Row.Holds fields row entry := by
  induction h with
  | nil => cases hmem
  | @cons field fields value row text texts hvalue _ ih =>
    obtain ⟨hfield, hnames⟩ := List.nodup_cons.1 hnames
    rcases List.mem_cons.1 hmem with rfl | hmem
    · exact .here hvalue
    · have hname := (List.of_mem_zip hmem).1
      exact .beside (fun heq => hfield (by rwa [heq] at hname)) (ih hnames hmem)

namespace Arranged

variable {texts : List (List Char)} {members : List Entry}

theorem holds (h : Arranged fields texts members) (hrow : Row.Spelled fields row texts)
    (hnames : (names fields).Nodup) : ∀ entry ∈ members, Row.Holds fields row entry := by
  intro entry hmem
  by_cases hname : entry.1 ∈ names fields
  · exact hrow.holds hnames (h.known.subset (List.mem_filter.2 ⟨hmem, decide_eq_true hname⟩))
  · exact row.holds_other hname (h.others entry hmem hname)

theorem once (h : Arranged fields texts members) (hrow : Row.Spelled fields row texts)
    (hnames : (names fields).Nodup) : Once fields members := by
  have hdistinct : ((entries fields texts).map (·.1)).Nodup := by
    rw [entries, List.map_fst_zip (by rw [List.length_map, hrow.length_eq])]
    exact hnames
  obtain ⟨some, hperm, hsub⟩ := h.known
  have hfiltered := (hperm.map (·.1)).nodup_iff.1 ((hsub.map (·.1)).nodup hdistinct)
  rw [List.Nodup, List.pairwise_map, List.pairwise_filter] at hfiltered
  refine hfiltered.imp fun {entry later} hne hname heq => ?_
  exact hne (decide_eq_true hname) (decide_eq_true (heq ▸ hname)) heq.symm

end Arranged

section

variable (title : String) {texts : List (List Char)} {members : List Entry} {text : List Char}

/-- The object of a record's members, whatever their order and whatever is among them, is read as the record
with defaults for what is left out, or the first field missing without a default is the fault. -/
theorem reads_arranged (hnames : (names fields).Nodup) (hblanks : ∀ field ∈ fields, PassesBlanks field.codec.read)
    (hrow : Row.Spelled fields row texts) (h : Arranged fields texts members) (htext : IsObject text members) :
    Reads (record title fields).read text
      (match fields.find? fun field => field.default?.isNone && field.name ∉ members.map (·.1) with
        | some field => .error (.missingField field.name)
        | none => .ok (row.restored (members.map (·.1)))) := by
  have hputs := Row.putsAll hnames hblanks (h.holds hrow hnames) (h.once hrow hnames) [] fun _ _ _ => List.not_mem_nil
  rw [row.given_nil, List.append_nil] at hputs
  rw [← row.row_given]
  exact reads_object title htext hputs

/-- A field that is given again is a fault, whatever its value and whatever follows. -/
theorem reads_again (hnames : (names fields).Nodup) (hblanks : ∀ field ∈ fields, PassesBlanks field.codec.read)
    (hrow : Row.Spelled fields row texts) (h : Arranged fields texts members) {again : Entry} {after : List Entry}
    (hname : again.1 ∈ names fields) (hagain : again.1 ∈ members.map (·.1))
    (htext : IsObject text (members ++ again :: after)) :
    Reads (record title fields).read text (.error (.repeatedField again.1)) := by
  have hputs := Row.putsAll hnames hblanks (h.holds hrow hnames) (h.once hrow hnames) [] fun _ _ _ => List.not_mem_nil
  rw [row.given_nil, List.append_nil] at hputs
  exact reads_object title htext (hputs.append (.fail (row.puts_again hname hagain)))

end

end

end FleetRoster.Json
