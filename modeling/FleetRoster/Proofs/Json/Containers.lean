/-
Lists and records are read or refused as a whole, if their elements and fields are; and a record that is read
from an object has been given every field without a default, and no field twice, whatever good JSON the
members hold.
-/
import FleetRoster.Proofs.Json.AnyOrder
import FleetRoster.Proofs.Json.Definite

namespace FleetRoster.Json

/-! ## Lists -/

theorem nextElement?_append {blanks : List Char} (h : AllBlank blanks) (first : Bool) (cs : List Char) :
    nextElement? first (blanks ++ cs) = nextElement? first cs := by
  unfold nextElement?
  rw [dropBlanks_append h]

/-- The next element of a list begins where its value does. -/
theorem nextElement?_value {blanks value : List Char} (h : AllBlank blanks) (hvalue : IsJson .value value)
    (first : Bool) (rest : List Char) :
    nextElement? first (separated first (blanks ++ (value ++ rest))) = .ok (some (value ++ rest)) := by
  obtain ⟨c, cs, rfl, hblank, hc⟩ := hvalue.opens
  have hclose : c ≠ ']' := by rintro rfl; simp at hc
  unfold nextElement? separated
  cases first with
  | true => simp [dropBlanks_append_cons h hblank, hclose]
  | false =>
    simp [dropBlanks_cons (show isBlank ',' = false by decide), dropBlanks_append_cons h hblank, hclose]

theorem closeList_append {blanks : List Char} (h : AllBlank blanks) (cs : List Char) :
    closeList (blanks ++ cs) = closeList cs := by
  unfold closeList
  rw [dropBlanks_append h]

section

variable {α : Type} {element : Reader α}

theorem readElementsWithin_append (fuel : Nat) (taken : List α) {blanks : List Char} (h : AllBlank blanks)
    (cs : List Char) :
    readElementsWithin element fuel taken (blanks ++ cs) = readElementsWithin element fuel taken cs := by
  cases fuel with
  | zero => rfl
  | succ fuel => rw [readElementsWithin, readElementsWithin, nextElement?_append h, closeList_append h]

theorem readElementsWithin_close (fuel : Nat) (taken : List α) (rest : List Char) :
    readElementsWithin element (fuel + 1) taken (']' :: rest) = .ok (taken.reverse, rest) := by
  rw [readElementsWithin, nextElement?_close, closeList_close]
  rfl

/-- A list goes on after its next value, or is refused for it. -/
theorem readElementsWithin_value {blanks value : List Char} (h : AllBlank blanks) (hvalue : IsJson .value value)
    {result : Except Fault α} (hresult : Reads element value result) (fuel : Nat) (taken : List α)
    {rest : List Char} (hrest : Ends rest) :
    readElementsWithin element (fuel + 1) taken (separated taken.isEmpty (blanks ++ (value ++ rest))) =
      result.bind fun value => readElementsWithin element fuel (value :: taken) rest := by
  rw [readElementsWithin, nextElement?_value h hvalue]
  simp only [hresult rest hrest]
  cases result <;> rfl

theorem settled_readElementsWithin (helement : Definite element) {items : List Char}
    (h : IsJson (.items .list) items) (taken : List α) :
    ∃ result : Except Fault (List α), ∀ fuel rest, items.length < fuel →
      readElementsWithin element fuel taken (separated taken.isEmpty (items ++ ']' :: rest)) =
        result.map fun values => (values, rest) := by
  generalize hpart : Part.items .list = part at h
  induction h generalizing taken with
  | @last container label before value after hlabel hbefore hvalue hafter _ =>
    cases hpart
    cases hlabel
    obtain ⟨result, hresult⟩ := helement value hvalue
    refine ⟨result.map fun value => (value :: taken).reverse, fun fuel rest hfuel => ?_⟩
    -- one step for the value and one for the bracket
    obtain ⟨fuel, rfl⟩ : ∃ more, fuel = more + 1 + 1 := by
      obtain ⟨c, cs, rfl, -⟩ := hvalue.opens
      simp only [List.length_append, List.length_cons, List.nil_append] at hfuel
      exact ⟨fuel - 2, by omega⟩
    have hends : Ends (after ++ ']' :: rest) := ends_append hafter (ends_mark (by decide) rest)
    simp only [List.nil_append, List.append_assoc]
    rw [readElementsWithin_value hbefore hvalue hresult _ _ hends]
    cases result with
    | error fault => rfl
    | ok v => exact (readElementsWithin_append _ _ hafter _).trans (readElementsWithin_close ..)
  | @next container label before value after items hlabel hbefore hvalue hafter hitems _ ih =>
    cases hpart
    cases hlabel
    obtain ⟨result, hresult⟩ := helement value hvalue
    have hends : ∀ rest, Ends (after ++ ',' :: (items ++ ']' :: rest)) := fun rest =>
      ends_append hafter (ends_mark (by decide) _)
    -- what becomes of the other items is asked for only if this value is taken
    cases result with
    | error fault =>
      refine ⟨.error fault, fun fuel rest hfuel => ?_⟩
      obtain ⟨fuel, rfl⟩ := Nat.exists_eq_succ_of_ne_zero (Nat.ne_of_gt (Nat.zero_lt_of_lt hfuel))
      simp only [List.nil_append, List.append_assoc, List.cons_append]
      rw [readElementsWithin_value hbefore hvalue hresult _ _ (hends rest)]
      rfl
    | ok v =>
      obtain ⟨later, hlater⟩ := ih (v :: taken) rfl
      refine ⟨later, fun fuel rest hfuel => ?_⟩
      obtain ⟨fuel, rfl⟩ := Nat.exists_eq_succ_of_ne_zero (Nat.ne_of_gt (Nat.zero_lt_of_lt hfuel))
      simp only [List.nil_append, List.append_assoc, List.cons_append]
      rw [readElementsWithin_value hbefore hvalue hresult _ _ (hends rest)]
      refine (readElementsWithin_append _ _ hafter _).trans (hlater fuel rest ?_)
      simp only [List.length_append, List.length_cons, List.nil_append] at hfuel
      omega
  | _ => cases hpart

@[simp]
theorem definite_list {codec : Codec α} (helement : Definite codec.read) : Definite (list codec).read := by
  intro text h
  show Settled (readList codec.read) text
  obtain ⟨c, cs, rfl, hblank, -⟩ := h.opens
  obtain ⟨-, -, -, -, hlist, -⟩ := h.first
  by_cases hc : c = '['
  · obtain ⟨content, hcontent, rfl⟩ := hlist hc
    subst hc
    rcases hcontent with hblanks | hitems
    · refine ⟨.ok [], fun rest _ => ?_⟩
      unfold readList
      rw [List.cons_append, dropBlanks_cons hblank, List.append_assoc]
      exact (readElementsWithin_append _ _ hblanks _).trans (readElementsWithin_close ..)
    · obtain ⟨result, hread⟩ := settled_readElementsWithin helement hitems []
      refine ⟨result, fun rest _ => ?_⟩
      unfold readList
      rw [List.cons_append, dropBlanks_cons hblank, List.append_assoc]
      refine hread _ rest ?_
      simp only [List.length_append, List.length_cons]
      omega
  · refine h.settled_of_mismatch .list fun rest => ?_
    unfold readList
    rw [List.cons_append, dropBlanks_cons hblank]
    split
    · rename_i heq; cases heq; exact absurd rfl hc
    · rfl

end

/-! ## Records from lists -/

/-- Reads the fields of a record and the end of the list. -/
def readFieldsToEnd (title : String) (total count : Nat) (fields : List Field) : Reader (Row fields) := fun cs => do
  let (row, cs) ← readFields title total count fields cs
  let cs ← closeList cs
  .ok (row, cs)

section

variable (title : String) (total : Nat)

theorem readFieldsToEnd_append (fields : List Field) (count : Nat) {blanks : List Char} (h : AllBlank blanks)
    (cs : List Char) :
    readFieldsToEnd title total count fields (blanks ++ cs) = readFieldsToEnd title total count fields cs := by
  cases fields with
  | nil =>
    unfold readFieldsToEnd readFields
    simp only [bind, Except.bind, closeList_append h]
  | cons field fields =>
    unfold readFieldsToEnd readFields
    rw [nextElement?_append h]
    cases nextElement? (count = 0) cs with
    | error fault => rfl
    | ok next =>
      cases next with
      | some cs => rfl
      | none =>
        cases defaultRow title total count (field :: fields) with
        | error fault => rfl
        | ok row => simp only [Except.map, bind, Except.bind, closeList_append h]

/-- A list that ends leaves the other fields to their defaults. -/
theorem settled_readFieldsToEnd_close (fields : List Field) (count : Nat) :
    ∃ result : Except Fault (Row fields), ∀ blanks rest, AllBlank blanks →
      readFieldsToEnd title total count fields (blanks ++ ']' :: rest) = result.map fun row => (row, rest) := by
  cases fields with
  | nil =>
    refine ⟨.ok (), fun blanks rest hblanks => ?_⟩
    unfold readFieldsToEnd readFields
    simp only [bind, Except.bind, closeList_append hblanks, closeList_close]
    rfl
  | cons field fields =>
    refine ⟨defaultRow title total count (field :: fields), fun blanks rest hblanks => ?_⟩
    unfold readFieldsToEnd readFields
    rw [nextElement?_append hblanks, nextElement?_close]
    cases defaultRow title total count (field :: fields) with
    | error fault => rfl
    | ok row =>
      simp only [Except.map, bind, Except.bind, closeList_append hblanks, closeList_close]

theorem readFieldsToEnd_value {field : Field} (fields : List Field) (count : Nat) {blanks value : List Char}
    (h : AllBlank blanks) (hvalue : IsJson .value value) {result : Except Fault field.Value}
    (hresult : Reads field.codec.read value result) {rest : List Char} (hrest : Ends rest) :
    readFieldsToEnd title total count (field :: fields) (separated (count = 0) (blanks ++ (value ++ rest))) =
      result.bind fun value => (readFieldsToEnd title total (count + 1) fields rest).map fun (row, cs) =>
        ((value, row), cs) := by
  unfold readFieldsToEnd
  rw [readFields, nextElement?_value h hvalue]
  simp only [bind, Except.bind, hresult rest hrest]
  cases result with
  | error fault => rfl
  | ok v =>
    simp only [Except.map]
    cases readFields title total (count + 1) fields rest with
    | error fault => rfl
    | ok found =>
      simp only
      cases closeList found.2 <;> rfl

/-- More elements than fields are refused. -/
theorem readFieldsToEnd_more {items : List Char} (h : IsJson (.items .list) items) (count : Nat) (rest : List Char) :
    readFieldsToEnd title total count [] (separated (count = 0) (items ++ rest)) = .error .trailingCharacters := by
  obtain ⟨blanks, c, tail, hblanks, rfl, hblank, hcloser, hcomma⟩ := h.items_open
  have hclose : c ≠ ']' := hcloser
  have hdrop : dropBlanks (blanks ++ c :: tail ++ rest) = c :: (tail ++ rest) := by
    rw [List.append_assoc, List.cons_append, dropBlanks_append_cons hblanks hblank]
  have hend : closeList (separated (count = 0) (blanks ++ c :: tail ++ rest)) = .error .trailingCharacters := by
    unfold closeList separated
    cases decide (count = 0) with
    | true => simp only [if_true, hdrop, if_neg hclose, if_neg hcomma]
    | false =>
      simp only [Bool.false_eq_true, if_false, dropBlanks_cons (show isBlank ',' = false by decide), hdrop,
        if_neg hclose]
      rfl
  unfold readFieldsToEnd readFields
  simp only [bind, Except.bind, hend]

theorem settled_readFieldsToEnd {fields : List Field} (hfields : ∀ field ∈ fields, Definite field.codec.read)
    {items : List Char} (h : IsJson (.items .list) items) (count : Nat) :
    ∃ result : Except Fault (Row fields), ∀ rest,
      readFieldsToEnd title total count fields (separated (count = 0) (items ++ ']' :: rest)) =
        result.map fun row => (row, rest) := by
  -- on the fields, not on the items: either may be the first to end
  induction fields generalizing items count with
  | nil => exact ⟨.error .trailingCharacters, fun rest => readFieldsToEnd_more title total h count _⟩
  | cons field fields ih =>
    obtain ⟨hfield, hfields⟩ := List.forall_mem_cons.1 hfields
    cases h with
    | @last _ label before value after hlabel hbefore hvalue hafter =>
      cases hlabel
      obtain ⟨result, hresult⟩ := hfield value hvalue
      obtain ⟨later, hlater⟩ := settled_readFieldsToEnd_close title total fields (count + 1)
      refine ⟨result.bind fun value => later.map fun row => (value, row), fun rest => ?_⟩
      have hends : Ends (after ++ ']' :: rest) := ends_append hafter (ends_mark (by decide) rest)
      simp only [List.nil_append, List.append_assoc]
      rw [readFieldsToEnd_value title total fields count hbefore hvalue hresult hends, hlater after rest hafter]
      cases result <;> cases later <;> rfl
    | @next _ label before value after items hlabel hbefore hvalue hafter hitems =>
      cases hlabel
      obtain ⟨result, hresult⟩ := hfield value hvalue
      obtain ⟨later, hlater⟩ := ih hfields hitems (count + 1)
      refine ⟨result.bind fun value => later.map fun row => (value, row), fun rest => ?_⟩
      have hends : Ends (after ++ ',' :: (items ++ ']' :: rest)) := ends_append hafter (ends_mark (by decide) _)
      have hrest : readFieldsToEnd title total (count + 1) fields (after ++ ',' :: (items ++ ']' :: rest)) =
          later.map fun row => (row, rest) := by
        rw [readFieldsToEnd_append title total fields (count + 1) hafter]
        exact hlater rest
      simp only [List.nil_append, List.append_assoc, List.cons_append]
      rw [readFieldsToEnd_value title total fields count hbefore hvalue hresult hends, hrest]
      cases result <;> cases later <;> rfl

end

/-! ## Records from objects -/

/-- The field of that name has been read. -/
def Slots.has {fields : List Field} (slots : Slots fields) (name : String) : Prop :=
  match fields, slots with
  | [], () => False
  | field :: _, (slot, slots) => if name = field.name then slot.isSome = true else Slots.has slots name

section

variable {fields : List Field}

theorem Slots.has_cons_self {field : Field} (slot : Option field.Value) (slots : Slots fields) :
    @Slots.has (field :: fields) (slot, slots) field.name ↔ slot.isSome = true := by
  simp only [Slots.has, if_true]

theorem Slots.has_cons_of_ne {field : Field} (slot : Option field.Value) (slots : Slots fields) {name : String}
    (h : name ≠ field.name) : @Slots.has (field :: fields) (slot, slots) name ↔ slots.has name := by
  simp only [Slots.has, if_neg h]

theorem Slots.not_has_empty (name : String) : ¬ (Slots.empty fields).has name := by
  induction fields with
  | nil => exact not_false
  | cons field fields ih =>
    show ¬ @Slots.has (field :: fields) (none, Slots.empty fields) name
    by_cases hname : name = field.name
    · subst hname
      rw [Slots.has_cons_self]
      exact Bool.false_ne_true
    · rw [Slots.has_cons_of_ne _ _ hname]
      exact ih

/-- A row is made up only if every field without a default has been read. -/
theorem Slots.has_of_row (hnames : (names fields).Nodup) {slots : Slots fields} {row : Row fields}
    (h : slots.row = .ok row) {field : Field} (hmem : field ∈ fields) (hdefault : field.default? = none) :
    slots.has field.name := by
  induction fields with
  | nil => cases hmem
  | cons first fields ih =>
    obtain ⟨slot, slots⟩ := slots
    obtain ⟨value, row⟩ := row
    obtain ⟨hfirst, hnames⟩ := List.nodup_cons.1 hnames
    rw [Slots.row] at h
    split at h
    · cases h
    · rename_i found hfound
      rcases List.mem_cons.1 hmem with rfl | hmem
      · rw [Slots.has_cons_self]
        rw [hdefault] at hfound
        cases slot with
        | none => cases hfound
        | some value => rfl
      · have hname : field.name ∈ names fields := List.mem_map_of_mem hmem
        have hne : field.name ≠ first.name := fun heq => hfirst (by rwa [heq] at hname)
        rw [Slots.has_cons_of_ne _ _ hne]
        cases hrest : slots.row with
        | error fault => rw [hrest] at h; cases h
        | ok rest => exact ih hnames hrest hmem

/-- What a member does to the slots, whatever good JSON it holds: it fills the slot of its field, unless that
has been filled before, or leaves the slots as they are, or is refused. -/
theorem exists_puts (hblanks : ∀ field ∈ fields, PassesBlanks field.codec.read)
    (hdefinite : ∀ field ∈ fields, Definite field.codec.read) (slots : Slots fields) (entry : Entry)
    (h : IsJson .value entry.2) :
    ∃ result, Puts fields slots entry result ∧ ∀ next, result = .ok next →
      (entry.1 ∈ names fields → ¬ slots.has entry.1) ∧
        ∀ name ∈ names fields, next.has name ↔ slots.has name ∨ name = entry.1 := by
  induction fields with
  | nil =>
    refine ⟨.ok (), puts_extra h, fun _ _ => ⟨fun hmem => ?_, fun _ hmem => ?_⟩⟩
    all_goals cases hmem
  | cons field fields ih =>
    obtain ⟨slot, slots⟩ := slots
    obtain ⟨name, text⟩ := entry
    obtain ⟨hfieldBlanks, hblanks⟩ := List.forall_mem_cons.1 hblanks
    obtain ⟨hfield, hdefinite⟩ := List.forall_mem_cons.1 hdefinite
    by_cases hname : name = field.name
    · subst hname
      cases slot with
      | some value => exact ⟨_, puts_repeated value text, fun _ heq => by cases heq⟩
      | none =>
        obtain ⟨result, hresult⟩ := hfield text h
        refine ⟨_, puts_read slots hfieldBlanks hresult, fun next heq => ?_⟩
        cases result with
        | error fault => cases heq
        | ok value =>
          cases heq
          refine ⟨fun _ => ?_, fun name _ => ?_⟩
          · rw [Slots.has_cons_self]
            exact Bool.false_ne_true
          · by_cases hname : name = field.name
            · subst hname
              simp only [Slots.has_cons_self, Option.isSome_some, or_true]
            · simp only [Slots.has_cons_of_ne _ _ hname, hname, or_false]
    · obtain ⟨result, hputs, hnext⟩ := ih hblanks hdefinite slots
      refine ⟨_, hputs.beside hname slot, fun next heq => ?_⟩
      cases result with
      | error fault => cases heq
      | ok later =>
        cases heq
        obtain ⟨hnew, hnames⟩ := hnext later rfl
        refine ⟨fun hmem => ?_, fun other hmem => ?_⟩
        · rw [Slots.has_cons_of_ne _ _ hname]
          exact hnew ((List.mem_cons.1 hmem).resolve_left hname)
        · by_cases hother : other = field.name
          · subst hother
            simp only [Slots.has_cons_self, Ne.symm hname, or_false]
          · rw [Slots.has_cons_of_ne _ _ hother, Slots.has_cons_of_ne _ _ hother]
            exact hnames other ((List.mem_cons.1 hmem).resolve_left hother)

/-- Members that are all taken give no field twice, and leave the fields of their names read. -/
theorem exists_putsAll (hblanks : ∀ field ∈ fields, PassesBlanks field.codec.read)
    (hdefinite : ∀ field ∈ fields, Definite field.codec.read) (slots : Slots fields) {members : List Entry}
    (h : ∀ entry ∈ members, IsJson .value entry.2) :
    ∃ result, PutsAll fields slots members result ∧ ∀ last, result = .ok last →
      Once fields members ∧ (∀ entry ∈ members, entry.1 ∈ names fields → ¬ slots.has entry.1) ∧
        ∀ name ∈ names fields, last.has name ↔ slots.has name ∨ name ∈ members.map (·.1) := by
  induction members generalizing slots with
  | nil =>
    refine ⟨.ok slots, .nil, fun last heq => ?_⟩
    cases heq
    exact ⟨.nil, List.forall_mem_nil _, fun name _ => by simp⟩
  | cons entry members ih =>
    obtain ⟨hentry, hmembers⟩ := List.forall_mem_cons.1 h
    obtain ⟨result, hputs, hnext⟩ := exists_puts hblanks hdefinite slots entry hentry
    cases result with
    | error fault => exact ⟨_, .fail hputs, fun _ heq => by cases heq⟩
    | ok next =>
      obtain ⟨hnew, hhas⟩ := hnext next rfl
      obtain ⟨result, hall, hlast⟩ := ih next hmembers
      refine ⟨result, .cons hputs hall, fun last heq => ?_⟩
      obtain ⟨honce, hlater, hread⟩ := hlast last heq
      refine ⟨List.pairwise_cons.2 ⟨fun later hmem hname heq => ?_, honce⟩, ?_, fun name hname => ?_⟩
      · -- a later member of this name would have found its slot filled
        have hfilled : next.has later.1 := (hhas later.1 (heq ▸ hname)).2 (.inr heq)
        exact hlater later hmem (heq ▸ hname) hfilled
      · refine List.forall_mem_cons.2 ⟨hnew, fun later hmem hname hbefore => ?_⟩
        exact hlater later hmem hname ((hhas later.1 hname).2 (.inl hbefore))
      · rw [hread name hname, hhas name hname, List.map_cons, List.mem_cons, or_assoc]

theorem readMembersWithin_close (fuel : Nat) (first : Bool) (slots : Slots fields) (rest : List Char) :
    readMembersWithin fields (fuel + 1) first slots ('}' :: rest) = .ok (slots, rest) := by
  rw [readMembersWithin, nextMember_close]

/-- An object goes on after its next member, or is refused for its name or its value. -/
theorem exists_readMembersWithin_item (hblanks : ∀ field ∈ fields, PassesBlanks field.codec.read)
    (hdefinite : ∀ field ∈ fields, Definite field.codec.read) (slots : Slots fields) {label before value : List Char}
    (hlabel : IsLabel .object label) (hbefore : AllBlank before) (hvalue : IsJson .value value) :
    ∃ result : Except Fault (Slots fields), ∀ fuel first rest, Ends rest →
      readMembersWithin fields (fuel + 1) first slots (separated first (label ++ (before ++ (value ++ rest)))) =
        result.bind fun slots => readMembersWithin fields fuel false slots rest := by
  cases hlabel with
  | @object blanks inside after hblank hinside hafter =>
    obtain ⟨named, hnamed⟩ := hinside.settled_unquote
    cases named with
    | error fault =>
      refine ⟨.error fault, fun fuel first rest _ => ?_⟩
      simp only [List.append_assoc, List.cons_append, List.nil_append]
      rw [readMembersWithin, nextMember_name hblank]
      simp only [hnamed]
      rfl
    | ok name =>
      obtain ⟨result, hputs, -⟩ := exists_puts hblanks hdefinite slots (String.ofList name, value) hvalue
      refine ⟨result, fun fuel first rest hrest => ?_⟩
      have hread := hputs after before rest hafter hbefore hrest
      simp only [List.append_assoc, List.cons_append, List.nil_append]
      rw [readMembersWithin, nextMember_name hblank]
      simp only [hnamed, Except.map, hread]
      cases result <;> rfl

theorem settled_readMembersWithin (hblanks : ∀ field ∈ fields, PassesBlanks field.codec.read)
    (hdefinite : ∀ field ∈ fields, Definite field.codec.read) {items : List Char}
    (h : IsJson (.items .object) items) (first : Bool) (slots : Slots fields) :
    ∃ result : Except Fault (Slots fields), ∀ fuel rest, items.length < fuel →
      readMembersWithin fields fuel first slots (separated first (items ++ '}' :: rest)) =
        result.map fun slots => (slots, rest) := by
  generalize hpart : Part.items .object = part at h
  induction h generalizing first slots with
  | @last container label before value after hlabel hbefore hvalue hafter _ =>
    cases hpart
    obtain ⟨result, hitem⟩ := exists_readMembersWithin_item hblanks hdefinite slots hlabel hbefore hvalue
    refine ⟨result, fun fuel rest hfuel => ?_⟩
    obtain ⟨fuel, rfl⟩ : ∃ more, fuel = more + 1 + 1 := by
      obtain ⟨c, cs, rfl, -⟩ := hvalue.opens
      simp only [List.length_append, List.length_cons] at hfuel
      exact ⟨fuel - 2, by omega⟩
    simp only [List.append_assoc]
    rw [hitem _ _ _ (ends_append hafter (ends_mark (by decide) rest))]
    cases result with
    | error fault => rfl
    | ok next => exact (readMembersWithin_append _ _ hafter _).trans (readMembersWithin_close ..)
  | @next container label before value after items hlabel hbefore hvalue hafter hitems _ ih =>
    cases hpart
    obtain ⟨result, hitem⟩ := exists_readMembersWithin_item hblanks hdefinite slots hlabel hbefore hvalue
    have hends : ∀ rest, Ends (after ++ ',' :: (items ++ '}' :: rest)) := fun rest =>
      ends_append hafter (ends_mark (by decide) _)
    cases result with
    | error fault =>
      refine ⟨.error fault, fun fuel rest hfuel => ?_⟩
      obtain ⟨fuel, rfl⟩ := Nat.exists_eq_succ_of_ne_zero (Nat.ne_of_gt (Nat.zero_lt_of_lt hfuel))
      simp only [List.append_assoc, List.cons_append]
      rw [hitem _ _ _ (hends rest)]
      rfl
    | ok next =>
      obtain ⟨later, hlater⟩ := ih false next rfl
      refine ⟨later, fun fuel rest hfuel => ?_⟩
      obtain ⟨fuel, rfl⟩ := Nat.exists_eq_succ_of_ne_zero (Nat.ne_of_gt (Nat.zero_lt_of_lt hfuel))
      simp only [List.append_assoc, List.cons_append]
      rw [hitem _ _ _ (hends rest)]
      refine (readMembersWithin_append _ _ hafter _).trans (hlater fuel rest ?_)
      simp only [List.length_append, List.length_cons] at hfuel
      omega
  | _ => cases hpart

/-! ## Records -/

/-- What is made of an object is what its members make of empty slots. -/
theorem readRecord_object (title : String) {content rest : List Char} (result : Except Fault (Slots fields))
    (h : readMembersWithin fields ((content ++ '}' :: rest).length + 1) true (Slots.empty fields)
      (content ++ '}' :: rest) = result.map fun slots => (slots, rest)) :
    readRecord title fields ('{' :: (content ++ '}' :: rest)) =
      (result.bind (Slots.row fields)).map fun row => (row, rest) := by
  unfold readRecord
  rw [dropBlanks_cons (by decide)]
  simp only [bind, Except.bind, h]
  cases result with
  | error fault => rfl
  | ok slots => simp only [Except.map]

theorem readRecord_list (title : String) (cs : List Char) :
    readRecord title fields ('[' :: cs) = readFieldsToEnd title fields.length 0 fields cs := by
  unfold readRecord
  rw [dropBlanks_cons (by decide)]
  rfl

/-- Records are read or refused as a whole if their fields are. -/
theorem definite_record (title : String) (hblanks : ∀ field ∈ fields, PassesBlanks field.codec.read)
    (hdefinite : ∀ field ∈ fields, Definite field.codec.read) : Definite (record title fields).read := by
  intro text h
  show Settled (readRecord title fields) text
  obtain ⟨c, cs, rfl, hblank, -⟩ := h.opens
  obtain ⟨-, -, -, -, hlist, hobject⟩ := h.first
  by_cases hc : c = '['
  · obtain ⟨content, hcontent, rfl⟩ := hlist hc
    subst hc
    rcases hcontent with hempty | hitems
    · obtain ⟨result, hread⟩ := settled_readFieldsToEnd_close title fields.length fields 0
      refine ⟨result, fun rest _ => ?_⟩
      rw [List.cons_append, List.append_assoc, readRecord_list]
      exact hread content rest hempty
    · obtain ⟨result, hread⟩ := settled_readFieldsToEnd title fields.length hdefinite hitems 0
      refine ⟨result, fun rest _ => ?_⟩
      rw [List.cons_append, List.append_assoc, readRecord_list]
      exact hread rest
  by_cases hc' : c = '{'
  · obtain ⟨content, hcontent, rfl⟩ := hobject hc'
    subst hc'
    rcases hcontent with hempty | hitems
    · refine ⟨(Slots.empty fields).row, fun rest _ => ?_⟩
      rw [List.cons_append, List.append_assoc]
      refine readRecord_object title (.ok (Slots.empty fields)) ?_
      exact (readMembersWithin_append _ _ hempty _).trans (readMembersWithin_close ..)
    · obtain ⟨result, hread⟩ := settled_readMembersWithin hblanks hdefinite hitems true (Slots.empty fields)
      refine ⟨result.bind (Slots.row fields), fun rest _ => ?_⟩
      rw [List.cons_append, List.append_assoc]
      refine readRecord_object title result (hread _ rest ?_)
      simp only [List.length_append, List.length_cons]
      omega
  refine h.settled_of_mismatch (.record title) fun rest => ?_
  unfold readRecord
  rw [List.cons_append, dropBlanks_cons hblank]
  split
  · rename_i heq; cases heq; exact absurd rfl hc'
  · rename_i heq; cases heq; exact absurd rfl hc
  · rfl

/-- A record that is read from an object has been given every field without a default, and no field twice,
whatever good JSON its members hold. -/
theorem reads_strict (title : String) (hnames : (names fields).Nodup)
    (hblanks : ∀ field ∈ fields, PassesBlanks field.codec.read)
    (hdefinite : ∀ field ∈ fields, Definite field.codec.read) {text : List Char} {members : List Entry}
    (htext : IsObject text members) (hvalues : ∀ entry ∈ members, IsJson .value entry.2) :
    ∃ result, Reads (record title fields).read text result ∧ ∀ row, result = .ok row →
      Once fields members ∧ ∀ field ∈ fields, field.default? = none → field.name ∈ members.map (·.1) := by
  obtain ⟨result, hputs, hlast⟩ := exists_putsAll hblanks hdefinite (Slots.empty fields) hvalues
  refine ⟨_, reads_object title htext hputs, fun row hrow => ?_⟩
  cases result with
  | error fault => cases hrow
  | ok last =>
    obtain ⟨honce, -, hhas⟩ := hlast last rfl
    refine ⟨honce, fun field hmem hdefault => ?_⟩
    have hread := Slots.has_of_row hnames hrow hmem hdefault
    exact ((hhas field.name (List.mem_map_of_mem hmem)).1 hread).resolve_left (Slots.not_has_empty field.name)

end

end FleetRoster.Json
