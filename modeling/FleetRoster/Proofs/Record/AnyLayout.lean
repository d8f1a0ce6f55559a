/-
Records kept as JSON objects do not depend on how the object is laid out: its members may stand in any order,
with others among them, with blanks anywhere and with names spelled with escapes. Only a server's counters and
the settings may be left out. An object that lacks another member, or gives one twice, is refused, whatever
its members hold.
-/
import FleetRoster.Proofs.Json.Containers
import FleetRoster.Proofs.Record.RoundTrip

namespace FleetRoster

open Json (AllBlank Arranged Codec Definite Entry Field IsJson IsLabel IsMember IsObject IsQuoted IsWhole Once
  PassesBlanks Reads Row Spells allBlank_nil isMember_text)

/-! ## Kinds of records -/

/-- A text of an object of the given members, with blanks around it. -/
inductive IsDocument : String → List Entry → Prop
  | mk {before object after : List Char} {members : List Entry} (hbefore : AllBlank before)
      (hobject : IsObject object members) (hafter : AllBlank after) :
      IsDocument (String.ofList (before ++ (object ++ after))) members

theorem ends_of_allBlank {blanks : List Char} (h : AllBlank blanks) : Json.Ends blanks := by
  have hends := Json.ends_append h Json.ends_nil
  rwa [List.append_nil] at hends

/-- What a reader makes of an object is what comes of the whole text. -/
theorem parse_document {α : Type} {codec : Codec α} (hblanks : PassesBlanks codec.read)
    {before object after : List Char} (hbefore : AllBlank before) (hafter : AllBlank after)
    {result : Except Json.Fault α} (h : Reads codec.read object result) :
    codec.parse (String.ofList (before ++ (object ++ after))) = result := by
  have hempty : (Json.dropBlanks after).isEmpty = true := by
    have hdrop := Json.dropBlanks_append hafter []
    rw [List.append_nil] at hdrop
    rw [hdrop]
    rfl
  unfold Codec.parse
  rw [String.toList_ofList, hblanks hbefore, h after (ends_of_allBlank hafter)]
  cases result with
  | error fault => rfl
  | ok value => exact if_pos hempty

/-- Values are read from objects in any layout. Some of the members may be left out, `restore` then gives the
value that is read, by the names that are there. -/
structure LayoutFree {α : Type} {fields : List Field} (codec : Codec α) (toRow : α → Row fields)
    (optional : List String) (restore : List String → α → α) : Prop where
  /-- What is written for a value is an object of its members. -/
  written : ∀ value, Row.Spelled fields (toRow value) (Row.values fields (toRow value)) ∧
    IsDocument (codec.render value) (Json.entries fields (Row.values fields (toRow value)))
  /-- An object that has all members but for some optional ones can stand for the value in other texts. -/
  spells : ∀ {value texts members object}, Row.Spelled fields (toRow value) texts → Arranged fields texts members →
    (∀ name ∈ Json.names fields, name ∉ optional → name ∈ members.map (·.1)) → IsObject object members →
    Spells codec.read object (restore (members.map (·.1)) value)
  reads : ∀ {value texts members text}, Row.Spelled fields (toRow value) texts → Arranged fields texts members →
    (∀ name ∈ Json.names fields, name ∉ optional → name ∈ members.map (·.1)) → IsDocument text members →
    codec.parse text = .ok (restore (members.map (·.1)) value)
  /-- The first member that is missing is the fault. -/
  missing : ∀ {value texts members text name}, Row.Spelled fields (toRow value) texts → Arranged fields texts members →
    (Json.names fields).find? (fun name => name ∉ optional && name ∉ members.map (·.1)) = some name →
    IsDocument text members → codec.parse text = .error (.missingField name)
  /-- The first member to be given again is the fault, whatever follows. -/
  repeated : ∀ {value texts members again after text}, Row.Spelled fields (toRow value) texts →
    Arranged fields texts members → again.1 ∈ Json.names fields → again.1 ∈ members.map (·.1) →
    IsDocument text (members ++ again :: after) → codec.parse text = .error (.repeatedField again.1)
  /-- Whatever the members hold, none may be missing and none may be given twice. -/
  strict : ∀ {members text}, (∀ entry ∈ members, IsJson .value entry.2) →
    (∃ name ∈ Json.names fields, name ∉ optional ∧ name ∉ members.map (·.1)) ∨ ¬ Once fields members →
    IsDocument text members → ∃ fault, codec.parse text = .error fault

/-- The readers of the fields' values pass over blanks, and read or refuse a JSON text as a whole. -/
structure Regular (fields : List Field) : Prop where
  blanks : ∀ field ∈ fields, PassesBlanks field.codec.read
  definite : ∀ field ∈ fields, Definite field.codec.read

section

variable {α : Type} {fields : List Field} (title : String) (ofRow : Row fields → α) {toRow : α → Row fields}
  {optional : List String} {restore : List String → α → α}

theorem isDocument_written (value : α) :
    IsDocument (((Json.record title fields).map ofRow toRow).render value)
      (Json.entries fields (Row.values fields (toRow value))) := by
  have hobject := Json.isObject_bracketed (Json.entries fields (Row.values fields (toRow value)))
  rw [← Row.members_eq] at hobject
  have hdocument := IsDocument.mk allBlank_nil hobject allBlank_nil
  rwa [List.nil_append, List.append_nil] at hdocument

theorem Regular.definite_map (h : Regular fields) :
    Definite ((Json.record title fields).map ofRow toRow).read :=
  (Json.definite_record title h.blanks h.definite).map ofRow toRow

/-- The first field without a default that is not given, by name. -/
theorem find?_missing (hoptional : ∀ field ∈ fields, field.default? = none ↔ field.name ∉ optional)
    (given : List String) :
    (Json.names fields).find? (fun name => name ∉ optional && name ∉ given) =
      (fields.find? fun field => field.default?.isNone && field.name ∉ given).map (·.name) := by
  unfold Json.names
  rw [List.find?_map]
  refine congrArg (Option.map Field.name) (List.find?_congr fun field hmem => ?_)
  have hsame : field.default?.isNone = decide (field.name ∉ optional) := by
    rw [Bool.eq_iff_iff, Option.isNone_iff_eq_none, hoptional field hmem, decide_eq_true_iff]
  rw [hsame]
  rfl

theorem layoutFree_record (hf : Json.Sound fields) (hr : Regular fields)
    (hoptional : ∀ field ∈ fields, field.default? = none ↔ field.name ∉ optional)
    (hrestore : ∀ given value, ofRow ((toRow value).restored given) = restore given value) :
    LayoutFree ((Json.record title fields).map ofRow toRow) toRow optional restore := by
  have hblanks : PassesBlanks ((Json.record title fields).map ofRow toRow).read := by simp
  have hcomplete : ∀ {value texts members object}, Row.Spelled fields (toRow value) texts →
      Arranged fields texts members → (∀ name ∈ Json.names fields, name ∉ optional → name ∈ members.map (·.1)) →
      IsObject object members →
      Reads ((Json.record title fields).map ofRow toRow).read object (.ok (restore (members.map (·.1)) value)) := by
    intro value texts members object hrow h hgiven hobject
    have hnone : (fields.find? fun field => field.default?.isNone && field.name ∉ members.map (·.1)) = none := by
      refine List.find?_eq_none.2 fun field hmem hmissing => ?_
      rw [Bool.and_eq_true, Option.isNone_iff_eq_none, decide_eq_true_iff] at hmissing
      exact hmissing.2 (hgiven field.name (List.mem_map_of_mem hmem) ((hoptional field hmem).1 hmissing.1))
    have hreads := (Json.reads_arranged title hf.names hr.blanks hrow h hobject).map ofRow toRow
    rw [hnone] at hreads
    rw [← hrestore]
    exact hreads
  refine ⟨fun value => ⟨Row.spelled_values hf.faithful _, isDocument_written title ofRow value⟩, ?_, ?_, ?_, ?_, ?_⟩
  · intro value texts members object hrow h hgiven hobject
    exact ⟨hobject.opens, hcomplete hrow h hgiven hobject⟩
  · intro value texts members text hrow h hgiven htext
    obtain ⟨hbefore, hobject, hafter⟩ := htext
    exact parse_document hblanks hbefore hafter (hcomplete hrow h hgiven hobject)
  · intro value texts members text name hrow h hname htext
    obtain ⟨hbefore, hobject, hafter⟩ := htext
    have hreads := (Json.reads_arranged title hf.names hr.blanks hrow h hobject).map ofRow toRow
    rw [find?_missing hoptional, Option.map_eq_some_iff] at hname
    obtain ⟨field, hfield, rfl⟩ := hname
    rw [hfield] at hreads
    exact parse_document hblanks hbefore hafter hreads
  · intro value texts members again after text hrow h hname hagain htext
    obtain ⟨hbefore, hobject, hafter⟩ := htext
    have hreads := (Json.reads_again title hf.names hr.blanks hrow h hname hagain hobject).map ofRow toRow
    exact parse_document hblanks hbefore hafter hreads
  · intro members text hvalues hfault htext
    obtain ⟨hbefore, hobject, hafter⟩ := htext
    obtain ⟨result, hreads, hstrict⟩ := Json.reads_strict title hf.names hr.blanks hr.definite hobject hvalues
    have hparse := parse_document hblanks hbefore hafter (hreads.map ofRow toRow)
    cases result with
    | error fault => exact ⟨fault, hparse⟩
    | ok row =>
      obtain ⟨honce, hgiven⟩ := hstrict row rfl
      rcases hfault with ⟨name, hname, hrequired, habsent⟩ | htwice
      · obtain ⟨field, hfield, rfl⟩ := List.mem_map.1 hname
        exact absurd (hgiven field hfield ((hoptional field hfield).2 hrequired)) habsent
      · exact absurd honce htwice

end

/-! ## The records in use -/

@[simp]
theorem passesBlanks_required {α : Type} (name : String) (codec : Codec α) :
    PassesBlanks (Field.required name codec).codec.read ↔ PassesBlanks codec.read := Iff.rfl

@[simp]
theorem passesBlanks_optional {α : Type} (name : String) (codec : Codec α) (value : α) :
    PassesBlanks (Field.optional name codec value).codec.read ↔ PassesBlanks codec.read := Iff.rfl

@[simp]
theorem definite_required {α : Type} (name : String) (codec : Codec α) :
    Definite (Field.required name codec).codec.read ↔ Definite codec.read := Iff.rfl

@[simp]
theorem definite_optional {α : Type} (name : String) (codec : Codec α) (value : α) :
    Definite (Field.optional name codec value).codec.read ↔ Definite codec.read := Iff.rfl

theorem Counters.regular_fields : Regular Counters.fields where
  blanks := by simp [Counters.fields]
  definite := by simp [Counters.fields]

@[simp]
theorem Counters.passesBlanks_codec : PassesBlanks Counters.codec.read := by simp [Counters.codec]

@[simp]
theorem Counters.definite_codec : Definite Counters.codec.read :=
  Counters.regular_fields.definite_map "ServerState" Counters.ofRow

theorem Server.regular_fields : Regular Server.fields where
  blanks := by simp [Server.fields]
  definite := by simp [Server.fields]

theorem DdnsProfile.regular_fields : Regular DdnsProfile.fields where
  blanks := by simp [DdnsProfile.fields]
  definite := by simp [DdnsProfile.fields]

theorem NatMapping.regular_fields : Regular NatMapping.fields where
  blanks := by simp [NatMapping.fields]
  definite := by simp [NatMapping.fields]

theorem Usage.regular_fields : Regular Usage.fields where
  blanks := by simp [Usage.fields]
  definite := by simp [Usage.fields]

theorem Settings.regular_fields : Regular Settings.fields where
  blanks := by simp [Settings.fields]
  definite := by simp [Settings.fields]

/-- Servers, their counters, profiles, mappings, usage records and settings are read from objects in any
layout. A server may be given without its counters, which are then zero, and settings without any of theirs,
which then have their defaults. -/
theorem read_in_any_layout :
    LayoutFree Server.codec Server.toRow ["state"]
      (fun given s => if "state" ∈ given then s else { s with counters := ⟨0, 0⟩ }) ∧
    LayoutFree Counters.codec Counters.toRow [] (fun _ counters => counters) ∧
    LayoutFree DdnsProfile.codec DdnsProfile.toRow [] (fun _ profile => profile) ∧
    LayoutFree NatMapping.codec NatMapping.toRow [] (fun _ mapping => mapping) ∧
    LayoutFree Usage.codec Usage.toRow [] (fun _ usage => usage) ∧
    LayoutFree Settings.codec Settings.toRow ["refresh_interval_secs", "record_on_shutdown", "log_level"]
      (fun given settings => {
        interval := if "refresh_interval_secs" ∈ given then settings.interval else 3600
        passOnStop := if "record_on_shutdown" ∈ given then settings.passOnStop else true
        logLevel := if "log_level" ∈ given then settings.logLevel else "info" }) := by
  refine ⟨layoutFree_record _ _ Server.sound_fields Server.regular_fields ?_ fun given s => ?_,
    layoutFree_record _ _ Counters.sound_fields Counters.regular_fields ?_ fun given counters => ?_,
    layoutFree_record _ _ DdnsProfile.sound_fields DdnsProfile.regular_fields ?_ fun given profile => ?_,
    layoutFree_record _ _ NatMapping.sound_fields NatMapping.regular_fields ?_ fun given mapping => ?_,
    layoutFree_record _ _ Usage.sound_fields Usage.regular_fields ?_ fun given usage => ?_,
    layoutFree_record _ _ Settings.sound_fields Settings.regular_fields ?_ fun given settings => ?_⟩
  · simp [Server.fields, Field.required, Field.optional]
  · show ({
      id := if "id" ∈ given then s.id else s.id
      uuid := if "uuid" ∈ given then s.uuid else s.uuid
      name := if "name" ∈ given then s.name else s.name
      owner := if "user_id" ∈ given then s.owner else s.owner
      rank := if "display_index" ∈ given then s.rank else s.rank
      hidden := if "hide_for_guest" ∈ given then s.hidden else s.hidden
      counters := if "state" ∈ given then s.counters else {} } : Server) = _
    simp only [ite_self]
    split <;> rfl
  · simp [Counters.fields, Field.required]
  · rw [Row.restored_of_required (by simp [Counters.fields, Field.required])]
    rfl
  · simp [DdnsProfile.fields, Field.required]
  · rw [Row.restored_of_required (by simp [DdnsProfile.fields, Field.required])]
    rfl
  · simp [NatMapping.fields, Field.required]
  · rw [Row.restored_of_required (by simp [NatMapping.fields, Field.required])]
    rfl
  · simp [Usage.fields, Field.required]
  · rw [Row.restored_of_required (by simp [Usage.fields, Field.required])]
    rfl
  · simp [Settings.fields, Field.optional]
  · rfl

/-- A server without its counters, with blanks, an escaped name and a member of no field that holds a number
beyond all doubles and a lone surrogate; counters that are not complete; and counters of which one is given
twice, first as nothing. -/
theorem read_in_any_layout_of_shuffled :
    Server.codec.parse ("\n\x7b\"user_id\":3, \"x\" : [1e999,\x7b\"\\ud800\":0\x7d] ,\"hide_for_guest\":true," ++
      "\"uuid\":\"u\",\"\\u0069d\":7,\"display_index\":-2,\"name\":\"\"\x7d ") =
        .ok { id := 7, uuid := "u", owner := 3, rank := -2, hidden := true } ∧
    Counters.codec.parse "\x7b\"net_out_transfer\":2\x7d" = .error (.missingField "net_in_transfer") ∧
    ∃ fault, Counters.codec.parse "\x7b\"net_in_transfer\":null,\"net_in_transfer\":1\x7d" = .error fault := by
  obtain ⟨hserver, hcounters, -⟩ := read_in_any_layout
  refine ⟨?_, ?_, ?_⟩
  · let s : Server := { id := 7, uuid := "u", owner := 3, rank := -2, hidden := true, counters := ⟨5, 6⟩ }
    let x : List Char := "[1e999,\x7b\"\\ud800\":0\x7d]".toList
    let members : List Entry :=
      [("user_id", ['3']), ("x", x), ("hide_for_guest", "true".toList), ("uuid", "\"u\"".toList), ("id", ['7']),
        ("display_index", "-2".toList), ("name", "\"\"".toList)]
    have hx : IsJson .value x := by
      have hlarge : IsJson .value ([] ++ (['1'] ++ ([] ++ ['e', '9', '9', '9']))) :=
        .number (.mk (by simp) ⟨by decide, by rintro ds ⟨⟩⟩ (.inl rfl)
          (.inr ⟨'e', by simp, [], by simp, ['9', '9', '9'], by decide, rfl⟩))
      have hzero : IsWhole ['0'] := ⟨by decide, by rintro ds ⟨⟩; rfl⟩
      have hquoted : IsQuoted "\\ud800".toList := .unit (List.all_eq_true.1 (by decide)) .nil
      have hlabel := IsLabel.object allBlank_nil hquoted allBlank_nil
      have hobject := IsJson.container (.last hlabel allBlank_nil (.number hzero.isNumber) allBlank_nil)
      have hitems := IsJson.next .list allBlank_nil hlarge allBlank_nil (.last .list allBlank_nil hobject allBlank_nil)
      exact .container hitems
    have harranged : Arranged Server.fields (Row.values Server.fields s.toRow) members := by
      refine ⟨by decide +kernel, fun entry hmem hname => ?_⟩
      simp only [members, List.mem_cons, List.not_mem_nil, or_false] at hmem
      rcases hmem with rfl | rfl | rfl | rfl | rfl | rfl | rfl
      · exact absurd hname (by decide)
      · exact hx
      all_goals exact absurd hname (by decide)
    have hblank : AllBlank [' '] := by decide
    have hspaced : IsMember _ ("x", x) := .mk hblank (Json.quotes_escaped "x".toList) hblank hblank hblank
    have hname : Json.Quotes "\\u0069d".toList "id".toList :=
      @Json.Quotes.unit '0' '0' '6' '9' 105 _ _ rfl rfl rfl (Json.quotes_escaped "d".toList)
    have hescaped : IsMember _ ("id", ['7']) := .mk allBlank_nil hname allBlank_nil allBlank_nil allBlank_nil
    have hobject := IsObject.mk allBlank_nil (.cons (isMember_text ("user_id", ['3'])) (.cons hspaced
      (.cons (isMember_text ("hide_for_guest", "true".toList)) (.cons (isMember_text ("uuid", "\"u\"".toList))
      (.cons hescaped (.cons (isMember_text ("display_index", "-2".toList))
      (.cons (isMember_text ("name", "\"\"".toList)) .nil)))))))
    have hdocument := IsDocument.mk (by decide : AllBlank ['\n']) hobject hblank
    exact hserver.reads (Row.spelled_values Server.sound_fields.faithful s.toRow) harranged (by decide) hdocument
  · have harranged : Arranged Counters.fields (Row.values Counters.fields (Counters.toRow ⟨1, 2⟩))
        [("net_out_transfer", ['2'])] := by
      refine ⟨by decide +kernel, fun entry hmem hname => ?_⟩
      rw [List.mem_singleton.1 hmem] at hname
      exact absurd hname (by decide)
    have hdocument := IsDocument.mk allBlank_nil (Json.isObject_bracketed [("net_out_transfer", ['2'])]) allBlank_nil
    exact hcounters.missing (Row.spelled_values Counters.sound_fields.faithful _) harranged (by decide) hdocument
  · have hnull : IsJson .value ['n', 'u', 'l', 'l'] := .word (by decide)
    have hone : IsWhole ['1'] := ⟨by decide, by rintro ds ⟨⟩⟩
    have hdocument := IsDocument.mk allBlank_nil (Json.isObject_bracketed
      [("net_in_transfer", ['n', 'u', 'l', 'l']), ("net_in_transfer", ['1'])]) allBlank_nil
    refine hcounters.strict ?_ (.inr (by decide)) hdocument
    rw [List.forall_mem_cons, List.forall_mem_singleton]
    exact ⟨hnull, .number hone.isNumber⟩

end FleetRoster
