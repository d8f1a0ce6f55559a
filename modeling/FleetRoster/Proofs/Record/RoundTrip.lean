/-
Everything that is kept as JSON is read back as it was written: the records of a fleet, usage records and
settings, whatever their numbers, texts and lists of texts. They are written as objects, and could as well
have been written as lists of their fields' values.
-/
import FleetRoster.Proofs.Json.Records
import FleetRoster.Record.DdnsProfile
import FleetRoster.Record.NatMapping
import FleetRoster.Record.Server
import FleetRoster.Record.Usage
import FleetRoster.Settings

namespace FleetRoster

open Json (Codec Field Row Spells)

/-! ## Kinds of records -/

section

variable {α : Type} {fields : List Field} (title : String) (ofRow : Row fields → α) {toRow : α → Row fields}

/-- Texts of the fields' values make up the text of a record, as the members of an object and as a list. -/
theorem spells_record (hback : ∀ value, ofRow (toRow value) = value) (hf : Json.Sound fields)
    {value : α} {texts : List (List Char)} (h : Row.Spelled fields (toRow value) texts) :
    let codec := (Json.record title fields).map ofRow toRow
    Spells codec.read (Json.bracketed '{' '}' ((Json.entries fields texts).map Json.Entry.text)) value ∧
      Spells codec.read (Json.bracketed '[' ']' texts) value := by
  have hobject := (Json.spells_bracketed_members title h hf.names).map ofRow toRow
  have hlist := (Json.spells_bracketed_values title h).map ofRow toRow
  rw [hback] at hobject hlist
  exact ⟨hobject, hlist⟩

/-- What is written for a record stands for it, and so does the list of what is written for its fields. -/
theorem spells_written (hback : ∀ value, ofRow (toRow value) = value) (hf : Json.Sound fields)
    (value : α) :
    let codec := (Json.record title fields).map ofRow toRow
    Spells codec.read (codec.write value) value ∧ Spells codec.read (Row.asList fields (toRow value)) value := by
  obtain ⟨hobject, hlist⟩ := spells_record title ofRow hback hf (Row.spelled_values hf.faithful (toRow value))
  rw [← Row.members_eq] at hobject
  exact ⟨hobject, hlist⟩

/-- Values are read back from their compact text and from the list of their fields' values. -/
def ReadBack (codec : Codec α) (toRow : α → Row fields) : Prop :=
  ∀ value, codec.parse (codec.render value) = .ok value ∧
    codec.parse (String.ofList (Row.asList fields (toRow value))) = .ok value

theorem readBack_record (hback : ∀ value, ofRow (toRow value) = value) (hf : Json.Sound fields) :
    ReadBack ((Json.record title fields).map ofRow toRow) toRow := by
  intro value
  obtain ⟨hobject, hlist⟩ := spells_written title ofRow hback hf value
  exact ⟨hobject.parse, hlist.parse⟩

end

/-! ## The fields of the records in use -/

theorem Counters.sound_fields : Json.Sound Counters.fields where
  names := by decide
  faithful := by simp [Counters.fields]

@[simp]
theorem Counters.faithful_codec : Counters.codec.Faithful :=
  fun counters => (spells_written "ServerState" Counters.ofRow (fun _ => rfl) Counters.sound_fields counters).1

theorem Server.sound_fields : Json.Sound Server.fields where
  names := by decide
  faithful := by simp [Server.fields]

theorem DdnsProfile.sound_fields : Json.Sound DdnsProfile.fields where
  names := by decide
  faithful := by simp [DdnsProfile.fields]

theorem NatMapping.sound_fields : Json.Sound NatMapping.fields where
  names := by decide
  faithful := by simp [NatMapping.fields]

theorem Usage.sound_fields : Json.Sound Usage.fields where
  names := by decide
  faithful := by simp [Usage.fields]

theorem Settings.sound_fields : Json.Sound Settings.fields where
  names := by decide
  faithful := by simp [Settings.fields]

/-! ## Reading back -/

/-- The texts of a server's fields, with its counters as a list in their turn. -/
def Server.textsWithList (s : Server) : List (List Char) :=
  (Row.values Server.fields s.toRow).dropLast ++ [Row.asList Counters.fields s.counters.toRow]

theorem Server.spelled_textsWithList (s : Server) : Row.Spelled Server.fields s.toRow s.textsWithList :=
  .cons (Json.faithful_unsigned64 _) <| .cons (Json.faithful_text _) <| .cons (Json.faithful_text _) <|
    .cons (Json.faithful_unsigned64 _) <| .cons (Json.faithful_signed32 _) <| .cons (Json.faithful_boolean _) <|
    .cons (spells_written "ServerState" Counters.ofRow (fun _ => rfl) Counters.sound_fields s.counters).2 .nil

/-- Servers, their counters, profiles, mappings, usage records and settings are read back from the compact
texts that are written for them, and from lists of their fields' values in the order they are declared; a
server also with its counters as a list, inside an object or a list. -/
theorem read_back_as_written :
    ReadBack Server.codec Server.toRow ∧ ReadBack Counters.codec Counters.toRow ∧
    ReadBack DdnsProfile.codec DdnsProfile.toRow ∧ ReadBack NatMapping.codec NatMapping.toRow ∧
    ReadBack Usage.codec Usage.toRow ∧ ReadBack Settings.codec Settings.toRow ∧
    ∀ s : Server,
      Server.codec.parse (String.ofList (Json.bracketed '[' ']' s.textsWithList)) = .ok s ∧
      Server.codec.parse (String.ofList
        (Json.bracketed '{' '}' ((Json.entries Server.fields s.textsWithList).map Json.Entry.text))) = .ok s := by
  refine ⟨readBack_record _ _ (fun _ => rfl) Server.sound_fields,
    readBack_record _ _ (fun _ => rfl) Counters.sound_fields,
    readBack_record _ _ (fun _ => rfl) DdnsProfile.sound_fields,
    readBack_record _ _ (fun _ => rfl) NatMapping.sound_fields,
    readBack_record _ _ (fun _ => rfl) Usage.sound_fields,
    readBack_record _ _ (fun _ => rfl) Settings.sound_fields, fun s => ?_⟩
  obtain ⟨hobject, hlist⟩ := spells_record "Server" Server.ofRow (fun _ => rfl) Server.sound_fields s.spelled_textsWithList
  exact ⟨hlist.parse, hobject.parse⟩

end FleetRoster
