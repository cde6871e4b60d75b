import PivotQuery.Proofs.Interchange.Reordered
import PivotQuery.Proofs.Schema.Lookup
import Mathlib.Data.List.Perm.Basic

namespace PivotQuery.Json

variable {ε α β : Type} {decode : Json → Decoded ε α} {encode : α → Json}

-- Lists and maps are read back if their members are.

theorem toList_gives {values : List α} (h : ∀ value ∈ values, Gives decode (encode value) value) :
    Gives (toList decode) (.array (values.map encode)) values := by
  intro other hother
  obtain ⟨others, rfl, hothers⟩ := hother.of_array
  suffices hall : decodeAll decode others = .ok values from hall
  clear hother
  induction values generalizing others with
  | nil =>
    cases hothers
    rfl
  | cons value rest ih =>
    obtain ⟨hhead, hrest⟩ := List.forall_mem_cons.mp h
    cases hothers with
    | cons hvalue hothers =>
      rw [decodeAll, hhead _ hvalue, ih hrest _ hothers]
      rfl

theorem toList_gives_texts (texts : List String) :
    Gives (toList toText : Json → Decoded ε (List String)) (ofTexts texts) texts :=
  toList_gives fun _ _ => gives_text rfl

private theorem decodeEntries_eq_ok {entries : List (String × Json)} {values : List (String × α)} :
    decodeEntries decode entries = .ok values ↔
      List.Forall₂ (fun entry value => entry.1 = value.1 ∧ decode entry.2 = .ok value.2)
        entries values := by
  induction entries generalizing values with
  | nil => simp [decodeEntries, eq_comm]
  | cons entry rest ih =>
    obtain ⟨key, element⟩ := entry
    simp only [decodeEntries, bind_eq_ok, pure_eq_ok, ih, List.forall₂_cons_left_iff]
    constructor
    · rintro ⟨value, hhead, values, hrest, rfl⟩
      exact ⟨(key, value), values, ⟨rfl, hhead⟩, hrest, rfl⟩
    · rintro ⟨⟨key, value⟩, values, ⟨rfl, hhead⟩, hrest, rfl⟩
      exact ⟨value, hhead, values, hrest, rfl⟩

-- The entries of a map come in the order of the text.
theorem toEntries_reordered {entries : List (String × α)} {other : Json}
    (h : ∀ entry ∈ entries, Gives decode (encode entry.2) entry.2)
    (hother : Reordered (.object (entries.map fun entry => (entry.1, encode entry.2))) other) :
    ∃ found, toEntries decode other = .ok found ∧ found.Perm entries := by
  obtain ⟨kept, others, rfl, hkept, hperm⟩ := hother.of_object
  have hentries : List.Forall₂ (fun entry value => entry.1 = value.1 ∧
      decode entry.2 = .ok value.2) kept entries := by
    clear hperm hother
    induction entries generalizing kept with
    | nil =>
      cases hkept
      exact .nil
    | cons entry rest ih =>
      obtain ⟨hhead, hrest⟩ := List.forall_mem_cons.mp h
      cases hkept with
      | cons hvalue hkept => exact .cons ⟨rfl, hhead _ hvalue⟩ (ih hrest _ hkept)
  obtain ⟨found, hfound, hsame⟩ := List.perm_comp_forall₂ hperm.symm hentries
  exact ⟨found, decodeEntries_eq_ok.mpr hfound, hsame⟩

-- A record that was read from an object with some entries.
structure Record.Holds (record : Record) (entries : List (String × Json)) : Prop where
  fields : ∀ name,
    Option.Rel Reordered ((Json.object entries).get? name) ((record.find? name).map Prod.snd)
  isObject : record.positional = false

theorem Record.step_field {names : List String} {record : Record} {entry : String × Json}
    (hname : entry.1 ∈ names) (hnew : ∀ field ∈ record.fields, field.1 ≠ entry.1) :
    record.step names entry =
      { record with
        fields := record.fields ++ [(entry.1, record.places, entry.2)]
        places := record.places + 1 } := by
  have hfirst : (record.fields.any fun field => field.1 == entry.1) = false := by
    simpa using hnew
  simp [step, hname, hfirst]

-- An object without other entries than fields, each of them once, is such a record, and it has
-- no flaw.
theorem Record.ofEntries_eq {names : List String} {entries : List (String × Json)}
    (hdistinct : (entries.map Prod.fst).Nodup) (hnames : ∀ entry ∈ entries, entry.1 ∈ names) :
    ofEntries names entries =
      ⟨entries.zipIdx.map fun entry => (entry.1.1, entry.2, entry.1.2), entries.length, none,
        false⟩ := by
  suffices h : ∀ record : Record,
      (∀ entry ∈ entries, ∀ field ∈ record.fields, field.1 ≠ entry.1) →
      entries.foldl (step names) record =
        { record with
          fields := record.fields ++
            (entries.zipIdx record.places).map fun entry => (entry.1.1, entry.2, entry.1.2)
          places := record.places + entries.length } by
    simpa [ofEntries] using h ⟨[], 0, none, false⟩ (by simp)
  induction entries with
  | nil => simp
  | cons entry rest ih =>
    obtain ⟨hnew, hrest⟩ := List.nodup_cons.mp hdistinct
    obtain ⟨hname, hothers⟩ := List.forall_mem_cons.mp hnames
    intro record hfresh
    obtain ⟨hhead, hbehind⟩ := List.forall_mem_cons.mp hfresh
    rw [List.foldl_cons, step_field hname hhead, ih hrest hothers]
    · simp [List.zipIdx_cons, Nat.add_assoc, Nat.add_comm 1]
    · intro other hother field hfield
      rcases List.mem_append.mp hfield with hfield | hfield
      · exact hbehind other hother field hfield
      · obtain rfl := List.mem_singleton.mp hfield
        exact fun heq => hnew (List.mem_map.mpr ⟨other, hother, heq.symm⟩)

theorem Record.find?_ofEntries {names : List String} {entries : List (String × Json)}
    (hdistinct : (entries.map Prod.fst).Nodup) (hnames : ∀ entry ∈ entries, entry.1 ∈ names)
    (name : String) :
    ((ofEntries names entries).find? name).map Prod.snd = (Json.object entries).get? name := by
  rw [ofEntries_eq hdistinct hnames]
  suffices h : ∀ place, (((entries.zipIdx place).map fun entry =>
      (entry.1.1, entry.2, entry.1.2)).find? fun field => field.1 == name).map
        (fun field => field.2.2) = (Json.object entries).get? name by
    simpa [find?, Option.map_map, Function.comp_def] using h 0
  clear hdistinct hnames
  induction entries with
  | nil => intro place; rfl
  | cons entry rest ih =>
    intro place
    simp only [get?, List.zipIdx_cons, List.map_cons, List.find?_cons] at ih ⊢
    split
    · rfl
    · exact ih (place + 1)

namespace Fields

section Names

variable {a : Fields ε α} {b : Fields ε β} {name : String}

@[simp] theorem names_both : (a.both b).names = a.names ++ b.names := rfl

@[simp] theorem names_map {f : α → β} : (a.map f).names = a.names := rfl

@[simp] theorem names_required : (required name decode).names = [name] := rfl

@[simp] theorem names_defaulted {value : α} : (defaulted name value decode).names = [name] := rfl

end Names

-- The fields have a value in every record with these entries.
def Reads (fields : Fields ε α) (entries : List (String × Json)) (value : α) : Prop :=
  ∀ record : Record, record.Holds entries → fields.read record = .ok value

variable {entries : List (String × Json)} {name : String} {json : Json} {value : α} {other : β}

theorem Reads.fieldOr {missing : Record → Option α}
    (hentry : (Json.object entries).get? name = some json) (hdecode : Gives decode json value) :
    (fieldOr name missing decode).Reads entries value := by
  intro record hrecord
  have hfield := hrecord.fields name
  rw [hentry] at hfield
  cases hfound : record.find? name with
  | none =>
    rw [hfound] at hfield
    nomatch hfield
  | some field =>
    rw [hfound] at hfield
    cases hfield with
    | some hjson =>
      simp only [Fields.fieldOr, hfound, hdecode _ hjson]
      rfl

theorem Reads.fieldOr_missing {missing : Record → Option α}
    (hentry : (Json.object entries).get? name = none)
    (hmissing : ∀ record : Record, record.positional = false → missing record = some value) :
    (Fields.fieldOr name missing decode).Reads entries value := by
  intro record hrecord
  have hfield := hrecord.fields name
  rw [hentry] at hfield
  cases hfound : record.find? name with
  | none => simp only [Fields.fieldOr, hfound, hmissing record hrecord.isObject]
  | some field =>
    rw [hfound] at hfield
    nomatch hfield

theorem Reads.required (hentry : (Json.object entries).get? name = some json)
    (hdecode : Gives decode json value) : (required name decode).Reads entries value :=
  Reads.fieldOr hentry hdecode

theorem Reads.defaulted {missing : α} (hentry : (Json.object entries).get? name = some json)
    (hdecode : Gives decode json value) : (defaulted name missing decode).Reads entries value :=
  Reads.fieldOr hentry hdecode

theorem Reads.defaulted_missing (hentry : (Json.object entries).get? name = none) :
    (Fields.defaulted name value decode).Reads entries value :=
  Reads.fieldOr_missing hentry fun _ _ => rfl

theorem toOption_gives (hjson : json ≠ .null) (hdecode : Gives decode json value) :
    Gives (toOption decode) json (some value) := by
  intro other hother
  unfold toOption
  split
  · cases hother
    exact absurd rfl hjson
  · rw [hdecode other hother]
    rfl

theorem Reads.optional (hentry : (Json.object entries).get? name = some json)
    (hjson : json ≠ .null) (hdecode : Gives decode json value) :
    (optional name decode).Reads entries (some value) :=
  Reads.fieldOr hentry (toOption_gives hjson hdecode)

theorem Reads.optional_missing (hentry : (Json.object entries).get? name = none) :
    (Fields.optional name decode).Reads entries none :=
  Reads.fieldOr_missing hentry fun record hrecord => by simp [hrecord]

theorem Reads.both {a : Fields ε α} {b : Fields ε β} (ha : a.Reads entries value)
    (hb : b.Reads entries other) : (a.both b).Reads entries (value, other) := by
  intro record hrecord
  simp only [Fields.both, ha record hrecord, hb record hrecord]

theorem Reads.map {a : Fields ε α} {f : α → β} (h : a.Reads entries value)
    (hvalue : f value = other) : (a.map f).Reads entries other := by
  intro record hrecord
  simp only [Fields.map, h record hrecord, ← hvalue]
  rfl

end Fields

theorem toRecord_gives {fields : Fields ε α} {entries : List (String × Json)} {value : α}
    (h : fields.Reads entries value) (hdistinct : (entries.map Prod.fst).Nodup)
    (hnames : ∀ entry ∈ entries, entry.1 ∈ fields.names) :
    Gives (toRecord fields) (.object entries) value := by
  intro other hother
  obtain ⟨kept, others, rfl, hkept, hperm⟩ := hother.of_object
  have hnames : ∀ entry ∈ others, entry.1 ∈ fields.names := fun entry hentry =>
    hkept.forall_keys hnames entry (hperm.mem_iff.mpr hentry)
  have hkept' : (kept.map Prod.fst).Nodup := hkept.keys ▸ hdistinct
  have hothers : (others.map Prod.fst).Nodup := (hperm.map Prod.fst).nodup_iff.mp hkept'
  have hholds : (Record.ofEntries fields.names others).Holds entries := by
    refine ⟨fun name => ?_, by rw [Record.ofEntries_eq hothers hnames]⟩
    rw [Record.find?_ofEntries hothers hnames, ← get?_perm hkept' hperm]
    exact hkept.get? name
  have hread := h _ hholds
  rw [Record.ofEntries_eq hothers hnames] at hread
  simp only [toRecord, decodeRecord, Record.ofEntries_eq hothers hnames, hread]

-- A form is found by its tag, wherever that comes, and the fields are left.
theorem untag_gives {step : String × Json → Decoded ε α} {key form : String} {reading : Reading}
    {names : List String} {entries : List (String × Json)} {value : α} (hform : form ∈ names)
    (hkey : ∀ entry ∈ entries, entry.1 ≠ key)
    (h : Gives (fun rest => step (form, rest)) (.object entries) value) :
    Gives (fun json => untag key reading names json >>= step)
      (.object ((key, .text form) :: entries)) value := by
  intro other hother
  have hintact := hother.isIntact
  obtain ⟨_, others, rfl, hentries, hperm⟩ := hother.of_object
  obtain ⟨_, kept, rfl, htag, hkept⟩ := hentries.of_cons
  obtain rfl := htag.of_text
  have hkey : ∀ entry ∈ kept, entry.1 ≠ key := hkept.forall_keys (P := (· ≠ key)) hkey
  have htag : others.filter (fun entry => entry.1 == key) = [(key, .text form)] := by
    refine List.perm_singleton.mp ((hperm.filter _).symm.trans (.of_eq ?_))
    rw [List.filter_cons_of_pos (by simp), List.filter_eq_nil_iff.mpr (by simpa using hkey)]
  have hrest : kept.Perm (others.filter fun entry => entry.1 != key) := by
    refine .trans (.of_eq ?_) (hperm.filter _)
    rw [List.filter_cons_of_neg (by simp), List.filter_eq_self.mpr (by simpa using hkey)]
  have huntag : (untag key reading names (.object others) : Decoded ε _) =
      .ok (form, .object (others.filter fun entry => entry.1 != key)) := by
    simp only [untag, hintact, htag]
    simp [toTag, hform, bind, Except.bind, pure, Except.pure]
  simp only [huntag]
  exact h _ (.object hkept hrest)

end PivotQuery.Json
