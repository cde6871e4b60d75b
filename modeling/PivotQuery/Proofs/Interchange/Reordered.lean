import PivotQuery.Json.Decode
import Mathlib.Data.List.Nodup
import Mathlib.Order.MinMax

namespace PivotQuery.Json

section Intact

@[simp] theorem isIntact_array (elements : List Json) :
    (Json.array elements).isIntact = elements.all isIntact := by
  suffices h : allAllowed (fun _ => false) elements = elements.all isIntact from h
  induction elements with
  | nil => rfl
  | cons element rest ih =>
    rw [allAllowed, ih, List.all_cons]
    rfl

@[simp] theorem isIntact_object (entries : List (String × Json)) :
    (Json.object entries).isIntact = entries.all fun entry => entry.2.isIntact := by
  suffices h : entriesAllowed (fun _ => false) entries = entries.all fun entry => entry.2.isIntact
    from h
  induction entries with
  | nil => rfl
  | cons entry rest ih =>
    rw [entriesAllowed, ih, List.all_cons]
    rfl

end Intact

section Depth

variable {elements : List Json} {entries : List (String × Json)} {depth : Nat}

private theorem depthOfAll_le_iff :
    depthOfAll elements ≤ depth ↔ ∀ json ∈ elements, json.depth ≤ depth := by
  induction elements with
  | nil => simp [depthOfAll]
  | cons element rest ih => rw [depthOfAll, Nat.max_le, ih, List.forall_mem_cons]

private theorem depthOfEntries_le_iff :
    depthOfEntries entries ≤ depth ↔ ∀ entry ∈ entries, entry.2.depth ≤ depth := by
  induction entries with
  | nil => simp [depthOfEntries]
  | cons entry rest ih => rw [depthOfEntries, Nat.max_le, ih, List.forall_mem_cons]

-- What is inside an array or an object is less deep than it.

theorem depth_le_of_array {element : Json} (h : element ∈ elements)
    (hdepth : (Json.array elements).depth ≤ depth) : element.depth ≤ depth :=
  depthOfAll_le_iff.mp (Nat.le_trans (Nat.le_succ _) hdepth) element h

theorem depth_le_of_object (key : String) {value : Json} (h : (key, value) ∈ entries)
    (hdepth : (Json.object entries).depth ≤ depth + 1) : value.depth ≤ depth :=
  depthOfEntries_le_iff.mp (Nat.le_of_succ_le_succ hdepth) (key, value) h

theorem exists_depth_of_object (hdepth : (Json.object entries).depth ≤ depth) :
    ∃ inner, depth = inner + 1 :=
  Nat.exists_eq_add_one.mpr (Nat.lt_of_lt_of_le (Nat.succ_pos _) hdepth)

end Depth

mutual

-- The same value with the entries of its objects in any order. Nothing in it is damaged.
inductive Reordered : Json → Json → Prop
  | null : Reordered .null .null
  | bool (value : Bool) : Reordered (.bool value) (.bool value)
  | number (value : Number) : Reordered (.number value) (.number value)
  | text (value : String) : Reordered (.text value) (.text value)
  | array {elements others : List Json} (h : ReorderedAll elements others) :
    Reordered (.array elements) (.array others)
  | object {entries kept others : List (String × Json)} (h : ReorderedEntries entries kept)
    (hperm : kept.Perm others) : Reordered (.object entries) (.object others)

inductive ReorderedAll : List Json → List Json → Prop
  | nil : ReorderedAll [] []
  | cons {json other : Json} {rest others : List Json} (hhead : Reordered json other)
    (hrest : ReorderedAll rest others) : ReorderedAll (json :: rest) (other :: others)

-- Only inside the values of the entries the order may change.
inductive ReorderedEntries : List (String × Json) → List (String × Json) → Prop
  | nil : ReorderedEntries [] []
  | cons {key : String} {json other : Json} {rest others : List (String × Json)}
    (hhead : Reordered json other) (hrest : ReorderedEntries rest others) :
    ReorderedEntries ((key, json) :: rest) ((key, other) :: others)

end

theorem Reordered.of_text {text : String} {other : Json} (h : Reordered (.text text) other) :
    other = .text text := by
  cases h
  rfl

theorem Reordered.of_array {elements : List Json} {other : Json}
    (h : Reordered (.array elements) other) :
    ∃ others, other = .array others ∧ ReorderedAll elements others := by
  cases h with
  | array h => exact ⟨_, rfl, h⟩

theorem Reordered.of_object {entries : List (String × Json)} {other : Json}
    (h : Reordered (.object entries) other) :
    ∃ kept others, other = .object others ∧ ReorderedEntries entries kept ∧ kept.Perm others := by
  cases h with
  | object h hperm => exact ⟨_, _, rfl, h, hperm⟩

theorem ReorderedEntries.of_nil {kept : List (String × Json)} (h : ReorderedEntries [] kept) :
    kept = [] := by
  cases h
  rfl

theorem ReorderedEntries.of_cons {key : String} {json : Json} {rest kept : List (String × Json)}
    (h : ReorderedEntries ((key, json) :: rest) kept) :
    ∃ other others, kept = (key, other) :: others ∧ Reordered json other ∧
      ReorderedEntries rest others := by
  cases h with
  | cons hhead hrest => exact ⟨_, _, rfl, hhead, hrest⟩

mutual

theorem Reordered.refl : ∀ {json : Json}, json.isIntact = true → Reordered json json
  | .null, _ => .null
  | .bool value, _ => .bool value
  | .number value, _ => .number value
  | .text value, _ => .text value
  | .array elements, h => .array (ReorderedAll.refl (by simpa using h))
  | .object entries, h => .object (ReorderedEntries.refl (by simpa using h)) (.refl _)

theorem ReorderedAll.refl : ∀ {elements : List Json}, (∀ json ∈ elements, json.isIntact = true) →
    ReorderedAll elements elements
  | [], _ => .nil
  | _ :: _, h => .cons (Reordered.refl (List.forall_mem_cons.mp h).1)
    (ReorderedAll.refl (List.forall_mem_cons.mp h).2)

theorem ReorderedEntries.refl : ∀ {entries : List (String × Json)},
    (∀ entry ∈ entries, entry.2.isIntact = true) → ReorderedEntries entries entries
  | [], _ => .nil
  | (_, _) :: _, h => .cons (Reordered.refl (List.forall_mem_cons.mp h).1)
    (ReorderedEntries.refl (List.forall_mem_cons.mp h).2)

end

mutual

theorem Reordered.isIntact {json other : Json} (h : Reordered json other) :
    other.isIntact = true := by
  cases h with
  | null | bool | number | text => rfl
  | array h => simpa using h.isIntact
  | object h hperm => simpa [hperm.mem_iff] using h.isIntact

theorem ReorderedAll.isIntact {elements others : List Json} (h : ReorderedAll elements others) :
    ∀ json ∈ others, json.isIntact = true := by
  cases h with
  | nil => simp
  | cons hhead hrest => exact List.forall_mem_cons.mpr ⟨hhead.isIntact, hrest.isIntact⟩

theorem ReorderedEntries.isIntact {entries others : List (String × Json)}
    (h : ReorderedEntries entries others) : ∀ entry ∈ others, entry.2.isIntact = true := by
  cases h with
  | nil => simp
  | cons hhead hrest => exact List.forall_mem_cons.mpr ⟨hhead.isIntact, hrest.isIntact⟩

end

mutual

theorem Reordered.depth_le {json other : Json} (h : Reordered json other) :
    json.depth ≤ other.depth := by
  cases h with
  | null | bool | number | text => exact Nat.le_refl _
  | array h => exact Nat.succ_le_succ h.depth_le
  | @object entries kept others h hperm =>
    have hkept : depthOfEntries kept ≤ depthOfEntries others :=
      depthOfEntries_le_iff.mpr fun entry hentry =>
        depthOfEntries_le_iff.mp (Nat.le_refl _) entry (hperm.mem_iff.mp hentry)
    exact Nat.succ_le_succ (Nat.le_trans h.depth_le hkept)

theorem ReorderedAll.depth_le {elements others : List Json} (h : ReorderedAll elements others) :
    depthOfAll elements ≤ depthOfAll others := by
  cases h with
  | nil => exact Nat.le_refl _
  | cons hhead hrest => exact max_le_max hhead.depth_le hrest.depth_le

theorem ReorderedEntries.depth_le {entries others : List (String × Json)}
    (h : ReorderedEntries entries others) : depthOfEntries entries ≤ depthOfEntries others := by
  cases h with
  | nil => exact Nat.le_refl _
  | cons hhead hrest => exact max_le_max hhead.depth_le hrest.depth_le

end

namespace ReorderedEntries

variable {entries kept : List (String × Json)}

theorem keys (h : ReorderedEntries entries kept) :
    entries.map Prod.fst = kept.map Prod.fst := by
  induction entries generalizing kept with
  | nil =>
    cases h
    rfl
  | cons entry rest ih =>
    cases h with
    | cons _ hrest => rw [List.map_cons, List.map_cons, ih hrest]

theorem forall_keys {P : String → Prop} (h : ReorderedEntries entries kept)
    (hkeys : ∀ entry ∈ entries, P entry.1) : ∀ entry ∈ kept, P entry.1 := by
  intro entry hentry
  have hkey : entry.1 ∈ entries.map Prod.fst := h.keys ▸ List.mem_map_of_mem hentry
  obtain ⟨own, hown, heq⟩ := List.mem_map.mp hkey
  exact heq ▸ hkeys own hown

theorem get? (h : ReorderedEntries entries kept) (name : String) :
    Option.Rel Reordered ((Json.object entries).get? name) ((Json.object kept).get? name) := by
  induction entries generalizing kept with
  | nil =>
    cases h
    exact .none
  | cons entry rest ih =>
    cases h with
    | @cons key json other _ others hhead hrest =>
      simp only [Json.get?, List.find?_cons] at ih ⊢
      cases key == name with
      | true => exact .some hhead
      | false => exact ih hrest

end ReorderedEntries

theorem get?_eq_some {entries : List (String × Json)} (hdistinct : (entries.map Prod.fst).Nodup)
    {name : String} {json : Json} :
    (Json.object entries).get? name = some json ↔ (name, json) ∈ entries := by
  simp only [get?, Option.map_eq_some_iff]
  constructor
  · rintro ⟨⟨key, found⟩, hfind, rfl⟩
    obtain rfl : key = name := by simpa using List.find?_some hfind
    exact List.mem_of_find?_eq_some hfind
  · intro hmem
    cases hfind : entries.find? fun entry => entry.1 == name with
    | none => simpa using List.find?_eq_none.mp hfind _ hmem
    | some entry =>
      have hkey : entry.1 = name := by simpa using List.find?_some hfind
      have hsame := List.inj_on_of_nodup_map hdistinct (List.mem_of_find?_eq_some hfind) hmem hkey
      exact ⟨entry, rfl, by rw [hsame]⟩

-- If no key is repeated, the order does not matter for looking up entries.
theorem get?_perm {entries others : List (String × Json)}
    (hdistinct : (entries.map Prod.fst).Nodup) (hperm : entries.Perm others) (name : String) :
    (Json.object entries).get? name = (Json.object others).get? name := by
  refine Option.ext fun json => ?_
  rw [get?_eq_some hdistinct, get?_eq_some ((hperm.map Prod.fst).nodup_iff.mp hdistinct),
    hperm.mem_iff]

section Gives

variable {ε α β : Type} {decode : Json → Decoded ε α} {json : Json} {value : α}

-- What a value is decoded to, in whatever order the entries of its objects come.
def Gives (decode : Json → Decoded ε α) (json : Json) (value : α) : Prop :=
  ∀ other : Json, Reordered json other → decode other = .ok value

theorem gives_text {text : String} (h : decode (.text text) = .ok value) :
    Gives decode (.text text) value := by
  intro other hother
  rw [hother.of_text]
  exact h

theorem gives_number {number : Number} (h : decode (.number number) = .ok value) :
    Gives decode (.number number) value := by
  intro other hother
  cases hother
  exact h

theorem gives_bool {flag : Bool} (h : decode (.bool flag) = .ok value) :
    Gives decode (.bool flag) value := by
  intro other hother
  cases hother
  exact h

theorem Gives.bind {step : α → Decoded ε β} {result : β} (h : Gives decode json value)
    (hstep : step value = .ok result) : Gives (fun json => decode json >>= step) json result := by
  intro other hother
  simp only [h other hother]
  exact hstep

theorem Gives.map {f : α → β} (h : Gives decode json value) :
    Gives (fun json => (decode json).map f) json (f value) := by
  intro other hother
  simp only [h other hother]
  rfl

theorem toEnum_gives {ofName? : String → Option α} {reading : Reading} {name : String}
    (h : ofName? name = some value) :
    Gives (toEnum ofName? reading : Json → Decoded ε α) (.text name) value :=
  gives_text (by simp [toEnum, toName, h, bind, Except.bind, pure, Except.pure])

end Gives

end PivotQuery.Json
