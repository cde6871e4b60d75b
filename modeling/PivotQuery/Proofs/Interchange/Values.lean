import PivotQuery.Interchange.Query
import PivotQuery.Proofs.Interchange.Records
import PivotQuery.Proofs.Schema.Acceptance

namespace PivotQuery

open Json (Fields Gives Reading)

section Names

variable {reading : Reading}

theorem ColumnKind.ofJson_gives (kind : ColumnKind) : Gives (ofJson reading) kind.toJson kind :=
  Json.toEnum_gives (by cases kind <;> rfl)

theorem AggFn.ofJson_gives (agg : AggFn) : Gives (ofJson reading) agg.toJson agg :=
  Json.toEnum_gives (by cases agg <;> rfl)

theorem BoolOp.ofJson_gives (op : BoolOp) : Gives (ofJson reading) op.toJson op :=
  Json.toEnum_gives (by cases op <;> rfl)

theorem RelOp.mem_all (op : RelOp) : op ∈ all := by
  cases op with
  | unary test => cases test <;> decide
  | binary op =>
    cases op with
    | compare comparison => cases comparison <;> decide
    | matchText place negated => cases place <;> cases negated <;> decide

theorem RelOp.ofJson_gives (op : RelOp) : Gives (ofJson reading) op.toJson op := by
  have hname : ∀ op ∈ all, ofName? op.name = some op := by decide
  exact Json.toEnum_gives (hname op op.mem_all)

end Names

namespace Scalar

-- A real that has a JSON form. All other constants have one.
def isFinite : Scalar → Bool
  | .real value => value.isFinite
  | _ => true

theorem toInt64_toInt (value : Int64) :
    (Json.toInt64 (.number (.integer value.toInt)) : Revived Int64) = .ok value := by
  have hrange : Int64.minValue.toInt ≤ value.toInt ∧ value.toInt ≤ Int64.maxValue.toInt :=
    ⟨Int64.minValue_le_toInt value, Int64.toInt_le value⟩
  simp only [Json.toInt64, if_pos hrange, Int64.ofInt_toInt]

-- The type may come before the value or behind it.
theorem gives_typed {reading : Reading} {type : String} {content : Json} {value : Scalar}
    (h : Gives (fun json => ofContent type (some json)) content value) :
    Gives (ofJson reading) (.object [("type", .text type), ("value", content)]) value := by
  intro other hother
  obtain ⟨_, others, rfl, hentries, hperm⟩ := hother.of_object
  obtain ⟨_, _, rfl, htype, hrest⟩ := hentries.of_cons
  obtain ⟨content, _, rfl, hcontent, hend⟩ := hrest.of_cons
  obtain rfl := htype.of_text
  obtain rfl := hend.of_nil
  rcases eq_or_eq_of_pair_perm hperm with rfl | rfl
  · exact h content hcontent
  · exact h content hcontent

theorem ofJson_gives {reading : Reading} {value : Scalar} (h : value.isFinite = true) :
    Gives (ofJson reading) value.toJson value := by
  cases value with
  | null =>
    intro other hother
    obtain ⟨_, others, rfl, hentries, hperm⟩ := hother.of_object
    obtain ⟨_, _, rfl, htype, hend⟩ := hentries.of_cons
    obtain rfl := htype.of_text
    obtain rfl := hend.of_nil
    obtain rfl := hperm.singleton_eq
    rfl
  | bool value => exact gives_typed (Json.gives_bool rfl)
  | int value =>
    refine gives_typed (Json.gives_number ?_)
    simp [ofContent, toInt64_toInt, Except.map]
  | real value =>
    have hfinite : value.isFinite = true := h
    rw [toJson, Json.ofReal, if_pos hfinite]
    exact gives_typed (Json.gives_number rfl)
  | text value => exact gives_typed (Json.gives_text rfl)

end Scalar

section Columns

variable {reading : Reading}

theorem ColumnType.ofJson_gives (type : ColumnType) : Gives (ofJson reading) type.toJson type :=
  Json.toRecord_gives
    (.map (.both (.required rfl (Json.gives_text rfl))
      (.both (.required rfl (ColumnKind.ofJson_gives _))
        (.required rfl (AggFn.ofJson_gives _)))) rfl)
    (by simp) (by simp [fields])

theorem ColumnMetadata.ofJson_gives (metadata : ColumnMetadata) :
    Gives (ofJson reading) metadata.toJson metadata :=
  Json.toRecord_gives
    (.map (.both (.required rfl (Json.gives_text rfl)) (.required rfl (ColumnType.ofJson_gives _)))
      rfl)
    (by simp) (by simp [fields])

end Columns

namespace NameMap

variable {α : Type}

theorem get?_insert (map : NameMap α) (name other : String) (value : α) :
    (map.insert name value).get? other = if name = other then some value else map.get? other := by
  simp only [get?, insert, find?_insertSorted]
  split <;> rfl

theorem get?_foldl_insert {entries : List (String × α)} {name : String}
    (h : ∀ entry ∈ entries, entry.1 ≠ name) (map : NameMap α) :
    (entries.foldl (fun map entry => map.insert entry.1 entry.2) map).get? name =
      map.get? name := by
  induction entries generalizing map with
  | nil => rfl
  | cons entry rest ih =>
    obtain ⟨hhead, hrest⟩ := List.forall_mem_cons.mp h
    rw [List.foldl_cons, ih hrest, get?_insert, if_neg hhead]

-- From a list without repeated names each of its entries can be looked up.
theorem get?_ofList {entries : List (String × α)} (hdistinct : (entries.map Prod.fst).Nodup)
    {entry : String × α} (hentry : entry ∈ entries) :
    (ofList entries).get? entry.1 = some entry.2 := by
  suffices h : ∀ map : NameMap α,
      (entries.foldl (fun map entry => map.insert entry.1 entry.2) map).get? entry.1 =
        some entry.2 from h empty
  induction entries with
  | nil => simp at hentry
  | cons head rest ih =>
    obtain ⟨hnew, hrest⟩ := List.nodup_cons.mp hdistinct
    intro map
    rw [List.foldl_cons]
    rcases List.mem_cons.mp hentry with rfl | hmem
    · have hothers : ∀ other ∈ rest, other.1 ≠ entry.1 :=
        fun other hother heq => hnew (List.mem_map.mpr ⟨other, hother, heq⟩)
      rw [get?_foldl_insert hothers, get?_insert, if_pos rfl]
    · exact ih hrest hmem _

theorem insertSorted_perm {name : String} {value : α} {entries : List (String × α)}
    (h : ∀ entry ∈ entries, entry.1 ≠ name) :
    (insertSorted name value entries).Perm ((name, value) :: entries) := by
  induction entries with
  | nil => exact .refl _
  | cons head rest ih =>
    obtain ⟨hhead, hrest⟩ := List.forall_mem_cons.mp h
    rw [insertSorted]
    split
    · exact .refl _
    · rw [if_neg (Ne.symm hhead)]
      exact ((ih hrest).cons head).trans (.swap _ _ _)

-- A list without repeated names has the entries of its map.
theorem entries_ofList_perm {entries : List (String × α)}
    (hdistinct : (entries.map Prod.fst).Nodup) : (ofList entries).entries.Perm entries := by
  suffices h : ∀ map : NameMap α, (∀ entry ∈ entries, ∀ own ∈ map.entries, own.1 ≠ entry.1) →
      (entries.foldl (fun map entry => map.insert entry.1 entry.2) map).entries.Perm
        (map.entries ++ entries) by
    simpa [ofList, empty] using h empty (by simp [empty])
  induction entries with
  | nil => simp
  | cons entry rest ih =>
    obtain ⟨hnew, hrest⟩ := List.nodup_cons.mp hdistinct
    intro map hfresh
    obtain ⟨hhead, hothers⟩ := List.forall_mem_cons.mp hfresh
    have hinsert : (map.insert entry.1 entry.2).entries.Perm (entry :: map.entries) :=
      insertSorted_perm hhead
    refine (ih hrest _ fun other hother own hown => ?_).trans
      ((hinsert.append_right rest).trans List.perm_middle.symm)
    rcases List.mem_cons.mp (hinsert.mem_iff.mp hown) with rfl | hown
    · exact fun heq => hnew (List.mem_map.mpr ⟨other, hother, heq.symm⟩)
    · exact hothers other hother own hown

theorem eq_of_perm {a b : NameMap α} (h : a.entries.Perm b.entries) : a = b := by
  obtain ⟨entries, hsorted⟩ := a
  obtain ⟨others, hothers⟩ := b
  obtain rfl : entries = others := h.eq_of_pairwise
    (fun _ _ _ _ hxy hyx => absurd (String.lt_trans hxy hyx) (String.lt_irrefl _)) hsorted hothers
  rfl

theorem names_nodup (map : NameMap α) : (map.entries.map Prod.fst).Nodup :=
  List.pairwise_map.mpr (map.sorted.imp fun {a b} (hlt : a.1 < b.1) heq =>
    String.lt_irrefl _ (heq ▸ hlt))

theorem ofList_perm {entries others : List (String × α)} (hdistinct : (entries.map Prod.fst).Nodup)
    (hperm : others.Perm entries) : ofList others = ofList entries := by
  have hothers : (others.map Prod.fst).Nodup := (hperm.map Prod.fst).nodup_iff.mpr hdistinct
  exact eq_of_perm ((entries_ofList_perm hothers).trans
    (hperm.trans (entries_ofList_perm hdistinct).symm))

theorem ofList_entries (map : NameMap α) : ofList map.entries = map :=
  eq_of_perm (entries_ofList_perm map.names_nodup)

variable {encode : α → Json} {decode : Json → Revived α}

-- The order of the entries does not matter, because no name comes twice.
theorem toEntries_gives {entries : List (String × α)} (hdistinct : (entries.map Prod.fst).Nodup)
    (h : ∀ entry ∈ entries, Gives decode (encode entry.2) entry.2) :
    Gives (fun json => (Json.toEntries decode json).map ofList)
      (.object (entries.map fun entry => (entry.1, encode entry.2))) (ofList entries) := by
  intro other hother
  obtain ⟨found, hfound, hperm⟩ := Json.toEntries_reordered h hother
  simp only [hfound, Except.map, ofList_perm hdistinct hperm]

theorem ofJson_gives {map : NameMap α}
    (h : ∀ value ∈ map.values, Gives decode (encode value) value) :
    Gives (ofJson decode) (map.toJson encode) map := by
  have hmap := toEntries_gives map.names_nodup fun entry hentry =>
    h entry.2 (List.mem_map_of_mem hentry)
  rwa [ofList_entries] at hmap

end NameMap

namespace Schema

variable {reading : Reading}

theorem describe_ids {metadata : NameMap ColumnMetadata} {columns : List Column}
    (h : ∀ column ∈ columns, metadata.get? column.id = some column.metadata) :
    describe metadata (Column.ids columns) = .ok columns := by
  induction columns with
  | nil => rfl
  | cons column rest ih =>
    obtain ⟨hhead, hrest⟩ := List.forall_mem_cons.mp h
    rw [Column.ids, List.map_cons, describe, hhead]
    simp only [show describe metadata (rest.map Column.id) = .ok rest from ih hrest]
    rfl

theorem ofJson_gives (schema : Schema) : Gives (ofJson reading) schema.toJson schema := by
  let entries := schema.columns.map fun column => (column.id, column.metadata)
  have hids : entries.map Prod.fst = schema.ids := by
    rw [List.map_map]
    rfl
  have hdistinct : (entries.map Prod.fst).Nodup := hids ▸ schema.distinct
  have hall : ∀ entry ∈ entries,
      Gives (ColumnMetadata.ofJson reading) entry.2.toJson entry.2 :=
    fun entry _ => entry.2.ofJson_gives
  have hmetadata := NameMap.toEntries_gives hdistinct hall
  rw [List.map_map] at hmetadata
  have hrecord : Gives (Json.toRecord (fields reading)) schema.toJson
      (schema.ids, NameMap.ofList entries) :=
    Json.toRecord_gives
      (.both (.required rfl (Json.toList_gives_texts _)) (.required rfl hmetadata))
      (by simp) (by simp [fields])
  have hcolumns : describe (NameMap.ofList entries) schema.ids = .ok schema.columns :=
    describe_ids fun column hcolumn =>
      NameMap.get?_ofList hdistinct (List.mem_map_of_mem hcolumn)
  have hparts : ofParts schema.ids (NameMap.ofList entries) = .ok schema :=
    bind_eq_ok.mpr ⟨schema.columns, hcolumns, ofColumns_eq_ok.mpr rfl⟩
  exact hrecord.bind (congrArg Json.refusing hparts)

end Schema

end PivotQuery
