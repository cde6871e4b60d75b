import PivotQuery.Proofs.Paging.OrderColumns

namespace PivotQuery

open Sql (Select)

namespace Sql

namespace Select

variable {select other : Select} {schema result : Schema} {selects : List Select}

-- A sort key in the order of the select over a sorted one: what is hidden goes by the name of
-- its place, and everything else by its own.
structure CarriesOver (select : Select) (key outer : SortKey) : Prop where
  direction : outer.ascending = key.ascending
  visible : select.hides key.column = false → outer.column = key.column
  hidden : select.hides key.column = true → ∃ index item, select.hidden[index]? = some item ∧
    item.name = key.column ∧ outer.column = orderColumn index

-- The names that are made up when a sorted select becomes a subquery are those of no other
-- column there, and of no column of the select over it.
structure WrapsApart (select : Select) (schema : Schema) : Prop where
  inner : select.exposedInner.names.Nodup
  outer : ∀ index, orderColumn index ∉ (select.wrapOrdered schema).names
  keys : List.Forall₂ select.CarriesOver select.orderBy (select.wrapOrdered schema).orderBy

-- A made up name that a select orders by means one column only: it is not in the result, is
-- hidden once, and is in the subquery once, where it stands for what was hidden at its place.
structure DenotesHidden (select : Select) (index : Nat) : Prop where
  apart : orderColumn index ∉ select.names
  once : select.hiddenNames.count (orderColumn index) = 1
  column : ∀ item ∈ select.hidden, item.name = orderColumn index →
    item.exp = .value (.column (orderColumn index))
  subquery : ∃ (sorted : Select) (item : Item), select.source = .subquery [sorted.exposedInner] ∧
    sorted.hidden[index]? = some item ∧
    sorted.exposedInner.item? (orderColumn index) = some { item with name := orderColumn index } ∧
    sorted.exposedInner.names.count (orderColumn index) = 1

structure OrdersByHidden (select : Select) : Prop where
  keys : ∀ key ∈ select.orderBy, ∀ index, key.column = orderColumn index →
    select.hides key.column = true
  denotes : ∀ index, select.hides (orderColumn index) = true → select.DenotesHidden index

-- What is hidden under a made up name has been written out in the subquery.
def TakesOver (select : Select) : Prop :=
  ∀ index, select.hides (orderColumn index) = true → ∃ sorted : Select,
    select.source = .subquery [sorted.exposedInner] ∧ index < sorted.hidden.length ∧
      sorted.exposedInner.names.Nodup

theorem TakesOver.of_hidden_nil (h : select.hidden = []) : select.TakesOver := by
  intro index hhides
  simp [hides, h] at hhides

theorem TakesOver.wrapOrdered (h : select.Lowered schema) (hschema : schema.Unreserved) :
    (select.wrapOrdered schema).TakesOver := by
  intro index hhides
  obtain ⟨item, hitem, hname⟩ := hides_iff.mp hhides
  rw [wrapOrdered_hidden] at hitem
  obtain ⟨⟨own, place⟩, hentry, rfl⟩ := List.mem_map.mp hitem
  obtain rfl : place = index := orderColumn_injective hname
  have hplace : select.hidden[place]? = some own := List.mem_zipIdx_iff_getElem?.mp hentry
  exact ⟨select, rfl, (List.getElem?_eq_some_iff.mp hplace).1,
    nodup_names_exposedInner h hschema⟩

theorem TakesOver.reuse (mergeable : Select → Bool) (h : ∀ select ∈ selects, select.TakesOver) :
    (reuse mergeable schema selects).TakesOver :=
  reuse_cases (fun select hselect _ => h select (by simp [hselect])) (.of_hidden_nil rfl)

theorem TakesOver.reuseOrdered (mergeable : Select → Bool) (hlowered : Sql.Lowered selects schema)
    (hschema : schema.Unreserved) (h : ∀ select ∈ selects, select.TakesOver) :
    (reuseOrdered mergeable schema selects).TakesOver :=
  reuseOrdered_cases (fun select hselect _ => h select (by simp [hselect])) (.of_hidden_nil rfl)
    (fun select hselect => .wrapOrdered (hlowered.each select (by simp [hselect])) hschema)

-- An operator that goes into a select keeps its source, and hides nothing under such a name.
theorem TakesOver.of_hides (h : select.TakesOver) (hsource : other.source = select.source)
    (hhides : ∀ index, other.hides (orderColumn index) = true →
      select.hides (orderColumn index) = true) : other.TakesOver := by
  intro index hhidden
  rw [hsource]
  exact h index (hhides index hhidden)

theorem TakesOver.project {ids : List String} (h : select.TakesOver)
    (hlowered : select.Lowered schema) (hschema : schema.Unreserved) :
    (select.projected ids).TakesOver := by
  refine h.of_hides rfl fun index hhides => ?_
  rw [← mem_hiddenNames, hiddenNames_projected hlowered, List.mem_append] at hhides
  refine mem_hiddenNames.mp (hhides.resolve_right fun hdropped => ?_)
  obtain ⟨key, hkey, hname⟩ := List.mem_map.mp hdropped
  obtain ⟨hkey, -, hvisible⟩ := mem_droppedKeys.mp hkey
  have hid := (hlowered.keys key hkey).resolve_right (by simp [hvisible])
  exact hschema _ hid index hname

theorem Apart.wrapsApart (h : select.Apart schema) (hlowered : select.Lowered schema)
    (hschema : schema.Unreserved) : select.WrapsApart schema where
  inner := nodup_names_exposedInner hlowered hschema
  outer index := by
    have hfits : (select.wrapOrdered schema).Fits schema := forall₂_ofColumn schema.columns
    rw [hfits.names_eq]
    exact fun hid => hschema _ hid index rfl
  keys := by
    rw [wrapOrdered_orderBy, List.forall₂_map_right_iff, List.forall₂_same]
    intro key _
    cases hhides : select.hides key.column with
    | false =>
      rw [exposedKey_of_visible hhides]
      exact ⟨rfl, fun _ => rfl, fun hhidden => absurd (hhides.symm.trans hhidden) (by simp)⟩
    | true =>
      obtain ⟨⟨item, index⟩, hentry, hname, hexposed⟩ := h.exposedKey_of_hides hhides
      rw [hexposed]
      exact ⟨rfl, fun hvisible => absurd (hhides.symm.trans hvisible) (by simp),
        fun _ => ⟨index, item, List.mem_zipIdx_iff_getElem?.mp hentry, hname, rfl⟩⟩

theorem TakesOver.denotesHidden (h : select.TakesOver) (hkeys : select.HidesKeys)
    (hlowered : select.Lowered schema) (hapart : select.Apart schema) {index : Nat}
    (hhides : select.hides (orderColumn index) = true) : select.DenotesHidden index where
  apart := by
    rw [hlowered.fits.names_eq]
    exact hapart.fresh_of_mem_hiddenNames (mem_hiddenNames.mpr hhides)
  once := hapart.count_orderColumn (mem_hiddenNames.mpr hhides)
  column item hitem hname := hname ▸ hkeys.identity item hitem
  subquery := by
    obtain ⟨sorted, hsource, hlt, hnodup⟩ := h index hhides
    have hitem : sorted.hidden[index]? = some sorted.hidden[index] :=
      List.getElem?_eq_getElem hlt
    have hwritten : { sorted.hidden[index] with name := orderColumn index } ∈
        sorted.exposedInner.items :=
      List.mem_append_right _ (List.mem_map.mpr
        ⟨(sorted.hidden[index], index), List.mem_zipIdx_iff_getElem?.mpr hitem, rfl⟩)
    refine ⟨sorted, _, hsource, hitem, item?_of_mem hnodup hwritten, ?_⟩
    exact List.count_eq_one_of_mem hnodup (List.mem_map_of_mem hwritten)

theorem TakesOver.ordersByHidden (h : select.TakesOver) (hkeys : select.HidesKeys)
    (hlowered : select.Lowered schema) (hapart : select.Apart schema)
    (hschema : schema.Unreserved) : select.OrdersByHidden where
  keys key hkey index hname :=
    (hlowered.keys key hkey).resolve_left fun hid => hschema _ hid index hname
  denotes _ := h.denotesHidden hkeys hlowered hapart

theorem OrdersByHidden.exposedInner : select.exposedInner.OrdersByHidden where
  keys := by simp [Select.exposedInner]
  denotes := by simp [Select.exposedInner, hides]

end Select

-- The number of a row is a column of its own where the rows are numbered, and every name in the
-- page that is to mean it does.
structure NumbersApart (selects : List Select) (schema : Schema) (offset limit : Option Nat) :
    Prop where
  distinct : (numbered selects schema).names.Nodup
  computed : (numbered selects schema).item? rowNumberColumn =
    some ⟨.rowNumber (unordered selects).2, .integer, rowNumberColumn⟩
  kept : (inRange (numbered selects schema) (pageRange offset limit)).item? rowNumberColumn =
    some (Item.column rowNumberColumn .integer)
  condition : ∀ filter ∈ (inRange (numbered selects schema) (pageRange offset limit)).condition,
    ∀ id ∈ filter.columns, id = rowNumberColumn ∧
      (inRange (numbered selects schema) (pageRange offset limit)).source.columns.count id = 1
  order : ∀ key ∈ (rowNumberPage selects schema offset limit).orderBy,
    key.column = rowNumberColumn ∧
      key.column ∉ (rowNumberPage selects schema offset limit).names ∧
      (rowNumberPage selects schema offset limit).source.columns.count key.column = 1

variable {selects : List Select} {schema : Schema}

theorem names_numbered : (numbered selects schema).names = schema.ids ++ [rowNumberColumn] := by
  simp [numbered, Select.wrap, Select.plain, Select.names, Item.ofColumn, Item.column, Schema.ids,
    Column.ids, Function.comp_def]

theorem nodup_names_numbered_iff (selects : List Select) :
    (numbered selects schema).names.Nodup ↔ rowNumberColumn ∉ schema.ids := by
  rw [names_numbered, List.nodup_append]
  constructor
  · rintro ⟨-, -, hapart⟩ hid
    exact hapart _ hid _ List.mem_cons_self rfl
  · intro hfree
    refine ⟨schema.distinct, List.nodup_singleton _, fun name hname other hother => ?_⟩
    obtain rfl := List.mem_singleton.mp hother
    rintro rfl
    exact hfree hname

theorem names_inRange (select : Select) (range : Filter) :
    (inRange select range).names = select.names := by
  simp [inRange, Select.plain, Select.names, Item.column, Function.comp_def]

private theorem numbersApart (hfree : rowNumberColumn ∉ schema.ids) (offset limit : Option Nat) :
    NumbersApart selects schema offset limit := by
  have hnodup := (nodup_names_numbered_iff selects).mpr hfree
  have hnumber : ⟨.rowNumber (unordered selects).2, .integer, rowNumberColumn⟩ ∈
      (numbered selects schema).items :=
    List.mem_append_right _ List.mem_cons_self
  have hcount : (numbered selects schema).names.count rowNumberColumn = 1 :=
    List.count_eq_one_of_mem hnodup (List.mem_map_of_mem hnumber)
  constructor
  case distinct => exact hnodup
  case computed => exact Select.item?_of_mem hnodup hnumber
  case kept =>
    have hkept : (inRange (numbered selects schema) (pageRange offset limit)).names.Nodup := by
      rw [names_inRange]
      exact hnodup
    exact Select.item?_of_mem hkept (List.mem_map.mpr ⟨_, hnumber, rfl⟩)
  case condition =>
    intro filter hfilter id hid
    obtain rfl : pageRange offset limit = filter := Option.some.inj hfilter
    obtain rfl := columns_pageRange id hid
    exact ⟨rfl, hcount⟩
  case order =>
    refine List.forall_mem_singleton.mpr ⟨rfl, ?_, ?_⟩
    · have hfits : (rowNumberPage selects schema offset limit).Fits schema :=
        Select.forall₂_ofColumn schema.columns
      rw [hfits.names_eq]
      exact hfree
    · rw [show (rowNumberPage selects schema offset limit).source.columns =
        (inRange (numbered selects schema) (pageRange offset limit)).names from rfl, names_inRange]
      exact hcount

-- A key of the window with a made up name means what is hidden under it, because nothing else in
-- the rows has that name.
private theorem count_source_numbered (h : ∀ select ∈ selects, select.OrdersByHidden) :
    ∀ keys ∈ (numbered selects schema).windows, ∀ key ∈ keys, ∀ index,
      key.column = orderColumn index → ∃ own ∈ selects, keys = own.orderBy ∧
        own.DenotesHidden index ∧
        (numbered selects schema).source = .subquery [{ own with orderBy := [] }.exposed] ∧
        (numbered selects schema).source.columns.count key.column = 1 := by
  intro keys hkeys key hkey index hname
  rw [windows_numbered, List.mem_singleton] at hkeys
  subst hkeys
  unfold unordered at hkey
  split at hkey
  · rename_i own
    have hown := h own List.mem_cons_self
    have hdenotes := hown.denotes index (hname ▸ hown.keys key hkey index hname)
    refine ⟨own, List.mem_cons_self, rfl, hdenotes, rfl, ?_⟩
    rw [show (numbered [own] schema).source.columns = own.exposed.names from rfl,
      Select.names_exposed, List.count_append, hname, hdenotes.once,
      List.count_eq_zero.mpr hdenotes.apart]
  · simp at hkey

end Sql

namespace Query

theorem takesOver_reuseOrdered {input : Query} {schema : Schema}
    (hinput : input.infer = .ok schema) (hunreserved : input.Unreserved)
    (mergeable : Select → Bool) (h : ∀ select ∈ input.lower, select.TakesOver) :
    (Select.reuseOrdered mergeable schema input.lower).TakesOver :=
  .reuseOrdered mergeable (lower_lowered.holds hinput) (Unreserved.schema hunreserved hinput) h

theorem lower_takesOver : AcceptedCases fun query _ => query.Unreserved →
    ∀ select ∈ query.lower, select.TakesOver where
  table name schema _ := List.forall_mem_singleton.mpr (.of_hidden_nil rfl)
  sql text schema _ := List.forall_mem_singleton.mpr (.of_hidden_nil rfl)
  project {input ids schema result} hinput h ih hunreserved := by
    have hinner := hunreserved.input rfl
    rw [lower, schema_of_infer hinput]
    exact List.forall_mem_singleton.mpr
      ((takesOver_reuseOrdered hinput hinner _ (ih hinner)).project
        (Select.Lowered.reuseOrdered _ (lower_lowered.holds hinput).each)
        (Unreserved.schema hinner hinput))
  filter {input condition schema result} hinput h ih hunreserved := by
    have hinner := hunreserved.input rfl
    rw [lower, schema_of_infer hinput]
    exact List.forall_mem_singleton.mpr
      ((takesOver_reuseOrdered hinput hinner _ (ih hinner)).of_hides rfl fun _ hhides => hhides)
  extend {input id exp options schema result} hinput h ih hunreserved := by
    have hinner := hunreserved.input rfl
    rw [lower, schema_of_infer hinput]
    exact List.forall_mem_singleton.mpr
      ((takesOver_reuseOrdered hinput hinner _ (ih hinner)).of_hides rfl fun _ hhides => hhides)
  groupBy {input keys aggs schema result} hinput h ih hunreserved := by
    rw [lower, schema_of_infer hinput]
    exact List.forall_mem_singleton.mpr ((Select.TakesOver.reuse _
      (ih (hunreserved.input rfl))).of_hides rfl fun _ hhides => hhides)
  join _ _ _ _ _ _ := List.forall_mem_singleton.mpr (.of_hidden_nil rfl)
  concat {branches schemas result} hbranches h hunreserved := by
    have hinfer := infer_concat (hbranches.imp fun _ _ hbranch => hbranch.1) h
    rw [lower, schema_of_infer hinfer]
    intro select hselect
    obtain ⟨query, hquery, own, hmem, rfl⟩ := mem_lowerBranches.mp hselect
    obtain ⟨schema, -, hquery', ih⟩ := exists_mem_right hbranches hquery
    rw [schema_of_infer hquery'] at hmem
    have hbranch : own.TakesOver :=
      Select.branch_cases (lower_lowered.holds hquery')
        (fun own hown _ => ih (hunreserved.branch hquery) own hown) (.of_hidden_nil rfl) own hmem
    exact hbranch.of_hides rfl fun _ hhides => hhides
  sort _ _ _ _ := List.forall_mem_singleton.mpr (.of_hidden_nil rfl)
  mapColumns {input changes schema result} hinput h ih hunreserved := by
    have hinner := hunreserved.input rfl
    rw [lower, schema_of_infer hinput]
    exact List.forall_mem_singleton.mpr
      ((takesOver_reuseOrdered hinput hinner _ (ih hinner)).of_hides rfl fun _ hhides => hhides)

theorem nested_ordersByHidden : AcceptedCases fun query _ => query.Unreserved →
    ∀ select ∈ Sql.nestedSelects query.lower, select.OrdersByHidden := by
  refine forall_nested_lower fun {query schema} hinfer hunreserved select hselect => ?_
  have htakes := lower_takesOver.holds hinfer hunreserved select hselect
  exact ⟨htakes.ordersByHidden (lower_hidesKeys.holds hinfer hunreserved select hselect)
    ((lower_lowered.holds hinfer).each select hselect)
    (lower_apart.holds hinfer hunreserved select hselect) (Unreserved.schema hunreserved hinfer),
    .exposedInner⟩

end Query

-- When a sorted select becomes a subquery, the names that are made up there are distinct from all
-- others exactly if the query has no column of such a name, and the same holds of the number of
-- a row in a page. Then ORDER BY, the window and the condition of a page mean by these names what
-- they were made up for, whatever operators follow.
theorem generated_names_are_fresh (query : TypedQuery) (offset limit : Option Nat) :
    (∀ node ∈ query.query.nodes, ∀ select ∈ node.lower, (select.exposedInner.names.Nodup ↔
      ∀ index < select.hidden.length, Sql.orderColumn index ∉ node.schema.ids)) ∧
    ((Sql.numbered query.query.lower query.schema).names.Nodup ↔
      Sql.rowNumberColumn ∉ query.schema.ids) ∧
    (query.query.Unreserved →
      (∀ node ∈ query.query.nodes, ∀ select ∈ node.lower, select.WrapsApart node.schema) ∧
      (∀ select ∈ Sql.nestedSelects query.query.lower, select.OrdersByHidden) ∧
      ∀ keys ∈ (Sql.numbered query.query.lower query.schema).windows, ∀ key ∈ keys,
        ∀ index, key.column = Sql.orderColumn index → ∃ own ∈ query.query.lower,
          keys = own.orderBy ∧ own.DenotesHidden index ∧
          (Sql.numbered query.query.lower query.schema).source =
            .subquery [{ own with orderBy := [] }.exposed] ∧
          (Sql.numbered query.query.lower query.schema).source.columns.count key.column = 1) ∧
    (Sql.rowNumberColumn ∉ query.schema.ids →
      Sql.NumbersApart query.query.lower query.schema offset limit) := by
  have haccepted := Query.accepted_nodes.holds query.typed
  refine ⟨fun node hnode select hselect => ?_, Sql.nodup_names_numbered_iff _,
    fun hunreserved => ⟨fun node hnode select hselect => ?_, ?_, ?_⟩,
    fun hfree => Sql.numbersApart hfree offset limit⟩
  · obtain ⟨schema, hinfer⟩ := haccepted node hnode
    rw [Query.schema_of_infer hinfer]
    have hlowered := (Query.lower_lowered.holds hinfer).each select hselect
    exact Select.nodup_names_exposedInner_iff hlowered
  · obtain ⟨schema, hinfer⟩ := haccepted node hnode
    have hnodeUnreserved : node.Unreserved := Query.Everywhere.node hunreserved query.typed hnode
    rw [Query.schema_of_infer hinfer]
    exact (Query.lower_apart.holds hinfer hnodeUnreserved select hselect).wrapsApart
      ((Query.lower_lowered.holds hinfer).each select hselect)
      (Query.Unreserved.schema hnodeUnreserved hinfer)
  · exact Query.nested_ordersByHidden.holds query.typed hunreserved
  · exact Sql.count_source_numbered fun select hselect =>
      Query.nested_ordersByHidden.holds query.typed hunreserved select
        (Sql.mem_nestedSelects_self hselect)

-- The amounts are hidden, and a new column takes their name.
def regionsAndOnes : TypedQuery :=
  ⟨.extend regionsByAmount.query "amount" (.constant (.int 1)) { type := .integer }, saleColumns,
    rfl⟩

theorem generated_names_are_fresh_regionsAndOnes :
    regionsAndOnes.query.Unreserved ∧ Sql.rowNumberColumn ∉ regionsAndOnes.schema.ids ∧
      (∀ select ∈ regionsAndOnes.query.lower, select.DenotesHidden 0) ∧
      Sql.NumbersApart regionsAndOnes.query.lower regionsAndOnes.schema none none := by
  have hids : ∀ node ∈ regionsAndOnes.query.nodes, ∀ id ∈ node.schema.ids,
      ¬"_order".toList <+: id.toList := by
    decide
  have hunreserved : regionsAndOnes.query.Unreserved :=
    fun node hnode id hid => Sql.ne_orderColumn (hids node hnode id hid)
  have hfree : Sql.rowNumberColumn ∉ regionsAndOnes.schema.ids := by decide
  obtain ⟨-, -, hfresh, hpage⟩ := generated_names_are_fresh regionsAndOnes none none
  refine ⟨hunreserved, hfree, fun select hselect => ?_, hpage hfree⟩
  refine ((hfresh hunreserved).2.1 select (Sql.mem_nestedSelects_self hselect)).denotes 0 ?_
  obtain rfl := List.mem_singleton.mp hselect
  decide

-- Another one takes the name that was made up for the amounts.
def regionsAndTwos : TypedQuery :=
  ⟨.extend regionsAndOnes.query "_order0" (.constant (.int 2)) { type := .integer },
    ⟨saleColumns.columns ++ [.ofType "_order0" .integer], by decide⟩, rfl⟩

-- The amounts are written out under that name once more, so that the order of the rows is by the
-- new column, which is the same in all rows.
theorem regionsAndTwos_are_in_no_order :
    ∃ select ∈ Sql.nestedSelects regionsAndTwos.query.lower,
      select.hiddenNames = [Sql.orderColumn 0] ∧ Sql.orderColumn 0 ∈ select.names ∧
      select.orderBy = [⟨Sql.orderColumn 0, false⟩] ∧
      (select.item? (Sql.orderColumn 0)).map Sql.Item.exp =
        some (.value (.constant (.int 2))) :=
  ⟨_, Sql.mem_nestedSelects_self List.mem_cons_self, rfl, by decide, rfl, rfl⟩

end PivotQuery
