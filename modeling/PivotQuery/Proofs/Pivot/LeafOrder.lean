import PivotQuery.Proofs.Pivot.DisplayOrder

namespace PivotQuery

namespace PivotTree

-- Next to aggregates of another type, the rows of the base have a column as text.
def leafBecomesText (tree : PivotTree) (id : String) : Bool :=
  (tree.showsRoot || 0 < tree.pivots.length) &&
    (tree.base.schema.type? id).any fun type =>
      !((tree.aggFn id).resultType type).sameAs type && !type.sameAs .string

variable {V : Type} [DecidableEq V] {engine : Engine V} {texts : engine.Texts}
variable {tree : PivotTree} {rows : Multiset (Row V)} {opened : PathTree}

variable (engine) in
-- What a row of the base is compared by.
def leafKey (tree : PivotTree) (row : Row V) (id : String) : V :=
  if tree.leafBecomesText id then engine.cast .string (row.get engine id) else row.get engine id

-- Whether the rows of the base are cast does not depend on which of them are shown.
private theorem castsValue_of_open {path : Path} (hopen : opened.isOpen path = true)
    (hbottom : path.length = tree.pivots.length) {column : Column}
    (hcolumn : column ∈ tree.base.schema.columns) :
    tree.castsValue opened true column = tree.leafBecomesText column.id := by
  have hrows : (([] :: opened.paths).any fun path => path.length = tree.pivots.length) = true :=
    List.any_eq_true.mpr ⟨path, mem_open.mpr hopen, by simpa using hbottom⟩
  rw [castsValue, stacksAsText, mixes, hrows, leafBecomesText, Schema.type?_of_mem hcolumn,
    Option.any_some, Bool.and_true, Bool.and_assoc]
  rfl

private theorem precedes_leaves (hformed : tree.WellFormed) (hnodup : tree.displayColumns.Nodup)
    {path : Path} {a b : Row V} (ha : .leaf path a ∈ tree.nodes texts rows opened) :
    Sql.precedes engine tree.displayOrder
        ((tree.displayRow texts rows opened (.leaf path a)).get engine)
        ((tree.displayRow texts rows opened (.leaf path b)).get engine) =
      Sql.precedes engine tree.sortKey (tree.leafKey engine a) (tree.leafKey engine b) := by
  obtain ⟨hbottom, hopen⟩ := leaf_mem_nodes ha
  have habove := orderAbove_eq texts rows opened hnodup (.leaf path a) (.leaf path b) le_rfl rfl
    (fun _ _ => rfl)
    (by simp [TreeNode.depth, hbottom]) (by simp [TreeNode.depth, hbottom])
  have hmark := mark_eq texts rows opened hnodup (a := .leaf path a) (b := .leaf path b) le_rfl
    Iff.rfl
  have hkey : ∀ (row : Row V), ∀ key ∈ tree.sortKey,
      (tree.displayRow texts rows opened (.leaf path row)).get engine key.column =
        tree.leafKey engine row key.column := by
    intro row key hkey
    obtain ⟨column, hcolumn, hid⟩ := Schema.mem_ids.mp (hformed.sortKey key hkey)
    rw [← hid, get_displayRow_column hnodup _ hcolumn, TreeNode.isLeaf,
      castsValue_of_open hopen hbottom hcolumn]
    rfl
  rw [displayOrder_eq, List.append_assoc, Sql.precedes_append_of_eq habove,
    Sql.precedes_append_of_eq hmark]
  exact Sql.precedes_congr (List.forall₂_same.mpr fun key hkey' =>
    ⟨rfl, hkey a key hkey', hkey b key hkey'⟩)

end PivotTree

-- Rows of the base that lie in the same group are in the order of the sort key, by the values
-- that they have there: their own, but cast to text if the aggregates of the column are of
-- another type than the column.
theorem leaf_rows_in_order {V : Type} [DecidableEq V] (engine : Engine V)
    (texts : engine.Texts) (db : Database V) (base : TypedQuery) (config : PivotConfig)
    (tree : PivotTree) (htree : PivotTree.ofConfig base config = .ok tree) (opened : PathTree)
    (hopened : ∀ path, opened.isOpen path = true → path.length ≤ tree.pivots.length)
    (sorted : TypedQuery) (hsorted : tree.sortedTreeQuery opened = .ok sorted) :
    ∃ (input : Query) (nodes : Multiset (TreeNode V)),
      sorted.query = .sort input tree.displayOrder ∧
      (∀ node, nodes.count node =
        tree.visibleCount texts (tree.base.query.bag engine db) opened node) ∧
      sorted.query.bag engine db =
        nodes.map (tree.displayRow texts (tree.base.query.bag engine db) opened) ∧
      ∀ path a b, .leaf path a ∈ nodes → .leaf path b ∈ nodes →
        Sql.precedes engine tree.displayOrder
            ((tree.displayRow texts (tree.base.query.bag engine db) opened (.leaf path a)).get
              engine)
            ((tree.displayRow texts (tree.base.query.bag engine db) opened (.leaf path b)).get
              engine) =
          Sql.precedes engine tree.sortKey (tree.leafKey engine a) (tree.leafKey engine b) := by
  have hformed := PivotTree.wellFormed_of_ofConfig htree
  have hnodup := PivotTree.nodup_of_sortedTreeQuery hformed hsorted
  obtain ⟨⟨input, hquery⟩, hbag⟩ :=
    PivotTree.rows_of_sortedTreeQuery texts db hformed hopened hsorted
  exact ⟨input, tree.nodes texts (tree.base.query.bag engine db) opened, hquery,
    PivotTree.count_nodes, hbag, fun _ _ _ ha _ => PivotTree.precedes_leaves hformed hnodup ha⟩

theorem leaf_rows_in_order_payTree :
    ∃ (sorted : TypedQuery) (nodes : Multiset (TreeNode Cell)),
      PivotTree.ofConfig payrollTable payByFamily = .ok payTree ∧
      (∀ path, engineersOpen.isOpen path = true → path.length ≤ payTree.pivots.length) ∧
      payTree.sortedTreeQuery engineersOpen = .ok sorted ∧
      sorted.query.bag .cells payroll = nodes.map
        (payTree.displayRow Engine.cellTexts payRows engineersOpen) ∧
      Sql.precedes .cells payTree.displayOrder
        (readPay (.leaf [some "Engineers"] (engineer 10)))
        (readPay (.leaf [some "Engineers"] (engineer 9))) = false := by
  obtain ⟨sorted, hsorted⟩ : ∃ sorted, payTree.sortedTreeQuery engineersOpen = .ok sorted :=
    ⟨_, rfl⟩
  have hopened : ∀ path, engineersOpen.isOpen path = true → path.length ≤ payTree.pivots.length :=
    fun _ => length_engineersOpen
  obtain ⟨input, nodes, -, hcount, hbag, horder⟩ := leaf_rows_in_order .cells Engine.cellTexts
    payroll payrollTable payByFamily payTree ofConfig_payByFamily engineersOpen hopened sorted
    hsorted
  have hnine : .leaf [some "Engineers"] (engineer 9) ∈ nodes :=
    mem_of_visiblePay hcount (by decide)
  have hten : .leaf [some "Engineers"] (engineer 10) ∈ nodes :=
    mem_of_visiblePay hcount (by decide)
  exact ⟨sorted, nodes, ofConfig_payByFamily, hopened, hsorted, hbag,
    (horder _ _ _ hten hnine).trans (by decide)⟩

-- The same payroll with pay as a real number, of which the groups show how often it is known.

def realPayTable : TypedQuery :=
  .table "payroll" ⟨[.ofType "family" .string, .ofType "pay" .real], by decide⟩

def payCountByFamily : PivotConfig :=
  { payByFamily with aggMap := ⟨[("pay", .count)], by simp⟩ }

def payCountTree : PivotTree := (PivotTree.ofConfig realPayTable payCountByFamily).toOption.get rfl

def payCountSorted : TypedQuery := (payCountTree.sortedTreeQuery engineersOpen).toOption.get rfl

-- The row of an engineer in the sorted tree.
def displayedEngineer (pay : Int) : Row Cell :=
  payCountTree.displayRow Engine.cellTexts (payCountTree.base.query.bag .cells payroll)
    engineersOpen (.leaf [some "Engineers"] (engineer pay))

-- As numbers 9 comes before 10, but as texts it does not.
theorem leaf_rows_of_payCountTree_out_of_order :
    PivotTree.ofConfig realPayTable payCountByFamily = .ok payCountTree ∧
      payCountTree.sortKey = [⟨"pay", true⟩] ∧
      payCountTree.sortedTreeQuery engineersOpen = .ok payCountSorted ∧
      (∃ input, payCountSorted.query = .sort input payCountTree.displayOrder) ∧
      displayedEngineer 9 ∈ payCountSorted.query.bag .cells payroll ∧
      displayedEngineer 10 ∈ payCountSorted.query.bag .cells payroll ∧
      Sql.precedes .cells payCountTree.sortKey ((engineer 9).get .cells)
        ((engineer 10).get .cells) = true ∧
      Sql.precedes .cells payCountTree.displayOrder ((displayedEngineer 9).get .cells)
        ((displayedEngineer 10).get .cells) = false := by
  exact ⟨rfl, rfl, rfl, ⟨_, rfl⟩, by decide, by decide, by decide, by decide⟩

end PivotQuery
