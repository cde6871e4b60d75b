import PivotQuery.Sql.Lowering

namespace PivotQuery.Sql

-- A sort key of a select that becomes a subquery: one hidden column after the other, what
-- refers to the column refers to its new name.
def exposedKey (hidden : List (Item × Nat)) (key : SortKey) : SortKey :=
  hidden.foldl (fun key entry =>
    if key.column == entry.1.name then { key with column := orderColumn entry.2 } else key) key

private theorem foldl_renameKeys (hidden : List (Item × Nat)) (keys : List SortKey) :
    hidden.foldl (fun keys (item, index) => renameKeys item.name (orderColumn index) keys) keys =
      keys.map (exposedKey hidden) := by
  induction hidden generalizing keys with
  | nil => exact (List.map_id keys).symm
  | cons entry rest ih =>
    rw [List.foldl_cons, ih]
    exact List.map_map

theorem exposedKey_cons (entry : Item × Nat) (rest : List (Item × Nat)) (key : SortKey) :
    exposedKey (entry :: rest) key =
      exposedKey rest (if key.column == entry.1.name
        then { key with column := orderColumn entry.2 } else key) :=
  rfl

-- A key either refers to nothing hidden and stays, or gets the name of a hidden column.
theorem exposedKey_cases (hidden : List (Item × Nat)) (key : SortKey) :
    (exposedKey hidden key = key ∧ ∀ entry ∈ hidden, entry.1.name ≠ key.column) ∨
      ∃ entry ∈ hidden, (exposedKey hidden key).column = orderColumn entry.2 := by
  induction hidden generalizing key with
  | nil => exact Or.inl ⟨rfl, by simp⟩
  | cons entry rest ih =>
    rw [exposedKey_cons]
    by_cases h : key.column = entry.1.name
    · right
      simp only [h, beq_self_eq_true, if_true]
      rcases ih { key with column := orderColumn entry.2 } with ⟨hsame, -⟩ | ⟨other, hother, hname⟩
      · exact ⟨entry, List.mem_cons_self, by rw [hsame]⟩
      · exact ⟨other, List.mem_cons_of_mem _ hother, hname⟩
    · have hne : (key.column == entry.1.name) = false := by simpa using h
      simp only [hne, Bool.false_eq_true, if_false]
      rcases ih key with ⟨hsame, hnone⟩ | ⟨other, hother, hname⟩
      · exact Or.inl ⟨hsame, List.forall_mem_cons.mpr ⟨Ne.symm h, hnone⟩⟩
      · exact Or.inr ⟨other, List.mem_cons_of_mem _ hother, hname⟩

theorem exposedKey_of_not_hidden {hidden : List (Item × Nat)} {key : SortKey}
    (h : ∀ entry ∈ hidden, entry.1.name ≠ key.column) : exposedKey hidden key = key := by
  induction hidden with
  | nil => rfl
  | cons head rest ih =>
    obtain ⟨hhead, hrest⟩ := List.forall_mem_cons.mp h
    rw [exposedKey_cons, if_neg (by simpa using Ne.symm hhead), ih hrest]

-- A hidden column that has the name of a key gets a new name, and the key with it. It keeps
-- that name if no hidden column behind it has it.
theorem exposedKey_of_find {hidden : List (Item × Nat)} {key : SortKey} {entry : Item × Nat}
    (hfind : hidden.find? (fun entry => entry.1.name == key.column) = some entry)
    (hplaces : (hidden.map Prod.snd).Pairwise (· < ·))
    (hlater : ∀ other ∈ hidden, entry.2 < other.2 → other.1.name ≠ orderColumn entry.2) :
    exposedKey hidden key = { key with column := orderColumn entry.2 } := by
  induction hidden with
  | nil => simp at hfind
  | cons head rest ih =>
    obtain ⟨hbehind, hrest⟩ := List.pairwise_cons.mp hplaces
    rw [exposedKey_cons]
    by_cases hhead : head.1.name = key.column
    · obtain rfl : head = entry := by simpa [List.find?_cons, hhead] using hfind
      rw [if_pos (by simpa using hhead.symm)]
      exact exposedKey_of_not_hidden fun other hother =>
        hlater other (List.mem_cons_of_mem _ hother) (hbehind _ (List.mem_map_of_mem hother))
    · rw [if_neg (by simpa using Ne.symm hhead)]
      refine ih (by simpa [List.find?_cons, hhead] using hfind) hrest ?_
      exact fun other hother => hlater other (List.mem_cons_of_mem _ hother)

namespace Select

-- The subquery that a sorted select becomes: its hidden columns are part of it.
def exposedInner (select : Select) : Select :=
  { select with
    items := select.items ++
      select.hidden.zipIdx.map fun (item, index) => { item with name := orderColumn index }
    orderBy := []
    hidden := [] }

variable {select : Select} {schema : Schema}

theorem wrapOrdered_eq (select : Select) (schema : Schema) :
    select.wrapOrdered schema =
      { wrap [select.exposedInner] schema with
        orderBy := select.orderBy.map (exposedKey select.hidden.zipIdx)
        hidden := select.hidden.zipIdx.map fun (item, index) =>
          Item.column (orderColumn index) item.type } := by
  simp only [wrapOrdered, exposedInner, foldl_renameKeys]

@[simp] theorem wrapOrdered_items :
    (select.wrapOrdered schema).items = schema.columns.map Item.ofColumn := rfl

@[simp] theorem wrapOrdered_source :
    (select.wrapOrdered schema).source = .subquery [select.exposedInner] := rfl

theorem wrapOrdered_orderBy :
    (select.wrapOrdered schema).orderBy =
      select.orderBy.map (exposedKey select.hidden.zipIdx) := by
  rw [wrapOrdered_eq]

theorem wrapOrdered_hidden :
    (select.wrapOrdered schema).hidden = select.hidden.zipIdx.map fun (item, index) =>
      Item.column (orderColumn index) item.type := rfl

end Select

end PivotQuery.Sql
