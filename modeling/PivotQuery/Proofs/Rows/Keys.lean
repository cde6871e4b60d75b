import PivotQuery.Proofs.Rows.Names
import PivotQuery.Proofs.Aggregates.FilteredRow

namespace PivotQuery

variable {V : Type} [DecidableEq V] {engine : Engine V}

-- Without keys there is one group, of all rows.
theorem groupRows_nil (aggs : List Aggregate) (rows : Multiset (Row V)) :
    groupRows engine [] aggs rows = {aggregateRow engine aggs rows} := by
  have hall : rows.filter (fun row => Row.project engine [] row = []) = rows :=
    Multiset.filter_eq_self.mpr fun _ _ => rfl
  simp only [groupRows, if_true, Multiset.map_singleton, hall, List.nil_append, aggregateRow]

section Groups

variable {α β : Type} [DecidableEq α] {keys : List String} {aggs : List Aggregate}
variable {source : Multiset β} {row : β → Row V} {key : β → α} {keyRow : α → Row V}

variable (keyRow) in
-- Where the columns of the keys hold what tells the groups apart, there is one row for each
-- group.
theorem groupRows_map (hkeys : keys ≠ [])
    (hproject : ∀ x ∈ source, (row x).project engine keys = keyRow (key x))
    (hinj : ∀ x ∈ source, ∀ y ∈ source, keyRow (key x) = keyRow (key y) → key x = key y) :
    groupRows engine keys aggs (source.map row) = (source.map key).dedup.map fun group =>
      keyRow group ++
        aggregateRow engine aggs ((source.filter fun x => key x = group).map row) := by
  have hgroups : ((source.map row).map (Row.project engine keys)).dedup =
      (source.map key).dedup.map keyRow := by
    have hdistinct : ((source.map key).dedup.map keyRow).Nodup := by
      refine Multiset.Nodup.map_on (fun a ha b hb heq => ?_) (Multiset.nodup_dedup _)
      obtain ⟨x, hx, rfl⟩ := Multiset.mem_map.mp (Multiset.mem_dedup.mp ha)
      obtain ⟨y, hy, rfl⟩ := Multiset.mem_map.mp (Multiset.mem_dedup.mp hb)
      exact hinj x hx y hy heq
    rw [← hdistinct.dedup, Multiset.dedup_map_dedup_eq, Multiset.map_map, Multiset.map_map]
    exact congrArg Multiset.dedup (Multiset.map_congr rfl hproject)
  simp only [groupRows, if_neg hkeys]
  rw [hgroups, Multiset.map_map]
  refine Multiset.map_congr rfl fun group hgroup => ?_
  obtain ⟨x, hx, rfl⟩ := Multiset.mem_map.mp (Multiset.mem_dedup.mp hgroup)
  have hmembers : (source.map row).filter (fun row => row.project engine keys = keyRow (key x)) =
      (source.filter fun y => key y = key x).map row := by
    rw [Multiset.filter_map]
    refine congrArg (Multiset.map row) (Multiset.filter_congr fun y hy => ?_)
    rw [Function.comp_apply, hproject y hy]
    exact ⟨hinj y hy x hx, congrArg keyRow⟩
  rw [Function.comp_apply, hmembers]
  rfl

end Groups

section Joins

variable {α β : Type} [DecidableEq α] {on columns : List String}
variable {source : Multiset β} {left : β → Row V} {keys : Multiset α} {right : α → Row V}

-- A row that matches one right row at most is joined to that, and neither lost nor repeated.
theorem joinRows_map (key : β → α) (hkeys : keys.Nodup)
    (hmatch : ∀ x ∈ source, ∀ k ∈ keys,
      keysMatch engine on (left x) (right k) = decide (k = key x)) :
    joinRows engine .leftOuter on columns (source.map left) (keys.map right) =
      source.map fun x =>
        left x ++
          if key x ∈ keys then
            (right (key x)).project engine (columns.filter fun id => !on.contains id)
          else (columns.filter fun id => !on.contains id).map fun id => (id, engine.null) := by
  have hmatching : ∀ x ∈ source,
      (keys.map right).filter (fun right => keysMatch engine on (left x) right) =
        if key x ∈ keys then {right (key x)} else 0 := by
    intro x hx
    rw [Multiset.filter_map, Multiset.filter_congr (q := fun k => k = key x)
      (fun k hk => by simp [hmatch x hx k hk]), Multiset.filter_eq',
      Multiset.count_eq_of_nodup hkeys]
    split <;> simp
  rw [joinRows, Multiset.bind_map]
  refine (Multiset.bind_congr fun x hx => ?_).trans (Multiset.bind_singleton source _)
  simp only [hmatching x hx]
  split <;> simp

end Joins

end PivotQuery
