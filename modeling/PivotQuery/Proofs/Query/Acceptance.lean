import PivotQuery.Proofs.Schema.Operations

namespace PivotQuery

namespace Query

mutual

-- A query with all queries inside it.
def nodes : Query → List Query
  | .table name schema => [.table name schema]
  | .sql text schema => [.sql text schema]
  | .project input ids => .project input ids :: input.nodes
  | .filter input condition => .filter input condition :: input.nodes
  | .extend input id exp options => .extend input id exp options :: input.nodes
  | .groupBy input keys aggs => .groupBy input keys aggs :: input.nodes
  | .join lhs rhs on type => .join lhs rhs on type :: (lhs.nodes ++ rhs.nodes)
  | .concat branches => .concat branches :: nodesOfAll branches
  | .sort input keys => .sort input keys :: input.nodes
  | .mapColumns input changes => .mapColumns input changes :: input.nodes

def nodesOfAll : List Query → List Query
  | [] => []
  | query :: rest => query.nodes ++ nodesOfAll rest

end

theorem mem_nodesOfAll {queries : List Query} {node : Query} :
    node ∈ nodesOfAll queries ↔ ∃ query ∈ queries, node ∈ query.nodes := by
  induction queries with
  | nil => simp [nodesOfAll]
  | cons query rest ih => simp [nodesOfAll, ih]

theorem mem_nodes_self (query : Query) : query ∈ query.nodes := by
  cases query <;> simp [nodes]

-- What holds of a query and of all queries inside it.
def Everywhere (P : Query → Prop) (query : Query) : Prop := ∀ node ∈ query.nodes, P node

instance (P : Query → Prop) [DecidablePred P] (query : Query) : Decidable (query.Everywhere P) :=
  inferInstanceAs (Decidable (∀ node ∈ query.nodes, P node))

namespace Everywhere

variable {P : Query → Prop} {query : Query}

theorem self (h : query.Everywhere P) : P query := h query (mem_nodes_self query)

-- `hnodes` tells that the operator has a single input.
theorem input {inner : Query} (h : query.Everywhere P)
    (hnodes : query.nodes = query :: inner.nodes) : inner.Everywhere P :=
  fun node hnode => h node (hnodes ▸ List.mem_cons_of_mem _ hnode)

theorem sides {lhs rhs : Query} {on : List String} {type : JoinType}
    (h : (Query.join lhs rhs on type).Everywhere P) : lhs.Everywhere P ∧ rhs.Everywhere P :=
  List.forall_mem_append.mp (List.forall_mem_cons.mp h).2

theorem branch {branches : List Query} (h : (Query.concat branches).Everywhere P)
    (hquery : query ∈ branches) : query.Everywhere P :=
  fun node hnode => h node (List.mem_cons_of_mem _ (mem_nodesOfAll.mpr ⟨query, hquery, hnode⟩))

end Everywhere

def groupsByKeys : Query → Bool
  | .groupBy _ keys _ => !keys.isEmpty
  | _ => true

-- Every grouping in a query has a key.
def Keyed (query : Query) : Prop := query.Everywhere fun node => node.groupsByKeys = true

instance (query : Query) : Decidable query.Keyed :=
  inferInstanceAs (Decidable (query.Everywhere fun node => node.groupsByKeys = true))

theorem Keyed.keys_ne_nil {input : Query} {keys : List String} {aggs : List Aggregate}
    (h : (Query.groupBy input keys aggs).Keyed) : keys ≠ [] := by
  simpa [groupsByKeys] using h.self

-- What to show of each operator so that it holds of every accepted query and its columns.
-- The inputs of an operator are accepted, and have the property already.
structure AcceptedCases (motive : Query → Schema → Prop) : Prop where
  table : ∀ name schema, motive (.table name schema) schema
  sql : ∀ text schema, motive (.sql text schema) schema
  project : ∀ {input ids schema result}, input.infer = .ok schema →
    schema.project ids = .ok result → motive input schema → motive (.project input ids) result
  filter : ∀ {input condition schema result}, input.infer = .ok schema →
    schema.filtered condition = .ok result → motive input schema →
    motive (.filter input condition) result
  extend : ∀ {input id exp options schema result}, input.infer = .ok schema →
    schema.extended id exp options = .ok result → motive input schema →
    motive (.extend input id exp options) result
  groupBy : ∀ {input keys aggs schema result}, input.infer = .ok schema →
    schema.grouped keys aggs = .ok result → motive input schema →
    motive (.groupBy input keys aggs) result
  join : ∀ {lhs rhs on type left right result}, lhs.infer = .ok left → rhs.infer = .ok right →
    left.joined right on = .ok result → motive lhs left → motive rhs right →
    motive (.join lhs rhs on type) result
  concat : ∀ {branches schemas result},
    List.Forall₂ (fun query schema => query.infer = .ok schema ∧ motive query schema)
      branches schemas →
    Schema.concatenated schemas = .ok result → motive (.concat branches) result
  sort : ∀ {input keys schema result}, input.infer = .ok schema →
    schema.sorted keys = .ok result → motive input schema → motive (.sort input keys) result
  mapColumns : ∀ {input changes schema result}, input.infer = .ok schema →
    schema.mapped changes = .ok result → motive input schema →
    motive (.mapColumns input changes) result

mutual

theorem AcceptedCases.holds {motive : Query → Schema → Prop} (cases : AcceptedCases motive) :
    ∀ {query : Query} {schema : Schema}, query.infer = .ok schema → motive query schema
  | .table name schema, _, h => by
    obtain rfl : schema = _ := by simpa [infer] using h
    exact cases.table name schema
  | .sql text schema, _, h => by
    obtain rfl : schema = _ := by simpa [infer] using h
    exact cases.sql text schema
  | .project _ _, _, h => by
    obtain ⟨schema, hinput, h⟩ := bind_eq_ok.mp (by simpa only [infer] using h)
    exact cases.project hinput h (cases.holds hinput)
  | .filter _ _, _, h => by
    obtain ⟨schema, hinput, h⟩ := bind_eq_ok.mp (by simpa only [infer] using h)
    exact cases.filter hinput h (cases.holds hinput)
  | .extend _ _ _ _, _, h => by
    obtain ⟨schema, hinput, h⟩ := bind_eq_ok.mp (by simpa only [infer] using h)
    exact cases.extend hinput h (cases.holds hinput)
  | .groupBy _ _ _, _, h => by
    obtain ⟨schema, hinput, h⟩ := bind_eq_ok.mp (by simpa only [infer] using h)
    exact cases.groupBy hinput h (cases.holds hinput)
  | .join _ _ _ _, _, h => by
    obtain ⟨left, hleft, h⟩ := bind_eq_ok.mp (by simpa only [infer] using h)
    obtain ⟨right, hright, h⟩ := bind_eq_ok.mp h
    exact cases.join hleft hright h (cases.holds hleft) (cases.holds hright)
  | .concat branches, _, h => by
    obtain ⟨schemas, hbranches, h⟩ := bind_eq_ok.mp (by simpa only [infer] using h)
    exact cases.concat (cases.holdsOfAll hbranches) h
  | .sort _ _, _, h => by
    obtain ⟨schema, hinput, h⟩ := bind_eq_ok.mp (by simpa only [infer] using h)
    exact cases.sort hinput h (cases.holds hinput)
  | .mapColumns _ _, _, h => by
    obtain ⟨schema, hinput, h⟩ := bind_eq_ok.mp (by simpa only [infer] using h)
    exact cases.mapColumns hinput h (cases.holds hinput)

theorem AcceptedCases.holdsOfAll {motive : Query → Schema → Prop} (cases : AcceptedCases motive) :
    ∀ {queries : List Query} {schemas : List Schema}, inferAll queries = .ok schemas →
      List.Forall₂ (fun query schema => query.infer = .ok schema ∧ motive query schema)
        queries schemas
  | [], _, h => by
    obtain rfl : [] = _ := by simpa [inferAll] using h
    exact .nil
  | query :: rest, _, h => by
    simp only [inferAll, bind_eq_ok, pure_eq_ok] at h
    obtain ⟨schema, hquery, schemas, hrest, rfl⟩ := h
    exact .cons ⟨hquery, cases.holds hquery⟩ (cases.holdsOfAll hrest)

end

theorem inferAll_eq_ok {queries : List Query} {schemas : List Schema} :
    inferAll queries = .ok schemas ↔
      List.Forall₂ (fun query schema => query.infer = .ok schema) queries schemas := by
  induction queries generalizing schemas with
  | nil => simp [inferAll, eq_comm]
  | cons query rest ih =>
    simp only [inferAll, bind_eq_ok, pure_eq_ok, ih, List.forall₂_cons_left_iff]
    constructor
    · rintro ⟨schema, hquery, schemas, hrest, rfl⟩
      exact ⟨schema, schemas, hquery, hrest, rfl⟩
    · rintro ⟨schema, schemas, hquery, hrest, rfl⟩
      exact ⟨schema, hquery, schemas, hrest, rfl⟩

theorem infer_join {lhs rhs : Query} {on : List String} {type : JoinType}
    {left right result : Schema} (hleft : lhs.infer = .ok left) (hright : rhs.infer = .ok right)
    (h : left.joined right on = .ok result) : (Query.join lhs rhs on type).infer = .ok result :=
  bind_eq_ok.mpr ⟨left, hleft, bind_eq_ok.mpr ⟨right, hright, h⟩⟩

theorem infer_concat {branches : List Query} {schemas : List Schema} {result : Schema}
    (hbranches : List.Forall₂ (fun query schema => query.infer = .ok schema) branches schemas)
    (h : Schema.concatenated schemas = .ok result) :
    (Query.concat branches).infer = .ok result :=
  bind_eq_ok.mpr ⟨schemas, inferAll_eq_ok.mpr hbranches, h⟩

theorem accepted_nodes : AcceptedCases fun query _ =>
    ∀ node ∈ query.nodes, ∃ result, node.infer = .ok result where
  table name schema := by simp [nodes, infer]
  sql text schema := by simp [nodes, infer]
  project hinput h ih :=
    List.forall_mem_cons.mpr ⟨⟨_, bind_eq_ok.mpr ⟨_, hinput, h⟩⟩, ih⟩
  filter hinput h ih :=
    List.forall_mem_cons.mpr ⟨⟨_, bind_eq_ok.mpr ⟨_, hinput, h⟩⟩, ih⟩
  extend hinput h ih :=
    List.forall_mem_cons.mpr ⟨⟨_, bind_eq_ok.mpr ⟨_, hinput, h⟩⟩, ih⟩
  groupBy hinput h ih :=
    List.forall_mem_cons.mpr ⟨⟨_, bind_eq_ok.mpr ⟨_, hinput, h⟩⟩, ih⟩
  join hleft hright h ihleft ihright :=
    List.forall_mem_cons.mpr
      ⟨⟨_, infer_join hleft hright h⟩, List.forall_mem_append.mpr ⟨ihleft, ihright⟩⟩
  concat hbranches h := by
    have hself := infer_concat (hbranches.imp fun _ _ hbranch => hbranch.1) h
    refine List.forall_mem_cons.mpr ⟨⟨_, hself⟩, fun node hnode => ?_⟩
    obtain ⟨branch, hbranch, hnode⟩ := mem_nodesOfAll.mp hnode
    obtain ⟨schema, -, -, ih⟩ := exists_mem_right hbranches hbranch
    exact ih node hnode
  sort hinput h ih :=
    List.forall_mem_cons.mpr ⟨⟨_, bind_eq_ok.mpr ⟨_, hinput, h⟩⟩, ih⟩
  mapColumns hinput h ih :=
    List.forall_mem_cons.mpr ⟨⟨_, bind_eq_ok.mpr ⟨_, hinput, h⟩⟩, ih⟩

-- What is inside a query that is itself inside another one is inside that one too.

theorem forall_nodes_cons {query : Query} {nodes : List Query}
    (h : ∀ node ∈ nodes, ∀ inner ∈ node.nodes, inner ∈ nodes)
    (hself : ∀ inner ∈ query.nodes, inner ∈ query :: nodes) :
    ∀ node ∈ query :: nodes, ∀ inner ∈ node.nodes, inner ∈ query :: nodes :=
  List.forall_mem_cons.mpr
    ⟨hself, fun node hnode inner hinner => List.mem_cons_of_mem _ (h node hnode inner hinner)⟩

theorem nodes_of_nodes : AcceptedCases fun query _ =>
    ∀ node ∈ query.nodes, ∀ inner ∈ node.nodes, inner ∈ query.nodes where
  table name schema := by simp [nodes]
  sql text schema := by simp [nodes]
  project _ _ ih := forall_nodes_cons ih fun _ hinner => hinner
  filter _ _ ih := forall_nodes_cons ih fun _ hinner => hinner
  extend _ _ ih := forall_nodes_cons ih fun _ hinner => hinner
  groupBy _ _ ih := forall_nodes_cons ih fun _ hinner => hinner
  join _ _ _ ihleft ihright := by
    refine forall_nodes_cons (List.forall_mem_append.mpr ⟨?_, ?_⟩) fun _ hinner => hinner
    · exact fun node hnode inner hinner =>
        List.mem_append_left _ (ihleft node hnode inner hinner)
    · exact fun node hnode inner hinner =>
        List.mem_append_right _ (ihright node hnode inner hinner)
  concat hbranches _ := by
    refine forall_nodes_cons (fun node hnode inner hinner => ?_) fun _ hinner => hinner
    obtain ⟨branch, hbranch, hnode⟩ := mem_nodesOfAll.mp hnode
    obtain ⟨schema, -, -, ih⟩ := exists_mem_right hbranches hbranch
    exact mem_nodesOfAll.mpr ⟨branch, hbranch, ih node hnode inner hinner⟩
  sort _ _ ih := forall_nodes_cons ih fun _ hinner => hinner
  mapColumns _ _ ih := forall_nodes_cons ih fun _ hinner => hinner

theorem Everywhere.node {P : Query → Prop} {query node : Query} {schema : Schema}
    (h : query.Everywhere P) (hinfer : query.infer = .ok schema) (hnode : node ∈ query.nodes) :
    node.Everywhere P :=
  fun inner hinner => h inner (nodes_of_nodes.holds hinfer node hnode inner hinner)

end Query

end PivotQuery
