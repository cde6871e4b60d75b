import PivotQuery.Proofs.Interchange.Values

namespace PivotQuery

open Json (Gives Reading)

namespace ValueExpr

def isFinite : ValueExpr → Bool
  | .column _ => true
  | .constant value => value.isFinite
  | .asString operand => operand.isFinite

theorem toJson_ne_null (exp : ValueExpr) : exp.toJson ≠ .null := by
  cases exp <;> simp [toJson]

theorem ofJsonWithin_gives {exp : ValueExpr} (h : exp.isFinite = true) {depth : Nat}
    (hdepth : exp.toJson.depth ≤ depth) (reading : Reading) :
    Gives (ofJsonWithin depth reading) exp.toJson exp := by
  induction exp generalizing depth reading with
  | column id =>
    obtain ⟨depth, rfl⟩ := Json.exists_depth_of_object hdepth
    have hid : Gives (Json.toRecord (.required "colName" Json.toText) : Json → Revived String)
        (.object [("colName", .text id)]) id :=
      Json.toRecord_gives (.required rfl (Json.gives_text rfl)) (by simp) (by simp)
    exact Json.untag_gives (by simp [forms]) (by simp) hid.map
  | constant value =>
    obtain ⟨depth, rfl⟩ := Json.exists_depth_of_object hdepth
    have hvalue : Gives (Json.toRecord (.required "val" (Scalar.ofJson .held)))
        (.object [("val", value.toJson)]) value :=
      Json.toRecord_gives (.required rfl (Scalar.ofJson_gives h)) (by simp) (by simp)
    exact Json.untag_gives (by simp [forms]) (by simp) hvalue.map
  | asString operand ih =>
    obtain ⟨depth, rfl⟩ := Json.exists_depth_of_object hdepth
    have hinner : operand.toJson.depth ≤ depth :=
      Json.depth_le_of_object "valExp" (by simp) hdepth
    have hoperand : Gives (Json.toRecord (.required "valExp" (ofJsonWithin depth .held)))
        (.object [("valExp", operand.toJson)]) operand :=
      Json.toRecord_gives (.required rfl (ih h hinner .held)) (by simp) (by simp)
    exact Json.untag_gives (by simp [forms]) (by simp) hoperand.map

theorem ofJson_gives {exp : ValueExpr} (h : exp.isFinite = true) (reading : Reading) :
    Gives (ofJson reading) exp.toJson exp :=
  fun other hother => ofJsonWithin_gives h hother.depth_le reading other hother

end ValueExpr

namespace RelExp

def isFinite (exp : RelExp) : Bool := exp.operands.all ValueExpr.isFinite

theorem ofJson_gives {exp : RelExp} (h : exp.isFinite = true) (reading : Reading) :
    Gives (ofJson reading) (.object exp.jsonEntries) exp := by
  have hnames : (fields reading).names = ["op", "lhs", "rhs"] := rfl
  cases exp with
  | binary op lhs rhs =>
    obtain ⟨hlhs, hrhs⟩ : lhs.isFinite = true ∧ rhs.isFinite = true := by
      simpa [isFinite, operands] using h
    have hrecord : Gives (Json.toRecord (fields reading)) (.object (binary op lhs rhs).jsonEntries)
        (.binary op, some lhs, some rhs) :=
      Json.toRecord_gives
        (.both (.required rfl (RelOp.ofJson_gives _))
          (.both (.optional rfl lhs.toJson_ne_null (ValueExpr.ofJson_gives hlhs reading))
            (.optional rfl rhs.toJson_ne_null (ValueExpr.ofJson_gives hrhs reading))))
        (by simp [jsonEntries]) (by simp [jsonEntries, hnames])
    exact hrecord.bind rfl
  | unary op operand =>
    have hoperand : operand.isFinite = true := by simpa [isFinite, operands] using h
    have hrecord : Gives (Json.toRecord (fields reading)) (.object (unary op operand).jsonEntries)
        (.unary op, some operand, none) :=
      Json.toRecord_gives
        (.both (.required rfl (RelOp.ofJson_gives _))
          (.both (.optional rfl operand.toJson_ne_null (ValueExpr.ofJson_gives hoperand reading))
            (.optional_missing rfl)))
        (by simp [jsonEntries]) (by simp [jsonEntries, hnames])
    exact hrecord.bind rfl

end RelExp

namespace Clause

mutual

def isFinite : Clause → Bool
  | .relation exp => exp.isFinite
  | .group _ args => allFinite args

def allFinite : List Clause → Bool
  | [] => true
  | clause :: rest => clause.isFinite && allFinite rest

end

theorem allFinite_iff {clauses : List Clause} :
    allFinite clauses = true ↔ ∀ clause ∈ clauses, clause.isFinite = true := by
  induction clauses with
  | nil => simp [allFinite]
  | cons clause rest ih => simp [allFinite, ih]

theorem toJsonAll_eq (clauses : List Clause) : toJsonAll clauses = clauses.map toJson := by
  induction clauses with
  | nil => rfl
  | cons clause rest ih => rw [toJsonAll, ih, List.map_cons]

private theorem ofJsonWithin_gives_relation {exp : RelExp} (h : exp.isFinite = true) (depth : Nat)
    (reading : Reading) :
    Gives (ofJsonWithin (depth + 1) reading) (Clause.relation exp).toJson (.relation exp) := by
  have hkeys : ∀ entry ∈ exp.jsonEntries, entry.1 ≠ "expType" := by
    cases exp <;> simp [RelExp.jsonEntries]
  exact Json.untag_gives (by simp [forms]) hkeys (RelExp.ofJson_gives h .held).map

private theorem groupFields_gives {op : BoolOp} {args : List Clause} {reading : Reading}
    {decode : Json → Revived Clause} (h : ∀ clause ∈ args, Gives decode clause.toJson clause) :
    Gives (Json.toRecord (groupFields reading decode))
      (.object [("op", op.toJson), ("opArgs", .array (toJsonAll args))]) (op, args) :=
  Json.toRecord_gives
    (.both (.required rfl (BoolOp.ofJson_gives op))
      (.required rfl (toJsonAll_eq args ▸ Json.toList_gives h)))
    (by simp) (by simp [groupFields])

mutual

theorem ofJsonWithin_gives : ∀ {clause : Clause}, clause.isFinite = true → ∀ {depth : Nat},
    clause.toJson.depth ≤ depth → ∀ reading, Gives (ofJsonWithin depth reading) clause.toJson clause
  | .relation exp, h, depth, hdepth, reading => by
    obtain ⟨depth, rfl⟩ := Json.exists_depth_of_object hdepth
    exact ofJsonWithin_gives_relation h depth reading
  | .group op args, h, depth, hdepth, reading => by
    obtain ⟨depth, rfl⟩ := Json.exists_depth_of_object hdepth
    have hinner : (Json.array (toJsonAll args)).depth ≤ depth :=
      Json.depth_le_of_object "opArgs" (by simp) hdepth
    have hargs := allWithin_gives (allFinite_iff.mp h) fun clause hclause =>
      Json.depth_le_of_array (toJsonAll_eq args ▸ List.mem_map_of_mem hclause) hinner
    exact Json.untag_gives (by simp [forms]) (by simp) ((groupFields_gives hargs).bind rfl)

theorem allWithin_gives : ∀ {clauses : List Clause}, (∀ clause ∈ clauses, clause.isFinite = true) →
    ∀ {depth : Nat}, (∀ clause ∈ clauses, clause.toJson.depth ≤ depth) →
      ∀ clause ∈ clauses, Gives (ofJsonWithin depth .held) clause.toJson clause
  | [], _, _, _ => by simp
  | clause :: rest, h, depth, hdepth => by
    obtain ⟨hhead, hrest⟩ := List.forall_mem_cons.mp h
    obtain ⟨hdepthHead, hdepthRest⟩ := List.forall_mem_cons.mp hdepth
    exact List.forall_mem_cons.mpr
      ⟨ofJsonWithin_gives hhead hdepthHead .held, allWithin_gives hrest hdepthRest⟩

end

theorem ofJson_gives {clause : Clause} (h : clause.isFinite = true) (reading : Reading) :
    Gives (ofJson reading) clause.toJson clause :=
  fun other hother => ofJsonWithin_gives h hother.depth_le reading other hother

end Clause

namespace Filter

def isFinite (filter : Filter) : Bool := Clause.allFinite filter.args

theorem ofJson_gives {filter : Filter} (h : filter.isFinite = true) (reading : Reading) :
    Gives (ofJson reading) filter.toJson filter :=
  (Clause.groupFields_gives fun clause hclause =>
    Clause.ofJson_gives (Clause.allFinite_iff.mp h clause hclause) reading).bind rfl

end Filter

end PivotQuery
