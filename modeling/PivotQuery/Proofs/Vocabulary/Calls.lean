import PivotQuery.Proofs.Vocabulary.TypeNames
import PivotQuery.Dialect.Engines

namespace PivotQuery

-- What a vocabulary in use is asked for: the type for a name, or the one that stands for a name
-- by itself.
inductive TypeCall
  | columnType (name : String)
  | unknown (name : String)
deriving DecidableEq, Repr

def TypeCall.name : TypeCall → String
  | .columnType name | .unknown name => name

structure TypeAnswer where
  call : TypeCall
  type : ColumnType
  created : Bool
deriving DecidableEq, Repr

def TypeAnswer.names (answer : TypeAnswer) (name : String) : Bool :=
  sameTypeName answer.call.name name

-- A vocabulary with the types that have been made in its use.
structure TypeTable where
  vocabulary : Vocabulary
  seen : UnknownTypes := {}

namespace UnknownTypes

variable {seen : UnknownTypes} {name other : String}

theorem get?_congr (h : sameTypeName name other = true) : seen.get? name = seen.get? other := by
  simp only [get?, sameTypeName_iff.mp h]

theorem type_learn (seen : UnknownTypes) (name : String) :
    (seen.learn name).1.1 = (seen.get? name).getD (.unknown name) := by
  unfold learn
  split <;> rename_i h <;> rw [h] <;> rfl

theorem created_learn (seen : UnknownTypes) (name : String) :
    (seen.learn name).1.2 = (seen.get? name).isNone := by
  unfold learn
  split <;> rename_i h <;> rw [h] <;> rfl

-- A type that is there stays, and a missing one is made for the name as it is spelled.
theorem get?_learn (seen : UnknownTypes) (name other : String) :
    (seen.learn name).2.get? other = (seen.get? other).or
      (if sameTypeName name other then some (.unknown name) else none) := by
  by_cases hsame : sameTypeName name other = true
  · rw [if_pos hsame, ← get?_congr hsame]
    unfold learn
    split
    · rename_i h
      rw [h, ← get?_congr hsame, h]
      rfl
    · rename_i h
      rw [← get?_congr hsame, h]
      simp [get?]
  · rw [if_neg hsame, Option.or_none]
    unfold learn
    split
    · rfl
    · have hkey : (normalizeTypeName name == normalizeTypeName other) = false := by
        simpa [sameTypeName] using hsame
      simp only [get?, List.find?_cons, hkey]

end UnknownTypes

namespace TypeTable

def lookup (table : TypeTable) (name : String) : Option ColumnType := table.vocabulary.lookup name

-- Whether a call is answered by a type that no vocabulary holds.
def asks (table : TypeTable) : TypeCall → Bool
  | .columnType name => (table.lookup name).isNone
  | .unknown _ => true

-- The type that is there for a call.
def held (table : TypeTable) : TypeCall → Option ColumnType
  | .columnType name => (table.lookup name).or (table.seen.get? name)
  | .unknown name => table.seen.get? name

-- The answer to a call and what is there behind it.
def answer (table : TypeTable) (call : TypeCall) : TypeAnswer × TypeTable :=
  let ((type, created), seen) := match call with
    | .columnType name => table.vocabulary.resolve table.seen name
    | .unknown name => table.seen.learn name
  (⟨call, type, created⟩, { table with seen })

def run : TypeTable → List TypeCall → List TypeAnswer × TypeTable
  | table, [] => ([], table)
  | table, call :: rest =>
    let (answer, next) := table.answer call
    let (answers, last) := next.run rest
    (answer :: answers, last)

variable {table : TypeTable} {call : TypeCall} {calls : List TypeCall} {name : String}
  {a b : TypeAnswer}

theorem lookup_congr {other : String} (h : sameTypeName name other = true) :
    table.lookup name = table.lookup other := Vocabulary.lookup_congr h

theorem asks_of_lookup_none (h : table.lookup call.name = none) : table.asks call = true := by
  cases call with
  | columnType name =>
    rw [asks, show table.lookup name = none from h]
    rfl
  | unknown name => rfl

-- A call either finds a known type and leaves all as it is, or it goes to the types that are
-- made for names.
theorem answer_cases (table : TypeTable) (call : TypeCall) :
    (∃ type, table.lookup call.name = some type ∧ table.asks call = false ∧
      table.answer call = (⟨call, type, false⟩, table)) ∨
    table.asks call = true ∧
      table.answer call =
        (⟨call, (table.seen.learn call.name).1.1, (table.seen.learn call.name).1.2⟩,
          { table with seen := (table.seen.learn call.name).2 }) := by
  cases call with
  | columnType name =>
    cases h : table.lookup name with
    | none =>
      have hresolve : table.vocabulary.resolve table.seen name = table.seen.learn name := by
        rw [Vocabulary.resolve, show table.vocabulary.lookup name = none from h]
      exact Or.inr ⟨by simp [asks, h], by simp only [answer, hresolve, TypeCall.name]⟩
    | some type =>
      have hresolve : table.vocabulary.resolve table.seen name = ((type, false), table.seen) := by
        rw [Vocabulary.resolve, show table.vocabulary.lookup name = some type from h]
      exact Or.inl ⟨type, h, by simp [asks, h], by simp only [answer, hresolve]⟩
  | unknown name => exact Or.inr ⟨rfl, rfl⟩

theorem vocabulary_answer (table : TypeTable) (call : TypeCall) :
    (table.answer call).2.vocabulary = table.vocabulary := rfl

theorem call_answer (table : TypeTable) (call : TypeCall) : (table.answer call).1.call = call := rfl

theorem names_answer (table : TypeTable) (call : TypeCall) (name : String) :
    (table.answer call).1.names name = sameTypeName call.name name := rfl

theorem asks_answer (table : TypeTable) (call other : TypeCall) :
    (table.answer call).2.asks other = table.asks other := by
  cases other <;> rfl

theorem type_answer_of_asks (h : table.asks call = true) :
    (table.answer call).1.type = (table.seen.get? call.name).getD (.unknown call.name) := by
  rcases answer_cases table call with ⟨-, -, hasks, -⟩ | ⟨-, hanswer⟩
  · cases h.symm.trans hasks
  · rw [hanswer, UnknownTypes.type_learn]

theorem created_answer (table : TypeTable) (call : TypeCall) :
    (table.answer call).1.created = (table.asks call && (table.seen.get? call.name).isNone) := by
  rcases answer_cases table call with ⟨type, -, hasks, h⟩ | ⟨hasks, h⟩
  · rw [h, hasks]
    rfl
  · rw [h, hasks]
    exact UnknownTypes.created_learn _ _

theorem get?_answer (table : TypeTable) (call : TypeCall) (name : String) :
    (table.answer call).2.seen.get? name = (table.seen.get? name).or
      (if table.asks call && sameTypeName call.name name then some (.unknown call.name)
        else none) := by
  rcases answer_cases table call with ⟨type, -, hasks, h⟩ | ⟨hasks, h⟩
  · rw [h, hasks]
    simp
  · rw [h, hasks, Bool.true_and]
    exact UnknownTypes.get?_learn _ _ _

theorem held_of_asks (h : table.asks call = true) :
    table.held call = table.seen.get? call.name := by
  cases call with
  | columnType name =>
    rw [asks, Option.isNone_iff_eq_none] at h
    rw [held, h, Option.none_or, TypeCall.name]
  | unknown name => rfl

theorem held_answer (table : TypeTable) (call : TypeCall) :
    (table.answer call).2.held call = some (table.answer call).1.type := by
  rcases answer_cases table call with ⟨type, hlookup, hasks, h⟩ | ⟨hasks, h⟩
  · cases call with
    | columnType name =>
      rw [h, held]
      exact Option.or_eq_some_iff.mpr (Or.inl hlookup)
    | unknown name => cases hasks
  · rw [held_of_asks (by rwa [asks_answer]), get?_answer, type_answer_of_asks hasks, hasks,
      sameTypeName_refl]
    cases table.seen.get? call.name <;> rfl

theorem run_cons (table : TypeTable) (call : TypeCall) (rest : List TypeCall) :
    table.run (call :: rest) = ((table.answer call).1 :: ((table.answer call).2.run rest).1,
      ((table.answer call).2.run rest).2) := rfl

theorem calls_run (table : TypeTable) (calls : List TypeCall) :
    (table.run calls).1.map TypeAnswer.call = calls := by
  induction calls generalizing table with
  | nil => rfl
  | cons call rest ih => rw [run_cons, List.map_cons, ih, call_answer]

theorem vocabulary_run (table : TypeTable) (calls : List TypeCall) :
    (table.run calls).2.vocabulary = table.vocabulary := by
  induction calls generalizing table with
  | nil => rfl
  | cons call rest ih => rw [run_cons, ih, vocabulary_answer]

theorem lookup_run (table : TypeTable) (calls : List TypeCall) (name : String) :
    (table.run calls).2.lookup name = table.lookup name := by
  rw [lookup, vocabulary_run, lookup]

-- What a run leaves: the types that were there, and for each other name the type that the first
-- call made that asked for one.
theorem get?_run (table : TypeTable) (calls : List TypeCall) (name : String) :
    (table.run calls).2.seen.get? name = (table.seen.get? name).or
      ((calls.find? fun call => table.asks call && sameTypeName call.name name).map
        fun call => .unknown call.name) := by
  induction calls generalizing table with
  | nil => simp [run]
  | cons call rest ih =>
    rw [run_cons, ih, get?_answer, Option.or_assoc, List.find?_cons]
    simp only [asks_answer]
    cases table.asks call && sameTypeName call.name name <;> rfl

theorem held_run {type : ColumnType} (h : table.held call = some type) (calls : List TypeCall) :
    (table.run calls).2.held call = some type := by
  cases call with
  | columnType name =>
    rw [held] at h ⊢
    rw [lookup_run, get?_run, ← Option.or_assoc, h, Option.some_or]
  | unknown name =>
    rw [held] at h ⊢
    rw [get?_run, h, Option.some_or]

-- All that was answered is there in the end.
theorem held_of_mem_run (h : a ∈ (table.run calls).1) :
    (table.run calls).2.held a.call = some a.type := by
  induction calls generalizing table with
  | nil => cases h
  | cons call rest ih =>
    rw [run_cons] at h ⊢
    rcases List.mem_cons.mp h with rfl | h
    · exact held_run (held_answer table call) rest
    · exact ih h

theorem asks_of_created (h : a ∈ (table.run calls).1) (hcreated : a.created = true) :
    table.asks a.call = true := by
  induction calls generalizing table with
  | nil => cases h
  | cons call rest ih =>
    rw [run_cons] at h
    rcases List.mem_cons.mp h with rfl | h
    · rw [created_answer, Bool.and_eq_true] at hcreated
      exact hcreated.1
    · rw [← asks_answer table call]
      exact ih h

-- The type that is there for a name does not depend on its spelling.
private theorem held_columnType_congr {other : String} (h : sameTypeName name other = true) :
    table.held (.columnType name) = table.held (.columnType other) := by
  rw [held, held, lookup_congr h, UnknownTypes.get?_congr h]

-- The first call for a name that nothing is known of is the one that makes its type.
private theorem created_of_find?_run (hlookup : table.lookup name = none)
    (hnone : table.seen.get? name = none)
    (h : (table.run calls).1.find? (fun answer => answer.names name) = some a) :
    a.created = true ∧ (table.run calls).2.seen.get? name = some (.unknown a.call.name) := by
  induction calls generalizing table with
  | nil => cases h
  | cons call rest ih =>
    rw [run_cons, List.find?_cons, names_answer] at h
    rw [run_cons]
    cases hsame : sameTypeName call.name name with
    | true =>
      rw [hsame] at h
      obtain rfl : (table.answer call).1 = a := Option.some.inj h
      have hasks : table.asks call = true :=
        asks_of_lookup_none ((lookup_congr hsame).trans hlookup)
      constructor
      · rw [created_answer, hasks, UnknownTypes.get?_congr hsame, hnone]
        rfl
      · rw [get?_run, get?_answer, hnone, hasks, hsame]
        rfl
    | false =>
      rw [hsame] at h
      refine ih hlookup ?_ h
      rw [get?_answer, hnone, hsame]
      simp

-- A type is made once for each name that one is asked for, and never for one that is there.
theorem countP_created_run (table : TypeTable) (calls : List TypeCall) (name : String) :
    (table.run calls).1.countP (fun answer => answer.created && answer.names name) =
      if (table.seen.get? name).isNone &&
        calls.any fun call => table.asks call && sameTypeName call.name name then 1 else 0 := by
  induction calls generalizing table with
  | nil => simp [run]
  | cons call rest ih =>
    rw [run_cons, List.countP_cons, ih, get?_answer, created_answer, names_answer, List.any_cons]
    simp only [asks_answer]
    by_cases hsame : sameTypeName call.name name = true
    · rw [UnknownTypes.get?_congr hsame]
      cases table.seen.get? name <;> cases table.asks call <;> simp [hsame]
    · simp [hsame]

-- What a run leaves as it is, and what its answers have in common.
structure Stable (table : TypeTable) (calls : List TypeCall) : Prop where
  answered : (table.run calls).1.map TypeAnswer.call = calls
  lookup : ∀ name, (table.run calls).2.lookup name = table.lookup name
  kept : ∀ a ∈ (table.run calls).1, (table.run calls).2.held a.call = some a.type
  known : ∀ a ∈ (table.run calls).1, ∀ name, a.call = .columnType name →
    ∀ type, table.lookup name = some type → a.type = type ∧ a.created = false
  shared : ∀ a ∈ (table.run calls).1, ∀ b ∈ (table.run calls).1, ∀ name other,
    a.call = .columnType name → b.call = .columnType other →
      normalizeTypeName name = normalizeTypeName other → a.type = b.type
  unknown : ∀ a ∈ (table.run calls).1, ∀ name, a.call = .columnType name →
    table.lookup name = none → ∃ first,
      (table.run calls).1.find? (fun answer => answer.names name) = some first ∧
        first.created = true ∧ a.type = ⟨first.call.name, .other, .null⟩
  created : ∀ name, (table.run calls).1.countP (fun answer => answer.created && answer.names name) =
    if calls.any fun call => table.asks call && sameTypeName call.name name then 1 else 0

-- In the beginning no type has been made for any name.
theorem stable (vocabulary : Vocabulary) (calls : List TypeCall) :
    Stable { vocabulary } calls where
  answered := calls_run _ calls
  lookup := lookup_run _ calls
  kept := fun _ => held_of_mem_run
  known := by
    intro a ha name hcall type hlookup
    have hheld := held_of_mem_run ha
    rw [hcall, held, lookup_run, hlookup, Option.some_or] at hheld
    refine ⟨(Option.some.inj hheld).symm, Bool.eq_false_iff.mpr fun hcreated => ?_⟩
    have hasks := asks_of_created ha hcreated
    rw [hcall, asks, hlookup] at hasks
    cases hasks
  shared := by
    intro a ha b hb name other hname hother hsame
    have hfirst := held_of_mem_run ha
    have hsecond := held_of_mem_run hb
    rw [hname, held_columnType_congr (sameTypeName_iff.mpr hsame)] at hfirst
    rw [hother] at hsecond
    exact Option.some.inj (hfirst.symm.trans hsecond)
  unknown := by
    intro a ha name hcall hlookup
    obtain ⟨first, hfirst⟩ : ∃ first,
        ((TypeTable.mk vocabulary {}).run calls).1.find? (fun answer => answer.names name) =
          some first := by
      refine Option.isSome_iff_exists.mp (List.find?_isSome.mpr ⟨a, ha, ?_⟩)
      rw [TypeAnswer.names, hcall]
      exact sameTypeName_refl name
    obtain ⟨hcreated, hseen⟩ := created_of_find?_run hlookup rfl hfirst
    have hheld := held_of_mem_run ha
    rw [hcall, held, lookup_run, hlookup, Option.none_or, hseen] at hheld
    exact ⟨first, hfirst, hcreated, (Option.some.inj hheld).symm⟩
  created := fun name => countP_created_run _ calls name

end TypeTable

-- Any vocabulary stays what it is, however often it is asked. Its core names go before its
-- aliases, and the first alias of a name before the others. A name and its normalized form are
-- names of one type.
theorem type_vocabulary_is_stable (vocabulary : Vocabulary) :
    (∀ calls : List TypeCall, TypeTable.Stable { vocabulary } calls) ∧
      (∀ front type back name, vocabulary.core.types = front ++ type :: back →
        (∀ later ∈ back, sameTypeName later.sqlTypeName name = false) →
          sameTypeName type.sqlTypeName name = true → vocabulary.lookup name = some type) ∧
      (∀ front type back name, vocabulary.aliasTypes = front ++ type :: back →
        (∀ other ∈ vocabulary.core.types ++ front, sameTypeName other.sqlTypeName name = false) →
          sameTypeName type.sqlTypeName name = true → vocabulary.lookup name = some type) ∧
      (∀ name, vocabulary.lookup name = none ↔
        ∀ type ∈ vocabulary.core.types ++ vocabulary.aliasTypes,
          sameTypeName type.sqlTypeName name = false) ∧
      ∀ name, normalizeTypeName (normalizeTypeName name) = normalizeTypeName name ∧
        vocabulary.lookup (normalizeTypeName name) = vocabulary.lookup name ∧
          ∀ calls, ∀ a ∈ (TypeTable.run { vocabulary } calls).1,
            ∀ b ∈ (TypeTable.run { vocabulary } calls).1, a.call = .columnType name →
              b.call = .columnType (normalizeTypeName name) → a.type = b.type := by
  refine ⟨TypeTable.stable vocabulary, fun front type back name => Vocabulary.lookup_core,
    fun front type back name => Vocabulary.lookup_alias, fun name => Vocabulary.lookup_eq_none,
    fun name => ⟨normalizeTypeName_idempotent name, ?_, fun calls a ha b hb hname hnormal => ?_⟩⟩
  · exact (Vocabulary.lookup_congr (sameTypeName_normalized name)).symm
  · exact (TypeTable.stable vocabulary calls).shared a ha b hb name _ hname hnormal
      (normalizeTypeName_idempotent name).symm

-- The first spelling of an unknown name is the one that is kept, and it is made once.
example : ((TypeTable.mk Dialect.sqlite.types {}).run
      [.columnType "int", .columnType "geo point", .columnType " GEO POINT(2)"]).1.map
        (fun answer => (answer.type.sqlTypeName, answer.created)) =
    [("INT", false), ("geo point", true), ("geo point", false)] := by decide +kernel

end PivotQuery
