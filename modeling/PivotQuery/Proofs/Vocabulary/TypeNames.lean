import PivotQuery.Dialect.Vocabulary
import Mathlib.Data.List.DropRight

namespace PivotQuery

namespace Text

theorem trimmed_eq (cs : List Char) :
    trimmed cs = (cs.dropWhile isBlank).rdropWhile isBlank := rfl

private theorem mem_of_mem_trimmed {c : Char} {cs : List Char} (hc : c ∈ trimmed cs) : c ∈ cs :=
  (List.dropWhile_suffix isBlank).subset ((List.rdropWhile_prefix isBlank _).subset hc)

-- Trimming the end does not uncover a blank at the start.
private theorem trimmed_trimmed (cs : List Char) : trimmed (trimmed cs) = trimmed cs := by
  have hstart : (trimmed cs).dropWhile isBlank = trimmed cs := by
    rw [List.dropWhile_eq_self_iff]
    intro hlength
    have hfront := List.rdropWhile_prefix isBlank (cs.dropWhile isBlank)
    rw [show (trimmed cs)[0] = _ from hfront.getElem hlength]
    exact List.dropWhile_eq_self_iff.mp (List.dropWhile_idempotent isBlank cs) _
  rw [trimmed_eq (trimmed cs), hstart]
  exact List.rdropWhile_idempotent isBlank _

private theorem trimmed_map {f : Char → Char} (hf : ∀ c, isBlank (f c) = isBlank c)
    (cs : List Char) :
    trimmed (cs.map f) = (trimmed cs).map f := by
  have hcomp : isBlank ∘ f = isBlank := funext hf
  simp only [trimmed, List.dropWhile_map, hcomp, ← List.map_reverse]

-- Capitals are made of small letters only, and are themselves neither small letters nor blanks
-- nor parentheses.
theorem toUpper_cases (c : Char) : c.toUpper = c ∨
    c.toUpper.toUpper = c.toUpper ∧ isBlank c = false ∧ isBlank c.toUpper = false ∧
      c.toUpper ≠ '(' := by
  have hletters : ∀ n < 123, 97 ≤ n →
      (Char.ofNat n).toUpper.toUpper = (Char.ofNat n).toUpper ∧
        isBlank (Char.ofNat n) = false ∧ isBlank (Char.ofNat n).toUpper = false ∧
          (Char.ofNat n).toUpper ≠ '(' := by decide
  by_cases h : 'a'.val ≤ c.val ∧ c.val ≤ 'z'.val
  · have hletter := hletters c.toNat (Nat.lt_succ_of_le h.2) h.1
    rw [Char.ofNat_toNat] at hletter
    exact Or.inr hletter
  · exact Or.inl (dif_neg h)

theorem toUpper_toUpper (c : Char) : c.toUpper.toUpper = c.toUpper := by
  rcases toUpper_cases c with h | ⟨h, -⟩
  · rw [h, h]
  · exact h

private theorem isBlank_toUpper (c : Char) : isBlank c.toUpper = isBlank c := by
  rcases toUpper_cases c with h | ⟨-, hsmall, hcapital, -⟩
  · rw [h]
  · rw [hsmall, hcapital]

theorem toUpper_ne_parenthesis {c : Char} (hc : c ≠ '(') : c.toUpper ≠ '(' := by
  rcases toUpper_cases c with h | ⟨-, -, -, h⟩
  · rwa [h]
  · exact h

end Text

theorem normalizeTypeName_idempotent (name : String) :
    normalizeTypeName (normalizeTypeName name) = normalizeTypeName name := by
  unfold normalizeTypeName
  dsimp only
  generalize hbase : name.toList.takeWhile (· != '(') = base
  have hopen : ∀ c ∈ base, c ≠ '(' := by
    intro c hc
    rw [← hbase] at hc
    simpa using List.mem_takeWhile_imp hc
  have hcapitals : ∀ c ∈ (Text.trimmed base).map Char.toUpper, (c != '(') = true := by
    refine List.forall_mem_map.mpr fun c hc => ?_
    simpa using Text.toUpper_ne_parenthesis (hopen c (Text.mem_of_mem_trimmed hc))
  rw [String.toList_ofList, List.takeWhile_eq_self_iff.mpr hcapitals,
    Text.trimmed_map Text.isBlank_toUpper, Text.trimmed_trimmed, List.map_map]
  exact congrArg String.ofList (List.map_congr_left fun c _ => Text.toUpper_toUpper c)

theorem sameTypeName_iff {a b : String} :
    sameTypeName a b = true ↔ normalizeTypeName a = normalizeTypeName b := by
  simp [sameTypeName]

theorem sameTypeName_refl (name : String) : sameTypeName name name = true :=
  sameTypeName_iff.mpr rfl

theorem sameTypeName_normalized (name : String) :
    sameTypeName name (normalizeTypeName name) = true :=
  sameTypeName_iff.mpr (normalizeTypeName_idempotent name).symm

-- Spellings of one name are the same to every other name.
theorem sameTypeName_congr {a b : String} (h : sameTypeName a b = true) (name : String) :
    sameTypeName name a = sameTypeName name b := by
  rw [sameTypeName, sameTypeName, sameTypeName_iff.mp h]

namespace Vocabulary

variable {vocabulary : Vocabulary} {type : ColumnType}

def aliasTypes (vocabulary : Vocabulary) : List ColumnType :=
  vocabulary.aliases.map fun (name, kind) => .ofKind name kind

theorem lookup_eq (vocabulary : Vocabulary) (name : String) :
    vocabulary.lookup name = (vocabulary.core.types.reverse ++ vocabulary.aliasTypes).find?
      fun type => sameTypeName type.sqlTypeName name := by
  rw [lookup, known, List.find?_map, Option.map_map]
  exact Option.map_id_fun' ▸ rfl

theorem lookup_congr {a b : String} (h : sameTypeName a b = true) :
    vocabulary.lookup a = vocabulary.lookup b := by
  simp only [lookup_eq, sameTypeName_congr h]

theorem lookup_eq_none {name : String} : vocabulary.lookup name = none ↔
    ∀ type ∈ vocabulary.core.types ++ vocabulary.aliasTypes,
      sameTypeName type.sqlTypeName name = false := by
  simp [lookup_eq, List.find?_eq_none, or_imp, forall_and]

-- Of the core types with one name the last one is meant, whatever the aliases are.
theorem lookup_core {front back : List ColumnType} {name : String}
    (hcore : vocabulary.core.types = front ++ type :: back)
    (hlater : ∀ later ∈ back, sameTypeName later.sqlTypeName name = false)
    (hname : sameTypeName type.sqlTypeName name = true) : vocabulary.lookup name = some type := by
  rw [lookup_eq, List.find?_eq_some_iff_append]
  refine ⟨hname, back.reverse, front.reverse ++ vocabulary.aliasTypes, by simp [hcore],
    fun later h => ?_⟩
  simp [hlater later (List.mem_reverse.mp h)]

-- Of the aliases with one name that no core type has, the first one is meant.
theorem lookup_alias {front back : List ColumnType} {name : String}
    (haliases : vocabulary.aliasTypes = front ++ type :: back)
    (hearlier : ∀ other ∈ vocabulary.core.types ++ front,
      sameTypeName other.sqlTypeName name = false)
    (hname : sameTypeName type.sqlTypeName name = true) : vocabulary.lookup name = some type := by
  rw [lookup_eq, List.find?_eq_some_iff_append]
  refine ⟨hname, vocabulary.core.types.reverse ++ front, back, by simp [haliases],
    fun other hother => ?_⟩
  simp [hearlier other (by simpa using hother)]

end Vocabulary

end PivotQuery
