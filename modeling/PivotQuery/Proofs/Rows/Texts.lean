import PivotQuery.Proofs.Rows.Engine
import PivotQuery.Pivot.PathNode

namespace PivotQuery

variable {V : Type}

namespace Engine

-- The value that stands for a component of a path.
def component (engine : Engine V) : PathComponent → V
  | none => engine.null
  | some text => engine.constant (.text text)

-- How an engine holds texts: they differ from each other and from NULL, whatever is cast to
-- text is one, but NULL stays NULL, and under a comparison a text equals itself alone.
structure Texts (engine : Engine V) where
  component? : V → PathComponent
  component?_component : ∀ component, component? (engine.component component) = component
  cast_eq_null : ∀ value, engine.cast .string value = engine.null ↔ value = engine.null
  cast_text : ∀ value, value ≠ engine.null →
    ∃ text, engine.cast .string value = engine.constant (.text text)
  eq_texts : ∀ a b,
    engine.compare .eq (engine.constant (.text a)) (engine.constant (.text b)) = some (a == b)
  eq_null : ∀ text, engine.compare .eq engine.null (engine.constant (.text text)) = none

namespace Texts

variable {engine : Engine V} (texts : engine.Texts)

include texts in
theorem component_injective : Function.Injective engine.component :=
  Function.LeftInverse.injective texts.component?_component

-- What a value is as text.
def asText (value : V) : PathComponent := texts.component? (engine.cast .string value)

theorem component_asText (value : V) :
    engine.component (texts.asText value) = engine.cast .string value := by
  have hback : ∀ component, engine.cast .string value = engine.component component →
      engine.component (texts.asText value) = engine.cast .string value := by
    intro component hcomponent
    rw [asText, hcomponent, texts.component?_component]
  by_cases hnull : value = engine.null
  · exact hback none ((texts.cast_eq_null value).mpr hnull)
  · obtain ⟨text, htext⟩ := texts.cast_text value hnull
    exact hback (some text) htext

theorem asText_eq_none {value : V} : texts.asText value = none ↔ value = engine.null := by
  rw [← texts.cast_eq_null, ← texts.component_asText]
  exact texts.component_injective.eq_iff.symm

include texts in
theorem eq_component (component : PathComponent) (text : String) :
    engine.compare .eq (engine.component component) (engine.constant (.text text)) = some true ↔
      component = some text := by
  cases component with
  | none => simp [Engine.component, texts.eq_null]
  | some other => simp [Engine.component, texts.eq_texts]

include texts in
-- As join keys, components match where they are the same, NULL included.
theorem sameKey_component [DecidableEq V] (a b : PathComponent) :
    engine.sameKey (engine.component a) (engine.component b) = decide (a = b) := by
  have hnull : ∀ component, engine.component component = engine.null ↔ component = none :=
    fun component => texts.component_injective.eq_iff (b := none)
  unfold sameKey
  by_cases hmissing : a = none ∨ b = none
  · rw [if_pos (hmissing.imp (hnull a).mpr (hnull b).mpr)]
    exact decide_eq_decide.mpr texts.component_injective.eq_iff
  · obtain ⟨hleft, hright⟩ := not_or.mp hmissing
    obtain ⟨text, rfl⟩ := Option.ne_none_iff_exists'.mp hright
    rw [if_neg (fun h => hmissing (h.imp (hnull a).mp (hnull _).mp)), Bool.eq_iff_iff]
    simp only [beq_iff_eq, decide_eq_true_eq]
    exact texts.eq_component a text

end Texts

end Engine

end PivotQuery
