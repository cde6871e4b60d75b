import PivotQuery.Text.Lines
import Mathlib.Logic.Function.Iterate

namespace PivotQuery

namespace Text

-- What indentation makes of a piece of a text: two blanks behind each line feed, and none of the
-- carriage returns before one.
def widen : List Char → List Char
  | [] => []
  | c :: rest =>
    if c = '\n' then '\n' :: ' ' :: ' ' :: widen rest
    else if c = '\r' && rest.head? = some '\n' then widen rest
    else c :: widen rest

-- The same for the end of a text, where a line feed is lost.
def reline : List Char → List Char
  | [] => []
  | c :: rest =>
    if c = '\n' then if rest.isEmpty then [] else '\n' :: ' ' :: ' ' :: reline rest
    else if c = '\r' && rest.head? = some '\n' then reline rest
    else c :: reline rest

theorem widen_other {c : Char} (hfeed : c ≠ '\n') (hreturn : c ≠ '\r') (rest : List Char) :
    widen (c :: rest) = c :: widen rest := by
  simp [widen, hfeed, hreturn]

theorem widen_of_not_mem {text : List Char} (h : '\n' ∉ text) : widen text = text := by
  fun_induction widen text with
  | case1 => rfl
  | case2 => simp at h
  | case3 c rest hfeed hreturn ih =>
    have hhead : rest.head? = some '\n' := by simp_all
    exact absurd (List.mem_cons_of_mem _ (List.mem_of_head? hhead)) h
  | case4 c rest hfeed hreturn ih => rw [ih (by simp_all)]

-- A line feed takes two blanks, and at most one carriage return is lost for it.
private theorem length_widen (text : List Char) :
    text.length + text.count '\n' + (if text.head? = some '\n' then 1 else 0) ≤
      (widen text).length := by
  fun_induction widen text with
  | case1 => simp
  | case2 rest ih =>
    simp only [List.length_cons, List.count_cons_self, List.head?_cons, if_true]
    omega
  | case3 c rest hfeed hreturn ih =>
    have hhead : rest.head? = some '\n' := by simp_all
    simp only [hhead, if_true] at ih
    simp only [List.length_cons, List.count_cons_of_ne hfeed, List.head?_cons,
      Option.some.injEq, hfeed, if_false]
    omega
  | case4 c rest hfeed hreturn ih =>
    simp only [List.length_cons, List.count_cons_of_ne hfeed, List.head?_cons,
      Option.some.injEq, hfeed, if_false]
    omega

private theorem mem_widen {text : List Char} (h : '\n' ∈ text) : '\n' ∈ widen text := by
  fun_induction widen text with
  | case1 => exact h
  | case2 => simp
  | case3 c rest hfeed hreturn ih =>
    exact ih ((List.mem_cons.mp h).resolve_left (Ne.symm hfeed))
  | case4 c rest hfeed hreturn ih =>
    exact List.mem_cons_of_mem _ (ih ((List.mem_cons.mp h).resolve_left (Ne.symm hfeed)))

-- A text survives indentation if it has no line feed, and no other text survives even one.
theorem widen_iterate_eq_self (depth : Nat) (text : List Char) :
    widen^[depth] text = text ↔ depth = 0 ∨ '\n' ∉ text := by
  constructor
  · intro h
    by_contra hnot
    obtain ⟨hdepth, hfeed⟩ : depth ≠ 0 ∧ '\n' ∈ text := by simpa using hnot
    have hgrows : ∀ depth, text.length + depth ≤ (widen^[depth] text).length ∧
        '\n' ∈ widen^[depth] text := by
      intro depth
      induction depth with
      | zero => exact ⟨Nat.le_refl _, hfeed⟩
      | succ depth ih =>
        rw [Function.iterate_succ_apply']
        have hlength := length_widen (widen^[depth] text)
        have hcount := List.count_pos_iff.mpr ih.2
        exact ⟨by omega, mem_widen ih.2⟩
    have hlength := (hgrows depth).1
    rw [h] at hlength
    omega
  · rintro (rfl | hfeed)
    · rfl
    · exact Function.iterate_fixed (widen_of_not_mem hfeed) depth

theorem head?_reline {text : List Char} {d : Char} (hd : d ≠ '\n')
    (h : (reline text).head? = some d) : text.head? = some d := by
  fun_induction reline text with
  | case1 => exact h
  | case2 => simp at h
  | case3 => simp [Ne.symm hd] at h
  | case4 c rest hfeed hreturn ih =>
    have hhead : rest.head? = some '\n' := by simp_all
    rw [hhead] at ih
    exact absurd (Option.some.inj (ih h)).symm hd
  | case5 => exact h

private theorem head?_append_of_ne {c d : Char} (hd : d ≠ c) (text rest : List Char) :
    (text ++ d :: rest).head? = some c ↔ text.head? = some c := by
  cases text <;> simp [hd]

theorem reline_append {d : Char} (hfeed : d ≠ '\n') (hreturn : d ≠ '\r') (text rest : List Char) :
    reline (text ++ d :: rest) = widen text ++ d :: reline rest := by
  induction text with
  | nil => simp [reline, widen, hfeed, hreturn]
  | cons c text ih =>
    rw [List.cons_append, reline, widen, ih]
    simp only [head?_append_of_ne hfeed]
    split
    · simp
    · split <;> rfl

-- A line that has been read, last character first, when a line feed comes.
def ended (read : List Char) : List Char :=
  match read with
  | '\r' :: before => before
  | _ => read

theorem ended_cons_of_ne {c : Char} (hc : c ≠ '\r') (read : List Char) :
    ended (c :: read) = c :: read := by
  unfold ended
  split
  · rename_i heq
    exact absurd (List.cons.inj heq).1 hc
  · rfl

theorem linesFrom_feed (read rest : List Char) :
    linesFrom read ('\n' :: rest) = (ended read).reverse :: linesFrom [] rest :=
  if_pos rfl

theorem linesFrom_other {c : Char} (hfeed : c ≠ '\n') (read rest : List Char) :
    linesFrom read (c :: rest) = linesFrom (c :: read) rest :=
  if_neg hfeed

theorem linesFrom_ne_nil {read text : List Char} (h : read ≠ [] ∨ text ≠ []) :
    linesFrom read text ≠ [] := by
  induction text generalizing read with
  | nil => simpa [linesFrom] using h
  | cons c rest ih =>
    by_cases hfeed : c = '\n'
    · rw [hfeed, linesFrom_feed]
      exact List.cons_ne_nil _ _
    · rw [linesFrom_other hfeed]
      exact ih (Or.inl (List.cons_ne_nil _ _))

-- The lines of a text with what has been read of the first one.
theorem intercalate_linesFrom {read text : List Char} (h : read ≠ [] ∨ text ≠ []) :
    List.intercalate ['\n'] ((linesFrom read text).map fun line => ' ' :: ' ' :: line) =
      ' ' :: ' ' ::
        ((if text.head? = some '\n' then ended read else read).reverse ++ reline text) := by
  induction text generalizing read with
  | nil =>
    have hread : read ≠ [] := h.resolve_right (by simp)
    simp [linesFrom, hread, reline]
  | cons c rest ih =>
    by_cases hfeed : c = '\n'
    · subst hfeed
      rw [linesFrom_feed, List.map_cons]
      cases rest with
      | nil => simp [linesFrom, reline]
      | cons next rest =>
        obtain ⟨line, lines, hrest⟩ := List.exists_cons_of_ne_nil
          (linesFrom_ne_nil (Or.inr (by simp) : ([] : List Char) ≠ [] ∨ next :: rest ≠ []))
        have hbelow := ih (Or.inr (by simp) : ([] : List Char) ≠ [] ∨ next :: rest ≠ [])
        rw [hrest, List.map_cons] at hbelow ⊢
        rw [List.intercalate_cons_cons, hbelow]
        simp [reline, ended]
    · rw [linesFrom_other hfeed, ih (Or.inl (by simp)), reline, if_neg hfeed]
      by_cases hnext : rest.head? = some '\n'
      · by_cases hreturn : c = '\r'
        · subst hreturn
          simp [hnext, ended]
        · simp [hnext, hreturn, hfeed, ended_cons_of_ne hreturn]
      · simp [hnext, hfeed]

theorem indented_eq (text : String) :
    (indented text).toList = if text.toList = [] then [] else ' ' :: ' ' :: reline text.toList := by
  have hlines : (indented text).toList =
      List.intercalate ['\n'] ((lines text.toList).map fun line => ' ' :: ' ' :: line) := by
    rw [indented, String.toList_intercalate, List.map_map]
    refine congrArg₂ _ rfl (List.map_congr_left fun line _ => ?_)
    simp
  rw [hlines]
  split
  · rename_i hempty
    rw [hempty]
    rfl
  · rename_i hne
    rw [lines, intercalate_linesFrom (Or.inr hne)]
    simp [ended]

end Text

end PivotQuery
