import PivotQuery.Proofs.Tokens.Rules

namespace PivotQuery.TokenRules

variable {rules : TokenRules} {style : QuoteStyle} {text spelled rest : List Char}

-- The spelling of a token behind its first quote, and what comes behind the last one.
def takeQuoted (rules : TokenRules) : List Char → Option (List Char × List Char)
  | [] => none
  | [c] => if c = rules.quote then some ([], []) else none
  | c :: next :: rest =>
    if c = '\\' && rules.backslash || c = rules.quote && next = c && rules.doubled then
      (rules.takeQuoted rest).map fun (spelled, rest) => (c :: next :: spelled, rest)
    else if c = rules.quote then some ([], next :: rest)
    else (rules.takeQuoted (next :: rest)).map fun (spelled, rest) => (c :: spelled, rest)

-- What can stand between the quotes of a token.
inductive Spells (rules : TokenRules) : List Char → Prop
  | nil : Spells rules []
  | char {c : Char} {rest : List Char} (hescape : ¬(c = '\\' ∧ rules.backslash = true))
    (hquote : c ≠ rules.quote) (h : Spells rules rest) : Spells rules (c :: rest)
  | escape {c : Char} {rest : List Char} (hescape : rules.backslash = true)
    (h : Spells rules rest) : Spells rules ('\\' :: c :: rest)
  | doubled {rest : List Char} (hdoubled : rules.doubled = true) (h : Spells rules rest) :
    Spells rules (rules.quote :: rules.quote :: rest)

theorem takeQuoted_of_spells (hdistinct : rules.quote ≠ '\\') (h : rules.Spells spelled)
    (hrest : rules.doubled = true → rest.head? ≠ some rules.quote) :
    rules.takeQuoted (spelled ++ rules.quote :: rest) = some (spelled, rest) := by
  induction h with
  | nil =>
    cases rest with
    | nil => simp [takeQuoted]
    | cons next rest =>
      have hends : ¬(next = rules.quote ∧ rules.doubled = true) :=
        fun h => hrest h.2 (by simp [h.1])
      simp [takeQuoted, hdistinct, hends]
  | @char c spelled hescape hquote h ih =>
    obtain ⟨next, tail, htail⟩ : ∃ next tail, spelled ++ rules.quote :: rest = next :: tail :=
      List.exists_cons_of_ne_nil (by simp)
    rw [List.cons_append, htail, takeQuoted, ← htail, if_neg (by simp_all), if_neg hquote, ih]
    rfl
  | @escape c spelled hescape h ih => simp [takeQuoted, hescape, ih]
  | doubled hdoubled h ih => simp [takeQuoted, hdoubled, ih]

theorem spells_of_takeQuoted (h : rules.takeQuoted text = some (spelled, rest)) :
    rules.Spells spelled ∧ spelled ++ rules.quote :: rest = text ∧
      (rules.doubled = true → rest.head? ≠ some rules.quote) := by
  fun_induction takeQuoted rules text generalizing spelled with
  | case1 => simp at h
  | case2 =>
    obtain ⟨rfl, rfl⟩ : [] = spelled ∧ [] = rest := by simpa using h
    exact ⟨.nil, rfl, by simp⟩
  | case3 => simp at h
  | case4 c next tail hpair ih =>
    obtain ⟨⟨before, behind⟩, hread, heq⟩ := Option.map_eq_some_iff.mp h
    obtain ⟨rfl, rfl⟩ : c :: next :: before = spelled ∧ behind = rest := by simpa using heq
    obtain ⟨hspells, happend, hends⟩ := ih hread
    refine ⟨?_, by simp [happend], hends⟩
    simp only [Bool.or_eq_true, Bool.and_eq_true, decide_eq_true_eq] at hpair
    rcases hpair with ⟨rfl, hescape⟩ | ⟨⟨rfl, rfl⟩, hdoubled⟩
    · exact .escape hescape hspells
    · exact .doubled hdoubled hspells
  | case5 next tail hpair =>
    obtain ⟨rfl, rfl⟩ : [] = spelled ∧ next :: tail = rest := by simpa using h
    refine ⟨.nil, rfl, fun hdoubled hnext => hpair ?_⟩
    have hquote : next = rules.quote := by simpa using hnext
    simp [hquote, hdoubled]
  | case6 c next tail hpair hquote ih =>
    obtain ⟨⟨before, behind⟩, hread, heq⟩ := Option.map_eq_some_iff.mp h
    obtain ⟨rfl, rfl⟩ : c :: before = spelled ∧ behind = rest := by simpa using heq
    obtain ⟨hspells, happend, hends⟩ := ih hread
    refine ⟨.char (fun hescape => hpair ?_) hquote hspells, by simp [happend], hends⟩
    simp [hescape.1, hescape.2]

theorem takeQuoted_length (h : rules.takeQuoted text = some (spelled, rest)) :
    rest.length < text.length := by
  obtain ⟨-, rfl, -⟩ := spells_of_takeQuoted h
  simp
  omega

theorem spells_encode (h : rules.Fits style) (text : List Char) :
    rules.Spells (text.flatMap style.encode) := by
  induction text with
  | nil => exact .nil
  | cons c rest ih =>
    rw [List.flatMap_cons]
    rcases h.encode_cases c with ⟨hc, hescape, hquote⟩ | ⟨hc, hescape, -⟩ | ⟨hc, rfl, hdoubled⟩
    · rw [hc]
      exact .char hescape hquote ih
    · rw [hc]
      exact .escape hescape ih
    · rw [hc]
      exact .doubled hdoubled ih

end PivotQuery.TokenRules
