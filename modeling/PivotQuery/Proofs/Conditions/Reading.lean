import PivotQuery.Proofs.Lists
import PivotQuery.Proofs.Rows.Engine
import PivotQuery.Proofs.Tokens.Symbols
import Mathlib.Data.List.DropRight

namespace PivotQuery

theorem BoolOp.combine_singleton (op : BoolOp) (truth : Option Bool) :
    op.combine [truth] = truth := by
  cases op <;> rcases truth with _ | _ | _ <;> rfl

-- A condition as it is read from a text.
inductive Condition
  | comparison (symbols : List Symbol)
  | group (op : BoolOp) (parts : List Condition)

-- What is told apart in a text. Parentheses have been read already where the text around them is.
inductive Piece
  | word (chars : List Char)
  | blank (c : Char)
  | quoted (quote : Quote) (spelled : List Char)
  | group (inside : List Symbol) (condition : Condition)

namespace Piece

def symbols : Piece → List Symbol
  | .word chars => chars.map .char
  | .blank c => [.char c]
  | .quoted quote spelled => [.quoted quote spelled]
  | .group inside _ => .char '(' :: inside ++ [.char ')']

def isBlank : Piece → Bool
  | .blank _ => true
  | _ => false

-- Keywords are words in capitals or not.
def isKeyword (op : BoolOp) : Piece → Bool
  | .word chars => chars.map Char.toUpper == op.name.toList
  | _ => false

end Piece

namespace Condition

section Value

variable (truth : List Symbol → Option Bool)

mutual

def value : Condition → Option Bool
  | .comparison symbols => truth symbols
  | .group op parts => op.combine (values parts)

def values : List Condition → List (Option Bool)
  | [] => []
  | part :: rest => part.value :: values rest

end

theorem values_eq_map (parts : List Condition) : values truth parts = parts.map (value truth) := by
  induction parts with
  | nil => rfl
  | cons part rest ih => rw [values, ih, List.map_cons]

end Value

-- What is between two keywords is a comparison, unless all of it stands in parentheses.
def ofFactor (pieces : List Piece) : Condition :=
  match (pieces.dropWhile Piece.isBlank).rdropWhile Piece.isBlank with
  | [.group _ condition] => condition
  | pieces => .comparison (pieces.flatMap Piece.symbols)

def ofTerm (pieces : List Piece) : Condition :=
  .group .and ((pieces.splitOnP (Piece.isKeyword .and)).map ofFactor)

-- AND binds tighter than OR.
def ofPieces (pieces : List Piece) : Condition :=
  .group .or ((pieces.splitOnP (Piece.isKeyword .or)).map ofTerm)

end Condition

namespace Piece

def addChar (c : Char) : List Piece → List Piece
  | .word chars :: rest => .word (c :: chars) :: rest
  | pieces => .word [c] :: pieces

-- The pieces behind a place in a text, and the symbol before it. Those in the parentheses around
-- the place come first, then those behind them in each that is around these.
def add (symbol : Symbol) (pieces : List Piece) (outer : List (List Piece)) :
    Option (List Piece × List (List Piece)) :=
  match symbol with
  | .quoted quote spelled => some (.quoted quote spelled :: pieces, outer)
  | .char c =>
    if Text.isBlank c then some (.blank c :: pieces, outer)
    else if c = ')' then some ([], pieces :: outer)
    else if c = '(' then
      match outer with
      | [] => none
      | behind :: outer =>
        some (.group (pieces.flatMap symbols) (.ofPieces pieces) :: behind, outer)
    else some (addChar c pieces, outer)

def read : List Symbol → Option (List Piece × List (List Piece))
  | [] => some ([], [])
  | symbol :: rest => (read rest).bind fun state => add symbol state.1 state.2

end Piece

-- The condition that a text is, unless a token or a parenthesis in it does not end.
def Dialect.condition? (dialect : Dialect) (text : String) : Option Condition :=
  (dialect.symbols? text.toList).bind fun symbols =>
    match Piece.read symbols with
    | some (pieces, []) => some (.ofPieces pieces)
    | _ => none

namespace Piece

def isWordChar (c : Char) : Bool := !Text.isBlank c && c != '(' && c != ')'

def startsWord : List Piece → Bool
  | .word _ :: _ => true
  | _ => false

-- Symbols that fall into pieces, words being as long as they can be.
inductive Scans : List Symbol → List Piece → Prop
  | nil : Scans [] []
  | word {chars : List Char} {symbols : List Symbol} {pieces : List Piece} (hne : chars ≠ [])
    (hchars : ∀ c ∈ chars, isWordChar c = true) (hends : startsWord pieces = false)
    (h : Scans symbols pieces) : Scans (chars.map .char ++ symbols) (.word chars :: pieces)
  | blank {c : Char} {symbols : List Symbol} {pieces : List Piece} (hc : Text.isBlank c = true)
    (h : Scans symbols pieces) : Scans (.char c :: symbols) (.blank c :: pieces)
  | quoted {quote : Quote} {spelled : List Char} {symbols : List Symbol} {pieces : List Piece}
    (h : Scans symbols pieces) :
    Scans (.quoted quote spelled :: symbols) (.quoted quote spelled :: pieces)
  | group {inside symbols : List Symbol} {inner pieces : List Piece} (hinside : Scans inside inner)
    (h : Scans symbols pieces) : Scans (.char '(' :: (inside ++ .char ')' :: symbols))
      (.group inside (.ofPieces inner) :: pieces)

variable {symbols others : List Symbol} {pieces behind : List Piece}

theorem Scans.flatMap_symbols (h : Scans symbols pieces) :
    pieces.flatMap Piece.symbols = symbols := by
  induction h with
  | nil => rfl
  | word _ _ _ _ ih => rw [List.flatMap_cons, ih, Piece.symbols]
  | blank _ _ ih => rw [List.flatMap_cons, ih, Piece.symbols, List.singleton_append]
  | quoted _ ih => rw [List.flatMap_cons, ih, Piece.symbols, List.singleton_append]
  | group _ _ _ ih => simp [ih, Piece.symbols]

theorem Scans.append (h : Scans symbols pieces) (h' : Scans others behind)
    (hends : startsWord behind = false) : Scans (symbols ++ others) (pieces ++ behind) := by
  induction h with
  | nil => exact h'
  | @word chars symbols pieces hne hchars hword _ ih =>
    rw [List.append_assoc]
    have hboth : startsWord (pieces ++ behind) = false := by
      cases pieces with
      | nil => exact hends
      | cons first rest => cases first <;> exact hword
    exact .word hne hchars hboth ih
  | blank hc _ ih => exact .blank hc ih
  | quoted _ ih => exact .quoted ih
  | group hinside _ _ ih =>
    rw [List.cons_append, List.append_assoc]
    exact .group hinside ih

theorem read_cons {outer : List (List Piece)} (h : read symbols = some (pieces, outer))
    (symbol : Symbol) : read (symbol :: symbols) = add symbol pieces outer := by
  rw [read, h]
  rfl

theorem read_chars {chars : List Char} {outer : List (List Piece)}
    (hread : read symbols = some (pieces, outer)) (hends : startsWord pieces = false)
    (hne : chars ≠ []) (hchars : ∀ c ∈ chars, isWordChar c = true) :
    read (chars.map .char ++ symbols) = some (.word chars :: pieces, outer) := by
  have hadd : ∀ c, isWordChar c = true → ∀ pieces,
      add (.char c) pieces outer = some (addChar c pieces, outer) := by
    intro c hc pieces
    simp only [isWordChar, Bool.and_eq_true, Bool.not_eq_true', bne_iff_ne] at hc
    simp [add, hc]
  induction chars with
  | nil => exact absurd rfl hne
  | cons c rest ih =>
    obtain ⟨hc, hrest⟩ := List.forall_mem_cons.mp hchars
    cases rest with
    | nil =>
      have haddChar : addChar c pieces = .word [c] :: pieces := by
        unfold addChar
        split
        · cases hends
        · rfl
      rw [List.map_singleton, List.singleton_append, read_cons hread, hadd c hc, haddChar]
    | cons next rest =>
      rw [List.map_cons, List.cons_append, read_cons (ih (by simp) hrest), hadd c hc]
      rfl

-- Symbols in front of the end of a text, or of a parenthesis that ends there.
theorem Scans.read (h : Scans symbols pieces) {outer : List (List Piece)}
    (hothers : Piece.read others = some ([], outer)) :
    Piece.read (symbols ++ others) = some (pieces, outer) := by
  induction h generalizing others outer with
  | nil => exact hothers
  | word hne hchars hends _ ih =>
    rw [List.append_assoc]
    exact read_chars (ih hothers) hends hne hchars
  | blank hc _ ih =>
    rw [List.cons_append, read_cons (ih hothers)]
    simp [add, hc]
  | quoted _ ih => exact read_cons (ih hothers) _
  | @group inside symbols inner pieces hinside _ ihinside ih =>
    have hclose : Piece.read (.char ')' :: (symbols ++ others)) = some ([], pieces :: outer) :=
      read_cons (ih hothers) _
    rw [List.cons_append, List.append_assoc, List.cons_append, read_cons (ihinside hclose),
      ← hinside.flatMap_symbols]
    rfl

theorem Scans.read_all (h : Scans symbols pieces) : Piece.read symbols = some (pieces, []) := by
  have hread := h.read (rfl : Piece.read [] = some ([], []))
  rwa [List.append_nil] at hread

-- Pieces that keep together between two keywords.
structure Phrase (pieces : List Piece) : Prop where
  starts : ∃ first rest, pieces = first :: rest ∧ first.isBlank = false
  ends : ∃ front last, pieces = front ++ [last] ∧ last.isBlank = false
  unreserved : ∀ piece ∈ pieces, ∀ op, piece.isKeyword op = false

theorem phrase_singleton {piece : Piece} (hblank : piece.isBlank = false)
    (hkeyword : ∀ op, piece.isKeyword op = false) : Phrase [piece] :=
  ⟨⟨piece, [], rfl, hblank⟩, ⟨[], piece, rfl, hblank⟩, List.forall_mem_singleton.mpr hkeyword⟩

theorem Phrase.blank_between (h : Phrase pieces) (h' : Phrase behind) :
    Phrase (pieces ++ .blank ' ' :: behind) := by
  obtain ⟨first, rest, rfl, hfirst⟩ := h.starts
  obtain ⟨front, last, rfl, hlast⟩ := h'.ends
  refine ⟨⟨first, _, rfl, hfirst⟩, ⟨first :: rest ++ .blank ' ' :: front, last, by simp, hlast⟩, ?_⟩
  intro piece hpiece
  rcases List.mem_append.mp hpiece with hpiece | hpiece
  · exact h.unreserved piece hpiece
  · rcases List.mem_cons.mp hpiece with rfl | hpiece
    · exact fun _ => rfl
    · exact h'.unreserved piece hpiece

-- The same with blanks around.
def Padded (pieces padded : List Piece) : Prop :=
  ∃ before behind, (∀ piece ∈ before, piece.isBlank = true) ∧
    (∀ piece ∈ behind, piece.isBlank = true) ∧ before ++ (pieces ++ behind) = padded

theorem Padded.refl (pieces : List Piece) : Padded pieces pieces := ⟨[], [], by simp⟩

theorem Padded.trimmed {padded : List Piece} (h : Padded pieces padded) (hphrase : Phrase pieces) :
    (padded.dropWhile isBlank).rdropWhile isBlank = pieces := by
  obtain ⟨before, behind, hbefore, hbehind, rfl⟩ := h
  have hfront : (before ++ (pieces ++ behind)).dropWhile isBlank = pieces ++ behind := by
    obtain ⟨first, rest, rfl, hfirst⟩ := hphrase.starts
    rw [List.dropWhile_append_of_pos hbefore, List.cons_append,
      List.dropWhile_cons_of_neg (by simp [hfirst])]
  obtain ⟨front, last, rfl, hlast⟩ := hphrase.ends
  rw [hfront, List.rdropWhile, List.reverse_append,
    List.dropWhile_append_of_pos (by simpa using hbehind), List.reverse_append,
    List.reverse_singleton, List.singleton_append, List.dropWhile_cons_of_neg (by simp [hlast])]
  simp

theorem Padded.ofFactor {padded : List Piece} (h : Padded pieces padded) (hphrase : Phrase pieces) :
    Condition.ofFactor padded = Condition.ofFactor pieces := by
  rw [Condition.ofFactor, Condition.ofFactor, h.trimmed hphrase,
    (Padded.refl pieces).trimmed hphrase]

theorem Padded.unreserved {padded : List Piece} (h : Padded pieces padded)
    (hphrase : Phrase pieces) (op : BoolOp) : ∀ piece ∈ padded, piece.isKeyword op = false := by
  obtain ⟨before, behind, hbefore, hbehind, rfl⟩ := h
  have hblank : ∀ piece : Piece, piece.isBlank = true → piece.isKeyword op = false := by
    rintro (_ | _ | _ | _) h
    all_goals first | rfl | cases h
  simp only [List.forall_mem_append]
  exact ⟨fun piece hpiece => hblank piece (hbefore piece hpiece),
    fun piece hpiece => hphrase.unreserved piece hpiece op,
    fun piece hpiece => hblank piece (hbehind piece hpiece)⟩

-- Phrases with a word between each two.
def joined (word : List Char) : List (List Piece) → List Piece
  | [] => []
  | [part] => part
  | part :: next :: rest =>
    part ++ .blank ' ' :: .word word :: .blank ' ' :: joined word (next :: rest)

private theorem mem_joined {word : List Char} {parts : List (List Piece)} {piece : Piece}
    (h : piece ∈ joined word parts) :
    (∃ part ∈ parts, piece ∈ part) ∨ piece = .blank ' ' ∨ piece = .word word := by
  fun_induction joined word parts with
  | case1 => simp at h
  | case2 part => exact Or.inl ⟨part, by simp, h⟩
  | case3 part next rest ih =>
    simp only [List.mem_append, List.mem_cons] at h
    rcases h with h | h | h | h | h
    · exact Or.inl ⟨part, by simp, h⟩
    · exact Or.inr (Or.inl h)
    · exact Or.inr (Or.inr h)
    · exact Or.inr (Or.inl h)
    · rcases ih h with ⟨other, hother, hpiece⟩ | h
      · exact Or.inl ⟨other, List.mem_cons_of_mem _ hother, hpiece⟩
      · exact Or.inr h

-- A connective between phrases is where they are told apart again.
private theorem padded_split (op : BoolOp) {parts : List (List Piece)}
    (hparts : ∀ part ∈ parts, Phrase part) (hne : parts ≠ []) {pad : List Piece}
    (hpad : ∀ piece ∈ pad, piece.isBlank = true) :
    List.Forall₂ Padded parts
      ((pad ++ joined op.name.toList parts).splitOnP (isKeyword op)) := by
  have hword : isKeyword op (.word op.name.toList) = true := by cases op <;> rfl
  fun_induction joined op.name.toList parts generalizing pad with
  | case1 => exact absurd rfl hne
  | case2 part =>
    have hpadded : Padded part (pad ++ part) := ⟨pad, [], hpad, by simp, by simp⟩
    rw [List.splitOnP_eq_singleton (hpadded.unreserved (hparts part (by simp)) op)]
    exact .cons hpadded .nil
  | case3 part next rest ih =>
    obtain ⟨hpart, hrest⟩ := List.forall_mem_cons.mp hparts
    have hpadded : Padded part (pad ++ (part ++ [.blank ' '])) :=
      ⟨pad, [.blank ' '], hpad, by simp [isBlank], rfl⟩
    have hsplit : pad ++ (part ++ .blank ' ' :: .word op.name.toList :: .blank ' ' ::
        joined op.name.toList (next :: rest)) = (pad ++ (part ++ [.blank ' '])) ++
          .word op.name.toList :: ([.blank ' '] ++ joined op.name.toList (next :: rest)) := by
      simp
    rw [hsplit, List.splitOnP_append_cons_of_forall_mem (hpadded.unreserved hpart op) _ hword]
    exact .cons hpadded (ih hrest (by simp) (by simp [isBlank]))

end Piece

namespace Condition

open Piece

variable (truth : List Symbol → Option Bool)

-- A blank inside tells a comparison from parentheses and from a single word.
theorem ofFactor_blank_between {pieces behind : List Piece} (h : Phrase pieces)
    (h' : Phrase behind) : ofFactor (pieces ++ .blank ' ' :: behind) =
      .comparison ((pieces ++ .blank ' ' :: behind).flatMap Piece.symbols) := by
  rw [ofFactor, (Padded.refl _).trimmed (h.blank_between h')]
  split
  · rename_i inside condition heq
    obtain ⟨first, rest, rfl, -⟩ := h.starts
    simp at heq
  · rfl

private theorem value_ofTerm_padded {part padded : List Piece} (h : Padded part padded)
    (hphrase : Phrase part) : (ofTerm padded).value truth = (ofFactor part).value truth := by
  rw [ofTerm, List.splitOnP_eq_singleton (h.unreserved hphrase .and), List.map_singleton, value,
    values_eq_map, List.map_singleton, BoolOp.combine_singleton, h.ofFactor hphrase]

-- Phrases under one connective are a group of what each of them is.
theorem value_ofPieces_joined (op : BoolOp) {parts : List (List Piece)}
    (hparts : ∀ part ∈ parts, Phrase part) (hne : parts ≠ []) :
    (ofPieces (joined op.name.toList parts)).value truth =
      op.combine (parts.map fun part => (ofFactor part).value truth) := by
  have hsplit := (List.forall₂_and_left _ _).mpr
    ⟨hparts, padded_split op hparts hne (List.forall_mem_nil _)⟩
  rw [List.nil_append] at hsplit
  cases op with
  | and =>
    have hplain : ∀ piece ∈ joined BoolOp.and.name.toList parts, piece.isKeyword .or = false := by
      intro piece hpiece
      rcases mem_joined hpiece with ⟨part, hpart, hpiece⟩ | rfl | rfl
      · exact (hparts part hpart).unreserved piece hpiece .or
      · rfl
      · rfl
    have hfactors := map_eq_map hsplit fun part padded h =>
      congrArg (value truth) (h.2.ofFactor h.1).symm
    rw [ofPieces, List.splitOnP_eq_singleton hplain, List.map_singleton, value, values_eq_map,
      List.map_singleton, BoolOp.combine_singleton, ofTerm, value, values_eq_map, List.map_map]
    exact congrArg BoolOp.and.combine hfactors.symm
  | or =>
    have hterms := map_eq_map hsplit fun part padded h => (value_ofTerm_padded truth h.2 h.1).symm
    rw [ofPieces, value, values_eq_map, List.map_map]
    exact congrArg BoolOp.or.combine hterms.symm

example : Dialect.sqlite.condition? "a OR b AND (c OR 'x OR y' = d)" = some (.group .or [
    .group .and [.comparison [.char 'a']],
    .group .and [.comparison [.char 'b'], .group .or [
      .group .and [.comparison [.char 'c']],
      .group .and [.comparison (.quoted .text "x OR y".toList :: " = d".toList.map .char)]]]]) := by
  cbv

end Condition

end PivotQuery
