import Mathlib.Data.List.Infix
import Mathlib.Data.List.TakeWhile

/-! # Lua patterns

The part of Lua's pattern matching that consists of character classes with `+`
and of single characters.  `(%w+)(%d+):(%a+)` is the list of items
`[.plus isAlphanum, .plus isDigit, .char ':', .plus isAlpha]`; every `+` is a
capture.

A repetition takes as many characters as it can and gives back one after the
other until the rest of the pattern matches.  `matchHere_plus_of_all` and
`matchHere_plus_give_back` are the two steps of that search.

A pattern without repetitions is a list of classes.  `gsub` replaces its matches
from left to right; `gsub_of_match` and `gsub_of_not_match` are its equations.
-/
namespace LuaPatterns

/-- An item of a pattern. -/
inductive Item where
  /-- A character class followed by `+`, in parentheses. -/
  | plus (p : Char → Bool)
  /-- A character that stands for itself. -/
  | char (c : Char)

/-- Matching a pattern at the start of a text: the captures. -/
def matchHere : List Item → List Char → Option (List (List Char))
  | [], _ => some []
  | .char _ :: _, [] => none
  | .char c :: items, d :: s => if d = c then matchHere items s else none
  | .plus p :: items, s =>
    (List.range (s.takeWhile p).length).reverse.findSome? fun k =>
      (matchHere items (s.drop (k + 1))).map (s.take (k + 1) :: ·)

/-- `string.match`: the first place in the text where the pattern matches. -/
def luaMatch (items : List Item) (s : List Char) : Option (List (List Char)) :=
  s.tails.findSome? (matchHere items)

theorem luaMatch_of_matchHere {items : List Item} {s : List Char} {caps : List (List Char)}
    (h : matchHere items s = some caps) : luaMatch items s = some caps := by
  unfold luaMatch
  cases s with
  | nil => simp [h]
  | cons c s => rw [List.tails_cons, List.findSome?_cons, h]

section Plus
variable {p : Char → Bool} {items : List Item} {w rest : List Char}

/-- A run of characters of the class that the text cannot continue. -/
theorem takeWhile_run (hw : ∀ c ∈ w, p c = true) (hrest : ∀ c ∈ rest.head?, p c = false) :
    (w ++ rest).takeWhile p = w := by
  rw [List.takeWhile_append, List.takeWhile_eq_self_iff.mpr hw, if_pos rfl]
  cases rest with
  | nil => simp
  | cons c rest =>
    have hc := hrest c rfl
    rw [List.takeWhile_cons, hc]
    simp

theorem head_dropWhile (p : Char → Bool) (s : List Char) :
    ∀ c ∈ (s.dropWhile p).head?, p c = false := by
  intro c hc
  have hhead := List.head?_dropWhile_not p s
  rw [Option.mem_def.mp hc] at hhead
  exact hhead

/-- The longest run is taken if the rest matches after it. -/
theorem matchHere_plus_of_all (hw : ∀ c ∈ w, p c = true) (hne : w ≠ [])
    (hrest : ∀ c ∈ rest.head?, p c = false) {caps : List (List Char)}
    (h : matchHere items rest = some caps) :
    matchHere (.plus p :: items) (w ++ rest) = some (w :: caps) := by
  obtain ⟨k, hk⟩ : ∃ k, w.length = k + 1 :=
    Nat.exists_eq_succ_of_ne_zero (List.length_pos_iff.mpr hne).ne'
  rw [matchHere, takeWhile_run hw hrest, hk, List.range_succ, List.reverse_append,
    List.reverse_singleton, List.singleton_append, List.findSome?_cons, ← hk, List.drop_left,
    List.take_left, h]
  rfl

/-- At the end of a pattern the whole run is taken. -/
theorem matchHere_plus_last {s : List Char} (h : s.takeWhile p ≠ []) :
    matchHere [.plus p] s = some [s.takeWhile p] := by
  have hmatch : matchHere [.plus p] (s.takeWhile p ++ s.dropWhile p) = some [s.takeWhile p] :=
    matchHere_plus_of_all (fun c hc => List.mem_takeWhile_imp hc) h (head_dropWhile p s) rfl
  rwa [List.takeWhile_append_dropWhile] at hmatch

/-- Otherwise its last character is given back. -/
theorem matchHere_plus_give_back {c : Char} (hw : ∀ d ∈ w, p d = true) (hne : w ≠ [])
    (hc : p c = true) (hrest : ∀ d ∈ rest.head?, p d = false)
    (hnone : matchHere items rest = none) {caps : List (List Char)}
    (h : matchHere items (c :: rest) = some caps) :
    matchHere (.plus p :: items) (w ++ c :: rest) = some (w :: caps) := by
  obtain ⟨k, hk⟩ : ∃ k, w.length = k + 1 :=
    Nat.exists_eq_succ_of_ne_zero (List.length_pos_iff.mpr hne).ne'
  have hrun : (w ++ c :: rest).takeWhile p = w ++ [c] := by
    rw [← List.singleton_append, ← List.append_assoc]
    refine takeWhile_run (fun d hd => ?_) hrest
    rcases List.mem_append.mp hd with hd | hd
    · exact hw d hd
    · rw [List.mem_singleton] at hd
      exact hd ▸ hc
  have hall : (w ++ c :: rest).drop (k + 1 + 1) = rest := by
    rw [← hk, ← List.drop_drop, List.drop_left]
    rfl
  rw [matchHere, hrun, List.length_append, List.length_singleton, hk, List.range_succ,
    List.reverse_append, List.reverse_singleton, List.singleton_append, List.findSome?_cons, hall,
    hnone, Option.map_none, List.range_succ, List.reverse_append, List.reverse_singleton,
    List.singleton_append, List.findSome?_cons, ← hk, List.drop_left, List.take_left, h]
  rfl

/-- No match begins with a character outside the class. -/
theorem luaMatch_append_of_not {pre s : List Char} (hpre : ∀ c ∈ pre, p c = false) :
    luaMatch (.plus p :: items) (pre ++ s) = luaMatch (.plus p :: items) s := by
  induction pre with
  | nil => rfl
  | cons c pre ih =>
    have hnone : matchHere (.plus p :: items) (c :: (pre ++ s)) = none := by
      rw [matchHere, List.takeWhile_cons, hpre c List.mem_cons_self]
      rfl
    rw [← ih fun d hd => hpre d (List.mem_cons_of_mem _ hd), List.cons_append, luaMatch,
      List.tails_cons, List.findSome?_cons, hnone]
    rfl

end Plus

/-! ## Patterns of a fixed length -/

/-- A pattern that is one character class after the other. -/
abbrev Classes (α : Type*) := List (α → Bool)

section Classes
variable {α : Type*} (ps : Classes α) (repl : List α → List α)

/-- Whether the classes match at the start of a text. -/
def Classes.matchHere : Classes α → List α → Bool
  | [], _ => true
  | _ :: _, [] => false
  | p :: ps, c :: s => p c && matchHere ps s

/-- `string.find`, as a test. -/
def Classes.found (s : List α) : Bool := s.tails.any ps.matchHere

/-- `string.gsub` in the middle of a text: `skip` characters belong to the match before. -/
def Classes.gsubFrom : (skip : Nat) → List α → List α
  | _, [] => []
  | skip + 1, _ :: s => gsubFrom skip s
  | 0, c :: s =>
    if ps.matchHere (c :: s) then
      repl ((c :: s).take ps.length) ++ gsubFrom (ps.length - 1) s
    else c :: gsubFrom 0 s

/-- `string.gsub(s, pattern, repl)` with a function that returns a text. -/
def Classes.gsub (s : List α) : List α := ps.gsubFrom repl 0 s

variable {ps repl} {s : List α}

theorem Classes.gsubFrom_eq (skip : Nat) (s : List α) :
    ps.gsubFrom repl skip s = ps.gsub repl (s.drop skip) := by
  induction s generalizing skip with
  | nil => cases skip <;> simp [gsub, gsubFrom]
  | cons c s ih =>
    cases skip with
    | zero => rfl
    | succ skip => rw [gsubFrom, ih, List.drop_succ_cons]

/-- A match is replaced, and the search goes on after it. -/
theorem Classes.gsub_of_match (hps : ps ≠ []) (h : ps.matchHere s = true) :
    ps.gsub repl s = repl (s.take ps.length) ++ ps.gsub repl (s.drop ps.length) := by
  obtain ⟨p, ps, rfl⟩ := List.exists_cons_of_ne_nil hps
  cases s with
  | nil => exact absurd h Bool.false_ne_true
  | cons c s =>
    rw [gsub, gsubFrom, if_pos h, gsubFrom_eq, List.length_cons, Nat.add_sub_cancel,
      List.drop_succ_cons]

/-- A character that no match begins with is kept. -/
theorem Classes.gsub_of_not_match {c : α} (h : ps.matchHere (c :: s) = false) :
    ps.gsub repl (c :: s) = c :: ps.gsub repl s := by
  rw [gsub, gsubFrom, h]
  rfl

/-- A text without a match is left as it is. -/
theorem Classes.gsub_of_not_found (h : ps.found s = false) : ps.gsub repl s = s := by
  induction s with
  | nil => rfl
  | cons c s ih =>
    rw [found, List.tails_cons, List.any_cons, Bool.or_eq_false_iff] at h
    rw [gsub_of_not_match h.1, ih h.2]

end Classes

end LuaPatterns
