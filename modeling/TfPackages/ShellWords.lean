import Mathlib.Algebra.GroupWithZero.Nat
import Mathlib.Data.List.Basic

/-! # Words of a shell command line

Token recognition and quote removal of the POSIX shell, for lines that are to be
one simple command of literal words.  The lexer reads byte by byte; `words` is
`none` when the line is anything else: an operator or a second command in it, an
expansion (`$` or a back-quote, bare or in double quotes), or a quotation that is
not closed.  Pattern matching on file names comes after tokenising and is not
part of it.

Every byte adds at most one byte to the words, and quotes, blanks and
backslashes add none.  Comparing lengths therefore tells how a given piece of
text was read: `lexFrom_plain_iff` for text that reads as itself, and
`lexFrom_quoted_iff` for text between single quotes.
-/
namespace ShellWords

abbrev Word := List UInt8

/-- Where in a quotation the lexer is. -/
inductive Mode where
  | plain
  | single
  | double
  /-- After a backslash. -/
  | escape
  /-- After a backslash in double quotes. -/
  | doubleEscape
  | comment
  /-- After the newline that ends the command. -/
  | ended
deriving DecidableEq, Repr

/-- The lexer: the words finished so far and the one that is being read. -/
structure Lexer where
  mode : Mode
  words : List Word
  word : Option Word
deriving DecidableEq, Repr

def isBlank (c : UInt8) : Bool := c = 0x20 || c = 0x09
def newline : UInt8 := 0x0a
def quote : UInt8 := 0x27
def doubleQuote : UInt8 := 0x22
def backslash : UInt8 := 0x5c
def hash : UInt8 := 0x23

/-- `|`, `&`, `;`, `<`, `>`, `(`, `)`. -/
def isOperator (c : UInt8) : Bool := c ∈ [0x7c, 0x26, 0x3b, 0x3c, 0x3e, 0x28, 0x29]

/-- `$` and the back-quote. -/
def isExpansion (c : UInt8) : Bool := c = 0x24 || c = 0x60

/-- A byte that stands for itself inside an unquoted word. -/
def isPlain (c : UInt8) : Bool :=
  !(isBlank c || c = newline || isOperator c || isExpansion c || c = quote || c = doubleQuote ||
    c = backslash)

/-- One more byte of the word. -/
def Lexer.push (s : Lexer) (c : UInt8) : Lexer := { s with word := some (s.word.getD [] ++ [c]) }

/-- The word, if there is one, is finished. -/
def Lexer.endWord (s : Lexer) : Lexer := { s with words := s.words ++ s.word.toList, word := none }

/-- A quotation belongs to a word, even if nothing is in it. -/
def Lexer.startQuote (s : Lexer) (m : Mode) : Lexer :=
  { s with mode := m, word := some (s.word.getD []) }

/-- One byte outside quotations. -/
def stepPlain (s : Lexer) (c : UInt8) : Option Lexer :=
  if isBlank c then some s.endWord
  else if c = newline then some { s.endWord with mode := .ended }
  else if isOperator c || isExpansion c then none
  else if c = quote then some (s.startQuote .single)
  else if c = doubleQuote then some (s.startQuote .double)
  else if c = backslash then some { s with mode := .escape }
  else if c = hash ∧ s.word = none then some { s with mode := .comment }
  else some (s.push c)

/-- One byte. -/
def step (s : Lexer) (c : UInt8) : Option Lexer :=
  match s.mode with
  | .plain => stepPlain s c
  | .single => if c = quote then some { s with mode := .plain } else some (s.push c)
  | .double =>
    if c = doubleQuote then some { s with mode := .plain }
    else if isExpansion c then none
    else if c = backslash then some { s with mode := .doubleEscape }
    else some (s.push c)
  | .escape =>
    if c = newline then some { s with mode := .plain }
    else some { s.push c with mode := .plain }
  | .doubleEscape =>
    if c = newline then some { s with mode := .double }
    else if isExpansion c || c = doubleQuote || c = backslash then
      some { s.push c with mode := .double }
    else some { (s.push backslash).push c with mode := .double }
  | .comment => if c = newline then some { s with mode := .ended } else some s
  | .ended => if isBlank c || c = newline then some s else none

/-- The words when the line ends. -/
def Lexer.finish (s : Lexer) : Option (List Word) :=
  match s.mode with
  | .plain | .comment | .ended => some (s.words ++ s.word.toList)
  | _ => none

/-- The words of the line, read on from `s`. -/
def lexFrom (s : Lexer) (line : List UInt8) : Option (List Word) :=
  (line.foldlM step s).bind Lexer.finish

/-- **The words of a line that is one simple command of literal words.** -/
def words (line : List UInt8) : Option (List Word) := lexFrom ⟨.plain, [], none⟩ line

theorem lexFrom_append {s t : Lexer} {a : List UInt8} (h : a.foldlM step s = some t)
    (b : List UInt8) : lexFrom s (a ++ b) = lexFrom t b := by
  rw [lexFrom, List.foldlM_append, h]
  rfl

theorem lexFrom_cons {s t : Lexer} {c : UInt8} (h : step s c = some t) (b : List UInt8) :
    lexFrom s (c :: b) = lexFrom t b := by
  rw [lexFrom, List.foldlM_cons, h]
  rfl

theorem foldlM_cons_eq_some {s t : Lexer} {c : UInt8} {l : List UInt8}
    (h : (c :: l).foldlM step s = some t) : ∃ u, step s c = some u ∧ l.foldlM step u = some t := by
  rw [List.foldlM_cons] at h
  exact Option.bind_eq_some_iff.mp h

/-! ## Counting bytes -/

/-- The number of bytes in the words. -/
def Lexer.size (s : Lexer) : Nat := (s.words.map List.length).sum + (s.word.getD []).length

/-- A backslash in double quotes may turn out to stand for itself. -/
def Lexer.pending (s : Lexer) : Nat := if s.mode = .doubleEscape then 1 else 0

theorem size_push (s : Lexer) (c : UInt8) : (s.push c).size = s.size + 1 := by
  simp only [Lexer.push, Lexer.size, Option.getD_some, List.length_append, List.length_singleton]
  omega

theorem size_endWord (s : Lexer) : s.endWord.size = s.size := by
  unfold Lexer.endWord Lexer.size
  cases hw : s.word <;> simp

theorem size_startQuote (s : Lexer) (m : Mode) : (s.startQuote m).size = s.size := rfl

theorem size_mode (s : Lexer) (m : Mode) : ({ s with mode := m } : Lexer).size = s.size := rfl

theorem pending_of_ne {s : Lexer} (h : s.mode ≠ .doubleEscape) : s.pending = 0 := if_neg h

theorem pending_doubleEscape {s : Lexer} (h : s.mode = .doubleEscape) : s.pending = 1 := if_pos h

/-- In an unquoted word, a byte adds to the words exactly when it is plain. -/
theorem stepPlain_cases {s t : Lexer} {c : UInt8} (hm : s.mode = .plain)
    (h : stepPlain s c = some t) :
    (t.size = s.size ∧ t.mode ≠ .doubleEscape) ∨ (isPlain c = true ∧ t = s.push c) := by
  unfold stepPlain at h
  split_ifs at h with hb hn ho hq hd hs hh <;> cases h
  · exact Or.inl ⟨size_endWord s, by simp [Lexer.endWord, hm]⟩
  · exact Or.inl ⟨size_endWord s, by simp⟩
  · exact Or.inl ⟨size_startQuote s _, by simp [Lexer.startQuote]⟩
  · exact Or.inl ⟨size_startQuote s _, by simp [Lexer.startQuote]⟩
  · exact Or.inl ⟨rfl, by simp⟩
  · exact Or.inl ⟨rfl, by simp⟩
  · refine Or.inr ⟨?_, rfl⟩
    simp only [Bool.or_eq_true, not_or, Bool.not_eq_true] at hb ho
    simp [isPlain, hb, hn, ho, hq, hd, hs]

/-- **A byte of the line adds at most one byte to the words.** -/
theorem size_step_le {s t : Lexer} {c : UInt8} (h : step s c = some t) :
    t.size + t.pending ≤ s.size + s.pending + 1 := by
  have hle : ∀ u : Lexer, u.pending ≤ 1 := fun u => by unfold Lexer.pending; split <;> omega
  unfold step at h
  -- one case per mode; only `doubleEscape` adds two bytes, and one was counted before
  split at h
  · rename_i hm
    rcases stepPlain_cases hm h with ⟨hsize, hmode⟩ | ⟨-, rfl⟩
    · rw [hsize, pending_of_ne hmode]
      omega
    · rw [size_push, pending_of_ne (s := s.push c) (by simp [Lexer.push, hm])]
      omega
  · rename_i hm
    split at h <;> cases h
    · rw [size_mode, pending_of_ne (by simp)]
      omega
    · rw [size_push, pending_of_ne (s := s.push c) (by simp [Lexer.push, hm])]
      omega
  · rename_i hm
    split_ifs at h <;> cases h
    · rw [size_mode, pending_of_ne (by simp)]
      omega
    · rw [size_mode, pending_doubleEscape rfl]
      omega
    · rw [size_push, pending_of_ne (s := s.push c) (by simp [Lexer.push, hm])]
      omega
  · split at h <;> cases h
    · rw [size_mode, pending_of_ne (by simp)]
      omega
    · rw [size_mode, size_push, pending_of_ne (by simp)]
      omega
  · rename_i hm
    have hp := pending_doubleEscape hm
    split_ifs at h <;> cases h
    · rw [size_mode, pending_of_ne (by simp)]
      omega
    · rw [size_mode, size_push, pending_of_ne (by simp)]
      omega
    · rw [size_mode, size_push, size_push, pending_of_ne (by simp)]
      omega
  · rename_i hm
    split at h <;> cases h
    · rw [size_mode, pending_of_ne (by simp)]
      omega
    · omega
  · split at h <;> cases h
    omega

theorem size_foldlM_le {s t : Lexer} {l : List UInt8} (h : l.foldlM step s = some t) :
    t.size + t.pending ≤ s.size + s.pending + l.length := by
  induction l generalizing s with
  | nil =>
    cases h
    simp
  | cons c l ih =>
    obtain ⟨u, hu, hrest⟩ := foldlM_cons_eq_some h
    have hstep := size_step_le hu
    have := ih hrest
    rw [List.length_cons]
    omega

/-- The bytes of the words that are read are bytes of the line. -/
theorem length_le_of_finish {t : Lexer} {ws : List Word} (h : t.finish = some ws) :
    (ws.map List.length).sum = t.size ∧ t.pending = 0 := by
  unfold Lexer.finish at h
  have hend : ((t.words ++ t.word.toList).map List.length).sum = t.size := by
    unfold Lexer.size
    cases hw : t.word <;> simp
  split at h <;> cases h
  all_goals
    rename_i hm
    exact ⟨hend, pending_of_ne (by simp [hm])⟩

/-! ## Reading a piece of text -/

section Reading
variable {s : Lexer} {w : Word}

/-- What is read after an unquoted word `w` that is going on. -/
theorem lexFrom_length_le (hm : s.mode = .plain) (hw : s.word = some w) {l v : List UInt8}
    (h : lexFrom s l = some (s.words ++ [w ++ v])) :
    ∃ t, l.foldlM step s = some t ∧ t.size = s.size + v.length ∧ v.length ≤ l.length := by
  obtain ⟨t, ht, hfin⟩ := Option.bind_eq_some_iff.mp h
  obtain ⟨hsum, hpend⟩ := length_le_of_finish hfin
  have hsize := size_foldlM_le ht
  rw [pending_of_ne (s := s) (by simp [hm])] at hsize
  have hlen : t.size = s.size + v.length := by
    rw [← hsum, Lexer.size, hw]
    simp
    omega
  exact ⟨t, ht, hlen, by omega⟩

/-- Text of which every byte is kept is plain. -/
theorem plain_of_size (hm : s.mode = .plain) {l : List UInt8} {t : Lexer}
    (ht : l.foldlM step s = some t) (hsize : t.size = s.size + l.length) :
    ∀ c ∈ l, isPlain c = true := by
  induction l generalizing s with
  | nil => simp
  | cons c l ih =>
    obtain ⟨u, hu, hrest⟩ := foldlM_cons_eq_some ht
    have hle := size_foldlM_le hrest
    have hcase : stepPlain s c = some u := by simpa [step, hm] using hu
    rw [List.length_cons] at hsize
    rcases stepPlain_cases hm hcase with ⟨heq, hmode⟩ | ⟨hc, rfl⟩
    · rw [pending_of_ne hmode] at hle
      omega
    · have hsize' : t.size = (s.push c).size + l.length := by
        rw [size_push]
        omega
      intro d hd
      rcases List.mem_cons.mp hd with rfl | hd
      · exact hc
      · exact ih (s := s.push c) hm hrest hsize' d hd

/-- Plain text goes into the word as it is. -/
theorem foldlM_plain (hm : s.mode = .plain) (hw : s.word = some w) {l : List UInt8}
    (hl : ∀ c ∈ l, isPlain c = true) :
    l.foldlM step s = some { s with word := some (w ++ l) } := by
  induction l generalizing s w with
  | nil => simp [← hw]
  | cons c l ih =>
    have hc := hl c List.mem_cons_self
    simp only [isPlain, Bool.not_eq_true', Bool.or_eq_false_iff, decide_eq_false_iff_not] at hc
    have hstep : step s c = some (s.push c) := by
      simp [step, hm, stepPlain, hc, hw]
    rw [List.foldlM_cons, hstep]
    have hnext := ih (s := s.push c) (w := w ++ [c]) hm (by simp [Lexer.push, hw])
      (fun d hd => hl d (List.mem_cons_of_mem _ hd))
    simpa [Lexer.push] using hnext

/-- **Text after an unquoted word is read as itself exactly when it is plain.** -/
theorem lexFrom_plain_iff (hm : s.mode = .plain) (hw : s.word = some w) (l : List UInt8) :
    lexFrom s l = some (s.words ++ [w ++ l]) ↔ ∀ c ∈ l, isPlain c = true := by
  constructor
  · intro h
    obtain ⟨t, ht, hsize, -⟩ := lexFrom_length_le hm hw h
    exact plain_of_size hm ht hsize
  · intro hl
    rw [lexFrom, foldlM_plain hm hw hl]
    simp [Lexer.finish, hm]

/-- Text up to the closing quote goes into the word as it is. -/
theorem foldlM_single (hm : s.mode = .single) (hw : s.word = some w) {l : List UInt8}
    (hl : quote ∉ l) :
    (l ++ [quote]).foldlM step s = some { s with mode := .plain, word := some (w ++ l) } := by
  induction l generalizing s w with
  | nil => simp [step, hm, ← hw]
  | cons c l ih =>
    obtain ⟨hc, hrest⟩ := not_or.mp (List.mem_cons.not.mp hl)
    have hstep : step s c = some (s.push c) := by simp [step, hm, Ne.symm hc]
    rw [List.cons_append, List.foldlM_cons, hstep]
    have hnext := ih (s := s.push c) (w := w ++ [c]) hm (by simp [Lexer.push, hw]) hrest
    simpa [Lexer.push] using hnext

/-- If all but the last byte are kept, the first quote is the last byte. -/
theorem quote_not_mem_of_size (hm : s.mode = .single) {l : List UInt8} {t : Lexer}
    (ht : (l ++ [quote]).foldlM step s = some t) (hsize : t.size = s.size + l.length) :
    quote ∉ l := by
  induction l generalizing s with
  | nil => simp
  | cons c l ih =>
    rw [List.cons_append] at ht
    obtain ⟨u, hu, hrest⟩ := foldlM_cons_eq_some ht
    rw [List.length_cons] at hsize
    by_cases hc : c = quote
    · -- the rest, closing quote included, would have to be plain
      have hclose : u = { s with mode := .plain } := by
        have : step s c = some { s with mode := .plain } := by simp [step, hm, hc]
        exact Option.some.inj (hu.symm.trans this)
      subst hclose
      have hsame := size_mode s .plain
      have hplain := plain_of_size (s := { s with mode := .plain }) rfl hrest
        (by rw [List.length_append, List.length_singleton]; omega)
      exact absurd (hplain quote (by simp)) (by decide)
    · have hpush : u = s.push c := by
        have : step s c = some (s.push c) := by simp [step, hm, hc]
        exact Option.some.inj (hu.symm.trans this)
      subst hpush
      have hrest' := ih (s := s.push c) hm hrest (by rw [size_push]; omega)
      simp only [List.mem_cons, not_or]
      exact ⟨Ne.symm hc, hrest'⟩

/-- **Quoted text after an unquoted word is read as a text of its length exactly
when it has no quote in it**, and then it is read as itself. -/
theorem lexFrom_quoted_iff (hm : s.mode = .plain) (hw : s.word = some w) (l v : List UInt8)
    (hlen : v.length = l.length) :
    lexFrom s (quote :: (l ++ [quote])) = some (s.words ++ [w ++ v]) ↔ quote ∉ l ∧ v = l := by
  have hopen : step s quote = some (s.startQuote .single) := by
    simp [step, hm, stepPlain, quote, isBlank, newline, isOperator, isExpansion]
  have hread : quote ∉ l → lexFrom s (quote :: (l ++ [quote])) = some (s.words ++ [w ++ l]) := by
    intro hl
    rw [lexFrom_cons hopen, lexFrom,
      foldlM_single (s := s.startQuote .single) (w := w) rfl (by simp [Lexer.startQuote, hw]) hl]
    simp [Lexer.finish, Lexer.startQuote]
  constructor
  · intro h
    have hq : quote ∉ l := by
      obtain ⟨t, ht, hsize, -⟩ := lexFrom_length_le hm hw h
      rw [List.foldlM_cons, hopen] at ht
      refine quote_not_mem_of_size (s := s.startQuote .single) rfl ht ?_
      rw [size_startQuote, hsize, hlen]
    refine ⟨hq, ?_⟩
    have heq := (hread hq).symm.trans h
    simpa using heq.symm
  · rintro ⟨hq, rfl⟩
    exact hread hq

/-- Text that begins with a quote is read as something shorter. -/
theorem length_lt_of_quote (hm : s.mode = .plain) (hw : s.word = some w) {l v : List UInt8}
    (h : lexFrom s (quote :: l) = some (s.words ++ [w ++ v])) : v.length ≤ l.length := by
  obtain ⟨t, ht, hsize, -⟩ := lexFrom_length_le hm hw h
  have hopen : step s quote = some (s.startQuote .single) := by
    simp [step, hm, stepPlain, quote, isBlank, newline, isOperator, isExpansion]
  rw [List.foldlM_cons, hopen] at ht
  have hle := size_foldlM_le (s := s.startQuote .single) ht
  have hmode : (s.startQuote .single).mode ≠ .doubleEscape := by simp [Lexer.startQuote]
  rw [size_startQuote, pending_of_ne hmode] at hle
  omega

end Reading

end ShellWords
