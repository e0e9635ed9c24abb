import Mathlib.Algebra.Group.Int.Defs
import Mathlib.Data.List.TakeWhile

/-! # C strings

Bytes of memory read as C strings: the text up to the first NUL, what `strncpy`
leaves in a fixed array, and the tokens `strtok` finds.  `strtok` with one
delimiter returns the non-empty pieces between delimiters, so its tokens are
those of `List.splitOn` that are not empty.

`tokens_append_cons` says how a text cut off in the middle of a token relates to
the whole: the tokens before the cut are the same, and the last one is the
beginning of the token it was cut from.
-/
namespace CStrings

/-- The bytes of a string literal. -/
def lit (s : String) : List UInt8 := s.toList.map fun c => UInt8.ofNat c.toNat

/-- The C string at the start of a piece of memory. -/
def text (mem : List UInt8) : List UInt8 := mem.takeWhile (· ≠ 0)

/-- The C string in an array, if it ends inside the array. -/
def field? (arr : List UInt8) : Option (List UInt8) := if 0 ∈ arr then some (text arr) else none

/-- `strncpy(dst, s, n)`: at most `n` bytes of `s`, filled up with NULs. -/
def strncpy (n : Nat) (s : List UInt8) : List UInt8 := (s ++ List.replicate n 0).take n

/-- The tokens that `strtok` finds one after the other, with the delimiter `d`. -/
def tokens (d : UInt8) (s : List UInt8) : List (List UInt8) := (s.splitOn d).filter (· ≠ [])

/-- The value of a run of decimal digits. -/
def decimal (digits : List UInt8) : Nat := digits.foldl (fun n c => 10 * n + (c.toNat - 0x30)) 0

/-- The digits of a number, as `%lu` prints them. -/
def decimalText (n : Nat) : List UInt8 := (Nat.toDigits 10 n).map fun c => UInt8.ofNat c.toNat

/-- A statement about the characters of a text is decided along the text. -/
abbrev decidableForallMem (p : UInt8 → Prop) [DecidablePred p] (s : List UInt8) :
    Decidable (∀ c ∈ s, p c) := List.decidableBAll p s

/-- `atoi`, as `strtol` with a 32-bit `long`: blanks, a sign, digits, and the
value brought into range. -/
def atoi (s : List UInt8) : Int :=
  let s := s.dropWhile fun c => c = 0x20 || (0x09 ≤ c && c ≤ 0x0d)
  let digits := fun t : List UInt8 => decimal (t.takeWhile fun c => 0x30 ≤ c && c ≤ 0x39)
  let value : Int := match s with
    | 0x2d :: t => -(digits t)
    | 0x2b :: t => digits t
    | t => digits t
  max (-2 ^ 31) (min value (2 ^ 31 - 1))

/-- `while (fgets(output, n + 1, stream))`: what is in the buffer each time.  `acc` is
what has been read of the next piece; a piece ends with the line, or when it has
`n` bytes. -/
def pieces (n : Nat) : (acc : List UInt8) → List UInt8 → List (List UInt8)
  | acc, [] => if acc = [] then [] else [acc]
  | acc, c :: s =>
    if c = 0x0a ∨ acc.length + 1 = n then (acc ++ [c]) :: pieces n [] s else pieces n (acc ++ [c]) s

/-- The value of a hexadecimal digit. -/
def hexDigit? (c : UInt8) : Option Nat :=
  if 0x30 ≤ c ∧ c ≤ 0x39 then some (c.toNat - 0x30)
  else if 0x41 ≤ c ∧ c ≤ 0x46 then some (c.toNat - 0x41 + 10)
  else if 0x61 ≤ c ∧ c ≤ 0x66 then some (c.toNat - 0x61 + 10)
  else none

/-- `strtoul(s, &next, 16)` with a 32-bit `long`: the value and the text from
`next` on, or nothing if there are no digits or the value does not fit. -/
def strtoul16 (s : List UInt8) : Option (Nat × List UInt8) :=
  let s := s.dropWhile fun c => c = 0x20 || (0x09 ≤ c && c ≤ 0x0d)
  let (negative, s) := match s with
    | 0x2d :: t => (true, t)
    | 0x2b :: t => (false, t)
    | t => (false, t)
  let s := match s with
    | 0x30 :: x :: d :: t =>
      if (x = 0x78 ∨ x = 0x58) ∧ (hexDigit? d).isSome then d :: t else 0x30 :: x :: d :: t
    | t => t
  let digits := s.takeWhile fun c => (hexDigit? c).isSome
  let value := (digits.filterMap hexDigit?).foldl (fun n d => 16 * n + d) 0
  if digits = [] ∨ 0x100000000 ≤ value then none
  else some (if negative then (0x100000000 - value) % 0x100000000 else value,
    s.dropWhile fun c => (hexDigit? c).isSome)

/-- `strtol(s, NULL, 16)` with a 32-bit `long`. -/
def strtol16 (s : List UInt8) : Int :=
  let s := s.dropWhile fun c => c = 0x20 || (0x09 ≤ c && c ≤ 0x0d)
  let (negative, s) := match s with
    | 0x2d :: t => (true, t)
    | 0x2b :: t => (false, t)
    | t => (false, t)
  let s := match s with
    | 0x30 :: x :: d :: t =>
      if (x = 0x78 ∨ x = 0x58) ∧ (hexDigit? d).isSome then d :: t else 0x30 :: x :: d :: t
    | t => t
  let value : Nat := ((s.takeWhile fun c => (hexDigit? c).isSome).filterMap hexDigit?).foldl
    (fun n d => 16 * n + d) 0
  max (-2 ^ 31) (min (if negative then -(value : Int) else value) (2 ^ 31 - 1))

/-- `strtoul(s, NULL, 0)` with a 32-bit `long`: the base is read off the digits,
a value that does not fit is `ULONG_MAX`, and a minus sign negates. -/
def strtoul (s : List UInt8) : Nat :=
  let s := s.dropWhile fun c => c = 0x20 || (0x09 ≤ c && c ≤ 0x0d)
  let (negative, s) := match s with
    | 0x2d :: t => (true, t)
    | 0x2b :: t => (false, t)
    | t => (false, t)
  let (base, s) := match s with
    | 0x30 :: x :: d :: t =>
      if (x = 0x78 ∨ x = 0x58) ∧ (hexDigit? d).isSome then (16, d :: t)
      else (8, 0x30 :: x :: d :: t)
    | 0x30 :: t => (8, 0x30 :: t)
    | t => (10, t)
  let digit? := fun c => (hexDigit? c).filter (· < base)
  let value := (((s.takeWhile fun c => (digit? c).isSome).filterMap digit?).foldl
    (fun n d => base * n + d) 0)
  if 0x100000000 ≤ value then 0xffffffff
  else if negative then (0x100000000 - value) % 0x100000000 else value

theorem text_of_not_mem {s : List UInt8} (h : 0 ∉ s) : text s = s := by
  refine List.takeWhile_eq_self_iff.mpr fun c hc => ?_
  simp only [ne_eq, decide_not, Bool.not_eq_eq_eq_not, Bool.not_true, decide_eq_false_iff_not]
  rintro rfl
  exact h hc

theorem zero_not_mem_text (mem : List UInt8) : 0 ∉ text mem := by
  intro h
  have := List.mem_takeWhile_imp h
  simp at this

/-- A text and what follows it in memory: nothing, or a NUL. -/
theorem text_append_rest (mem : List UInt8) :
    text mem = mem ∨ ∃ rest, mem = text mem ++ 0 :: rest := by
  by_cases h : 0 ∈ mem
  · right
    have hsplit := List.takeWhile_append_dropWhile (p := fun c : UInt8 => decide (c ≠ 0)) (l := mem)
    have hne : mem.dropWhile (fun c : UInt8 => decide (c ≠ 0)) ≠ [] := by
      intro hnil
      rw [hnil, List.append_nil] at hsplit
      exact zero_not_mem_text mem (by rw [text, hsplit]; exact h)
    obtain ⟨c, rest, hcons⟩ := List.exists_cons_of_ne_nil hne
    have hc := List.head_dropWhile_not (fun c : UInt8 => decide (c ≠ 0)) hne
    simp only [hcons, List.head_cons] at hc
    have hc0 : c = 0 := by simpa using hc
    rw [hc0] at hcons
    exact ⟨rest, by rw [text, ← hcons, hsplit]⟩
  · exact Or.inl (text_of_not_mem h)

/-- What `strncpy` leaves is the string itself, if there is room for its NUL. -/
theorem field?_strncpy {s : List UInt8} (h : 0 ∉ s) (n : Nat) :
    field? (strncpy n s) = if s.length < n then some s else none := by
  unfold field? strncpy
  by_cases hlt : s.length < n
  · have htake : (s ++ List.replicate n (0 : UInt8)).take n =
        s ++ 0 :: List.replicate (n - s.length - 1) 0 := by
      rw [List.take_append, List.take_of_length_le (by omega), List.take_replicate]
      congr 1
      obtain ⟨k, hk⟩ : ∃ k, n - s.length = k + 1 := ⟨n - s.length - 1, by omega⟩
      rw [show min (n - s.length) n = k + 1 by omega, List.replicate_succ, hk, Nat.add_sub_cancel]
    have htext : text (s ++ 0 :: List.replicate (n - s.length - 1) 0) = s := by
      have := text_of_not_mem h
      unfold text at this ⊢
      rw [List.takeWhile_append, this]
      simp
    rw [htake, if_pos (by simp), htext, if_pos hlt]
  · have htake : (s ++ List.replicate n (0 : UInt8)).take n = s.take n := by
      rw [List.take_append, Nat.sub_eq_zero_of_le (by omega), List.take_zero, List.append_nil]
    rw [htake, if_neg hlt, if_neg fun hm => h (List.mem_of_mem_take hm)]

/-! ## Tokens -/

/-- No piece contains the delimiter. -/
theorem not_mem_of_mem_splitOn {d : UInt8} {s t : List UInt8} (h : t ∈ s.splitOn d) : d ∉ t := by
  induction s generalizing t with
  | nil =>
    simp only [List.splitOn_nil, List.mem_singleton] at h
    simp [h]
  | cons c s ih =>
    rw [List.splitOn_cons_eq_if_modifyHead] at h
    split at h
    · rcases List.mem_cons.mp h with rfl | h
      · simp
      · exact ih h
    · rename_i hc
      obtain ⟨p, ps, hps⟩ := List.exists_cons_of_ne_nil (List.splitOn_ne_nil d s)
      rw [hps, List.modifyHead_cons] at h
      rcases List.mem_cons.mp h with rfl | h
      · have hp := ih (t := p) (by rw [hps]; exact List.mem_cons_self)
        simp only [List.mem_cons, not_or]
        exact ⟨fun hd => hc (by simp [hd]), hp⟩
      · exact ih (by rw [hps]; exact List.mem_cons_of_mem _ h)

theorem ne_nil_of_mem_tokens {d : UInt8} {s t : List UInt8} (h : t ∈ tokens d s) : t ≠ [] := by
  simpa using (List.mem_filter.mp h).2

theorem not_mem_of_mem_tokens {d : UInt8} {s t : List UInt8} (h : t ∈ tokens d s) : d ∉ t :=
  not_mem_of_mem_splitOn (List.mem_filter.mp h).1

/-- The bytes of a token are bytes of the text. -/
theorem mem_of_mem_tokens {d c : UInt8} {s t : List UInt8} (h : t ∈ tokens d s) (hc : c ∈ t) :
    c ∈ s := by
  have hs : [d].intercalate (s.splitOn d) = s := List.intercalate_splitOn d
  rw [← hs]
  have hmem := (List.mem_filter.mp h).1
  generalize s.splitOn d = ps at hmem
  clear hs h
  induction ps with
  | nil => cases hmem
  | cons p ps ih =>
    cases ps with
    | nil =>
      rw [List.mem_singleton] at hmem
      subst hmem
      simpa using hc
    | cons q qs =>
      rw [List.intercalate_cons_cons, List.mem_append, List.mem_append]
      rcases List.mem_cons.mp hmem with rfl | hmem
      · exact Or.inl (Or.inl hc)
      · exact Or.inr (ih hmem)

theorem length_le_of_mem_tokens {d : UInt8} {s t : List UInt8} (h : t ∈ tokens d s) :
    t.length ≤ s.length := by
  have hsplit : ∀ (s t : List UInt8), t ∈ s.splitOn d → t.length ≤ s.length := by
    intro s
    induction s with
    | nil => simp
    | cons c s ih =>
      intro t ht
      rw [List.splitOn_cons_eq_if_modifyHead] at ht
      obtain ⟨p, ps, hps⟩ := List.exists_cons_of_ne_nil (List.splitOn_ne_nil d s)
      rw [hps] at ih ht
      have hp := ih p List.mem_cons_self
      rw [List.length_cons]
      split at ht
      · rcases List.mem_cons.mp ht with rfl | ht
        · exact Nat.zero_le _
        · exact (ih t ht).trans (Nat.le_succ _)
      · rcases List.mem_cons.mp ht with rfl | ht
        · rw [List.length_cons]
          omega
        · exact (ih t (List.mem_cons_of_mem _ ht)).trans (Nat.le_succ _)
  exact hsplit s t (List.mem_filter.mp h).1

theorem zero_not_mem_of_mem_tokens {d : UInt8} {mem t : List UInt8}
    (h : t ∈ tokens d (text mem)) : 0 ∉ t :=
  fun h0 => zero_not_mem_text mem (mem_of_mem_tokens h h0)

/-- Two tokens with one delimiter between them. -/
theorem tokens_pair {d : UInt8} {a b : List UInt8} (ha : d ∉ a) (hb : d ∉ b) (hane : a ≠ [])
    (hbne : b ≠ []) : tokens d (a ++ d :: b) = [a, b] := by
  rw [tokens, List.splitOn_append_cons_self_of_not_mem ha, List.splitOn_eq_singleton hb]
  simp [hane, hbne]

/-- Splitting a concatenation: only the piece at the seam is put together. -/
theorem splitOn_append (d : UInt8) (s r : List UInt8) :
    ∃ ps last, s.splitOn d = ps ++ [last] ∧
      (s ++ r).splitOn d = ps ++ (r.splitOn d).modifyHead (last ++ ·) := by
  induction s with
  | nil =>
    refine ⟨[], [], by simp, ?_⟩
    obtain ⟨p, ps, hps⟩ := List.exists_cons_of_ne_nil (List.splitOn_ne_nil d r)
    simp [hps]
  | cons c s ih =>
    obtain ⟨ps, last, hs, hsr⟩ := ih
    rw [List.cons_append, List.splitOn_cons_eq_if_modifyHead, List.splitOn_cons_eq_if_modifyHead,
      hs, hsr]
    split
    · exact ⟨[] :: ps, last, by simp, by simp⟩
    · cases ps with
      | nil =>
        refine ⟨[], c :: last, by simp, ?_⟩
        obtain ⟨p, qs, hr⟩ := List.exists_cons_of_ne_nil (List.splitOn_ne_nil d r)
        simp [hr]
      | cons p ps => exact ⟨(c :: p) :: ps, last, by simp, by simp⟩

/-- **Cutting a text inside a token.**  The tokens before the cut are kept; the
one that is cut, if anything of it is left, is kept in part. -/
theorem tokens_append_cons (d : UInt8) (s r : List UInt8) {c : UInt8} (hc : c ≠ d) :
    ∃ kept last p more, tokens d s = kept ++ (if last = [] then [] else [last]) ∧
      tokens d (s ++ c :: r) = kept ++ (last ++ c :: p) :: more := by
  obtain ⟨ps, last, hs, hsr⟩ := splitOn_append d s (c :: r)
  rw [List.splitOn_cons_eq_if_modifyHead, if_neg (by simpa using hc)] at hsr
  obtain ⟨p, qs, hr⟩ := List.exists_cons_of_ne_nil (List.splitOn_ne_nil d r)
  rw [hr, List.modifyHead_cons, List.modifyHead_cons] at hsr
  refine ⟨ps.filter (· ≠ []), last, p, qs.filter (· ≠ []), ?_, ?_⟩
  · rw [tokens, hs, List.filter_append]
    by_cases hl : last = [] <;> simp [hl]
  · rw [tokens, hsr, List.filter_append, List.filter_cons, if_pos (by simp)]

/-- The tokens before a delimiter and those after it. -/
theorem tokens_append_delim (d : UInt8) (a b : List UInt8) :
    tokens d (a ++ d :: b) = tokens d a ++ tokens d b := by
  obtain ⟨ps, last, ha, hab⟩ := splitOn_append d a (d :: b)
  rw [List.splitOn_cons_eq_if_modifyHead, if_pos (by simp), List.modifyHead_cons,
    List.append_nil] at hab
  rw [tokens, tokens, tokens, ha, hab, ← List.filter_append, List.append_assoc]
  rfl

/-- The text is one token. -/
theorem tokens_of_not_mem {d : UInt8} {a : List UInt8} (ha : d ∉ a) (hane : a ≠ []) :
    tokens d a = [a] := by
  rw [tokens, List.splitOn_eq_singleton ha]
  simpa using hane

/-- A text that begins inside a token: the other tokens are from what follows. -/
theorem tokens_append_of_not_mem {d : UInt8} {a : List UInt8} (ha : d ∉ a) (hane : a ≠ [])
    (b : List UInt8) :
    ∃ p ts, tokens d (a ++ b) = (a ++ p) :: ts ∧ ∀ t ∈ ts, t ∈ tokens d b := by
  obtain ⟨ps, last, hs, hsr⟩ := splitOn_append d a b
  rw [List.splitOn_eq_singleton ha] at hs
  obtain ⟨rfl, rfl⟩ : ps = [] ∧ last = a := by
    cases ps with
    | nil => exact ⟨rfl, by simpa using hs.symm⟩
    | cons p ps => simp at hs
  obtain ⟨p, qs, hb⟩ := List.exists_cons_of_ne_nil (List.splitOn_ne_nil d b)
  rw [hb, List.modifyHead_cons, List.nil_append] at hsr
  refine ⟨p, qs.filter (· ≠ []), ?_, fun t ht => ?_⟩
  · rw [tokens, hsr, List.filter_cons, if_pos (by simp [hane])]
  · obtain ⟨hmem, hne⟩ := List.mem_filter.mp ht
    rw [tokens, hb]
    exact List.mem_filter.mpr ⟨List.mem_cons_of_mem _ hmem, hne⟩

/-- Tokens with one delimiter between any two. -/
theorem tokens_intercalate {d : UInt8} {ts : List (List UInt8)} (hd : ∀ t ∈ ts, d ∉ t)
    (hne : ∀ t ∈ ts, t ≠ []) : tokens d ([d].intercalate ts) = ts := by
  cases ts with
  | nil => simp [tokens]
  | cons t ts =>
    rw [tokens, List.splitOn_intercalate d hd (List.cons_ne_nil t ts)]
    exact List.filter_eq_self.mpr fun u hu => by simpa using hne u hu

/-- A text that does not begin with a delimiter: the first token is what is before
the first delimiter. -/
theorem tokens_head {d c : UInt8} (hc : c ≠ d) (s : List UInt8) :
    (tokens d (c :: s)).head? = some ((c :: s).takeWhile (· ≠ d)) := by
  have hne : (c :: s).takeWhile (· ≠ d) ≠ [] := by simp [hc]
  have hnot : d ∉ (c :: s).takeWhile (· ≠ d) := by
    intro hmem
    simpa using List.mem_takeWhile_imp hmem
  have hsplit := List.takeWhile_append_dropWhile (p := fun x => decide (x ≠ d)) (l := c :: s)
  have hrest := List.head?_dropWhile_not (fun x => decide (x ≠ d)) (c :: s)
  generalize (c :: s).takeWhile (· ≠ d) = a at *
  rw [← hsplit]
  cases hdrop : (c :: s).dropWhile (· ≠ d) with
  | nil => rw [List.append_nil, tokens_of_not_mem hnot hne, List.head?_cons]
  | cons e rest =>
    rw [hdrop] at hrest
    obtain rfl : e = d := by simpa using hrest
    rw [tokens_append_delim, tokens_of_not_mem hnot hne, List.singleton_append, List.head?_cons]

theorem length_tokens_le (d : UInt8) (s : List UInt8) : (tokens d s).length ≤ s.length + 1 := by
  refine (List.length_filter_le _ _).trans ?_
  induction s with
  | nil => simp
  | cons c s ih =>
    rw [List.splitOn_cons_eq_if_modifyHead]
    split
    · rw [List.length_cons, List.length_cons]
      omega
    · rw [List.length_modifyHead, List.length_cons]
      omega

/-! ## Lines -/

/-- A line ends a piece. -/
theorem pieces_append_newline (n : Nat) (acc s rest : List UInt8) :
    pieces n acc (s ++ 0x0a :: rest) = pieces n acc (s ++ [0x0a]) ++ pieces n [] rest := by
  induction s generalizing acc with
  | nil => simp [pieces]
  | cons c s ih =>
    rw [List.cons_append, List.cons_append, pieces, pieces]
    split
    · rw [ih, List.cons_append]
    · exact ih _

/-- The pieces of a text are those of its lines. -/
theorem pieces_flatMap {α : Type} (n : Nat) (line : α → List UInt8) (xs : List α) :
    pieces n [] (xs.flatMap fun x => line x ++ [0x0a]) =
      xs.flatMap fun x => pieces n [] (line x ++ [0x0a]) := by
  induction xs with
  | nil => rfl
  | cons x xs ih =>
    rw [List.flatMap_cons, List.append_assoc, List.singleton_append, pieces_append_newline, ih,
      List.flatMap_cons]

/-- A text without the end of a line is collected as long as there is room. -/
theorem pieces_append {n : Nat} {acc a : List UInt8} (ha : 0x0a ∉ a)
    (hlen : acc.length + a.length < n) (s : List UInt8) :
    pieces n acc (a ++ s) = pieces n (acc ++ a) s := by
  induction a generalizing acc with
  | nil => simp
  | cons c a ih =>
    rw [List.mem_cons, not_or] at ha
    rw [List.length_cons] at hlen
    rw [List.cons_append, pieces, if_neg]
    · rw [ih ha.2 (by rw [List.length_append, List.length_singleton]; omega), List.append_assoc]
      rfl
    · rintro (hc | hfull)
      · exact ha.1 hc.symm
      · omega

/-- A short line is one piece. -/
theorem pieces_line {n : Nat} {a : List UInt8} (ha : 0x0a ∉ a) (hlen : a.length < n) :
    pieces n [] (a ++ [0x0a]) = [a ++ [0x0a]] := by
  rw [pieces_append ha (by simpa using hlen), List.nil_append, pieces, if_pos (.inl rfl), pieces]
  simp

/-- A full buffer is a piece. -/
theorem pieces_full {n : Nat} {a : List UInt8} (ha : 0x0a ∉ a) (hn : 0 < n) (hlen : a.length = n)
    (s : List UInt8) : pieces n [] (a ++ s) = a :: pieces n [] s := by
  obtain ⟨b, c, rfl⟩ : ∃ b c, a = b ++ [c] := by
    refine ⟨_, _, (List.dropLast_concat_getLast (l := a) ?_).symm⟩
    rintro rfl
    simp at hlen
    omega
  rw [List.length_append, List.length_singleton] at hlen
  have hb : 0x0a ∉ b := fun h => ha (List.mem_append_left _ h)
  rw [List.append_assoc, pieces_append hb (by simp; omega), List.nil_append, List.singleton_append,
    pieces, if_pos (.inr hlen)]

/-- The pieces are parts of the text. -/
theorem infix_of_mem_pieces {n : Nat} {acc s p : List UInt8} (h : p ∈ pieces n acc s) :
    p <:+: acc ++ s := by
  induction s generalizing acc with
  | nil =>
    rw [pieces] at h
    split at h
    · cases h
    · rw [List.mem_singleton.mp h]
      exact List.infix_append_left
  | cons c s ih =>
    rw [pieces] at h
    have hsplit : acc ++ c :: s = acc ++ [c] ++ s := by simp
    split at h
    · rcases List.mem_cons.mp h with rfl | h
      · rw [hsplit]
        exact List.infix_append_left
      · have hin := ih h
        rw [List.nil_append] at hin
        rw [hsplit]
        exact hin.trans List.infix_append_right
    · rw [hsplit]
      exact ih h

theorem length_le_of_mem_pieces {n : Nat} {acc s p : List UInt8} (hacc : acc.length < n)
    (h : p ∈ pieces n acc s) : p.length ≤ n := by
  induction s generalizing acc with
  | nil =>
    rw [pieces] at h
    split at h
    · cases h
    · rw [List.mem_singleton.mp h]
      exact hacc.le
  | cons c s ih =>
    rw [pieces] at h
    split at h
    · rcases List.mem_cons.mp h with rfl | h
      · rw [List.length_append, List.length_singleton]
        omega
      · exact ih (show [].length < n from Nat.zero_lt_of_lt hacc) h
    · rename_i hroom
      refine ih ?_ h
      rw [List.length_append, List.length_singleton]
      omega

/-! ## Parts of a text -/

/-- A word that does not end in `b`. -/
theorem infix_of_append_left {w a b : List UInt8} {c : UInt8} (hc : c ∉ b)
    (h : w ++ [c] <:+: a ++ b) : w ++ [c] <:+: a := by
  rcases List.infix_append_iff.mp h with h | h | ⟨l₁, l₂, heq, h₁, h₂⟩
  · exact h
  · exact absurd (h.mem (by simp)) hc
  · rcases List.eq_nil_or_concat l₂ with rfl | ⟨l, e, rfl⟩
    · rw [heq, List.append_nil]
      exact h₁.isInfix
    · rw [List.concat_eq_append, ← List.append_assoc] at heq
      have he := (List.append_inj' heq rfl).2
      rw [List.singleton_inj] at he
      exact absurd (h₂.mem (by simp [he])) hc

/-- A word without the byte between two texts is in one of them. -/
theorem infix_append_cons {w a b : List UInt8} {c : UInt8} (hc : c ∉ w)
    (h : w <:+: a ++ c :: b) : w <:+: a ∨ w <:+: b := by
  rcases List.infix_append_iff.mp h with h | h | ⟨l₁, l₂, rfl, h₁, h₂⟩
  · exact .inl h
  · rcases List.infix_cons_iff.mp h with h | h
    · cases w with
      | nil => exact .inl (List.nil_infix)
      | cons e w =>
        obtain ⟨t, ht⟩ := h
        rw [List.cons_append, List.cons.injEq] at ht
        exact absurd (by simp [ht.1]) hc
    · exact .inr h
  · cases l₂ with
    | nil =>
      rw [List.append_nil]
      exact .inl h₁.isInfix
    | cons e l =>
      obtain ⟨t, ht⟩ := h₂
      rw [List.cons_append, List.cons.injEq] at ht
      exact absurd (by simp [ht.1]) hc

/-! ## Hexadecimal numbers -/

/-- The white space `strtoul` skips. -/
def isBlank (c : UInt8) : Bool := c = 0x20 || (0x09 ≤ c && c ≤ 0x0d)

def isHex (c : UInt8) : Bool := (hexDigit? c).isSome

/-- The value of a run of hexadecimal digits. -/
def hexValue (digits : List UInt8) : Nat :=
  (digits.filterMap hexDigit?).foldl (fun n d => 16 * n + d) 0

/-- Whether a text begins with a minus sign, and what comes after the sign. -/
def signOf : List UInt8 → Bool × List UInt8
  | 0x2d :: t => (true, t)
  | 0x2b :: t => (false, t)
  | t => (false, t)

/-- A text without the `0x` before its digits. -/
def dropHexPrefix : List UInt8 → List UInt8
  | 0x30 :: x :: d :: t =>
    if (x = 0x78 ∨ x = 0x58) ∧ isHex d then d :: t else 0x30 :: x :: d :: t
  | t => t

theorem strtoul16_eq (s : List UInt8) : strtoul16 s =
    let (negative, u) := signOf (s.dropWhile isBlank)
    let digits := (dropHexPrefix u).takeWhile isHex
    if digits = [] ∨ 0x100000000 ≤ hexValue digits then none
    else some (if negative then (0x100000000 - hexValue digits) % 0x100000000 else hexValue digits,
      (dropHexPrefix u).dropWhile isHex) :=
  rfl

/-- A text of hexadecimal digits, with or without `0x`. -/
structure HexNumber (w : List UInt8) (value : Nat) : Prop where
  eq_append : ∃ pre digits, w = pre ++ digits ∧
    (pre = [] ∨ pre = [0x30, 0x78] ∨ pre = [0x30, 0x58]) ∧ digits ≠ [] ∧
    (∀ c ∈ digits, isHex c = true) ∧ value = hexValue digits

theorem hex_ne {c : UInt8} (h : isHex c = true) :
    isBlank c = false ∧ c ≠ 0x2d ∧ c ≠ 0x2b ∧ c ≠ 0x78 ∧ c ≠ 0x58 := by
  have key : ∀ n < 256, isHex (UInt8.ofNat n) = true → isBlank (UInt8.ofNat n) = false ∧
      UInt8.ofNat n ≠ 0x2d ∧ UInt8.ofNat n ≠ 0x2b ∧ UInt8.ofNat n ≠ 0x78 ∧
      UInt8.ofNat n ≠ 0x58 := by
    decide +kernel
  have hc := key c.toNat c.toNat_lt
  rw [UInt8.ofNat_toNat] at hc
  exact hc h

theorem signOf_eq_append (t : List UInt8) :
    ∃ sign, t = sign ++ (signOf t).2 ∧ (sign = [] ∧ (signOf t).1 = false ∨ sign = [0x2d] ∨
      sign = [0x2b]) := by
  unfold signOf
  split
  · exact ⟨[0x2d], rfl, .inr (.inl rfl)⟩
  · exact ⟨[0x2b], rfl, .inr (.inr rfl)⟩
  · exact ⟨[], rfl, .inl ⟨rfl, rfl⟩⟩

theorem dropHexPrefix_eq_append (u : List UInt8) :
    ∃ pre, u = pre ++ dropHexPrefix u ∧ (pre = [] ∨ pre = [0x30, 0x78] ∨ pre = [0x30, 0x58]) := by
  unfold dropHexPrefix
  split
  · split
    · rename_i x d t h
      rcases h.1 with rfl | rfl
      · exact ⟨[0x30, 0x78], rfl, .inr (.inl rfl)⟩
      · exact ⟨[0x30, 0x58], rfl, .inr (.inr rfl)⟩
    · exact ⟨[], rfl, .inl rfl⟩
  · exact ⟨[], rfl, .inl rfl⟩

/-- **What `strtoul` has read**: white space, a sign and a number, and no digit is
left behind it. -/
theorem eq_append_of_strtoul16 {s rest : List UInt8} {v : Nat}
    (h : strtoul16 s = some (v, rest)) :
    ∃ blank sign w value, s = blank ++ (sign ++ (w ++ rest)) ∧ (∀ c ∈ blank, isBlank c = true) ∧
      (sign = [] ∧ v = value ∨ sign = [0x2d] ∨ sign = [0x2b]) ∧ HexNumber w value ∧
      ∀ c ∈ rest.head?, isHex c = false := by
  rw [strtoul16_eq] at h
  simp only at h
  split at h
  · cases h
  · rename_i hdigits
    rw [Option.some.injEq, Prod.mk.injEq] at h
    obtain ⟨hv, hrest⟩ := h
    obtain ⟨sign, hsign, hsigns⟩ := signOf_eq_append (s.dropWhile isBlank)
    obtain ⟨pre, hpre, hpres⟩ := dropHexPrefix_eq_append (signOf (s.dropWhile isBlank)).2
    have hsplit := List.takeWhile_append_dropWhile (p := isHex)
      (l := dropHexPrefix (signOf (s.dropWhile isBlank)).2)
    have hhead := List.head?_dropWhile_not isHex
      (dropHexPrefix (signOf (s.dropWhile isBlank)).2)
    rw [hrest] at hsplit hhead
    refine ⟨s.takeWhile isBlank, sign,
      pre ++ (dropHexPrefix (signOf (s.dropWhile isBlank)).2).takeWhile isHex, _, ?_,
      fun c hc => List.mem_takeWhile_imp hc, ?_,
      ⟨pre, _, rfl, hpres, fun hnil => hdigits (.inl hnil), fun c hc => List.mem_takeWhile_imp hc,
        rfl⟩, fun c hc => ?_⟩
    · rw [List.append_assoc, hsplit, ← hpre, ← hsign, List.takeWhile_append_dropWhile]
    · rcases hsigns with ⟨hs, hneg⟩ | hs | hs
      · rw [hneg] at hv
        exact .inl ⟨hs, hv.symm⟩
      · exact .inr (.inl hs)
      · exact .inr (.inr hs)
    · rw [Option.mem_def.mp hc] at hhead
      exact hhead

/-- `strtoul` reads a number that white space or the end of the text follows. -/
theorem strtoul16_word {blank w post : List UInt8} {value : Nat}
    (hblank : ∀ c ∈ blank, isBlank c = true) (hw : HexNumber w value) (hvalue : value < 0x100000000)
    (hpost : ∀ c ∈ post.head?, isBlank c = true) :
    strtoul16 (blank ++ (w ++ post)) = some (value, post) := by
  obtain ⟨pre, digits, rfl, hpre, hne, hhex, rfl⟩ := hw.eq_append
  obtain ⟨c, t, rfl⟩ := List.exists_cons_of_ne_nil hne
  have hc := hex_ne (hhex c List.mem_cons_self)
  have hdrop : (blank ++ (pre ++ (c :: t) ++ post)).dropWhile isBlank =
      pre ++ (c :: t) ++ post := by
    rw [List.dropWhile_append_of_pos hblank]
    rcases hpre with rfl | rfl | rfl
    · exact List.dropWhile_cons_of_neg (by simp [hc.1])
    · rfl
    · rfl
  have hsign : signOf (pre ++ (c :: t) ++ post) = (false, pre ++ (c :: t) ++ post) := by
    rcases hpre with rfl | rfl | rfl
    · unfold signOf
      split
      · rename_i heq
        exact absurd (List.cons.inj heq).1 hc.2.1
      · rename_i heq
        exact absurd (List.cons.inj heq).1 hc.2.2.1
      · rfl
    · rfl
    · rfl
  have hbare : dropHexPrefix (pre ++ (c :: t) ++ post) = c :: t ++ post := by
    rcases hpre with rfl | rfl | rfl
    · -- the second byte is another digit, or white space
      unfold dropHexPrefix
      split
      · rename_i x d u heq
        rw [if_neg]
        · exact heq.symm
        · rintro ⟨hx, -⟩
          rw [List.nil_append, List.cons_append, List.cons.injEq] at heq
          cases t with
          | nil =>
            have hblank := hpost x (by rw [show post = x :: d :: u from heq.2]; rfl)
            rcases hx with rfl | rfl <;> cases hblank
          | cons e t =>
            have hex := hex_ne (hhex e (by simp))
            rw [List.cons_append, List.cons.injEq] at heq
            rw [heq.2.1] at hex
            exact hx.elim hex.2.2.2.1 hex.2.2.2.2
      · rfl
    · simp [dropHexPrefix, hhex c List.mem_cons_self]
    · simp [dropHexPrefix, hhex c List.mem_cons_self]
  have hrun : (c :: t ++ post).takeWhile isHex = c :: t ∧
      (c :: t ++ post).dropWhile isHex = post := by
    rw [List.takeWhile_append_of_pos hhex, List.dropWhile_append_of_pos hhex]
    cases post with
    | nil => simp
    | cons e post =>
      have he : isHex e = false := by
        by_contra hex
        have hno := (hex_ne (by simpa using hex)).1
        rw [hpost e rfl] at hno
        cases hno
      simp [he]
  rw [strtoul16_eq, hdrop, hsign]
  simp only [hbare, hrun.1, hrun.2]
  rw [if_neg]
  · rfl
  · rintro (h | h)
    · cases h
    · omega

end CStrings
