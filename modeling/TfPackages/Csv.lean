import Mathlib.Data.List.Basic

/-! # Comma-separated values

A text is a sequence of records, each ended by the end of its line, and a record a
sequence of fields between delimiters.  A field in quotes may hold every character,
with a quote in it doubled; one without quotes holds neither a quote nor a delimiter
nor the end of a line.  The reader goes through the characters with a mode that says
what it is in the middle of.

`read_rows` is the round trip, for rows that mix both kinds of fields.
-/
namespace Csv

/-- What the reader is in the middle of. -/
inductive Mode where
  /-- At the beginning of a field. -/
  | start
  /-- In a field without quotes. -/
  | plain
  /-- Between the quotes of a field. -/
  | quoted
  /-- After a quote that ends the field, or is the first of two. -/
  | closed
deriving DecidableEq, Repr

/-- A field as it is written. -/
inductive Cell (α : Type) where
  | plain (text : List α)
  | quoted (text : List α)
deriving DecidableEq, Repr

/-- What the field says. -/
def Cell.text {α : Type} : Cell α → List α
  | .plain text => text
  | .quoted text => text

/-- What has been read: the records, the fields of the next one, and the field that
the reader is in. -/
structure Reading (α : Type) where
  mode : Mode
  records : List (List (List α))
  fields : List (List α)
  field : List α
deriving DecidableEq, Repr

variable {α : Type} [DecidableEq α] (quote newline delim : α)

/-- One character. -/
def step (r : Reading α) (c : α) : Option (Reading α) :=
  if r.mode = .quoted then
    if c = quote then some { r with mode := .closed } else some { r with field := r.field ++ [c] }
  else if c = delim then some ⟨.start, r.records, r.fields ++ [r.field], []⟩
  else if c = newline then some ⟨.start, r.records ++ [r.fields ++ [r.field]], [], []⟩
  else if c = quote then
    match r.mode with
    | .start => some { r with mode := .quoted }
    | .closed => some { r with mode := .quoted, field := r.field ++ [c] }
    | _ => none
  else if r.mode = .closed then none
  else some { r with mode := .plain, field := r.field ++ [c] }

/-- The end of the text.  The last record may do without the end of its line. -/
def finish (r : Reading α) : Option (List (List (List α))) :=
  match r.mode, r.fields with
  | .quoted, _ => none
  | .start, [] => some r.records
  | _, fields => some (r.records ++ [fields ++ [r.field]])

/-- The records of a text. -/
def read (s : List α) : Option (List (List (List α))) :=
  (s.foldlM (step quote newline delim) ⟨.start, [], [], []⟩).bind finish

/-! ## Writing -/

/-- The text between the quotes of a field. -/
def escape (s : List α) : List α := s.flatMap fun c => if c = quote then [quote, quote] else [c]

def Cell.write : Cell α → List α
  | .plain text => text
  | .quoted text => quote :: (escape quote text ++ [quote])

/-- A field without quotes has nothing in it that needs them. -/
def Cell.Ok : Cell α → Prop
  | .plain text => ∀ c ∈ text, c ≠ quote ∧ c ≠ newline ∧ c ≠ delim
  | .quoted _ => True

/-- The rest of a row, after a field. -/
def writeRest : List (Cell α) → List α
  | [] => [newline]
  | cell :: row => delim :: (cell.write quote ++ writeRest row)

def writeRow : List (Cell α) → List α
  | [] => [newline]
  | cell :: row => cell.write quote ++ writeRest quote newline delim row

/-! ## Reading what has been written -/

/-- The three characters are different. -/
structure Distinct : Prop where
  quote_ne_newline : quote ≠ newline
  quote_ne_delim : quote ≠ delim
  newline_ne_delim : newline ≠ delim

variable {quote newline delim}

/-- Characters that need no quotes. -/
theorem foldlM_plain {s : List α} (hs : ∀ c ∈ s, c ≠ quote ∧ c ≠ newline ∧ c ≠ delim)
    (r : Reading α) (hr : r.mode = .start ∨ r.mode = .plain) :
    ∃ mode, mode ≠ .quoted ∧ s.foldlM (step quote newline delim) r =
      some { r with mode := mode, field := r.field ++ s } := by
  induction s generalizing r with
  | nil =>
    refine ⟨r.mode, ?_, by simp⟩
    rcases hr with hr | hr <;> simp [hr]
  | cons c s ih =>
    obtain ⟨hquote, hnewline, hdelim⟩ := hs c List.mem_cons_self
    have hfirst : step quote newline delim r c =
        some { r with mode := .plain, field := r.field ++ [c] } := by
      rcases hr with hr | hr <;> simp [step, hr, hquote, hnewline, hdelim]
    obtain ⟨mode, hmode, hrest⟩ := ih (fun d h => hs d (List.mem_cons_of_mem _ h))
      { r with mode := .plain, field := r.field ++ [c] } (.inr rfl)
    refine ⟨mode, hmode, ?_⟩
    rw [List.foldlM_cons, hfirst]
    exact hrest.trans (by simp)

variable (hd : Distinct quote newline delim)
include hd

/-- Between quotes. -/
theorem foldlM_escape (s : List α) (r : Reading α) (hr : r.mode = .quoted) :
    (escape quote s).foldlM (step quote newline delim) r =
      some { r with field := r.field ++ s } := by
  induction s generalizing r with
  | nil => simp [escape]
  | cons c s ih =>
    have hfirst : (if c = quote then [quote, quote] else [c]).foldlM
        (step quote newline delim) r = some { r with field := r.field ++ [c] } := by
      split
      · rename_i hc
        -- the first quote might end the field, the second says that it does not
        simp [step, hr, hc, hd.quote_ne_newline, hd.quote_ne_delim]
      · rename_i hc
        simp [step, hr, hc]
    rw [escape, List.flatMap_cons, List.foldlM_append, hfirst]
    show (escape quote s).foldlM _ _ = _
    rw [ih { r with field := r.field ++ [c] } hr, List.append_assoc]
    rfl

/-- A field. -/
theorem foldlM_cell {cell : Cell α} (hok : cell.Ok quote newline delim)
    (records : List (List (List α))) (fields : List (List α)) :
    ∃ mode, mode ≠ .quoted ∧
      (cell.write quote).foldlM (step quote newline delim) ⟨.start, records, fields, []⟩ =
        some ⟨mode, records, fields, cell.text⟩ := by
  cases cell with
  | plain text => exact foldlM_plain hok ⟨.start, records, fields, []⟩ (.inl rfl)
  | quoted text =>
    have hopen : step quote newline delim ⟨.start, records, fields, []⟩ quote =
        some ⟨.quoted, records, fields, []⟩ := by
      simp [step, hd.quote_ne_newline, hd.quote_ne_delim]
    refine ⟨.closed, by simp, ?_⟩
    rw [Cell.write, List.foldlM_cons, hopen]
    show (escape quote text ++ [quote]).foldlM _ _ = _
    rw [List.foldlM_append, foldlM_escape hd text _ rfl]
    simp [step, Cell.text]

/-- The rest of a row. -/
theorem foldlM_writeRest {row : List (Cell α)} (hok : ∀ cell ∈ row, cell.Ok quote newline delim)
    (records : List (List (List α))) (fields : List (List α)) (field : List α) {mode : Mode}
    (hmode : mode ≠ .quoted) :
    (writeRest quote newline delim row).foldlM (step quote newline delim)
        ⟨mode, records, fields, field⟩ =
      some ⟨.start, records ++ [fields ++ field :: row.map Cell.text], [], []⟩ := by
  induction row generalizing fields field mode with
  | nil => simp [writeRest, step, hmode, hd.newline_ne_delim]
  | cons cell row ih =>
    have hdelim : step quote newline delim ⟨mode, records, fields, field⟩ delim =
        some ⟨.start, records, fields ++ [field], []⟩ := by
      simp [step, hmode]
    obtain ⟨mode', hmode', hcell⟩ := foldlM_cell hd (hok cell List.mem_cons_self) records
      (fields ++ [field])
    rw [writeRest, List.foldlM_cons, hdelim]
    show (cell.write quote ++ _).foldlM _ _ = _
    rw [List.foldlM_append, hcell]
    exact (ih (fun c h => hok c (List.mem_cons_of_mem _ h)) _ _ hmode').trans (by simp)

theorem foldlM_writeRow {row : List (Cell α)} (hok : ∀ cell ∈ row, cell.Ok quote newline delim)
    (hne : row ≠ []) (records : List (List (List α))) :
    (writeRow quote newline delim row).foldlM (step quote newline delim)
        ⟨.start, records, [], []⟩ =
      some ⟨.start, records ++ [row.map Cell.text], [], []⟩ := by
  obtain ⟨cell, row, rfl⟩ := List.exists_cons_of_ne_nil hne
  obtain ⟨mode, hmode, hcell⟩ := foldlM_cell hd (hok cell List.mem_cons_self) records []
  rw [writeRow, List.foldlM_append, hcell]
  exact foldlM_writeRest hd (fun c h => hok c (List.mem_cons_of_mem _ h)) records [] _ hmode

/-- **The round trip.**  What has been written as rows is read as these rows. -/
theorem read_rows {rows : List (List (Cell α))}
    (hok : ∀ row ∈ rows, row ≠ [] ∧ ∀ cell ∈ row, cell.Ok quote newline delim) :
    read quote newline delim (rows.flatMap (writeRow quote newline delim)) =
      some (rows.map (List.map Cell.text)) := by
  have hrun : ∀ records : List (List (List α)),
      (rows.flatMap (writeRow quote newline delim)).foldlM (step quote newline delim)
          ⟨.start, records, [], []⟩ =
        some ⟨.start, records ++ rows.map (List.map Cell.text), [], []⟩ := by
    induction rows with
    | nil => intro records; simp
    | cons row rows ih =>
      intro records
      obtain ⟨hne, hcells⟩ := hok row List.mem_cons_self
      rw [List.flatMap_cons, List.foldlM_append, foldlM_writeRow hd hcells hne]
      exact (ih (fun r h => hok r (List.mem_cons_of_mem _ h)) _).trans (by simp)
  rw [read, hrun]
  rfl

end Csv
