import TfPackages.Runs
import TfPackages.UciShow
import Mathlib.Data.List.Nodup

/-! # Adding and deleting user accounts

The accounts are the sections of type `login` in the package `rpcd`.  Both scripts
print the package with `uci show rpcd` and look at every line that has `username` in
it.  `set_useraccount_delete.sh` keeps one flag for all of them, which each line sets
or takes back, so that only the last one counts.  `set_useraccount_add.sh` keeps the
index of the section where it has found the name, with 256 for nowhere.

`usernameLines` are the lines both look at, and what they read there.
`accounts_kept_iff` says in which runs of commands they do what they are for.
-/
namespace TfPackages.Accounts
open UciShow

/-! ## The package `rpcd` -/

/-- The option with the name of a user. -/
def usernameOption : List Char := "username".toList

/-- Another option of a section. -/
structure LoginOption where
  option : List Char
  value : Value
  plain : ∀ c ∈ option, c.isAlphanum = true ∨ c = '_'
  other : option ≠ usernameOption

/-- A section of type `login`. -/
structure Login where
  before : List LoginOption
  username : Value
  after : List LoginOption

/-- The options of a section in the order in which they are printed. -/
def Login.options (l : Login) : List (List Char × Value) :=
  l.before.map (fun o => (o.option, o.value)) ++ (usernameOption, l.username) ::
    l.after.map fun o => (o.option, o.value)

/-- `rpcd.@login[i]` -/
def loginPath (i : Nat) : List Char := sectionPath "rpcd".toList "login".toList i

/-- The lines of a section. -/
def Login.lines (l : Login) (i : Nat) : List (List Char) :=
  (loginPath i ++ "=login".toList) :: l.options.map fun o => optionLine (loginPath i) o.1 o.2

/-- `uci show rpcd` -/
def showRpcd (logins : List Login) : List Char :=
  text (logins.zipIdx.flatMap fun x => x.1.lines x.2)

/-- `uci del` of the section with this path: `uci show` prints it under its own name
first. -/
def uciDel (path : List Char) (logins : List Login) : List Login :=
  match (List.range logins.length).find? fun i => loginPath i = path with
  | some i => logins.eraseIdx i
  | none => logins

/-! ## The scripts -/

/-- `awk -F sep '{print $n}'` -/
def awk (sep : Char) (n : Nat) (line : List Char) : List Char :=
  ((line.splitOn sep)[n - 1]?).getD []

/-- `username`, as it is read from a line. -/
def readUsername (line : List Char) : List Char := awk '\'' 2 line

/-- `index`, as it is read from a line. -/
def readIndex (line : List Char) : List Char := awk ']' 1 (awk '[' 2 line)

/-- The lines of `a.txt`. -/
def fileLines (logins : List Login) : List (List Char) :=
  Tokens.tokens (· = '\n') (showRpcd logins)

/-- The body of the loop of `set_useraccount_delete.sh`, with `userfound` and
`index`. -/
def deleteLoop (name : List Char) (found : Bool × List Char) (line : List Char) :
    Bool × List Char :=
  if usernameOption <:+: line then
    if readUsername line = name then (true, readIndex line) else (false, found.2)
  else found

/-- `set_useraccount_delete.sh`.  `index` is empty at first. -/
def setUseraccountDelete (logins : List Login) (name : List Char) : List Login :=
  let (userfound, index) := (fileLines logins).foldl (deleteLoop name) (false, [])
  if userfound then uciDel ("rpcd.@login[".toList ++ index ++ "]".toList) logins else logins

/-- The body of the loop of `set_useraccount_add.sh`, with `index`. -/
def addLoop (name index line : List Char) : List Char :=
  if usernameOption <:+: line then
    if readUsername line = name then readIndex line else index
  else index

/-- A user name made of letters, digits and hyphens, with which the shell and `uci`
do nothing. -/
structure UserName where
  text : List Char
  ne_nil : text ≠ []
  plain : ∀ c ∈ text, c.isAlphanum = true ∨ c = '-'

def UserName.value (n : UserName) : Value where
  text := n.text
  ne_nil := n.ne_nil
  one_line := fun hmem => absurd (n.plain _ hmem) (by decide)

/-- The option `password`: `$p$` and the name. -/
def passwordOf (n : UserName) : LoginOption where
  option := "password".toList
  value := ⟨"$p$".toList ++ n.text, by simp, by
    have hline := n.value.one_line
    simpa [UserName.value] using hline⟩
  plain := forall_mem_of_all (by decide)
  other := by decide

/-- The option `read` or `write` with the value `*`. -/
def anyOf (option : List Char) (plain : ∀ c ∈ option, c.isAlphanum = true ∨ c = '_')
    (other : option ≠ usernameOption) : LoginOption :=
  ⟨option, ⟨['*'], by decide, by decide⟩, plain, other⟩

/-- The section that is added. -/
def newLogin (n : UserName) (rule : List Char) : Login where
  before := []
  username := n.value
  after := [passwordOf n, anyOf "read".toList (forall_mem_of_all (by decide)) (by decide)] ++
    if rule = "full".toList then
      [anyOf "write".toList (forall_mem_of_all (by decide)) (by decide)]
    else []

/-- `set_useraccount_add.sh` -/
def setUseraccountAdd (logins : List Login) (name : UserName) (rule : List Char) : List Login :=
  let index := (fileLines logins).foldl (addLoop name.text) "256".toList
  if index = "256".toList then logins ++ [newLogin name rule] else logins

/-- A command. -/
inductive Command where
  | add (name : UserName) (rule : List Char)
  | delete (name : UserName)

def step (logins : List Login) : Command → List Login
  | .add name rule => setUseraccountAdd logins name rule
  | .delete name => setUseraccountDelete logins name.text

/-! ## What the commands are for -/

/-- No two sections have the same user name. -/
def Distinct (logins : List Login) : Prop := (logins.map (·.username.text)).Nodup

instance (logins : List Login) : Decidable (Distinct logins) :=
  inferInstanceAs (Decidable (List.Nodup _))

/-- **A command does what it is for.** -/
def DoesCommand (logins : List Login) : Command → Prop
  | .add name rule =>
    (name.text ∈ logins.map (·.username.text) → step logins (.add name rule) = logins) ∧
      (name.text ∉ logins.map (·.username.text) →
        ∃ l, l.username.text = name.text ∧ step logins (.add name rule) = logins ++ [l])
  | .delete name =>
    step logins (.delete name) = logins.filter fun l => l.username.text ≠ name.text

/-- The options whose line has `username` in it, with the number of the section. -/
def markedOptions (logins : List Login) : List (Nat × List Char × Value) :=
  logins.zipIdx.flatMap fun x =>
    (x.1.options.filter fun o =>
      usernameOption <:+: optionLine (loginPath x.2) o.1 o.2).map (x.2, ·)

/-- The section, and the value up to a quotation mark. -/
def readOf (x : Nat × List Char × Value) : Nat × List Char :=
  (x.1, x.2.2.text.takeWhile (· ≠ '\''))

/-- What is read from the lines that have `username` in them. -/
def usernameLines (logins : List Login) : List (Nat × List Char) :=
  (markedOptions logins).map readOf

/-- The last line with the name is not in section 256. -/
def ReadElsewhere (logins : List Login) (name : List Char) : Prop :=
  ∃ x ∈ ((usernameLines logins).filter fun x => x.2 = name).getLast?, x.1 ≠ 256

/-- When a name is deleted, the last line has it exactly if it is in the section of
the user.  When it is added, there is a line with the name, and the last one not in
section 256, exactly if there is such a user. -/
def Hits (logins : List Login) : Command → Prop
  | .add name _ => name.text ∈ logins.map (·.username.text) ↔ ReadElsewhere logins name.text
  | .delete name => ∀ i, (usernameLines logins).getLast? = some (i, name.text) ↔
      (logins.map (·.username.text))[i]? = some name.text

/-- The accounts to start with. -/
structure Users where
  logins : List Login
  distinct : Distinct logins

/-! ## Reading a line -/

/-- The first field goes up to the separator. -/
theorem awk_one (sep : Char) (s : List Char) : awk sep 1 s = s.takeWhile (· ≠ sep) := by
  have hsplit := List.takeWhile_append_dropWhile (p := (· ≠ sep)) (l := s)
  have hfree : sep ∉ s.takeWhile (· ≠ sep) := fun h => by
    have hne := List.mem_takeWhile_imp h
    simp at hne
  cases hdrop : s.dropWhile (· ≠ sep) with
  | nil =>
    rw [hdrop, List.append_nil] at hsplit
    rw [hsplit] at hfree ⊢
    rw [awk, List.splitOn_eq_singleton hfree]
    rfl
  | cons c rest =>
    have hc : c = sep := by
      have hhead := List.head?_dropWhile_not (· ≠ sep) s
      rw [hdrop] at hhead
      simpa using hhead
    rw [hdrop, hc] at hsplit
    rw [awk]
    nth_rewrite 1 [← hsplit]
    rw [List.splitOn_append_cons_self_of_not_mem hfree]
    rfl

/-- The second field begins after the first separator. -/
theorem awk_two {sep : Char} {a : List Char} (ha : sep ∉ a) (s : List Char) :
    awk sep 2 (a ++ sep :: s) = s.takeWhile (· ≠ sep) := by
  rw [← awk_one, awk, awk, List.splitOn_append_cons_self_of_not_mem ha]
  rfl

theorem takeWhile_append_sep {sep : Char} {a : List Char} (ha : sep ∉ a) (rest : List Char) :
    (a ++ sep :: rest).takeWhile (· ≠ sep) = a := by
  have hall : ∀ c ∈ a, decide (c ≠ sep) = true := fun c hc =>
    decide_eq_true fun heq => ha (heq ▸ hc)
  rw [List.takeWhile_append_of_pos hall, List.takeWhile_cons_of_neg (by simp), List.append_nil]

/-- The name is read up to a quotation mark. -/
theorem readUsername_optionLine {option : List Char} (hoption : '\'' ∉ option) (i : Nat)
    (v : Value) :
    readUsername (optionLine (loginPath i) option v) = v.text.takeWhile (· ≠ '\'') := by
  have hpath : '\'' ∉ loginPath i :=
    not_mem_sectionPath (by decide) (by decide) (by decide) (by decide) i
  obtain ⟨rest, hrest⟩ := escape_append_quote v.text
  have hline : optionLine (loginPath i) option v =
      (loginPath i ++ '.' :: (option ++ ['='])) ++ '\'' :: (escape v.text ++ ['\'']) := by
    simp [optionLine, quote]
  have hfree : '\'' ∉ v.text.takeWhile (· ≠ '\'') := fun h => by
    have hne := List.mem_takeWhile_imp h
    simp at hne
  rw [hline, readUsername, awk_two (by simp [hpath, hoption]), hrest, takeWhile_append_sep hfree]

/-- The number of the section is read. -/
theorem readIndex_optionLine (option : List Char) (i : Nat) (v : Value) :
    readIndex (optionLine (loginPath i) option v) = Nat.toDigits 10 i := by
  have hline : optionLine (loginPath i) option v =
      "rpcd.@login".toList ++ '[' :: (Nat.toDigits 10 i ++
        ']' :: '.' :: (option ++ '=' :: quote v)) := by
    simp [optionLine, loginPath, sectionPath]
  have hopen : ∀ c ∈ Nat.toDigits 10 i ++ [']'], decide (c ≠ '[') = true := by
    intro c hc
    refine decide_eq_true ?_
    rintro rfl
    rcases List.mem_append.mp hc with hc | hc
    · exact not_mem_toDigits (by decide) i hc
    · exact absurd hc (by decide)
  have hsplit : Nat.toDigits 10 i ++ ']' :: '.' :: (option ++ '=' :: quote v) =
      (Nat.toDigits 10 i ++ [']']) ++ '.' :: (option ++ '=' :: quote v) := by simp
  rw [hline, readIndex, awk_two (by decide), hsplit, List.takeWhile_append_of_pos hopen, awk_one,
    List.append_assoc]
  exact takeWhile_append_sep (not_mem_toDigits (by decide) i) _

/-! ## The lines of the file -/

theorem plain_of_mem_options {l : Login} {o : List Char × Value} (h : o ∈ l.options) :
    ∀ c ∈ o.1, c.isAlphanum = true ∨ c = '_' := by
  rcases List.mem_append.mp h with h | h
  · obtain ⟨x, -, rfl⟩ := List.mem_map.mp h
    exact x.plain
  · rcases List.mem_cons.mp h with rfl | h
    · exact forall_mem_of_all (s := usernameOption) (by decide)
    · obtain ⟨x, -, rfl⟩ := List.mem_map.mp h
      exact x.plain

theorem not_mem_loginPath {c : Char} (hc : c ∉ "rpcd".toList ∧ c ∉ "login".toList ∧
    c ∉ ".@[]".toList) (hdigit : c.isDigit = false) (i : Nat) : c ∉ loginPath i :=
  not_mem_sectionPath hc.1 hc.2.1 hc.2.2 hdigit i

theorem fileLines_eq (logins : List Login) :
    fileLines logins = logins.zipIdx.flatMap fun x => x.1.lines x.2 := by
  refine tokens_text fun line hline => ?_
  obtain ⟨⟨l, i⟩, -, hline⟩ := List.mem_flatMap.mp hline
  have hpath : '\n' ∉ loginPath i := not_mem_loginPath (by decide) (by decide) i
  rcases List.mem_cons.mp hline with rfl | hline
  · exact ⟨by simp, by simp [hpath]⟩
  · obtain ⟨o, ho, rfl⟩ := List.mem_map.mp hline
    refine isLine_optionLine hpath (fun h => ?_) o.2
    exact absurd (plain_of_mem_options ho _ h) (by decide)

/-- The line of an option. -/
def lineOf (x : Nat × List Char × Value) : List Char := optionLine (loginPath x.1) x.2.1 x.2.2

/-- The lines that the scripts look at. -/
theorem filter_fileLines (logins : List Login) :
    (fileLines logins).filter (fun line => usernameOption <:+: line) =
      (markedOptions logins).map lineOf := by
  have hheader : ∀ i, ¬ usernameOption <:+: loginPath i ++ "=login".toList := by
    intro i h
    have hmem : 'u' ∈ loginPath i ++ "=login".toList := h.subset (by decide)
    rcases List.mem_append.mp hmem with hmem | hmem
    · exact not_mem_loginPath (by decide) (by decide) i hmem
    · exact absurd hmem (by decide)
  rw [fileLines_eq, List.filter_flatMap, markedOptions, List.map_flatMap]
  refine List.flatMap_congr fun x _ => ?_
  rw [Login.lines, List.filter_cons_of_neg (by rw [decide_eq_true_eq]; exact hheader x.2),
    List.filter_map, List.map_map]
  rfl

/-- The scripts look at this line, and read what it says. -/
structure Readable (x : Nat × List Char × Value) : Prop where
  marked : usernameOption <:+: lineOf x
  username : readUsername (lineOf x) = (readOf x).2
  index : readIndex (lineOf x) = Nat.toDigits 10 (readOf x).1

theorem readable_of_mem (logins : List Login) : ∀ x ∈ markedOptions logins, Readable x := by
  intro x hx
  obtain ⟨y, -, hx⟩ := List.mem_flatMap.mp hx
  obtain ⟨o, ho, rfl⟩ := List.mem_map.mp hx
  obtain ⟨hoption, hmark⟩ := List.mem_filter.mp ho
  refine ⟨of_decide_eq_true hmark, readUsername_optionLine (fun h => ?_) _ _,
    readIndex_optionLine ..⟩
  exact absurd (plain_of_mem_options hoption _ h) (by decide)

/-- A loop that does nothing with the other lines. -/
theorem foldl_fileLines {S : Type} {f : S → List Char → S}
    (hf : ∀ s line, ¬ usernameOption <:+: line → f s line = s) (logins : List Login) (s : S) :
    (fileLines logins).foldl f s = ((markedOptions logins).map lineOf).foldl f s := by
  rw [← filter_fileLines]
  generalize fileLines logins = lines
  induction lines generalizing s with
  | nil => rfl
  | cons line lines ih =>
    by_cases h : usernameOption <:+: line
    · rw [List.filter_cons_of_pos (by rw [decide_eq_true_eq]; exact h), List.foldl_cons,
        List.foldl_cons, ih]
    · rw [List.filter_cons_of_neg (by rw [decide_eq_true_eq]; exact h), List.foldl_cons,
        hf s line h, ih]

/-! ## What the scripts do -/

/-- Only the last line counts. -/
theorem foldl_deleteLoop (name : List Char) {l : List (Nat × List Char × Value)}
    (hread : ∀ x ∈ l, Readable x) :
    (∀ i, (l.map readOf).getLast? = some (i, name) →
        (l.map lineOf).foldl (deleteLoop name) (false, []) = (true, Nat.toDigits 10 i)) ∧
      ((∀ i, (l.map readOf).getLast? ≠ some (i, name)) →
        ((l.map lineOf).foldl (deleteLoop name) (false, [])).1 = false) := by
  induction l using List.reverseRecOn with
  | nil => simp
  | append_singleton l x =>
    obtain ⟨hmark, hname, hindex⟩ := hread x (by simp)
    rw [List.map_append, List.map_append, List.map_singleton, List.map_singleton,
      List.getLast?_concat, List.foldl_append, List.foldl_cons, List.foldl_nil, deleteLoop,
      if_pos hmark, hname, hindex]
    constructor
    · intro i hlast
      rw [Option.some.inj hlast, if_pos rfl]
    · intro hno
      rw [if_neg fun heq => hno (readOf x).1 (by rw [← heq])]

/-- The last line with the name counts. -/
theorem foldl_addLoop (name : List Char) {l : List (Nat × List Char × Value)}
    (hread : ∀ x ∈ l, Readable x) :
    (l.map lineOf).foldl (addLoop name) "256".toList =
      Nat.toDigits 10
        (((((l.map readOf).filter fun x => x.2 = name).getLast?).map (·.1)).getD 256) := by
  induction l using List.reverseRecOn with
  | nil => exact (by decide : "256".toList = Nat.toDigits 10 256)
  | append_singleton l x ih =>
    obtain ⟨hmark, hname, hindex⟩ := hread x (by simp)
    rw [List.map_append, List.map_singleton, List.foldl_append, List.foldl_cons, List.foldl_nil,
      ih fun y hy => hread y (List.mem_append_left _ hy), addLoop, if_pos hmark, hname,
      List.map_append, List.map_singleton, List.filter_append]
    split
    · rename_i heq
      rw [List.filter_cons_of_pos (by simpa using heq), List.filter_nil, List.getLast?_concat,
        hindex]
      rfl
    · rename_i hne
      rw [List.filter_cons_of_neg (by simpa using hne), List.filter_nil, List.append_nil]

/-- A section is deleted by its number. -/
theorem uciDel_loginPath (i : Nat) (logins : List Login) :
    uciDel (loginPath i) logins = logins.eraseIdx i := by
  unfold uciDel
  split
  · rename_i j hfound
    have hpath := List.find?_some hfound
    rw [sectionPath_injective _ _ (of_decide_eq_true hpath)]
  · rename_i hnone
    have hout : ¬ i < logins.length := fun hlt =>
      List.find?_eq_none.mp hnone i (List.mem_range.mpr hlt) (by simp)
    rw [List.eraseIdx_of_length_le (by omega)]

/-- `set_useraccount_delete.sh` deletes the section of the last line, if it has the
name. -/
theorem delete_eq (logins : List Login) (name : List Char) :
    (∀ i, (usernameLines logins).getLast? = some (i, name) →
        setUseraccountDelete logins name = logins.eraseIdx i) ∧
      ((∀ i, (usernameLines logins).getLast? ≠ some (i, name)) →
        setUseraccountDelete logins name = logins) := by
  have hloop := foldl_fileLines (f := deleteLoop name) (fun s line h => if_neg h) logins (false, [])
  obtain ⟨hfound, hnot⟩ := foldl_deleteLoop name (readable_of_mem logins)
  rw [← hloop] at hfound hnot
  rw [setUseraccountDelete]
  constructor
  · intro i hlast
    rw [hfound i hlast]
    have hpath : "rpcd.@login[".toList ++ Nat.toDigits 10 i ++ "]".toList = loginPath i := by
      simp [loginPath, sectionPath]
    simp only [if_true, hpath, uciDel_loginPath]
  · intro hno
    simp only [hnot hno, Bool.false_eq_true, if_false]

/-- `set_useraccount_add.sh` adds a section unless the name is read in another one. -/
theorem add_eq (logins : List Login) (name : UserName) (rule : List Char) :
    (ReadElsewhere logins name.text → setUseraccountAdd logins name rule = logins) ∧
      (¬ ReadElsewhere logins name.text →
        setUseraccountAdd logins name rule = logins ++ [newLogin name rule]) := by
  have hloop := foldl_fileLines (f := addLoop name.text) (fun s line h => if_neg h) logins
    "256".toList
  rw [foldl_addLoop name.text (readable_of_mem logins)] at hloop
  have hsentinel : "256".toList = Nat.toDigits 10 256 := by decide
  have hindex : (fileLines logins).foldl (addLoop name.text) "256".toList = "256".toList ↔
      ¬ ReadElsewhere logins name.text := by
    rw [hloop, hsentinel, toDigits_injective.eq_iff, ReadElsewhere, usernameLines]
    cases (((markedOptions logins).map readOf).filter fun x => x.2 = name.text).getLast? with
    | none => simp
    | some x => simp
  rw [setUseraccountAdd]
  constructor
  · intro hread
    exact if_neg fun h => hindex.mp h hread
  · intro hread
    exact if_pos (hindex.mpr hread)

/-! ## One command -/

/-- The only section with this name. -/
theorem eraseIdx_eq_filter {logins : List Login} (hd : Distinct logins) {i : Nat} {name : List Char}
    (hi : (logins.map (·.username.text))[i]? = some name) :
    logins.eraseIdx i = logins.filter fun l => l.username.text ≠ name := by
  induction logins generalizing i with
  | nil => rfl
  | cons l logins ih =>
    obtain ⟨hnot, hrest⟩ := List.nodup_cons.mp hd
    cases i with
    | zero =>
      obtain rfl : l.username.text = name := by simpa using hi
      rw [List.eraseIdx_cons_zero, List.filter_cons_of_neg (by simp)]
      refine (List.filter_eq_self.mpr fun k hk => ?_).symm
      rw [decide_eq_true_eq]
      intro heq
      exact hnot (List.mem_map.mpr ⟨k, hk, heq⟩)
    | succ i =>
      have hi' : (logins.map (·.username.text))[i]? = some name := by simpa using hi
      have hne : l.username.text ≠ name := by
        rintro rfl
        exact hnot (List.mem_of_getElem? hi')
      rw [List.eraseIdx_cons_succ, List.filter_cons_of_pos (by simpa using hne), ih hrest hi']

theorem filter_eq_self_iff {logins : List Login} {name : List Char} :
    (logins.filter fun l => l.username.text ≠ name) = logins ↔
      name ∉ logins.map (·.username.text) := by
  rw [List.filter_eq_self]
  simp only [decide_eq_true_eq, List.mem_map, not_exists, not_and]

/-- The lines come from sections that are there. -/
theorem lt_of_mem_usernameLines {logins : List Login} {x : Nat × List Char}
    (hx : x ∈ usernameLines logins) : x.1 < logins.length := by
  obtain ⟨y, hy, rfl⟩ := List.mem_map.mp hx
  obtain ⟨z, hz, hy⟩ := List.mem_flatMap.mp hy
  obtain ⟨o, -, rfl⟩ := List.mem_map.mp hy
  have hlt := List.snd_lt_of_mem_zipIdx hz
  simpa [readOf] using hlt

/-- A section whose deletion leaves all but this user is the user's. -/
theorem getElem?_of_eraseIdx_eq {logins : List Login} (hd : Distinct logins) {i : Nat}
    (hlt : i < logins.length) {name : List Char}
    (h : logins.eraseIdx i = logins.filter fun l => l.username.text ≠ name) :
    (logins.map (·.username.text))[i]? = some name := by
  by_contra hne
  have hget : (logins.map (·.username.text))[i]? = some (logins[i].username.text) := by
    rw [List.getElem?_map, List.getElem?_eq_getElem hlt]
    rfl
  -- the section at `i` is in the filtered list, but not in the other
  have hkeep : logins[i] ∈ logins.filter fun l => l.username.text ≠ name := by
    refine List.mem_filter.mpr ⟨List.getElem_mem hlt, ?_⟩
    rw [decide_eq_true_eq]
    intro heq
    exact hne (by rw [hget, heq])
  rw [← h, eraseIdx_eq_filter hd hget] at hkeep
  simpa using (List.mem_filter.mp hkeep).2

/-- **When a command does what it is for.** -/
theorem does_iff_hits {logins : List Login} (hd : Distinct logins) (c : Command) :
    DoesCommand logins c ↔ Hits logins c := by
  cases c with
  | add name rule =>
    obtain ⟨hstay, hadd⟩ := add_eq logins name rule
    simp only [DoesCommand, Hits, step]
    by_cases hread : ReadElsewhere logins name.text
    · rw [hstay hread]
      refine ⟨fun h => iff_of_true ?_ hread, fun h => ⟨fun _ => rfl, fun hno => ?_⟩⟩
      · by_contra hno
        obtain ⟨l, -, hl⟩ := h.2 hno
        simp at hl
      · exact absurd (h.mpr hread) hno
    · rw [hadd hread]
      refine ⟨fun h => iff_of_false (fun hin => ?_) hread, fun h => ⟨fun hin => ?_, fun _ => ?_⟩⟩
      · simpa using h.1 hin
      · exact absurd (h.mp hin) hread
      · exact ⟨newLogin name rule, rfl, rfl⟩
  | delete name =>
    obtain ⟨hfound, hnot⟩ := delete_eq logins name.text
    have hlt : ∀ i, (usernameLines logins).getLast? = some (i, name.text) → i < logins.length :=
      fun i h => lt_of_mem_usernameLines (List.mem_of_getLast? h)
    simp only [DoesCommand, Hits, step]
    constructor
    · intro h i
      have hthis : ∀ j, (usernameLines logins).getLast? = some (j, name.text) →
          (logins.map (·.username.text))[j]? = some name.text := fun j hj =>
        getElem?_of_eraseIdx_eq hd (hlt j hj) (by rw [← hfound j hj, h])
      refine ⟨hthis i, fun hi => ?_⟩
      by_contra hno
      refine filter_eq_self_iff.mp (h.symm.trans (hnot fun j hj => hno ?_))
        (List.mem_of_getElem? hi)
      have hji : j = i :=
        (List.getElem?_inj (by simpa using hlt j hj) hd).mp ((hthis j hj).trans hi.symm)
      rw [hj, hji]
    · intro h
      by_cases hin : name.text ∈ logins.map (·.username.text)
      · obtain ⟨i, hi⟩ := List.getElem?_of_mem hin
        rw [hfound i ((h i).mpr hi), eraseIdx_eq_filter hd hi]
      · rw [hnot fun i hi => hin (List.mem_of_getElem? ((h i).mp hi)), filter_eq_self_iff.mpr hin]

/-! ## Any sequence of commands -/

/-- A command that does what it is for leaves the names distinct. -/
theorem distinct_step {logins : List Login} (hd : Distinct logins) {c : Command}
    (h : DoesCommand logins c) : Distinct (step logins c) := by
  cases c with
  | add name rule =>
    by_cases hin : name.text ∈ logins.map (·.username.text)
    · rw [h.1 hin]
      exact hd
    · obtain ⟨l, hl, hstep⟩ := h.2 hin
      rw [hstep, Distinct, List.map_append, List.map_singleton, hl]
      refine List.nodup_append.mpr ⟨hd, List.nodup_singleton _, fun a ha b hb => ?_⟩
      rw [List.mem_singleton.mp hb]
      rintro rfl
      exact hin ha
  | delete name =>
    have hstep : step logins (.delete name) = _ := h
    rw [hstep]
    exact hd.sublist (List.filter_sublist.map _)

/-- **The accounts are kept by name exactly if every command hits its section.** -/
theorem accounts_kept_iff (u : Users) (cs : List Command) :
    (Runs.Meets step DoesCommand u.logins cs ∧ Runs.Always step Distinct u.logins cs) ↔
      Runs.Meets step Hits u.logins cs := by
  obtain ⟨logins, hd⟩ := u
  simp only
  induction cs generalizing logins with
  | nil => exact ⟨fun _ => trivial, fun _ => ⟨trivial, hd⟩⟩
  | cons c cs ih =>
    constructor
    · rintro ⟨⟨hdoes, hrest⟩, -, halways⟩
      exact ⟨(does_iff_hits hd c).mp hdoes, (ih _ halways.head).mp ⟨hrest, halways⟩⟩
    · rintro ⟨hhits, hrest⟩
      have hdoes := (does_iff_hits hd c).mpr hhits
      obtain ⟨hmeets, halways⟩ := (ih _ (distinct_step hd hdoes)).mpr hrest
      exact ⟨⟨hdoes, hmeets⟩, hd, halways⟩

/-- A section with nothing but a user name. -/
def loginOf (name : UserName) : Login := ⟨[], name.value, []⟩

def admin : UserName := ⟨"admin".toList, by decide, forall_mem_of_all (by decide)⟩

def guest : UserName := ⟨"guest".toList, by decide, forall_mem_of_all (by decide)⟩

def twoUsers : Users := ⟨[loginOf admin, loginOf guest], by decide⟩

/-- The first of two users is not deleted. -/
theorem first_user_not_deleted :
    ¬ (Runs.Meets step DoesCommand twoUsers.logins [.delete admin] ∧
      Runs.Always step Distinct twoUsers.logins [.delete admin]) := by
  rintro ⟨⟨hdoes, -⟩, -⟩
  have hlast := ((does_iff_hits twoUsers.distinct (.delete admin)).mp hdoes 0).mpr (by decide)
  have hmark : ∀ i v, usernameOption <:+: optionLine (loginPath i) usernameOption v := fun i v =>
    ⟨loginPath i ++ ['.'], '=' :: quote v, by simp [optionLine]⟩
  have hlines : usernameLines twoUsers.logins = [(0, admin.text), (1, guest.text)] := by
    simp only [usernameLines, markedOptions, twoUsers, List.zipIdx_cons, List.zipIdx_nil,
      List.flatMap_cons, List.flatMap_nil, Login.options, loginOf, List.map_nil, List.nil_append,
      List.filter_cons, hmark, decide_true, if_true, List.filter_nil]
    rfl
  rw [hlines] at hlast
  exact absurd hlast (by decide)

end TfPackages.Accounts
