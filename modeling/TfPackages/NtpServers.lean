import TfPackages.Scanf
import TfPackages.UciShow
import Mathlib.Data.List.Nodup

/-! # Adding an NTP server

`set_sntp_add.lua` adds a section with the new host name first, and then removes the
sections whose host name is there already.  What is there it reads from `uci show`:
from each line with a host name it takes the option and asks for it once more, to
learn the name of the section.  The names and the host names go into a table, and
`removeDuplicates` walks over it in the order in which `pairs` happens to return
them.

`hostdic_eq` says what is in the table, and `removeDuplicates_kept` what is left of
it, in whatever order.
-/
namespace TfPackages.Ntp
open UciShow

/-! ## The package `ntpclient` -/

/-- The name of a section. -/
structure SectionName where
  text : List Char
  ne_nil : text ≠ []
  plain : ∀ c ∈ text, c.isAlphanum = true ∨ c = '_'

theorem SectionName.text_injective : Function.Injective SectionName.text := by
  rintro ⟨s, _, _⟩ ⟨t, _, _⟩ h
  cases h
  rfl

instance : DecidableEq SectionName := SectionName.text_injective.decidableEq

/-- The option with the host name. -/
def hostnameOption : List Char := "hostname".toList

/-- The line of another option, or of a section. -/
structure OtherLine where
  text : List Char
  isLine : IsLine text
  unmarked : ¬ hostnameOption <:+: text

/-- A section of type `ntpserver`, with the lines printed before and after its host
name. -/
structure Server where
  name : SectionName
  before : List OtherLine
  hostname : Option Value
  after : List OtherLine

/-- The package `ntpclient`, with the lines of its other sections. -/
structure NtpClient where
  others : List OtherLine
  servers : List Server
  names_nodup : (servers.map (·.name)).Nodup

/-- The host names that are configured, one for each section that has one. -/
def NtpClient.hostnames (c : NtpClient) : List (List Char) :=
  c.servers.filterMap fun s => s.hostname.map (·.text)

/-- `ntpclient.@ntpserver[i]` -/
def serverPath (i : Nat) : List Char := sectionPath "ntpclient".toList "ntpserver".toList i

/-- The lines of a section. -/
def Server.lines (s : Server) (i : Nat) : List (List Char) :=
  s.before.map (·.text) ++
    s.hostname.toList.map (optionLine (serverPath i) hostnameOption) ++ s.after.map (·.text)

/-- `uci show ntpclient` -/
def NtpClient.show (c : NtpClient) : List Char :=
  text (c.others.map (·.text) ++ c.servers.zipIdx.flatMap fun x => x.1.lines x.2)

/-- `uci show ntpclient.@ntpserver[i].hostname`: the option, with the section under
its own name.  Nothing is printed for an option that is not there. -/
def NtpClient.showOption (c : NtpClient) (path : List Char) : List Char :=
  (c.servers.zipIdx.findSome? fun x =>
    if path = serverPath x.2 ++ '.' :: hostnameOption then
      x.1.hostname.map fun v =>
        text [optionLine ("ntpclient.".toList ++ x.1.name.text) hostnameOption v]
    else none).getD []

/-- The section that `uci add` appends, under a name that is not used. -/
structure NewServer (c : NtpClient) where
  name : SectionName
  before : List OtherLine
  after : List OtherLine
  fresh : name ∉ c.servers.map (·.name)

/-- A host name made of letters, digits, dots and hyphens, with which the shell and
`uci` do nothing. -/
structure Hostname where
  text : List Char
  ne_nil : text ≠ []
  plain : ∀ c ∈ text, c.isAlphanum = true ∨ c = '.' ∨ c = '-'

def Hostname.value (h : Hostname) : Value where
  text := h.text
  ne_nil := h.ne_nil
  one_line := fun hmem => absurd (h.plain _ hmem) (by decide)

/-- `uci add ntpclient ntpserver` and `uci set ntpclient.@ntpserver[-1].hostname=h`. -/
def NtpClient.add (c : NtpClient) (new : NewServer c) (h : Hostname) : NtpClient where
  others := c.others
  servers := c.servers ++ [⟨new.name, new.before, some h.value, new.after⟩]
  names_nodup := by
    rw [List.map_append, List.map_singleton]
    refine List.nodup_append.mpr
      ⟨c.names_nodup, List.nodup_singleton _, fun name hname _ hnew => ?_⟩
    rw [List.mem_singleton.mp hnew]
    intro heq
    rw [heq] at hname
    exact new.fresh hname

/-- `uci del ntpclient.i` for each of these names. -/
def NtpClient.del (c : NtpClient) (names : List (List Char)) : NtpClient where
  others := c.others
  servers := c.servers.filter fun s => s.name.text ∉ names
  names_nodup := c.names_nodup.sublist (List.filter_sublist.map _)

/-! ## The script -/

/-- `string.match(line, "=%s*'(.+)'")`.  A blank is no quotation mark, so that `%s*`
gives none back. -/
def matchValue (line : List Char) : Option (List Char) :=
  line.tails.findSome? fun s =>
    match s with
    | '=' :: t =>
      (LuaPatterns.matchHere [.char '\'', .plus fun _ => true, .char '\'']
        (t.dropWhile Scanf.isSpace)).bind List.head?
    | _ => none

/-- A table whose keys and values are strings. -/
abbrev Table := List (List Char × List Char)

/-- `t[key] = value`, where `nil` removes the key. -/
def Table.assign (t : Table) (key : List Char) (value : Option (List Char)) : Table :=
  t.filter (·.1 ≠ key) ++ value.toList.map (key, ·)

/-- The lines with a host name. -/
def hostnameLines (c : NtpClient) : List (List Char) :=
  (Tokens.tokens (· = '\n') c.show).filter fun line => hostnameOption <:+: line

/-- The body of the loop over the lines: the key and the value for `hostdic`.  A key
that is `nil` is an error. -/
def readLine (c : NtpClient) (line : List Char) : Option (List Char × Option (List Char)) := do
  let path ← (Tokens.tokens (· = '=') line)[0]?
  let id ← (Tokens.tokens (· = '.') (c.showOption path))[1]?
  return (id, matchValue line)

/-- The table `hostdic`. -/
def hostdic (c : NtpClient) : Option Table :=
  (hostnameLines c).foldlM (fun t line => (readLine c line).map fun x => t.assign x.1 x.2) []

/-- `removeDuplicates`: the sections it deletes, with the values in `hash` seen
already. -/
def removeDuplicates (hash : List (List Char)) : Table → List (List Char)
  | [] => []
  | (i, value) :: arr =>
    if value = [] then i :: removeDuplicates hash arr
    else if value ∈ hash then i :: removeDuplicates hash arr
    else removeDuplicates (value :: hash) arr

/-- An order in which `pairs` returns the entries of a table. -/
structure Pairs where
  order : Table → Table
  perm : ∀ t, (order t).Perm t

/-- `set_sntp_add.lua`, for the names the sections have after the first commit.
`none` is an error of the interpreter. -/
def setSntpAdd (pairs : Pairs) (c : NtpClient) (new : NewServer c) (h : Hostname) :
    Option NtpClient := do
  let c := c.add new h
  let dic ← hostdic c
  return c.del (removeDuplicates [] (pairs.order dic))

/-! ## Reading the lines -/

theorem SectionName.not_mem (n : SectionName) {c : Char} (hc : ¬ (c.isAlphanum = true ∨ c = '_')) :
    c ∉ n.text := fun h => hc (n.plain c h)

theorem not_mem_serverPath {c : Char} (hc : c ∉ "ntpclient".toList ∧ c ∉ "ntpserver".toList ∧
    c ∉ ".@[]".toList) (hdigit : c.isDigit = false) (i : Nat) : c ∉ serverPath i :=
  not_mem_sectionPath hc.1 hc.2.1 hc.2.2 hdigit i

/-- The line of a host name. -/
def hostnameLine (i : Nat) (v : Value) : List Char :=
  optionLine (serverPath i) hostnameOption v

theorem hostnameLine_eq (i : Nat) (v : Value) :
    hostnameLine i v = (serverPath i ++ '.' :: hostnameOption) ++ '=' :: quote v := by
  simp [hostnameLine, optionLine]

theorem hostnameLines_eq (c : NtpClient) :
    hostnameLines c = c.servers.zipIdx.filterMap fun x => x.1.hostname.map (hostnameLine x.2) := by
  have hother : ∀ l : List OtherLine,
      (l.map (·.text)).filter (fun line => hostnameOption <:+: line) = [] := by
    intro l
    refine List.filter_eq_nil_iff.mpr fun line hline => ?_
    obtain ⟨o, -, rfl⟩ := List.mem_map.mp hline
    rw [decide_eq_true_eq]
    exact o.unmarked
  have hserver : ∀ x : Server × Nat,
      (x.1.lines x.2).filter (fun line => hostnameOption <:+: line) =
        (x.1.hostname.map (hostnameLine x.2)).toList := by
    rintro ⟨s, i⟩
    rw [Server.lines, List.filter_append, List.filter_append, hother, hother, List.nil_append,
      List.append_nil]
    cases s.hostname with
    | none => rfl
    | some v =>
      refine List.filter_eq_self.mpr fun line hline => decide_eq_true ?_
      rw [Option.toList_some, List.map_singleton, List.mem_singleton] at hline
      exact ⟨serverPath i ++ ['.'], '=' :: quote v, by rw [hline]; simp [optionLine]⟩
  have hlines : ∀ line ∈ c.others.map (·.text) ++
      c.servers.zipIdx.flatMap (fun x => x.1.lines x.2), IsLine line := by
    intro line hline
    rcases List.mem_append.mp hline with h | h
    · obtain ⟨o, -, rfl⟩ := List.mem_map.mp h
      exact o.isLine
    · obtain ⟨⟨s, i⟩, -, h⟩ := List.mem_flatMap.mp h
      rcases List.mem_append.mp h with h | h
      · rcases List.mem_append.mp h with h | h
        · obtain ⟨o, -, rfl⟩ := List.mem_map.mp h
          exact o.isLine
        · obtain ⟨v, -, rfl⟩ := List.mem_map.mp h
          exact isLine_optionLine (not_mem_serverPath (by decide) (by decide) i) (by decide) v
      · obtain ⟨o, -, rfl⟩ := List.mem_map.mp h
        exact o.isLine
  rw [hostnameLines, NtpClient.show, tokens_text hlines, List.filter_append, hother,
    List.nil_append, List.filter_flatMap, List.filterMap_eq_flatMap_toList]
  exact List.flatMap_congr fun x _ => hserver x

/-- The value is read from its line. -/
theorem matchValue_hostnameLine (i : Nat) (v : Value) :
    matchValue (hostnameLine i v) = some (escape v.text) := by
  have hskip : ∀ pre s : List Char, '=' ∉ pre → matchValue (pre ++ s) = matchValue s := by
    intro pre s hpre
    induction pre with
    | nil => rfl
    | cons d pre ih =>
      rw [← ih fun h => hpre (List.mem_cons_of_mem _ h), List.cons_append, matchValue,
        List.tails_cons, List.findSome?_cons]
      split
      · rename_i heq
        split at heq
        · rename_i hd
          rw [List.cons.injEq] at hd
          exact absurd (hd.1 ▸ List.mem_cons_self) hpre
        · cases heq
      · rfl
  have hquote : LuaPatterns.matchHere [.plus fun _ => true, .char '\'']
      (escape v.text ++ ['\'']) = some [escape v.text] :=
    LuaPatterns.matchHere_plus_give_back (fun _ _ => rfl) (escape_ne_nil v.ne_nil) rfl
      (by simp) (by decide) (by decide)
  have hblank : (quote v).dropWhile Scanf.isSpace = quote v := by
    rw [quote, List.dropWhile_cons]
    rfl
  rw [hostnameLine_eq, hskip _ _ ?_]
  · rw [matchValue, List.tails_cons, List.findSome?_cons]
    simp only [hblank]
    rw [quote, LuaPatterns.matchHere, if_pos rfl, hquote]
    rfl
  · intro h
    rcases List.mem_append.mp h with h | h
    · exact not_mem_serverPath (by decide) (by decide) i h
    · exact absurd h (by decide)

/-- Only the section itself is shown for the option of its host name. -/
theorem showOption_hostname {c : NtpClient} {s : Server} {i : Nat} {v : Value}
    (hmem : (s, i) ∈ c.servers.zipIdx) (hv : s.hostname = some v) :
    c.showOption (serverPath i ++ '.' :: hostnameOption) =
      text [optionLine ("ntpclient.".toList ++ s.name.text) hostnameOption v] := by
  have hpath : ∀ j, serverPath i ++ '.' :: hostnameOption = serverPath j ++ '.' :: hostnameOption →
      i = j := fun j h => sectionPath_injective _ _ (List.append_cancel_right h)
  have hself : ∀ x ∈ c.servers.zipIdx, x.2 = i → x = (s, i) := by
    rintro ⟨t, j⟩ hx rfl
    have hs := List.mem_zipIdx_iff_getElem?.mp hmem
    have ht := List.mem_zipIdx_iff_getElem?.mp hx
    simp only at hs ht
    rw [hs] at ht
    cases ht
    rfl
  have hnone : ∀ y, c.servers.zipIdx.findSome? (fun x =>
      if serverPath i ++ '.' :: hostnameOption = serverPath x.2 ++ '.' :: hostnameOption then
        x.1.hostname.map fun v =>
          text [optionLine ("ntpclient.".toList ++ x.1.name.text) hostnameOption v]
      else none) = y →
      y = some (text [optionLine ("ntpclient.".toList ++ s.name.text) hostnameOption v]) := by
    intro y hy
    cases y with
    | none =>
      have hall := List.findSome?_eq_none_iff.mp hy (s, i) hmem
      rw [if_pos rfl, hv] at hall
      cases hall
    | some y =>
      obtain ⟨x, hx, hfound⟩ := List.exists_of_findSome?_eq_some hy
      split at hfound
      · rename_i heq
        rw [hself x hx (hpath _ heq).symm, hv] at hfound
        exact hfound.symm
      · cases hfound
  rw [NtpClient.showOption, hnone _ rfl]
  rfl

/-- What is read from the line of a host name. -/
theorem readLine_hostname {c : NtpClient} {s : Server} {i : Nat} {v : Value}
    (hmem : (s, i) ∈ c.servers.zipIdx) (hv : s.hostname = some v) :
    readLine c (hostnameLine i v) = some (s.name.text, some (escape v.text)) := by
  have hpath : (Tokens.tokens (· = '=') (hostnameLine i v))[0]? =
      some (serverPath i ++ '.' :: hostnameOption) := by
    have hfree : ∀ d ∈ serverPath i ++ '.' :: hostnameOption, decide (d = '=') = false := by
      intro d hd
      refine decide_eq_false ?_
      rintro rfl
      rcases List.mem_append.mp hd with hd | hd
      · exact not_mem_serverPath (by decide) (by decide) i hd
      · exact absurd hd (by decide)
    rw [hostnameLine_eq, Tokens.tokens_run (by simp) hfree (by simp)]
    rfl
  have hid : (Tokens.tokens (· = '.')
      (text [optionLine ("ntpclient.".toList ++ s.name.text) hostnameOption v]))[1]? =
      some s.name.text := by
    have hprinted : text [optionLine ("ntpclient.".toList ++ s.name.text) hostnameOption v] =
        "ntpclient".toList ++ '.' :: (s.name.text ++ '.' ::
          (hostnameOption ++ '=' :: (quote v ++ ['\n']))) := by
      simp [text, optionLine]
    have hname : ∀ d ∈ s.name.text, decide (d = '.') = false := by
      intro d hd
      refine decide_eq_false ?_
      rintro rfl
      exact s.name.not_mem (by decide) hd
    rw [hprinted, Tokens.tokens_run (by decide) (forall_mem_of_all (by decide)) (by simp),
      Tokens.tokens_delim (by simp), Tokens.tokens_run s.name.ne_nil hname (by simp)]
    rfl
  simp only [readLine, hpath, Option.bind_eq_bind, Option.bind_some, showOption_hostname hmem hv,
    hid, matchValue_hostnameLine]
  rfl

/-! ## The table -/

/-- The entry of a section. -/
def Server.entry (s : Server) : Option (List Char × List Char) :=
  s.hostname.map fun v => (s.name.text, escape v.text)

theorem filterMap_entry_none {s : Server} (h : s.hostname = none) (l : List Server) :
    (s :: l).filterMap Server.entry = l.filterMap Server.entry :=
  List.filterMap_cons_none (by simp [Server.entry, h])

theorem filterMap_entry_some {s : Server} {v : Value} (h : s.hostname = some v) (l : List Server) :
    (s :: l).filterMap Server.entry = (s.name.text, escape v.text) :: l.filterMap Server.entry :=
  List.filterMap_cons_some (by simp [Server.entry, h])

theorem Table.assign_of_fresh {t : Table} {key : List Char} (h : key ∉ t.map (·.1))
    (value : List Char) : t.assign key (some value) = t ++ [(key, value)] := by
  have hall : t.filter (·.1 ≠ key) = t := by
    refine List.filter_eq_self.mpr fun x hx => decide_eq_true ?_
    rintro rfl
    exact h (List.mem_map_of_mem hx)
  rw [Table.assign, hall]
  rfl

/-- The loop adds an entry for each section that has a host name. -/
theorem foldlM_readLine {c : NtpClient} {l : List (Server × Nat)} {t : Table}
    (hl : ∀ x ∈ l, x ∈ c.servers.zipIdx) (hnames : (l.map (·.1.name.text)).Nodup)
    (hfresh : ∀ x ∈ l, x.1.name.text ∉ t.map (·.1)) :
    (l.filterMap fun x => x.1.hostname.map (hostnameLine x.2)).foldlM
        (fun t line => (readLine c line).map fun x => t.assign x.1 x.2) t =
      some (t ++ l.filterMap fun x => x.1.entry) := by
  induction l generalizing t with
  | nil => simp
  | cons x l ih =>
    obtain ⟨s, i⟩ := x
    have hmem := hl _ List.mem_cons_self
    have hrest := fun x hx => hl x (List.mem_cons_of_mem _ hx)
    obtain ⟨hnot, hnodup⟩ := List.nodup_cons.mp hnames
    cases hv : s.hostname with
    | none =>
      simp only [List.filterMap_cons, Server.entry, hv, Option.map_none]
      exact ih hrest hnodup fun y hy => hfresh y (List.mem_cons_of_mem _ hy)
    | some v =>
      simp only [List.filterMap_cons, Server.entry, hv, Option.map_some, List.foldlM_cons,
        readLine_hostname hmem hv, Option.bind_eq_bind, Option.bind_some,
        Table.assign_of_fresh (hfresh _ List.mem_cons_self)]
      rw [ih hrest hnodup fun y hy => ?_]
      · simp [Server.entry]
      · rw [List.map_append, List.mem_append, not_or]
        refine ⟨hfresh y (List.mem_cons_of_mem _ hy), fun h => hnot ?_⟩
        rw [List.map_singleton, List.mem_singleton] at h
        exact List.mem_map.mpr ⟨y, hy, h⟩

/-- The table has an entry for each section with a host name. -/
theorem hostdic_eq (c : NtpClient) : hostdic c = some (c.servers.filterMap Server.entry) := by
  have hfst : c.servers.zipIdx.map (·.1) = c.servers := List.zipIdx_map_fst 0 c.servers
  have hnames : (c.servers.zipIdx.map (·.1.name.text)).Nodup := by
    have hmap : c.servers.zipIdx.map (·.1.name.text) =
        (c.servers.map (·.name)).map SectionName.text := by
      conv_rhs => rw [← hfst]
      rw [List.map_map, List.map_map]
      rfl
    rw [hmap]
    exact c.names_nodup.map SectionName.text_injective
  rw [hostdic, hostnameLines_eq, foldlM_readLine (fun _ h => h) hnames (by simp), List.nil_append]
  congr 1
  nth_rewrite 2 [← hfst]
  rw [List.filterMap_map]
  rfl

/-! ## What is left -/

/-- Only sections of the table are deleted. -/
theorem mem_of_mem_removeDuplicates {hash : List (List Char)} {arr : Table} {i : List Char}
    (h : i ∈ removeDuplicates hash arr) : i ∈ arr.map (·.1) := by
  induction arr generalizing hash with
  | nil => cases h
  | cons x arr ih =>
    obtain ⟨j, value⟩ := x
    rw [removeDuplicates] at h
    split_ifs at h
    · rcases List.mem_cons.mp h with rfl | h
      · exact List.mem_cons_self
      · exact List.mem_cons_of_mem _ (ih h)
    · rcases List.mem_cons.mp h with rfl | h
      · exact List.mem_cons_self
      · exact List.mem_cons_of_mem _ (ih h)
    · exact List.mem_cons_of_mem _ (ih h)

/-- What `removeDuplicates` leaves of a table. -/
def keptOf (hash : List (List Char)) (arr : Table) : Table :=
  arr.filter fun x => x.1 ∉ removeDuplicates hash arr

/-- An entry is left unless its value has been seen. -/
theorem keptOf_cons {hash : List (List Char)} {i value : List Char} {arr : Table}
    (hkey : i ∉ arr.map (·.1)) (hvalue : value ≠ []) :
    keptOf hash ((i, value) :: arr) =
      if value ∈ hash then keptOf hash arr else (i, value) :: keptOf (value :: hash) arr := by
  unfold keptOf
  rw [removeDuplicates, if_neg hvalue]
  split
  · rw [List.filter_cons_of_neg (by simp)]
    refine List.filter_congr fun x hx => ?_
    have hne : x.1 ≠ i := fun heq => hkey (heq ▸ List.mem_map_of_mem hx)
    simp [hne]
  · have hkept : i ∉ removeDuplicates (value :: hash) arr := fun h =>
      hkey (mem_of_mem_removeDuplicates h)
    rw [List.filter_cons_of_pos (by simpa using hkept)]

/-- **Every value is left once**, except for those seen before. -/
theorem removeDuplicates_kept {arr : Table} (hkeys : (arr.map (·.1)).Nodup)
    (hvalues : ∀ x ∈ arr, x.2 ≠ []) (hash : List (List Char)) :
    ((keptOf hash arr).map (·.2)).Nodup ∧
      ∀ v, v ∈ (keptOf hash arr).map (·.2) ↔ v ∈ arr.map (·.2) ∧ v ∉ hash := by
  induction arr generalizing hash with
  | nil => exact ⟨.nil, by simp [keptOf]⟩
  | cons x arr ih =>
    obtain ⟨i, value⟩ := x
    obtain ⟨hkey, hrest⟩ := List.nodup_cons.mp hkeys
    have hthis := hvalues _ List.mem_cons_self
    have hothers := fun x hx => hvalues x (List.mem_cons_of_mem _ hx)
    rw [keptOf_cons hkey hthis]
    by_cases hseen : value ∈ hash
    · obtain ⟨hnodup, hmem⟩ := ih hrest hothers hash
      rw [if_pos hseen]
      refine ⟨hnodup, fun v => ?_⟩
      rw [hmem, List.map_cons, List.mem_cons]
      constructor
      · exact fun h => ⟨.inr h.1, h.2⟩
      · rintro ⟨rfl | h, hv⟩
        · exact absurd hseen hv
        · exact ⟨h, hv⟩
    · obtain ⟨hnodup, hmem⟩ := ih hrest hothers (value :: hash)
      rw [if_neg hseen]
      refine ⟨List.nodup_cons.mpr ⟨fun h => ?_, hnodup⟩, fun v => ?_⟩
      · exact ((hmem _).mp h).2 List.mem_cons_self
      · rw [List.map_cons, List.mem_cons, hmem, List.map_cons, List.mem_cons, List.mem_cons, not_or]
        by_cases hv : v = value
        · simp [hv, hseen]
        · simp [hv]

/-- The values of the table, as they are printed. -/
theorem map_snd_entry (l : List Server) :
    (l.filterMap Server.entry).map (·.2) =
      (l.filterMap fun s => s.hostname.map (·.text)).map escape := by
  rw [List.map_filterMap, List.map_filterMap]
  refine List.filterMap_congr fun s _ => ?_
  cases h : s.hostname <;> simp [Server.entry, h]

/-- The keys of the table are names of sections. -/
theorem keys_sublist (l : List Server) :
    ((l.filterMap Server.entry).map (·.1)).Sublist (l.map (·.name.text)) := by
  induction l with
  | nil => exact .slnil
  | cons s l ih =>
    cases h : s.hostname with
    | none =>
      rw [filterMap_entry_none h]
      exact .cons _ ih
    | some v =>
      rw [filterMap_entry_some h]
      exact .cons_cons _ ih

/-- The entries of the sections that are left. -/
theorem filter_entry (names : List (List Char)) (l : List Server) :
    (l.filterMap Server.entry).filter (·.1 ∉ names) =
      (l.filter fun s => s.name.text ∉ names).filterMap Server.entry := by
  induction l with
  | nil => rfl
  | cons s l ih =>
    cases h : s.hostname with
    | none =>
      rw [filterMap_entry_none h, ih, List.filter_cons]
      split
      · rw [filterMap_entry_none h]
      · rfl
    | some v =>
      rw [filterMap_entry_some h, List.filter_cons, List.filter_cons, ih]
      split
      · rw [filterMap_entry_some h]
      · rfl

/-- The host names after duplicates have been deleted. -/
theorem hostnames_del (c : NtpClient) (arr : Table)
    (h : arr.Perm (c.servers.filterMap Server.entry)) :
    (c.del (removeDuplicates [] arr)).hostnames.Nodup ∧
      ∀ x, x ∈ (c.del (removeDuplicates [] arr)).hostnames ↔ x ∈ c.hostnames := by
  have hkeys : (arr.map (·.1)).Nodup := by
    refine (h.map _).nodup_iff.mpr ?_
    have hnames : ((c.servers.map (·.name)).map SectionName.text).Nodup :=
      c.names_nodup.map SectionName.text_injective
    rw [List.map_map] at hnames
    exact hnames.sublist (keys_sublist c.servers)
  have hvalues : ∀ x ∈ arr, x.2 ≠ [] := by
    intro x hx
    obtain ⟨s, -, hs⟩ := List.mem_filterMap.mp (h.mem_iff.mp hx)
    obtain ⟨v, -, rfl⟩ := Option.map_eq_some_iff.mp hs
    exact escape_ne_nil v.ne_nil
  obtain ⟨hnodup, hmem⟩ := removeDuplicates_kept hkeys hvalues []
  -- the host names that are left, in the order of the sections
  have hleft : ((c.servers.filterMap Server.entry).filter
      fun x => x.1 ∉ removeDuplicates [] arr).map (·.2) =
      (c.del (removeDuplicates [] arr)).hostnames.map escape := by
    rw [filter_entry, map_snd_entry]
    rfl
  have hperm := ((h.filter fun x => x.1 ∉ removeDuplicates [] arr).map (·.2)).trans
    (List.Perm.of_eq hleft)
  constructor
  · exact List.Nodup.of_map escape (hperm.nodup_iff.mp hnodup)
  · intro x
    have hiff := (hperm.mem_iff (a := escape x)).symm.trans (hmem (escape x))
    rw [List.mem_map_of_injective escape_injective] at hiff
    rw [hiff, (h.map (·.2)).mem_iff, map_snd_entry, List.mem_map_of_injective escape_injective]
    simp [NtpClient.hostnames]

/-- What one run of the script leaves. -/
theorem setSntpAdd_hostnames (pairs : Pairs) (c : NtpClient) (new : NewServer c) (h : Hostname) :
    ∃ c', setSntpAdd pairs c new h = some c' ∧ c'.hostnames.Nodup ∧
      ∀ x, x ∈ c'.hostnames ↔ x ∈ c.hostnames ∨ x = h.text := by
  have hdel := hostnames_del (c.add new h) _ (pairs.perm _)
  have hadd : (c.add new h).hostnames = c.hostnames ++ [h.text] := by
    rw [NtpClient.hostnames, NtpClient.add, List.filterMap_append]
    rfl
  refine ⟨(c.add new h).del (removeDuplicates []
    (pairs.order ((c.add new h).servers.filterMap Server.entry))), ?_, hdel.1, fun x => ?_⟩
  · simp only [setSntpAdd, hostdic_eq]
    rfl
  · rw [hdel.2, hadd, List.mem_append, List.mem_singleton]

/-- **Adding a server removes the duplicates and nothing else**, in whatever order
the table is read; and doing it again, with whatever names the sections then have,
changes nothing. -/
theorem sntp_add_deduplicates (pairs : Pairs) (c : NtpClient) (new : NewServer c) (h : Hostname) :
    ∃ c', setSntpAdd pairs c new h = some c' ∧ c'.hostnames.Nodup ∧
      (∀ x, x ∈ c'.hostnames ↔ x ∈ c.hostnames ∨ x = h.text) ∧
      ∀ (pairs' : Pairs) (d : NtpClient) (new' : NewServer d), d.hostnames = c'.hostnames →
        ∃ d', setSntpAdd pairs' d new' h = some d' ∧ d'.hostnames.Nodup ∧
          ∀ x, x ∈ d'.hostnames ↔ x ∈ c'.hostnames := by
  obtain ⟨c', hc', hnodup, hmem⟩ := setSntpAdd_hostnames pairs c new h
  refine ⟨c', hc', hnodup, hmem, fun pairs' d new' hd => ?_⟩
  obtain ⟨d', hd', hnodup', hmem'⟩ := setSntpAdd_hostnames pairs' d new' h
  refine ⟨d', hd', hnodup', fun x => ?_⟩
  rw [hmem', hd, or_iff_left_iff_imp]
  rintro rfl
  exact (hmem _).mpr (.inr rfl)

end TfPackages.Ntp
