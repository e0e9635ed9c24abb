import Mathlib.Data.List.Nodup
import Mathlib.Data.Set.BooleanAlgebra
import Mathlib.Order.Interval.Set.Defs
import Mathlib.Tactic.Tauto
import TfPackages.UciShow

/-! # Switching LLDP on and off for ports

`set_lldp_ports.sh` reads the list `lldpd.config.interface` from the output of
`uci show`, deletes it and builds it anew: with `enable` the ports of the range
followed by the old ones outside it, with `disable` the old ones outside it.

The LLDP daemon takes an empty list to mean all ports, which the script does not
know of.  `effective` is the set of ports a list stands for, and
`lldp_switching_iff` says when the script does to it what its command says.
-/
namespace TfPackages.Lldp
open UciShow (not_mem_toDigits)

/-- The argument `stateValue`. -/
inductive StateValue where
  | enable
  | disable
  /-- Anything else; no branch of the script is taken. -/
  | other
deriving DecidableEq, Repr

/-- `lanN`. -/
def lanName (n : Nat) : List Char := "lan".toList ++ Nat.toDigits 10 n

/-- A text of decimal digits, as arithmetic reads it. -/
def number (w : List Char) : Nat := Nat.ofDigitChars 10 w 0

/-- The single quote that `uci show` puts around values. -/
def quote : Char := Char.ofNat 0x27

/-- `uci show lldpd.config.interface`.  For a list that is not there nothing is
printed. -/
def uciShow (interface : List (List Char)) : List Char :=
  if interface = [] then []
  else "lldpd.config.interface=".toList ++
    [' '].intercalate (interface.map fun name => quote :: name ++ [quote])

/-- `IFS=d read -ra` for a `d` that is not a blank: the pieces between them. -/
def readFields (d : Char) (line : List Char) : List (List Char) := line.splitOn d

/-- `IFS=' ' read -ra`: the words. -/
def readWords (line : List Char) : List (List Char) := (line.splitOn ' ').filter (· ≠ [])

/-- `${port%\'*}`: the text up to its last quote. -/
def cutLastQuote (port : List Char) : List Char :=
  if quote ∈ port then (port.reverse.dropWhile (· ≠ quote)).tail.reverse else port

/-- `${port#\'}`: the text without a quote at its beginning. -/
def cutFirstQuote (port : List Char) : List Char :=
  if port.head? = some quote then port.tail else port

/-- The names the script works with, as it takes them from the output of
`uci show`. -/
def readPorts (res : List Char) : List (List Char) :=
  (readWords ((readFields '=' res)[1]?.getD [])).map fun port => cutFirstQuote (cutLastQuote port)

/-- The number behind `lan`. -/
def value (port : List Char) : Nat := number (port.drop 3)

/-- `set_lldp_ports.sh`: the list after it. -/
def setLldpPorts (portList : List Char) (stateValue : StateValue) (interface : List (List Char)) :
    List (List Char) :=
  let xy := readFields '-' portList
  let x := xy[0]?.getD []
  let y := xy[1]?.getD []
  let y := if y = [] then x else y
  if number x > number y then interface
  else
    let ports := readPorts (uciShow interface)
    match stateValue with
    | .enable =>
      (List.range' (number x) (number y + 1 - number x)).map lanName ++
        ports.filter fun port => ¬ (number x ≤ value port ∧ value port ≤ number y)
    | .disable =>
      (ports.filter fun port => value port < number x ∨ number y < value port).map fun port =>
        port.take 3 ++ port.drop 3
    | .other => []

/-- A range of ports, as the command takes it. -/
structure PortRange where
  first : Nat
  last : Nat
  first_le : first ≤ last
deriving Repr

/-- `x` or `x-y`. -/
def PortRange.text (r : PortRange) : List Char :=
  if r.first = r.last then Nat.toDigits 10 r.first
  else Nat.toDigits 10 r.first ++ '-' :: Nat.toDigits 10 r.last

/-- A list of interfaces: different ports. -/
structure Interfaces where
  numbers : List Nat
  nodup : numbers.Nodup
deriving DecidableEq, Repr

def Interfaces.names (l : Interfaces) : List (List Char) := l.numbers.map lanName

/-- The ports a list stands for.  An empty one stands for `all`. -/
def effective (all : Set Nat) (interface : List (List Char)) : Set Nat :=
  if interface = [] then all else {n | lanName n ∈ interface}

/-! ## Reading the list back -/

theorem number_toDigits (n : Nat) : number (Nat.toDigits 10 n) = n := by
  simp [number]

theorem value_lanName (n : Nat) : value (lanName n) = n := number_toDigits n

theorem lanName_injective : Function.Injective lanName := fun m n h => by
  rw [← value_lanName m, h, value_lanName]

theorem not_mem_lanName {c : Char} (hc : c.isDigit = false) (hlan : c ∉ "lan".toList) (n : Nat) :
    c ∉ lanName n := by
  rw [lanName, List.mem_append, not_or]
  exact ⟨hlan, not_mem_toDigits hc n⟩

theorem not_mem_intercalate {c d : Char} (hd : c ≠ d) {ls : List (List Char)}
    (h : ∀ l ∈ ls, c ∉ l) : c ∉ [d].intercalate ls := by
  induction ls with
  | nil => simp
  | cons l ls ih =>
    rw [List.forall_mem_cons] at h
    cases ls with
    | nil => simpa using h.1
    | cons l' ls =>
      rw [List.intercalate_cons_cons, List.mem_append, List.mem_append, List.mem_singleton]
      exact fun hmem => hmem.elim (fun hmem => hmem.elim h.1 hd) (ih h.2)

/-- Taking the quotes off. -/
theorem cutQuotes (name : List Char) :
    cutFirstQuote (cutLastQuote (quote :: name ++ [quote])) = name := by
  have hlast : cutLastQuote (quote :: name ++ [quote]) = quote :: name := by
    rw [cutLastQuote, if_pos (by simp)]
    simp
  rw [hlast]
  rfl

/-- The script reads back the names that `uci show` prints. -/
theorem readPorts_uciShow (l : Interfaces) : readPorts (uciShow l.names) = l.names := by
  by_cases hnil : l.names = []
  · rw [uciShow, if_pos hnil, hnil]
    rfl
  have hquoted : ∀ w ∈ l.names.map (fun name => quote :: name ++ [quote]), ∀ c : Char,
      c.isDigit = false → c ∉ "lan".toList → c ≠ quote → c ∉ w := by
    intro w hw c hdigit hlan hquote
    obtain ⟨name, hname, rfl⟩ := List.mem_map.mp hw
    obtain ⟨n, -, rfl⟩ := List.mem_map.mp hname
    simp [hquote, not_mem_lanName hdigit hlan n]
  have hequals : '=' ∉ [' '].intercalate (l.names.map fun name => quote :: name ++ [quote]) :=
    not_mem_intercalate (by decide) fun w hw =>
      hquoted w hw '=' (by decide) (by decide) (by decide)
  have hwords : readWords ([' '].intercalate (l.names.map fun name => quote :: name ++ [quote])) =
      l.names.map fun name => quote :: name ++ [quote] := by
    rw [readWords, List.splitOn_intercalate ' '
      (fun w hw => hquoted w hw ' ' (by decide) (by decide) (by decide)) (by simpa using hnil)]
    rw [List.filter_eq_self]
    intro w hw
    obtain ⟨name, -, rfl⟩ := List.mem_map.mp hw
    simp
  have hfields : readFields '=' (uciShow l.names) = ["lldpd.config.interface".toList,
      [' '].intercalate (l.names.map fun name => quote :: name ++ [quote])] := by
    have hkey : '=' ∉ "lldpd.config.interface".toList := by decide
    have htext : uciShow l.names = "lldpd.config.interface".toList ++
        '=' :: [' '].intercalate (l.names.map fun name => quote :: name ++ [quote]) := by
      have hprint : "lldpd.config.interface=".toList =
          "lldpd.config.interface".toList ++ ['='] := by decide
      rw [uciShow, if_neg hnil, hprint, List.append_assoc, List.singleton_append]
    rw [readFields, htext, List.splitOn_append_cons_self_of_not_mem hkey,
      List.splitOn_eq_singleton hequals]
  rw [readPorts, hfields]
  simp only [List.getElem?_cons_succ, List.getElem?_cons_zero, Option.getD_some]
  rw [hwords, List.map_map]
  exact (List.map_congr_left fun name _ => cutQuotes name).trans (List.map_id _)

/-! ## What the script does -/

/-- The names outside a range. -/
def Interfaces.outside (l : Interfaces) (r : PortRange) : List Nat :=
  l.numbers.filter fun n => n < r.first ∨ r.last < n

theorem number_fields (r : PortRange) :
    ((readFields '-' r.text)[0]?.getD []) = Nat.toDigits 10 r.first ∧
      (if ((readFields '-' r.text)[1]?.getD []) = [] then
        ((readFields '-' r.text)[0]?.getD []) else ((readFields '-' r.text)[1]?.getD [])) =
          Nat.toDigits 10 r.last := by
  have hdash : ∀ n, '-' ∉ Nat.toDigits 10 n := not_mem_toDigits (by decide)
  unfold PortRange.text readFields
  split
  · rename_i heq
    rw [List.splitOn_eq_singleton (hdash _), ← heq]
    exact ⟨rfl, rfl⟩
  · rw [List.splitOn_append_cons_self_of_not_mem (hdash _), List.splitOn_eq_singleton (hdash _)]
    exact ⟨rfl, if_neg Nat.toDigits_ne_nil⟩

/-- The list that the script leaves, by its numbers. -/
theorem setLldpPorts_eq (r : PortRange) (stateValue : StateValue) (l : Interfaces) :
    setLldpPorts r.text stateValue l.names =
      (match stateValue with
      | .enable => List.range' r.first (r.last + 1 - r.first) ++ l.outside r
      | .disable => l.outside r
      | .other => []).map lanName := by
  obtain ⟨hx, hy⟩ := number_fields r
  unfold setLldpPorts
  dsimp only
  rw [hy, hx, number_toDigits, number_toDigits, if_neg (Nat.not_lt.mpr r.first_le),
    readPorts_uciShow]
  cases stateValue with
  | enable =>
    rw [List.map_append, Interfaces.outside, Interfaces.names, List.filter_map]
    refine congrArg _ (congrArg _ (List.filter_congr fun n _ => ?_))
    simp only [Function.comp_apply, value_lanName, decide_eq_decide]
    omega
  | disable =>
    simp only [List.take_append_drop, List.map_id']
    rw [Interfaces.outside, Interfaces.names, List.filter_map]
    simp only [Function.comp_def, value_lanName]
  | other => rfl

/-- The switching does to the effective set what its command says. -/
structure Switches (all : Set Nat) (stateValue : StateValue) (r : PortRange) (l : Interfaces) :
    Prop where
  effective_eq : effective all (setLldpPorts r.text stateValue l.names) =
    match stateValue with
    | .enable => effective all l.names ∪ Set.Icc r.first r.last
    | .disable => effective all l.names \ Set.Icc r.first r.last
    | .other => effective all l.names
  nodup : (setLldpPorts r.text stateValue l.names).Nodup

theorem effective_map (all : Set Nat) {l : List Nat} (h : l ≠ []) :
    effective all (l.map lanName) = {n | n ∈ l} := by
  rw [effective, if_neg (by simpa using h)]
  ext n
  exact List.mem_map_of_injective lanName_injective

theorem mem_outside (l : Interfaces) (r : PortRange) (n : Nat) :
    n ∈ l.outside r ↔ n ∈ l.numbers ∧ n ∉ Set.Icc r.first r.last := by
  rw [Interfaces.outside, List.mem_filter, Set.mem_Icc]
  refine and_congr_right fun _ => ?_
  simp only [decide_eq_true_eq]
  omega

theorem mem_range_iff (r : PortRange) (n : Nat) :
    n ∈ List.range' r.first (r.last + 1 - r.first) ↔ n ∈ Set.Icc r.first r.last := by
  have := r.first_le
  rw [List.mem_range'_1, Set.mem_Icc]
  omega

theorem nodup_setLldpPorts (r : PortRange) (stateValue : StateValue) (l : Interfaces) :
    (setLldpPorts r.text stateValue l.names).Nodup := by
  have hout : (l.outside r).Nodup := l.nodup.filter _
  rw [setLldpPorts_eq, List.nodup_map_iff lanName_injective]
  cases stateValue with
  | enable =>
    rw [List.nodup_append]
    refine ⟨List.nodup_range', hout, ?_⟩
    rintro a ha b hb rfl
    exact ((mem_outside l r a).mp hb).2 ((mem_range_iff r a).mp ha)
  | disable => exact hout
  | other => exact List.nodup_nil

theorem effective_names (all : Set Nat) (l : Interfaces) :
    effective all l.names = if l.numbers = [] then all else {n | n ∈ l.numbers} := by
  by_cases h : l.numbers = []
  · rw [if_pos h, effective, if_pos (by rw [Interfaces.names, h]; rfl)]
  · rw [if_neg h, Interfaces.names, effective_map all h]

theorem switches_enable_iff (all : Set Nat) (r : PortRange) (l : Interfaces) :
    Switches all .enable r l ↔ l.numbers ≠ [] ∨ all ⊆ Set.Icc r.first r.last := by
  have hnew : effective all (setLldpPorts r.text .enable l.names) =
      {n | n ∈ l.numbers} ∪ Set.Icc r.first r.last := by
    have hne : List.range' r.first (r.last + 1 - r.first) ++ l.outside r ≠ [] := by
      have hfirst := (mem_range_iff r r.first).mpr ⟨le_rfl, r.first_le⟩
      exact List.ne_nil_of_mem (List.mem_append_left _ hfirst)
    rw [setLldpPorts_eq, effective_map all hne]
    ext n
    rw [Set.mem_ofPred_eq, List.mem_append, mem_range_iff, mem_outside, Set.mem_union,
      Set.mem_ofPred_eq]
    tauto
  constructor
  · intro h
    have heq := h.effective_eq
    rw [hnew, effective_names] at heq
    dsimp only at heq
    by_cases hnil : l.numbers = []
    · right
      rw [if_pos hnil, hnil] at heq
      intro n hn
      have hmem : n ∈ all ∪ Set.Icc r.first r.last := Or.inl hn
      rw [← heq] at hmem
      exact hmem.resolve_left (by simp)
    · exact Or.inl hnil
  · intro h
    refine ⟨?_, nodup_setLldpPorts r .enable l⟩
    rw [hnew]
    dsimp only
    rw [effective_names]
    by_cases hnil : l.numbers = []
    · rw [if_pos hnil, hnil, Set.union_eq_self_of_subset_left (h.resolve_left fun hne => hne hnil)]
      ext n
      simp
    · rw [if_neg hnil]

theorem switches_disable_iff (all : Set Nat) (r : PortRange) (l : Interfaces) :
    Switches all .disable r l ↔
      if l.numbers = [] then all ∩ Set.Icc r.first r.last = ∅
      else (∃ n ∈ l.numbers, n ∉ Set.Icc r.first r.last) ∨ all = ∅ := by
  have hiff : Switches all .disable r l ↔
      effective all (setLldpPorts r.text .disable l.names) =
        effective all l.names \ Set.Icc r.first r.last :=
    ⟨fun h => h.effective_eq, fun h => ⟨h, nodup_setLldpPorts r .disable l⟩⟩
  rw [hiff, setLldpPorts_eq, effective_names]
  dsimp only
  by_cases hnil : l.numbers = []
  · have hout : l.outside r = [] := by rw [Interfaces.outside, hnil]; rfl
    rw [if_pos hnil, if_pos hnil, hout, List.map_nil, effective, if_pos rfl, eq_comm,
      sdiff_eq_left, Set.disjoint_iff_inter_eq_empty]
  · rw [if_neg hnil, if_neg hnil]
    by_cases hout : l.outside r = []
    · -- all ports of the list are in the range
      have hall : ∀ n ∈ l.numbers, n ∈ Set.Icc r.first r.last := by
        intro n hn
        by_contra hnot
        exact absurd ((mem_outside l r n).mpr ⟨hn, hnot⟩) (by rw [hout]; simp)
      have hempty : {n | n ∈ l.numbers} \ Set.Icc r.first r.last = ∅ := by
        ext n
        simp only [Set.mem_sdiff, Set.mem_ofPred_eq, Set.mem_empty_iff_false, iff_false]
        exact fun h => h.2 (hall n h.1)
      rw [hout, List.map_nil, effective, if_pos rfl, hempty, or_iff_right]
      rintro ⟨n, hn, hnot⟩
      exact hnot (hall n hn)
    · obtain ⟨n, hn⟩ := List.exists_mem_of_ne_nil _ hout
      refine iff_of_true ?_ (Or.inl ⟨n, (mem_outside l r n).mp hn⟩)
      rw [effective_map all hout]
      ext m
      exact mem_outside l r m

/-- **Switching acts on the effective set exactly if** no empty list is enabled
that stands for ports outside the range, none is disabled that stands for ports in
it, and no list is disabled as a whole. -/
theorem lldp_switching_iff (all : Set Nat) (r : PortRange) (l : Interfaces) :
    (Switches all .enable r l ↔ l.numbers ≠ [] ∨ all ⊆ Set.Icc r.first r.last) ∧
      (Switches all .disable r l ↔
        if l.numbers = [] then all ∩ Set.Icc r.first r.last = ∅
        else (∃ n ∈ l.numbers, n ∉ Set.Icc r.first r.last) ∨ all = ∅) :=
  ⟨switches_enable_iff all r l, switches_disable_iff all r l⟩

/-- Eight ports and no list: enabling port 1 switches the others off, and disabling
it changes nothing. -/
theorem empty_list_not_switched :
    ¬ Switches (Set.Icc 1 8) .enable ⟨1, 1, le_rfl⟩ ⟨[], List.nodup_nil⟩ ∧
      ¬ Switches (Set.Icc 1 8) .disable ⟨1, 1, le_rfl⟩ ⟨[], List.nodup_nil⟩ := by
  rw [switches_enable_iff, switches_disable_iff]
  constructor
  · rintro (hne | hsub)
    · exact hne rfl
    · have h2 := hsub (a := 2) ⟨by decide, by decide⟩
      exact absurd h2.2 (by decide)
  · intro h
    have h1 : (1 : Nat) ∈ Set.Icc 1 8 ∩ Set.Icc 1 1 := ⟨⟨by decide, by decide⟩, le_rfl, le_rfl⟩
    rw [if_pos rfl] at h
    exact absurd (h ▸ h1) (Set.notMem_empty 1)

end TfPackages.Lldp
