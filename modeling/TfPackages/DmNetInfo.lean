import Mathlib.Data.Fin.VecNotation
import Mathlib.Data.List.Infix
import Mathlib.Data.List.OfFn
import TfPackages.DmParsing

/-! # The address of the management interface

`getNETinfo` reads the output of `ifconfig`, which is made of blocks with a blank
line behind each.  A line with `switch.1` in it sets a flag that the blank line
clears; while the flag is set a line with `HWaddr` gives the MAC address, and one
with `inet addr` gives the address and the mask.  The mask is taken to be the
seventh word of the line, which it is if a broadcast address or a peer is before
it.

`net_reported_iff` says when the values are those of the interface `switch.1`: the
last of the blocks with `switch.1` in their first line has the same ones.
-/
namespace TfPackages.Dm
open CStrings

/-! ## The output of `ifconfig` -/

/-- A text on one line. -/
structure PlainText (s : List UInt8) : Prop where
  no_newline : 0x0a ∉ s
  no_nul : 0 ∉ s

abbrev Ipv4 := Fin 4 → UInt8

/-- The bytes of a number in decimal. -/
def decimalByte (b : UInt8) : List UInt8 :=
  (Nat.toDigits 10 b.toNat).map fun c => UInt8.ofNat c.toNat

/-- An address with dots. -/
def ipText (ip : Ipv4) : List UInt8 := [0x2e].intercalate (List.ofFn fun i => decimalByte (ip i))

def hexDigit (n : Nat) : UInt8 := UInt8.ofNat (if n < 10 then 0x30 + n else 0x37 + n)

/-- `%02X` -/
def hexByte (b : UInt8) : List UInt8 := [hexDigit (b.toNat / 16), hexDigit (b.toNat % 16)]

/-- A hardware address with colons. -/
def macText (mac : Fin 6 → UInt8) : List UInt8 :=
  [0x3a].intercalate (List.ofFn fun i => hexByte (mac i))

/-- The kind of an interface.  One that is not an Ethernet has a title of its own, with
whatever `ifconfig` prints as its hardware address. -/
inductive Link where
  | ethernet (mac : Fin 6 → UInt8)
  | other (title : List UInt8) (text : PlainText title) (no_colon : 0x3a ∉ title)
      (no_inet : ¬ lit "inet addr" <:+: title) (length_le : title.length ≤ 64)

def Link.text : Link → List UInt8
  | .ethernet mac => lit "Ethernet  HWaddr " ++ macText mac
  | .other title .. => title

def Link.mac? : Link → Option (Fin 6 → UInt8)
  | .ethernet mac => some mac
  | .other .. => none

/-- What may be between the address and the mask. -/
inductive Peer where
  | bcast (ip : Ipv4)
  | pointToPoint (ip : Ipv4)

def Peer.text : Peer → List UInt8
  | .bcast ip => lit "  Bcast:" ++ ipText ip
  | .pointToPoint ip => lit "  P-t-P:" ++ ipText ip

/-- The line with the address of an interface. -/
structure Inet where
  ip : Ipv4
  peer : Option Peer
  mask : Ipv4

def Inet.text (i : Inet) : List UInt8 :=
  lit "          inet addr:" ++ ipText i.ip ++ (i.peer.elim [] Peer.text) ++ lit "  Mask:" ++
    ipText i.mask

/-- A block: the first line with the name, the address, and other lines. -/
structure Block where
  name : List UInt8
  link : Link
  inet : Option Inet
  more : List (List UInt8)
  name_ne_nil : name ≠ []
  name_text : PlainText name
  name_no_blank : 0x20 ∉ name
  /-- `IFNAMSIZ` is 16. -/
  name_length : name.length ≤ 15
  more_text : ∀ l ∈ more, PlainText l ∧ l ≠ []
  more_other : ∀ l ∈ more, ¬ lit "HWaddr" <:+: l ∧ ¬ lit "inet addr" <:+: l

/-- `%-9s Link encap:` -/
def Block.header (b : Block) : List UInt8 :=
  b.name ++ List.replicate (9 - b.name.length) 0x20 ++ lit " Link encap:" ++ b.link.text ++ lit "  "

/-- The lines of a block. -/
def Block.lines (b : Block) : List (List UInt8) :=
  b.header :: ((b.inet.map Inet.text).toList ++ b.more)

/-- `ifconfig`. -/
def ifconfig (blocks : List Block) : List UInt8 :=
  blocks.flatMap fun b => (b.lines ++ [[]]).flatMap fun l => l ++ [0x0a]

/-! ## `getNETinfo` -/

/-- The fields of the search message. -/
structure NetInfo where
  mac : Fin 6 → UInt8
  ip : Ipv4
  mask : Ipv4

/-- The flag, and what has been filled in. -/
structure NetState where
  interfaceFlag : UInt8
  info : NetInfo

/-- The first `n` tokens, each read as a number; there must be so many. -/
def SplitedLine.bytes? (s : SplitedLine) (n : Nat) (read : List UInt8 → UInt8) :
    Option (Fin n → UInt8) :=
  if h : ∀ i : Fin n, (s.token? i).isSome then some fun i => read ((s.token? i).get (h i)) else none

/-- The hardware address in a line. -/
def macIn (output : List UInt8) : Option (Fin 6 → UInt8) :=
  ((splitLine output 0x20).token? 4).bind fun token =>
    (splitLine token 0x3a).bytes? 6 fun t => UInt8.ofInt (strtol16 t)

/-- An address in a token. -/
def ipIn (token : List UInt8) : Option Ipv4 :=
  (splitLine token 0x2e).bytes? 4 fun t => UInt8.ofInt (atoi t)

/-- The address and the mask in a line. -/
def inetIn (output : List UInt8) : Option (Ipv4 × Ipv4) :=
  let splitLineNET := splitLine (replaceSymbols output 0x3a 0x20) 0x20
  match (splitLineNET.token? 2).bind ipIn, (splitLineNET.token? 6).bind ipIn with
  | some ip, some mask => some (ip, mask)
  | _, _ => none

/-- The body of the loop of `getNETinfo`; `none` if it uses a pointer that is not
one. -/
def readNetLine (s : NetState) (output : List UInt8) : Option NetState :=
  let flag := if lit "switch.1" <:+: output then 1 else s.interfaceFlag
  let flag := if output.length = 1 then 2 else flag
  if flag = 1 then
    if lit "HWaddr" <:+: output then
      (macIn output).map fun mac => ⟨flag, { s.info with mac := mac }⟩
    else if lit "inet addr" <:+: output then
      (inetIn output).map fun (ip, mask) => ⟨flag, { s.info with ip := ip, mask := mask }⟩
    else some ⟨flag, s.info⟩
  else some ⟨flag, s.info⟩

/-- `getNETinfo`. -/
def getNETinfoFrom (info : NetInfo) (stream : List UInt8) : Option NetInfo :=
  ((pieces 99 [] stream).foldlM readNetLine ⟨0, info⟩).map NetState.info

/-! ## The management interface -/

/-- An output in which one block is that of the interface `switch.1`. -/
structure Interfaces where
  before : List Block
  management : Block
  after : List Block
  name_eq : management.name = lit "switch.1"
  other_names : ∀ b ∈ before ++ after, b.name ≠ lit "switch.1"

def Interfaces.blocks (o : Interfaces) : List Block := o.before ++ o.management :: o.after

/-- What a block says. -/
def Block.fill (b : Block) (info : NetInfo) : NetInfo where
  mac := b.link.mac?.getD info.mac
  ip := (b.inet.map Inet.ip).getD info.ip
  mask := (b.inet.map Inet.mask).getD info.mask

/-- The fields are filled from the block of the management interface only. -/
def NetReported (o : Interfaces) : Prop :=
  ∀ info, getNETinfoFrom info (ifconfig o.blocks) = some (o.management.fill info)

/-- The first line of the block has the name of the management interface in it. -/
def Block.Marked (b : Block) : Prop := lit "switch.1" <:+: b.header

instance (b : Block) : Decidable b.Marked := inferInstanceAs (Decidable (_ <:+: _))

/-- The lines have all the words that are looked for in them. -/
structure Block.Readable (b : Block) : Prop where
  mac : b.link.mac? = none → ¬ lit "HWaddr" <:+: b.header
  peer : ∀ i, b.inet = some i → i.peer ≠ none

/-- The last hardware address in a block that is marked. -/
def lastMac (blocks : List Block) : Option (Fin 6 → UInt8) :=
  lastRead (fun b => if b.Marked then b.link.mac? else none) blocks

/-- The last address and mask in a block that is marked. -/
def lastInet (blocks : List Block) : Option (Ipv4 × Ipv4) :=
  lastRead (fun b => if b.Marked then b.inet.map fun i => (i.ip, i.mask) else none) blocks

/-! ## Numbers -/

/-- A statement about all bytes, checked one by one. -/
theorem forall_byte {P : UInt8 → Prop} (h : ∀ n < 256, P (UInt8.ofNat n)) (b : UInt8) : P b := by
  have hb := h b.toNat b.toNat_lt
  rwa [UInt8.ofNat_toNat] at hb

/-- One to three digits. -/
theorem decimalByte_digits (b : UInt8) : decimalByte b ≠ [] ∧ (decimalByte b).length ≤ 3 ∧
    ∀ c ∈ decimalByte b, 0x30 ≤ c ∧ c ≤ 0x39 := by
  have hb := b.toNat_lt
  refine ⟨?_, ?_, fun c hc => ?_⟩
  · rw [decimalByte, Ne, List.map_eq_nil_iff]
    exact Nat.toDigits_ne_nil
  · rw [decimalByte, List.length_map, Nat.length_toDigits_le_iff (by decide) (by decide)]
    omega
  · obtain ⟨d, hd, rfl⟩ := List.mem_map.mp hc
    have hdigit := Nat.isDigit_of_mem_toDigits (by decide) (by decide) hd
    simp only [Char.isDigit, Bool.and_eq_true, decide_eq_true_eq, ge_iff_le,
      UInt32.le_iff_toNat_le] at hdigit
    have hlow : 48 ≤ d.toNat := hdigit.1
    have hhigh : d.toNat ≤ 57 := hdigit.2
    have hval : (UInt8.ofNat d.toNat).toNat = d.toNat := by
      rw [UInt8.toNat_ofNat']
      omega
    rw [UInt8.le_iff_toNat_le, UInt8.le_iff_toNat_le, hval]
    exact ⟨hlow, hhigh⟩

/-- What `strtol` reads, also at the end of a line. -/
theorem atoi_decimalByte (b : UInt8) : UInt8.ofInt (atoi (decimalByte b)) = b ∧
    UInt8.ofInt (atoi (decimalByte b ++ [0x0a])) = b := by
  revert b
  exact forall_byte (by decide +kernel)

theorem strtol16_hexByte (b : UInt8) : UInt8.ofInt (strtol16 (hexByte b)) = b := by
  revert b
  exact forall_byte (by decide +kernel)

theorem hexByte_digits (b : UInt8) :
    ∀ c ∈ hexByte b, (0x30 ≤ c ∧ c ≤ 0x39) ∨ (0x41 ≤ c ∧ c ≤ 0x46) := by
  have hdigit : ∀ n < 16, (0x30 ≤ hexDigit n ∧ hexDigit n ≤ 0x39) ∨
      (0x41 ≤ hexDigit n ∧ hexDigit n ≤ 0x46) := by decide
  have hb := b.toNat_lt
  refine List.forall_mem_cons.mpr ⟨hdigit _ (by omega), List.forall_mem_cons.mpr
    ⟨hdigit _ (by omega), fun c hc => by cases hc⟩⟩

/-! ## Tokens -/

variable {s : SplitedLine} {n : Nat} {read : List UInt8 → UInt8}

theorem bytes?_eq_some {t : Fin n → List UInt8} (h : ∀ i : Fin n, s.token? i = some (t i)) :
    s.bytes? n read = some fun i => read (t i) := by
  have hall : ∀ i : Fin n, (s.token? i).isSome := fun i => by rw [h i]; rfl
  rw [SplitedLine.bytes?, dif_pos hall]
  simp only [h, Option.get_some]

theorem bytes?_eq_none {i : Fin n} (h : s.token? i = none) : s.bytes? n read = none := by
  refine dif_neg fun hall => ?_
  have hi := hall i
  rw [h] at hi
  cases hi

/-- The tokens of a line that is not too long. -/
theorem splitLine_token? {line : List UInt8} (h : line.length ≤ 99) (d : UInt8) {i : Nat}
    (hi : i < 256) : (splitLine line d).token? i = (tokens d line)[i]? := by
  have hlen := length_tokens_le d line
  exact splitTokens_token? (by omega) hi

theorem bytes?_intercalate {d : UInt8} (t : Fin n → List UInt8) (hn : n < 256)
    (hd : ∀ i, d ∉ t i) (hne : ∀ i, t i ≠ [])
    (hlen : ([d].intercalate (List.ofFn t)).length ≤ 99) :
    (splitLine ([d].intercalate (List.ofFn t)) d).bytes? n read = some fun i => read (t i) := by
  refine bytes?_eq_some fun i => ?_
  have htokens : tokens d ([d].intercalate (List.ofFn t)) = List.ofFn t := by
    refine tokens_intercalate (fun u hu => ?_) fun u hu => ?_
    · obtain ⟨j, rfl⟩ := List.mem_ofFn.mp hu
      exact hd j
    · obtain ⟨j, rfl⟩ := List.mem_ofFn.mp hu
      exact hne j
  rw [splitLine_token? hlen d (by omega), htokens, List.getElem?_ofFn, dif_pos i.isLt]

theorem intercalate_four (d : UInt8) (t : Fin 4 → List UInt8) :
    [d].intercalate (List.ofFn t) = t 0 ++ d :: (t 1 ++ d :: (t 2 ++ d :: t 3)) := by
  simp [List.ofFn_succ, List.intercalate, List.intersperse]

theorem intercalate_six (d : UInt8) (t : Fin 6 → List UInt8) :
    [d].intercalate (List.ofFn t) =
      t 0 ++ d :: (t 1 ++ d :: (t 2 ++ d :: (t 3 ++ d :: (t 4 ++ d :: t 5)))) := by
  simp [List.ofFn_succ, List.intercalate, List.intersperse]

/-! ## Addresses -/

/-- The bytes of the line with the address. -/
def InetByte (c : UInt8) : Prop := (0x30 ≤ c ∧ c ≤ 0x39) ∨ c ∈ lit " :.BMP-acdeiknrst"

theorem inetByte_lit {c : UInt8} {l : List UInt8} (h : c ∈ l)
    (hl : l.all (fun c => decide (c ∈ lit " :.BMP-acdeiknrst")) = true) : InetByte c :=
  .inr (by simpa using List.all_eq_true.mp hl c h)

/-- Digits and dots. -/
theorem mem_ipText {ip : Ipv4} {c : UInt8} (h : c ∈ ipText ip) :
    (0x30 ≤ c ∧ c ≤ 0x39) ∨ c = 0x2e := by
  have hdigit : ∀ i, c ∈ decimalByte (ip i) → (0x30 ≤ c ∧ c ≤ 0x39) ∨ c = 0x2e := fun i hi =>
    .inl ((decimalByte_digits (ip i)).2.2 c hi)
  rw [ipText, intercalate_four] at h
  simp only [List.mem_append, List.mem_cons] at h
  rcases h with h | h | h | h | h | h | h
  · exact hdigit 0 h
  · exact .inr h
  · exact hdigit 1 h
  · exact .inr h
  · exact hdigit 2 h
  · exact .inr h
  · exact hdigit 3 h

theorem inetByte_ip {ip : Ipv4} {c : UInt8} (h : c ∈ ipText ip) : InetByte c := by
  rcases mem_ipText h with hdigit | rfl
  · exact .inl hdigit
  · exact .inr (by decide)

theorem not_mem_ipText {c : UInt8} (ip : Ipv4) (h : ¬ (0x30 ≤ c ∧ c ≤ 0x39)) (hdot : c ≠ 0x2e) :
    c ∉ ipText ip := fun hmem => (mem_ipText hmem).elim h hdot

theorem ipText_ne_nil (ip : Ipv4) : ipText ip ≠ [] := by
  rw [ipText, intercalate_four]
  simp

theorem length_ipText (ip : Ipv4) : (ipText ip).length ≤ 15 := by
  have h := fun i => (decimalByte_digits (ip i)).2.1
  have h0 := h 0
  have h1 := h 1
  have h2 := h 2
  have h3 := h 3
  rw [ipText, intercalate_four]
  simp only [List.length_append, List.length_cons]
  omega

theorem dot_not_mem_decimalByte (b : UInt8) : 0x2e ∉ decimalByte b := fun h =>
  absurd ((decimalByte_digits b).2.2 _ h) (by decide)

theorem ipIn_ipText (ip : Ipv4) : ipIn (ipText ip) = some ip := by
  have hlen := (length_ipText ip).trans (show 15 ≤ 99 by decide)
  rw [ipIn, ipText, bytes?_intercalate _ (by decide) (fun i => dot_not_mem_decimalByte _)
    (fun i => (decimalByte_digits _).1) hlen]
  exact congrArg some (funext fun i => (atoi_decimalByte (ip i)).1)

/-- The mask has the end of the line at its end. -/
theorem ipIn_ipText_newline (ip : Ipv4) : ipIn (ipText ip ++ [0x0a]) = some ip := by
  let t : Fin 4 → List UInt8 := fun i => decimalByte (ip i) ++ (if i = 3 then [0x0a] else [])
  have htext : ipText ip ++ [0x0a] = [0x2e].intercalate (List.ofFn t) := by
    rw [ipText, intercalate_four, intercalate_four]
    simp [t]
  have hlen : ([0x2e].intercalate (List.ofFn t)).length ≤ 99 := by
    rw [← htext, List.length_append, List.length_singleton]
    have := length_ipText ip
    omega
  have hdot : ∀ i, 0x2e ∉ t i := by
    intro i hmem
    rcases List.mem_append.mp hmem with hmem | hmem
    · exact dot_not_mem_decimalByte _ hmem
    · split at hmem
      · exact absurd hmem (by decide)
      · cases hmem
  have hne : ∀ i, t i ≠ [] := fun i h =>
    (decimalByte_digits (ip i)).1 (List.append_eq_nil_iff.mp h).1
  rw [ipIn, htext, bytes?_intercalate t (by decide) hdot hne hlen]
  refine congrArg some (funext fun i => ?_)
  by_cases hi : i = 3
  · simp only [t, if_pos hi]
    exact (atoi_decimalByte (ip i)).2
  · simp only [t, if_neg hi, List.append_nil]
    exact (atoi_decimalByte (ip i)).1

theorem length_macText (mac : Fin 6 → UInt8) : (macText mac).length = 17 := by
  rw [macText, intercalate_six]
  rfl

theorem mem_macText {mac : Fin 6 → UInt8} {c : UInt8} (h : c ∈ macText mac) :
    (0x30 ≤ c ∧ c ≤ 0x39) ∨ (0x41 ≤ c ∧ c ≤ 0x46) ∨ c = 0x3a := by
  have hdigit : ∀ i, c ∈ hexByte (mac i) →
      (0x30 ≤ c ∧ c ≤ 0x39) ∨ (0x41 ≤ c ∧ c ≤ 0x46) ∨ c = 0x3a := by
    intro i hi
    rcases hexByte_digits (mac i) c hi with hd | hd
    · exact .inl hd
    · exact .inr (.inl hd)
  rw [macText, intercalate_six] at h
  simp only [List.mem_append, List.mem_cons] at h
  rcases h with h | h | h | h | h | h | h | h | h | h | h
  · exact hdigit 0 h
  · exact .inr (.inr h)
  · exact hdigit 1 h
  · exact .inr (.inr h)
  · exact hdigit 2 h
  · exact .inr (.inr h)
  · exact hdigit 3 h
  · exact .inr (.inr h)
  · exact hdigit 4 h
  · exact .inr (.inr h)
  · exact hdigit 5 h

theorem bytes?_macText (mac : Fin 6 → UInt8) :
    (splitLine (macText mac) 0x3a).bytes? 6 (fun t => UInt8.ofInt (strtol16 t)) = some mac := by
  have hlen : (macText mac).length ≤ 99 := by
    rw [length_macText]
    decide
  have hcolon : ∀ i, 0x3a ∉ hexByte (mac i) := fun i h =>
    absurd (hexByte_digits (mac i) _ h) (by decide)
  rw [macText, bytes?_intercalate _ (by decide) hcolon (fun i => List.cons_ne_nil _ _) hlen]
  exact congrArg some (funext fun i => strtol16_hexByte (mac i))

/-! ## The line with the address -/

theorem inetByte_of_mem {i : Inet} {c : UInt8} (h : c ∈ i.text) : InetByte c := by
  simp only [Inet.text, List.mem_append] at h
  rcases h with (((h | h) | h) | h) | h
  · exact inetByte_lit h (by decide)
  · exact inetByte_ip h
  · cases hp : i.peer with
    | none =>
      rw [hp] at h
      cases h
    | some peer =>
      rw [hp, Option.elim_some] at h
      cases peer with
      | bcast ip =>
        rcases List.mem_append.mp h with h | h
        · exact inetByte_lit h (by decide)
        · exact inetByte_ip h
      | pointToPoint ip =>
        rcases List.mem_append.mp h with h | h
        · exact inetByte_lit h (by decide)
        · exact inetByte_ip h
  · exact inetByte_lit h (by decide)
  · exact inetByte_ip h

theorem not_mem_inetText {c : UInt8} (i : Inet) (hdigit : ¬ (0x30 ≤ c ∧ c ≤ 0x39))
    (hother : c ∉ lit " :.BMP-acdeiknrst") : c ∉ i.text := fun h =>
  (inetByte_of_mem h).elim hdigit hother

theorem length_inetText (i : Inet) : i.text.length ≤ 80 := by
  have hip := length_ipText i.ip
  have hmask := length_ipText i.mask
  have hpeer : (i.peer.elim [] Peer.text).length ≤ 23 := by
    cases i.peer with
    | none => simp
    | some peer =>
      cases peer with
      | bcast ip =>
        have := length_ipText ip
        simp [Peer.text, lit]
        omega
      | pointToPoint ip =>
        have := length_ipText ip
        simp [Peer.text, lit]
        omega
  simp [Inet.text, lit]
  omega

theorem replaceSymbols_ipText (ip : Ipv4) : replaceSymbols (ipText ip) 0x3a 0x20 = ipText ip :=
  replaceSymbols_of_not_mem (not_mem_ipText ip (by decide) (by decide)) _

theorem tokens_ipText (ip : Ipv4) : tokens 0x20 (ipText ip) = [ipText ip] :=
  tokens_of_not_mem (not_mem_ipText ip (by decide) (by decide)) (ipText_ne_nil ip)

theorem tokens_ipText_newline (ip : Ipv4) :
    tokens 0x20 (ipText ip ++ [0x0a]) = [ipText ip ++ [0x0a]] := by
  refine tokens_of_not_mem (fun hmem => ?_) (by simp)
  rcases List.mem_append.mp hmem with hmem | hmem
  · exact not_mem_ipText ip (by decide) (by decide) hmem
  · exact absurd hmem (by decide)

theorem Inet.text_eq (i : Inet) : i.text ++ [0x0a] =
    lit "          inet addr:" ++ (ipText i.ip ++ (i.peer.elim [] Peer.text ++
      (lit "  Mask:" ++ (ipText i.mask ++ [0x0a])))) := by
  simp only [Inet.text, List.append_assoc]

theorem replaceSymbols_length (i : Inet) :
    (replaceSymbols (i.text ++ [0x0a]) 0x3a 0x20).length ≤ 99 := by
  have hlen := length_inetText i
  rw [replaceSymbols, List.length_map, List.length_append, List.length_singleton]
  omega

/-- The words of the line with the address. -/
theorem tokens_inetText (i : Inet) : tokens 0x20 (replaceSymbols (i.text ++ [0x0a]) 0x3a 0x20) =
    [lit "inet", lit "addr"] ++
      (tokens 0x20 (ipText i.ip ++ replaceSymbols (i.peer.elim [] Peer.text) 0x3a 0x20) ++
        [lit "Mask", ipText i.mask ++ [0x0a]]) := by
  have haddr : replaceSymbols (lit "          inet addr:") 0x3a 0x20 =
      lit "          inet addr" ++ [0x20] := by decide
  have hmask : replaceSymbols (lit "  Mask:") 0x3a 0x20 = 0x20 :: (lit " Mask" ++ [0x20]) := by
    decide
  have hend : replaceSymbols [0x0a] 0x3a 0x20 = [0x0a] := by decide
  have hline : replaceSymbols (i.text ++ [0x0a]) 0x3a 0x20 =
      lit "          inet addr" ++ 0x20 :: (ipText i.ip ++
        replaceSymbols (i.peer.elim [] Peer.text) 0x3a 0x20 ++
          0x20 :: (lit " Mask" ++ 0x20 :: (ipText i.mask ++ [0x0a]))) := by
    rw [Inet.text_eq]
    simp only [replaceSymbols_append, replaceSymbols_ipText, haddr, hmask, hend]
    simp only [List.append_assoc, List.cons_append, List.nil_append]
  have hfirst : tokens 0x20 (lit "          inet addr") = [lit "inet", lit "addr"] := by decide
  have hword : tokens 0x20 (lit " Mask") = [lit "Mask"] := by decide
  rw [hline, tokens_append_delim, tokens_append_delim, tokens_append_delim, hfirst, hword,
    tokens_ipText_newline]
  rfl

/-- **The line with the address**, with a peer. -/
theorem inetIn_text {i : Inet} (h : i.peer ≠ none) :
    inetIn (i.text ++ [0x0a]) = some (i.ip, i.mask) := by
  obtain ⟨peer, hpeer⟩ := Option.ne_none_iff_exists'.mp h
  obtain ⟨w, a, hwords⟩ : ∃ w a, tokens 0x20 (replaceSymbols (i.text ++ [0x0a]) 0x3a 0x20) =
      [lit "inet", lit "addr", ipText i.ip, w, a, lit "Mask", ipText i.mask ++ [0x0a]] := by
    have hword : ∀ (word : List UInt8) (ip : Ipv4), tokens 0x20 word = [word] →
        tokens 0x20 (ipText i.ip ++ 0x20 :: (0x20 :: (word ++ 0x20 :: ipText ip))) =
          [ipText i.ip, word, ipText ip] := by
      intro word ip hword
      rw [tokens_append_delim, ← List.nil_append (0x20 :: (word ++ _)), tokens_append_delim,
        tokens_append_delim, tokens_ipText, tokens_ipText, hword]
      rfl
    rw [tokens_inetText, hpeer, Option.elim_some]
    cases peer with
    | bcast ip =>
      have htext : replaceSymbols (Peer.bcast ip).text 0x3a 0x20 =
          0x20 :: 0x20 :: (lit "Bcast" ++ 0x20 :: ipText ip) := by
        rw [Peer.text, replaceSymbols_append, replaceSymbols_ipText]
        rfl
      rw [htext, hword (lit "Bcast") ip (by decide)]
      exact ⟨_, _, rfl⟩
    | pointToPoint ip =>
      have htext : replaceSymbols (Peer.pointToPoint ip).text 0x3a 0x20 =
          0x20 :: 0x20 :: (lit "P-t-P" ++ 0x20 :: ipText ip) := by
        rw [Peer.text, replaceSymbols_append, replaceSymbols_ipText]
        rfl
      rw [htext, hword (lit "P-t-P") ip (by decide)]
      exact ⟨_, _, rfl⟩
  have hlen := replaceSymbols_length i
  rw [inetIn]
  rw [splitLine_token? hlen _ (by decide), splitLine_token? hlen _ (by decide), hwords]
  simp only [List.getElem?_cons_succ, List.getElem?_cons_zero, Option.bind_some, ipIn_ipText,
    ipIn_ipText_newline]

/-- Without a peer there is no seventh word. -/
theorem inetIn_text_none {i : Inet} (h : i.peer = none) : inetIn (i.text ++ [0x0a]) = none := by
  have hwords : tokens 0x20 (replaceSymbols (i.text ++ [0x0a]) 0x3a 0x20) =
      [lit "inet", lit "addr", ipText i.ip, lit "Mask", ipText i.mask ++ [0x0a]] := by
    have hnil : replaceSymbols [] 0x3a 0x20 = [] := rfl
    rw [tokens_inetText, h, Option.elim_none, hnil, List.append_nil, tokens_ipText]
    rfl
  have hlen := replaceSymbols_length i
  rw [inetIn]
  rw [splitLine_token? hlen _ (by decide), splitLine_token? hlen _ (by decide), hwords]
  simp only [List.getElem?_cons_succ, List.getElem?_cons_zero, List.getElem?_nil,
    Option.bind_some, Option.bind_none, ipIn_ipText]

/-! ## The first line -/

variable (b : Block)

theorem header_eq : b.header ++ [0x0a] =
    (b.name ++ List.replicate (9 - b.name.length) 0x20) ++
      0x20 :: (lit "Link encap:" ++ (b.link.text ++ lit "  \n")) := by
  simp [Block.header, lit]

theorem length_linkText (l : Link) : l.text.length ≤ 64 := by
  cases l with
  | ethernet mac =>
    have := length_macText mac
    simp [Link.text, lit]
    omega
  | other title _ _ _ hlen => exact hlen

theorem newline_not_mem_linkText (l : Link) : 0x0a ∉ l.text := by
  cases l with
  | ethernet mac =>
    intro hmem
    rcases List.mem_append.mp hmem with hmem | hmem
    · exact absurd hmem (by decide)
    · exact absurd (mem_macText hmem) (by decide)
  | other title htext _ _ _ => exact htext.no_newline

theorem length_header : b.header.length ≤ 93 := by
  have hname := b.name_length
  have hlink := length_linkText b.link
  simp [Block.header, lit]
  omega

theorem newline_not_mem_header : 0x0a ∉ b.header := by
  simp [Block.header, lit, b.name_text.no_newline, newline_not_mem_linkText]

theorem tokens_name : tokens 0x20 (b.name ++ List.replicate (9 - b.name.length) 0x20) =
    [b.name] := by
  generalize 9 - b.name.length = k
  induction k with
  | zero =>
    rw [List.replicate_zero, List.append_nil]
    exact tokens_of_not_mem b.name_no_blank b.name_ne_nil
  | succ k ih =>
    rw [List.replicate_succ', ← List.append_assoc, tokens_append_delim, ih]
    rfl

/-- **The hardware address of an Ethernet.** -/
theorem macIn_header {mac : Fin 6 → UInt8} (h : b.link = .ethernet mac) :
    macIn (b.header ++ [0x0a]) = some mac := by
  have hlen : (b.header ++ [0x0a]).length ≤ 99 := by
    have := length_header b
    rw [List.length_append, List.length_singleton]
    omega
  have hwords : tokens 0x20 (b.header ++ [0x0a]) =
      [b.name, lit "Link", lit "encap:Ethernet", lit "HWaddr", macText mac, [0x0a]] := by
    have hline : b.header ++ [0x0a] = (b.name ++ List.replicate (9 - b.name.length) 0x20) ++
        0x20 :: (lit "Link encap:Ethernet  HWaddr" ++ 0x20 :: (macText mac ++
          0x20 :: lit " \n")) := by
      rw [header_eq, h]
      simp [Link.text, lit]
    have hfixed : tokens 0x20 (lit "Link encap:Ethernet  HWaddr") =
        [lit "Link", lit "encap:Ethernet", lit "HWaddr"] := by decide
    have hend : tokens 0x20 (lit " \n") = [[0x0a]] := by decide
    have hmac : tokens 0x20 (macText mac) = [macText mac] := by
      refine tokens_of_not_mem (fun hmem => absurd (mem_macText hmem) (by decide)) ?_
      intro hnil
      have hmaclen := length_macText mac
      rw [hnil] at hmaclen
      cases hmaclen
    rw [hline, tokens_append_delim, tokens_append_delim, tokens_append_delim, tokens_name, hfixed,
      hmac, hend]
    rfl
  rw [macIn, splitLine_token? hlen _ (by decide), hwords]
  simp only [List.getElem?_cons_succ, List.getElem?_cons_zero, Option.bind_some]
  exact bytes?_macText mac

/-- Behind the third word there is no colon, so that what is there cannot be read. -/
theorem macIn_header_other (h : b.link.mac? = none) : macIn (b.header ++ [0x0a]) = none := by
  have hlen : (b.header ++ [0x0a]).length ≤ 99 := by
    have := length_header b
    rw [List.length_append, List.length_singleton]
    omega
  have hcolon : 0x3a ∉ b.link.text ++ lit "  \n" := by
    cases hl : b.link with
    | ethernet mac =>
      rw [hl] at h
      cases h
    | other title _ hno _ _ =>
      intro hmem
      rcases List.mem_append.mp hmem with hmem | hmem
      · exact hno hmem
      · exact absurd hmem (by decide)
  obtain ⟨p, ts, htokens, hts⟩ := tokens_append_of_not_mem (d := 0x20) (a := lit "encap:")
    (by decide) (by decide) (b.link.text ++ lit "  \n")
  have hwords : tokens 0x20 (b.header ++ [0x0a]) =
      b.name :: lit "Link" :: (lit "encap:" ++ p) :: ts := by
    have hsplit : lit "Link encap:" ++ (b.link.text ++ lit "  \n") =
        lit "Link" ++ 0x20 :: (lit "encap:" ++ (b.link.text ++ lit "  \n")) := by simp [lit]
    have hlink : tokens 0x20 (lit "Link") = [lit "Link"] := by decide
    rw [header_eq, tokens_append_delim, tokens_name, hsplit, tokens_append_delim, htokens, hlink]
    rfl
  rw [macIn, splitLine_token? hlen _ (by decide), hwords]
  simp only [List.getElem?_cons_succ]
  cases ht : ts[1]? with
  | none => rfl
  | some t =>
    have hmem := hts t (List.mem_of_getElem? ht)
    have htcolon : 0x3a ∉ t := fun hin => hcolon (mem_of_mem_tokens hmem hin)
    have hone := tokens_of_not_mem htcolon (ne_nil_of_mem_tokens hmem)
    have htlen : t.length ≤ 99 := by
      have h1 := length_le_of_mem_tokens hmem
      have h2 := length_linkText b.link
      simp only [List.length_append] at h1
      have h3 : (lit "  \n").length = 3 := by decide
      omega
    rw [Option.bind_some]
    refine bytes?_eq_none (i := 1) ?_
    rw [splitLine_token? htlen _ (by decide), hone]
    rfl

theorem marked_iff : lit "switch.1" <:+: b.header ++ [0x0a] ↔ b.Marked := by
  have hlast : lit "switch.1" = lit "switch." ++ [0x31] := by decide
  constructor
  · intro h
    rw [hlast] at h
    rw [Block.Marked, hlast]
    exact infix_of_append_left (by decide) h
  · intro h
    exact h.trans List.infix_append_left

theorem hwaddr_infix_iff : lit "HWaddr" <:+: b.header ++ [0x0a] ↔ lit "HWaddr" <:+: b.header := by
  have hlast : lit "HWaddr" = lit "HWadd" ++ [0x72] := by decide
  constructor
  · intro h
    rw [hlast] at h ⊢
    exact infix_of_append_left (by decide) h
  · intro h
    exact h.trans List.infix_append_left

theorem hwaddr_infix_ethernet {mac : Fin 6 → UInt8} (h : b.link = .ethernet mac) :
    lit "HWaddr" <:+: b.header := by
  have hline : b.header = (b.name ++ List.replicate (9 - b.name.length) 0x20 ++
      lit " Link encap:Ethernet  ") ++ lit "HWaddr" ++ (0x20 :: (macText mac ++ lit "  ")) := by
    rw [Block.header, h]
    simp [Link.text, lit]
  rw [hline]
  exact List.infix_append ..

/-- The name has no blank in it, and what is behind it is not an address. -/
theorem inet_not_infix_header (h : b.link.mac? = none) :
    ¬ lit "inet addr" <:+: b.header ++ [0x0a] := by
  have hlast : lit "inet addr" = lit "inet add" ++ [0x72] := by decide
  intro hin
  have hsplit : b.header ++ [0x0a] =
      (b.name ++ (List.replicate (9 - b.name.length) 0x20 ++ lit " Link encap")) ++
        0x3a :: (b.link.text ++ lit "  \n") := by
    rw [header_eq]
    simp [lit]
  rw [hsplit] at hin
  rcases infix_append_cons (by decide) hin with hin | hin
  · -- The last letter is in the name, and so is the blank.
    rw [hlast] at hin
    have hname := infix_of_append_left (by simp [lit]) hin
    exact b.name_no_blank (hname.mem (by decide))
  · rw [hlast] at hin
    have htitle := infix_of_append_left (by decide) hin
    cases hl : b.link with
    | ethernet mac =>
      rw [hl] at h
      cases h
    | other title _ _ hno _ =>
      rw [hl] at htitle
      exact hno (hlast ▸ htitle)

/-! ## The steps of the loop -/

variable (st : NetState)

theorem readNetLine_quiet {p : List UInt8} (hhw : ¬ lit "HWaddr" <:+: p)
    (hinet : ¬ lit "inet addr" <:+: p) : ∃ f, readNetLine st p = some ⟨f, st.info⟩ := by
  unfold readNetLine
  dsimp only
  rw [if_neg hhw, if_neg hinet, ite_self]
  exact ⟨_, rfl⟩

theorem foldlM_quiet {ps : List (List UInt8)}
    (h : ∀ p ∈ ps, ¬ lit "HWaddr" <:+: p ∧ ¬ lit "inet addr" <:+: p) :
    ∃ f, ps.foldlM readNetLine st = some ⟨f, st.info⟩ := by
  induction ps generalizing st with
  | nil => exact ⟨st.interfaceFlag, rfl⟩
  | cons p ps ih =>
    obtain ⟨hp, hps⟩ := List.forall_mem_cons.mp h
    obtain ⟨f, hf⟩ := readNetLine_quiet st hp.1 hp.2
    rw [List.foldlM_cons, hf]
    exact ih ⟨f, st.info⟩ hps

/-- A blank line clears the flag. -/
theorem readNetLine_blank : readNetLine st [0x0a] = some ⟨2, st.info⟩ := by
  unfold readNetLine
  dsimp only
  rw [if_pos (show [(0x0a : UInt8)].length = 1 from rfl), if_neg (by decide)]

theorem header_length_ne_one : (b.header ++ [0x0a]).length ≠ 1 := by
  have hpos := List.length_pos_iff.mpr b.name_ne_nil
  simp only [Block.header, List.length_append, List.length_singleton]
  omega

/-- The first line of a block that is not marked changes nothing. -/
theorem readNetLine_unmarked (h : ¬ b.Marked) (hflag : st.interfaceFlag ≠ 1) :
    readNetLine st (b.header ++ [0x0a]) = some st := by
  unfold readNetLine
  dsimp only
  rw [if_neg (mt (marked_iff b).mp h), if_neg (header_length_ne_one b), if_neg hflag]

/-- The first line of a block that is marked. -/
theorem readNetLine_marked (h : b.Marked)
    (hmac : b.link.mac? = none → ¬ lit "HWaddr" <:+: b.header) :
    readNetLine st (b.header ++ [0x0a]) =
      some ⟨1, { st.info with mac := b.link.mac?.getD st.info.mac }⟩ := by
  unfold readNetLine
  dsimp only
  rw [if_pos ((marked_iff b).mpr h), if_neg (header_length_ne_one b), if_pos rfl]
  cases hl : b.link with
  | ethernet mac =>
    rw [if_pos ((hwaddr_infix_iff b).mpr (hwaddr_infix_ethernet b hl)), macIn_header b hl]
    rfl
  | other title htext hcolon hinet hlen =>
    have hnone : b.link.mac? = none := by rw [hl]; rfl
    rw [if_neg (mt (hwaddr_infix_iff b).mp (hmac hnone)), if_neg (inet_not_infix_header b hnone)]
    rfl

theorem readNetLine_marked_none (h : b.Marked) (hmac : b.link.mac? = none)
    (hhw : lit "HWaddr" <:+: b.header) : readNetLine st (b.header ++ [0x0a]) = none := by
  unfold readNetLine
  dsimp only
  rw [if_pos ((marked_iff b).mpr h), if_neg (header_length_ne_one b), if_pos rfl,
    if_pos ((hwaddr_infix_iff b).mpr hhw), macIn_header_other b hmac]
  rfl

/-- The line with the address, as far as it is looked at. -/
theorem readNetLine_inet (i : Inet) : readNetLine st (i.text ++ [0x0a]) =
    if st.interfaceFlag = 1 then
      (inetIn (i.text ++ [0x0a])).map fun (ip, mask) =>
        ⟨st.interfaceFlag, { st.info with ip := ip, mask := mask }⟩
    else some st := by
  have hswitch : ¬ lit "switch.1" <:+: i.text ++ [0x0a] := by
    intro hin
    have hmem : (0x77 : UInt8) ∈ i.text ++ [0x0a] := hin.mem (by decide)
    rcases List.mem_append.mp hmem with hmem | hmem
    · exact not_mem_inetText i (by decide) (by decide) hmem
    · exact absurd hmem (by decide)
  have hhw : ¬ lit "HWaddr" <:+: i.text ++ [0x0a] := by
    intro hin
    have hmem : (0x57 : UInt8) ∈ i.text ++ [0x0a] := hin.mem (by decide)
    rcases List.mem_append.mp hmem with hmem | hmem
    · exact not_mem_inetText i (by decide) (by decide) hmem
    · exact absurd hmem (by decide)
  have hinet : lit "inet addr" <:+: i.text ++ [0x0a] := by
    have hstart : lit "          inet addr:" = lit "          " ++ lit "inet addr" ++ [0x3a] := by
      decide
    rw [Inet.text_eq, hstart, List.append_assoc]
    exact List.infix_append ..
  have hlen : (i.text ++ [0x0a]).length ≠ 1 := by
    simp [Inet.text, lit]
  unfold readNetLine
  dsimp only
  rw [if_neg hswitch, if_neg hlen, if_neg hhw, if_pos hinet]

/-! ## A block -/

/-- The pieces of a line. -/
def linePieces (l : List UInt8) : List (List UInt8) := pieces 99 [] (l ++ [0x0a])

theorem linePieces_header : linePieces b.header = [b.header ++ [0x0a]] :=
  pieces_line (newline_not_mem_header b) (Nat.lt_of_le_of_lt (length_header b) (by decide))

theorem linePieces_inet (i : Inet) : linePieces i.text = [i.text ++ [0x0a]] :=
  pieces_line (not_mem_inetText i (by decide) (by decide))
    (Nat.lt_of_le_of_lt (length_inetText i) (by decide))

/-- What is behind the address of a block changes nothing but the flag. -/
theorem foldlM_more : ((b.more ++ [[]]).flatMap linePieces).foldlM readNetLine st =
    some ⟨2, st.info⟩ := by
  have hquiet : ∀ p ∈ b.more.flatMap linePieces,
      ¬ lit "HWaddr" <:+: p ∧ ¬ lit "inet addr" <:+: p := by
    have hhw : lit "HWaddr" = lit "HWadd" ++ [0x72] := by decide
    have hinet : lit "inet addr" = lit "inet add" ++ [0x72] := by decide
    intro p hp
    obtain ⟨l, hl, hp⟩ := List.mem_flatMap.mp hp
    have hin := infix_of_mem_pieces hp
    rw [List.nil_append] at hin
    obtain ⟨hno, hno'⟩ := b.more_other l hl
    rw [hhw] at hno ⊢
    rw [hinet] at hno' ⊢
    exact ⟨fun h => hno (infix_of_append_left (by decide) (h.trans hin)),
      fun h => hno' (infix_of_append_left (by decide) (h.trans hin))⟩
  obtain ⟨f, hf⟩ := foldlM_quiet st hquiet
  have hblank : [[]].flatMap linePieces = [[0x0a]] := by decide
  rw [List.flatMap_append, List.foldlM_append, hf, hblank]
  exact readNetLine_blank ⟨f, st.info⟩

/-- A block that is marked fills in what it says. -/
def Block.apply (b : Block) (info : NetInfo) : NetInfo := if b.Marked then b.fill info else info

theorem blockPieces : (b.lines ++ [[]]).flatMap linePieces =
    (b.header ++ [0x0a]) :: ((b.inet.map Inet.text).toList.flatMap linePieces ++
      (b.more ++ [[]]).flatMap linePieces) := by
  rw [Block.lines, List.cons_append, List.append_assoc, List.flatMap_cons, linePieces_header,
    List.flatMap_append, List.singleton_append]

/-- **A block**: from a state without the flag to another one. -/
theorem foldlM_block (hflag : st.interfaceFlag ≠ 1) (h : b.Marked → b.Readable) :
    ((b.lines ++ [[]]).flatMap linePieces).foldlM readNetLine st = some ⟨2, b.apply st.info⟩ := by
  rw [blockPieces, List.foldlM_cons]
  by_cases hm : b.Marked
  · obtain ⟨hmac, hpeer⟩ := h hm
    rw [readNetLine_marked b st hm hmac, Option.bind_eq_bind, Option.bind_some,
      List.foldlM_append]
    cases hi : b.inet with
    | none =>
      simp only [Option.map_none, Option.toList_none, List.flatMap_nil, List.foldlM_nil,
        Option.pure_def, Option.bind_eq_bind, Option.bind_some]
      rw [foldlM_more, Block.apply, if_pos hm, Block.fill, hi]
      rfl
    | some i =>
      simp only [Option.map_some, Option.toList_some, List.flatMap_cons, List.flatMap_nil,
        List.append_nil, linePieces_inet, List.foldlM_cons, List.foldlM_nil, readNetLine_inet,
        if_true, inetIn_text (hpeer i hi), Option.bind_eq_bind, Option.pure_def, Option.bind_some]
      rw [foldlM_more, Block.apply, if_pos hm, Block.fill, hi]
      rfl
  · rw [readNetLine_unmarked b st hm hflag, Option.bind_eq_bind, Option.bind_some,
      List.foldlM_append]
    have hinet : ((b.inet.map Inet.text).toList.flatMap linePieces).foldlM readNetLine st =
        some st := by
      cases b.inet with
      | none => rfl
      | some i =>
        simp only [Option.map_some, Option.toList_some, List.flatMap_cons, List.flatMap_nil,
          List.append_nil, linePieces_inet, List.foldlM_cons, List.foldlM_nil, readNetLine_inet,
          if_neg hflag, Option.bind_eq_bind, Option.pure_def, Option.bind_some]
    rw [hinet, Option.bind_eq_bind, Option.bind_some, foldlM_more, Block.apply, if_neg hm]

/-- A block that is marked and cannot be read stops the client. -/
theorem readable_of_foldlM {st' : NetState} (hm : b.Marked)
    (h : ((b.lines ++ [[]]).flatMap linePieces).foldlM readNetLine st = some st') :
    b.Readable := by
  rw [blockPieces, List.foldlM_cons] at h
  have hmac : b.link.mac? = none → ¬ lit "HWaddr" <:+: b.header := by
    intro hnone hhw
    rw [readNetLine_marked_none b st hm hnone hhw] at h
    cases h
  refine ⟨hmac, fun i hi hpeer => ?_⟩
  rw [readNetLine_marked b st hm hmac, hi, Option.bind_eq_bind, Option.bind_some,
    List.foldlM_append] at h
  simp only [Option.map_some, Option.toList_some, List.flatMap_cons, List.flatMap_nil,
    List.append_nil, linePieces_inet, List.foldlM_cons, List.foldlM_nil, readNetLine_inet,
    if_true, inetIn_text_none hpeer, Option.bind_eq_bind, Option.map_none,
    Option.bind_none] at h
  cases h

/-! ## The whole output -/

theorem pieces_ifconfig (blocks : List Block) : pieces 99 [] (ifconfig blocks) =
    blocks.flatMap fun b => (b.lines ++ [[]]).flatMap linePieces := by
  rw [ifconfig, ← List.flatMap_assoc, pieces_flatMap 99 fun l => l, List.flatMap_assoc]
  rfl

theorem foldlM_blocks {blocks : List Block} (h : ∀ b ∈ blocks, b.Marked → b.Readable)
    (st : NetState) (hflag : st.interfaceFlag ≠ 1) :
    ∃ f, (blocks.flatMap fun b => (b.lines ++ [[]]).flatMap linePieces).foldlM readNetLine st =
      some ⟨f, blocks.foldl (fun info b => b.apply info) st.info⟩ := by
  induction blocks generalizing st with
  | nil => exact ⟨st.interfaceFlag, rfl⟩
  | cons b blocks ih =>
    obtain ⟨hb, hblocks⟩ := List.forall_mem_cons.mp h
    rw [List.flatMap_cons, List.foldlM_append, foldlM_block b st hflag hb, Option.bind_eq_bind,
      Option.bind_some, List.foldl_cons]
    exact ih hblocks ⟨2, b.apply st.info⟩ (show (2 : UInt8) ≠ 1 by decide)

theorem readable_of_blocks {blocks : List Block} {st st' : NetState} (hflag : st.interfaceFlag ≠ 1)
    (h : (blocks.flatMap fun b => (b.lines ++ [[]]).flatMap linePieces).foldlM readNetLine st =
      some st') : ∀ b ∈ blocks, b.Marked → b.Readable := by
  induction blocks generalizing st with
  | nil => exact fun b hb => by cases hb
  | cons b blocks ih =>
    rw [List.flatMap_cons, List.foldlM_append, Option.bind_eq_bind, Option.bind_eq_some_iff] at h
    obtain ⟨st₁, hblock, hrest⟩ := h
    have hb : b.Marked → b.Readable := fun hm => readable_of_foldlM b st hm hblock
    rw [foldlM_block b st hflag hb, Option.some_inj] at hblock
    subst hblock
    exact List.forall_mem_cons.mpr ⟨hb, ih (show (2 : UInt8) ≠ 1 by decide) hrest⟩

theorem getD_or {α : Type} (o o' : Option α) (a : α) : (o.or o').getD a = o.getD (o'.getD a) := by
  cases o <;> rfl

/-- The last block that says something decides. -/
theorem foldl_apply (blocks : List Block) (info : NetInfo) :
    blocks.foldl (fun info b => b.apply info) info =
      ⟨(lastMac blocks).getD info.mac, ((lastInet blocks).map Prod.fst).getD info.ip,
        ((lastInet blocks).map Prod.snd).getD info.mask⟩ := by
  induction blocks generalizing info with
  | nil => rfl
  | cons b blocks ih =>
    have hmac : (lastMac (b :: blocks)).getD info.mac =
        (lastMac blocks).getD (b.apply info).mac := by
      rw [lastMac, lastRead_cons, getD_or, ← lastMac, Block.apply]
      split <;> rfl
    have hinet : ∀ (f : Ipv4 × Ipv4 → Ipv4) (g : NetInfo → Ipv4),
        (b.Marked → g (b.fill info) = ((b.inet.map fun i => (i.ip, i.mask)).map f).getD (g info)) →
        ((lastInet (b :: blocks)).map f).getD (g info) =
          ((lastInet blocks).map f).getD (g (b.apply info)) := by
      intro f g hg
      rw [lastInet, lastRead_cons, ← lastInet, Option.map_or, getD_or, Block.apply]
      split
      · rename_i hm
        rw [hg hm]
      · rfl
    rw [List.foldl_cons, ih, hmac, hinet Prod.fst NetInfo.ip, hinet Prod.snd NetInfo.mask]
    · intro _
      cases hi : b.inet <;> simp [Block.fill, hi]
    · intro _
      cases hi : b.inet <;> simp [Block.fill, hi]

/-- **What `getNETinfo` does with a whole output.** -/
theorem getNETinfoFrom_eq_some_iff (blocks : List Block) (info info' : NetInfo) :
    getNETinfoFrom info (ifconfig blocks) = some info' ↔
      (∀ b ∈ blocks, b.Marked → b.Readable) ∧
        info' = ⟨(lastMac blocks).getD info.mac, ((lastInet blocks).map Prod.fst).getD info.ip,
          ((lastInet blocks).map Prod.snd).getD info.mask⟩ := by
  have hflag : (NetState.mk 0 info).interfaceFlag ≠ 1 := show (0 : UInt8) ≠ 1 by decide
  rw [getNETinfoFrom, pieces_ifconfig, ← foldl_apply]
  constructor
  · intro h
    obtain ⟨st, hst, rfl⟩ := Option.map_eq_some_iff.mp h
    have hread := readable_of_blocks hflag hst
    obtain ⟨f, hf⟩ := foldlM_blocks hread ⟨0, info⟩ hflag
    rw [hf, Option.some_inj] at hst
    exact ⟨hread, hst ▸ rfl⟩
  · rintro ⟨hread, rfl⟩
    obtain ⟨f, hf⟩ := foldlM_blocks hread ⟨0, info⟩ hflag
    rw [hf]
    rfl

/-- Two values that fill a field in the same way, whatever was in it. -/
theorem getD_congr_iff {n : Nat} {o o' : Option (Fin (n + 1) → UInt8)} :
    (∀ a, o.getD a = o'.getD a) ↔ o = o' := by
  constructor
  · intro h
    -- A value that is only filled in once is told apart by one of these.
    have h0 := congrFun (h fun _ => 0) 0
    have h1 := congrFun (h fun _ => 1) 0
    cases o with
    | none =>
      cases o' with
      | none => rfl
      | some v => exact absurd (h0.trans h1.symm) (by simp)
    | some u =>
      cases o' with
      | none => exact absurd (h0.symm.trans h1) (by simp)
      | some v => exact congrArg some (h u)
  · rintro rfl a
    rfl

/-- **When the address of the management interface is reported**: of the blocks with
`switch.1` in their first line, every one can be read, and the last one with a
hardware address and the last one with an address say what the block of the
interface says. -/
theorem net_reported_iff (o : Interfaces) :
    NetReported o ↔ (∀ b ∈ o.blocks, b.Marked → b.Readable) ∧
      lastMac o.blocks = o.management.link.mac? ∧
        lastInet o.blocks = o.management.inet.map fun i => (i.ip, i.mask) := by
  have hsplit : ∀ f : Ipv4 × Ipv4 → Ipv4, ∀ g : Inet → Ipv4, (∀ i, f (i.ip, i.mask) = g i) →
      (o.management.inet.map fun i => (i.ip, i.mask)).map f = o.management.inet.map g := by
    intro f g hfg
    cases o.management.inet with
    | none => rfl
    | some i => exact congrArg some (hfg i)
  simp only [NetReported, getNETinfoFrom_eq_some_iff, forall_and, Block.fill, NetInfo.mk.injEq]
  constructor
  · rintro ⟨hread, hmac, hip, hmask⟩
    refine ⟨hread ⟨fun _ => 0, fun _ => 0, fun _ => 0⟩, ?_, ?_⟩
    · exact getD_congr_iff.mp fun a => (hmac ⟨a, fun _ => 0, fun _ => 0⟩).symm
    · have hfst : (lastInet o.blocks).map Prod.fst = o.management.inet.map Inet.ip :=
        getD_congr_iff.mp fun a => (hip ⟨fun _ => 0, a, fun _ => 0⟩).symm
      have hsnd : (lastInet o.blocks).map Prod.snd = o.management.inet.map Inet.mask :=
        getD_congr_iff.mp fun a => (hmask ⟨fun _ => 0, fun _ => 0, a⟩).symm
      cases hl : lastInet o.blocks with
      | none =>
        rw [hl] at hfst
        rw [Option.map_eq_none_iff.mp hfst.symm]
        rfl
      | some p =>
        rw [hl] at hfst hsnd
        obtain ⟨i, hi, hip⟩ := Option.map_eq_some_iff.mp hfst.symm
        rw [hi] at hsnd ⊢
        exact congrArg some (Prod.ext hip.symm (Option.some_inj.mp hsnd))
  · rintro ⟨hread, hmac, hinet⟩
    refine ⟨fun _ => hread, fun info => ?_, fun info => ?_, fun info => ?_⟩
    · rw [hmac]
    · rw [hinet, hsplit Prod.fst Inet.ip fun i => rfl]
    · rw [hinet, hsplit Prod.snd Inet.mask fun i => rfl]

/-- An Ethernet interface with its addresses. -/
def vlanBlock (name : List UInt8) (mac : Fin 6 → UInt8) (ip : Ipv4) (hne : name ≠ [])
    (htext : PlainText name) (hblank : 0x20 ∉ name) (hlen : name.length ≤ 15) : Block where
  name := name
  link := .ethernet mac
  inet := some ⟨ip, some (.bcast fun i => if i = 3 then 255 else ip i), ![255, 255, 255, 0]⟩
  more := [lit "          UP BROADCAST RUNNING MULTICAST  MTU:1500  Metric:1"]
  name_ne_nil := hne
  name_text := htext
  name_no_blank := hblank
  name_length := hlen
  more_text := by
    intro l hl
    rw [List.mem_singleton.mp hl]
    exact ⟨⟨by decide, by decide⟩, by decide⟩
  more_other := by
    intro l hl
    rw [List.mem_singleton.mp hl]
    have hno : (0x64 : UInt8) ∉
        lit "          UP BROADCAST RUNNING MULTICAST  MTU:1500  Metric:1" := by decide
    exact ⟨fun h => hno (h.mem (by decide)), fun h => hno (h.mem (by decide))⟩

/-- The VLANs 1 and 10. -/
def twoVlans : Interfaces where
  before := []
  management := vlanBlock (lit "switch.1") ![0, 1, 2, 3, 4, 5] ![192, 168, 0, 1] (by decide)
    ⟨by decide, by decide⟩ (by decide) (by decide)
  after := [vlanBlock (lit "switch.10") ![0, 1, 2, 3, 4, 6] ![10, 0, 0, 1] (by decide)
    ⟨by decide, by decide⟩ (by decide) (by decide)]
  name_eq := rfl
  other_names := by
    intro b hb
    obtain rfl : b = _ := by simpa using hb
    decide

/-- The addresses of VLAN 10 are reported. -/
theorem twoVlans_not_reported : ¬ NetReported twoVlans := by
  intro h
  have hend : lit "switch.10" = lit "switch.1" ++ [0x30] := by decide
  have hmarked : ∀ b ∈ twoVlans.after, b.Marked := by
    intro b hb
    obtain rfl : b = _ := List.mem_singleton.mp hb
    dsimp only [Block.Marked, Block.header, vlanBlock]
    rw [hend]
    simp only [List.append_assoc]
    exact List.infix_append_left
  have hlast : lastMac twoVlans.blocks = some ![0, 1, 2, 3, 4, 6] := by
    rw [lastMac, Interfaces.blocks, lastRead_append, lastRead_cons, twoVlans, lastRead_cons,
      if_pos (hmarked _ List.mem_cons_self)]
    rfl
  obtain ⟨-, hinfo⟩ :=
    (getNETinfoFrom_eq_some_iff ..).mp (h ⟨fun _ => 0, fun _ => 0, fun _ => 0⟩)
  have hmac := congrFun (congrArg NetInfo.mac hinfo) 5
  rw [hlast] at hmac
  exact absurd hmac (by decide)

end TfPackages.Dm
