import Mathlib.Data.List.GetD

/-! # Frames of the PoE serial protocol and their command ids

`realtek-poe` drives the PoE microcontroller with 12-byte frames: a command id, a
sequence number, nine bytes of payload and a checksum.  The daemon is written in
the Broadcom dialect of the protocol and the controller speaks the Realtek
dialect, so ids are translated on the way out and back on the way in, by one
256-entry table.  The table is initialised with the forward direction only;
`closeMap` writes the backward direction into the same array while it walks over
it, on the stated assumption that no Realtek id is also a Broadcom id.

`bcmToRtlMap_eq` is the table the daemon really works with, and
`bcmToRtlCmdId_eq_iff` says for which ids the forward direction survived.
-/
namespace TfPackages.Poe

/-- A 12-byte message of the serial protocol. -/
abbrev Frame := Vector UInt8 12

/-- Byte `i` of a message, with `i` below 12. -/
def Frame.byte (d : Frame) (i : Nat) : UInt8 := d[i]?.getD 0

/-- The message with another command id. -/
def Frame.withId (d : Frame) (id : UInt8) : Frame := d.set 0 id

/-- `bcm_to_rtl_map` as its initialiser gives it: `[Broadcom id] = Realtek id`,
zero where there is no entry. -/
def bcmToRtlInit : List UInt8 := (List.range 0x100).map fun c =>
  match c with
  | 0x00 => 0x01 -- Set port enable
  | 0x10 => 0x09 -- Set port detection type
  | 0x13 => 0x0F -- Set port disconnect type
  | 0x15 => 0x12 -- Set port power limit type
  | 0x16 => 0x13 -- Set port power budget
  | 0x17 => 0x10 -- Set power management mode
  | 0x18 => 0x04 -- Set global power budget
  | 0x1a => 0x15 -- Set port priority
  | 0x20 => 0x40 -- Get system info
  | 0x23 => 0x41 -- Get global power status
  | 0x26 => 0x29 -- Get extended port config
  | 0x28 => 0x43 -- Get all port status
  | 0x30 => 0x44 -- Get port measurements
  | _ => 0

/-- `map[i]` of a `uint8_t map[0x100]`. -/
def entry (map : List UInt8) (i : UInt8) : UInt8 := map.getD i.toNat 0

/-- The body of the loop of `close_map`: `cmd = map[i]; if (cmd != 0) map[cmd] = i`. -/
def closeEntry (map : List UInt8) (i : Nat) : List UInt8 :=
  let cmd := map.getD i 0
  if cmd ≠ 0 then map.set cmd.toNat (UInt8.ofNat i) else map

/-- `close_map`: the inverse entries are written into the array the loop is
still reading. -/
def closeMap (map : List UInt8) : List UInt8 :=
  (List.range 0x100).foldl closeEntry map

/-- The table after `main` has closed it. -/
def bcmToRtlMap : List UInt8 := closeMap bcmToRtlInit

/-- `bcm_to_rtl_cmd_id`: ids without an entry stand for themselves. -/
def bcmToRtlCmdId (cmd : UInt8) : UInt8 :=
  let rtl := entry bcmToRtlMap cmd
  if rtl ≠ 0 then rtl else cmd

/-- `rtl_to_bcm_cmd_id`: "it's a closed map, remember?" -/
def rtlToBcmCmdId (cmd : UInt8) : UInt8 := bcmToRtlCmdId cmd

/-- The Realtek ids of the initialiser. -/
def rtlIds : List UInt8 := bcmToRtlInit.filter (· ≠ 0)

/-- The sum of the first eleven bytes, modulo 256. -/
def checksum (d : Frame) : UInt8 := (d.toList.take 11).foldl (· + ·) 0

/-- The frame `poe_cmd_queue` builds from a payload: `0xff` filling, the payload
copied over it, the id translated, the sequence number and the checksum set. -/
def buildFrame (payload : List UInt8) (seq : UInt8) : Frame :=
  let cmd : Frame := Vector.ofFn fun i => payload.getD i 0xff
  let cmd := cmd.withId (bcmToRtlCmdId (cmd.byte 0))
  let cmd := cmd.set 1 seq
  let cmd := cmd.set 11 0
  cmd.set 11 (checksum cmd)

/-! ## The closed table -/

/-- A table given entry by entry. -/
theorem entry_map_range (f : Nat → UInt8) (c : UInt8) :
    entry ((List.range 0x100).map f) c = f c.toNat := by
  have hlt : c.toNat < ((List.range 0x100).map f).length := by
    rw [List.length_map, List.length_range]
    exact c.toNat_lt
  rw [entry, List.getD_eq_getElem _ _ hlt, List.getElem_map, List.getElem_range]

/-- The table after `close_map`.  The entries of `0x10`, `0x13` and `0x15` no
longer lead to the Realtek ids the initialiser gave them: these three ids are
themselves Realtek ids of `0x17`, `0x16` and `0x1a`, whose inverse entries
overwrote them.  The inverse of `0x00` is the zero that stands for "no entry". -/
theorem bcmToRtlMap_eq : bcmToRtlMap = (List.range 0x100).map fun c =>
    match c with
    | 0x00 => 0x01 | 0x04 => 0x18 | 0x09 => 0x10 | 0x0F => 0x13 | 0x10 => 0x17
    | 0x12 => 0x15 | 0x13 => 0x16 | 0x15 => 0x1a | 0x16 => 0x13 | 0x17 => 0x10
    | 0x18 => 0x04 | 0x1a => 0x15 | 0x20 => 0x40 | 0x23 => 0x41 | 0x26 => 0x29
    | 0x28 => 0x43 | 0x29 => 0x26 | 0x30 => 0x44 | 0x40 => 0x20 | 0x41 => 0x23
    | 0x43 => 0x28 | 0x44 => 0x30 | _ => 0 := by
  decide +kernel

theorem rtlIds_eq : rtlIds =
    [0x01, 0x09, 0x0F, 0x12, 0x13, 0x10, 0x04, 0x15, 0x40, 0x41, 0x29, 0x43, 0x44] := by
  decide +kernel

/-- The Broadcom ids that have an entry. -/
def bcmIds : List UInt8 :=
  [0x00, 0x10, 0x13, 0x15, 0x16, 0x17, 0x18, 0x1a, 0x20, 0x23, 0x26, 0x28, 0x30]

theorem mem_bcmIds_iff (c : UInt8) : c ∈ bcmIds ↔ entry bcmToRtlInit c ≠ 0 := by
  have key : ∀ n < 0x100, UInt8.ofNat n ∈ bcmIds ↔ entry bcmToRtlInit (UInt8.ofNat n) ≠ 0 := by
    simp only [bcmToRtlInit, entry_map_range]
    decide +kernel
  have h := key c.toNat c.toNat_lt
  rwa [UInt8.ofNat_toNat] at h

/-- **The forward direction survives `close_map` exactly for the ids that are not
also Realtek ids.** -/
theorem bcmToRtlCmdId_eq_iff {c : UInt8} (hc : entry bcmToRtlInit c ≠ 0) :
    bcmToRtlCmdId c = entry bcmToRtlInit c ↔ c ∉ rtlIds := by
  have key : ∀ c ∈ bcmIds, bcmToRtlCmdId c = entry bcmToRtlInit c ↔ c ∉ rtlIds := by
    unfold bcmToRtlCmdId
    rw [bcmToRtlMap_eq, rtlIds_eq]
    simp only [bcmToRtlInit, entry_map_range]
    decide +kernel
  exact key c ((mem_bcmIds_iff c).mpr hc)

/-! ## The bytes of a built frame -/

/-- The checksum does not depend on the byte it is stored in. -/
theorem checksum_set_last (d : Frame) (b : UInt8) : checksum (d.set 11 b) = checksum d := by
  unfold checksum
  rw [Vector.toList_set, List.take_set_of_le (Nat.le_refl 11)]

theorem Frame.byte_set_self (d : Frame) {i : Nat} (hi : i < 12) (b : UInt8) :
    byte (d.set i b) i = b := by
  rw [Frame.byte, Vector.getElem?_set_self hi, Option.getD_some]

theorem Frame.byte_set_of_ne (d : Frame) {i j : Nat} (hi : i < 12) (hne : i ≠ j) (b : UInt8) :
    byte (d.set i b) j = d.byte j := by
  rw [Frame.byte, Vector.getElem?_set_ne hi hne, Frame.byte]

/-- The payload over the filling. -/
theorem Frame.byte_ofFn (payload : List UInt8) {i : Nat} (hi : i < 12) :
    byte (Vector.ofFn fun j => payload.getD j 0xff) i = payload.getD i 0xff := by
  rw [Frame.byte, Vector.getElem?_eq_getElem hi, Option.getD_some, Vector.getElem_ofFn]

variable (payload : List UInt8) (seq : UInt8)

theorem buildFrame_id : (buildFrame payload seq).byte 0 = bcmToRtlCmdId (payload.getD 0 0xff) := by
  unfold buildFrame Frame.withId
  dsimp only
  rw [Frame.byte_set_of_ne _ (by decide) (by decide),
    Frame.byte_set_of_ne _ (by decide) (by decide),
    Frame.byte_set_of_ne _ (by decide) (by decide), Frame.byte_set_self _ (by decide),
    Frame.byte_ofFn _ (by decide)]

theorem buildFrame_seq : (buildFrame payload seq).byte 1 = seq := by
  unfold buildFrame
  dsimp only
  rw [Frame.byte_set_of_ne _ (by decide) (by decide),
    Frame.byte_set_of_ne _ (by decide) (by decide), Frame.byte_set_self _ (by decide)]

theorem buildFrame_checksum :
    (buildFrame payload seq).byte 11 = checksum (buildFrame payload seq) := by
  unfold buildFrame
  dsimp only
  rw [Frame.byte_set_self _ (by decide)]
  exact (checksum_set_last _ _).symm

theorem buildFrame_byte {i : Nat} (h2 : 2 ≤ i) (h10 : i ≤ 10) :
    (buildFrame payload seq).byte i = payload.getD i 0xff := by
  unfold buildFrame Frame.withId
  dsimp only
  rw [Frame.byte_set_of_ne _ (by decide) (by omega), Frame.byte_set_of_ne _ (by decide) (by omega),
    Frame.byte_set_of_ne _ (by decide) (by omega), Frame.byte_set_of_ne _ (by decide) (by omega),
    Frame.byte_ofFn _ (by omega)]

end TfPackages.Poe
