import Mathlib.Algebra.GroupWithZero.Nat
import Mathlib.Data.List.Pairwise
import TfPackages.CStrings
import TfPackages.Memory

/-! # The registers of the I/O controller

`hwsys_ctrl NAME get` and `hwsys_ctrl NAME set V` exchange a `sock_msg_t` with
`hwsysd`, which reads and writes the registers of the I/O controller over I2C.
The controller is a memory of bytes here, and a register is the bytes from its
address on.

`registers` has one row for each register of `registers.h`: its name and address,
the length and the type that `get_len_by_addr` and `get_type_by_addr` give for
the address, and whether `get_i2c_addr_by_name` knows the name.

`set` converts the value to `uint8_t` before it splits it into bytes, and shifts to
the left, so that only the first byte of a register ever gets a value.  Two
registers overlap: the year has two bytes, and the second one is the month.
-/
namespace TfPackages.Hwsys

inductive RegType
  | uint
  | pseudoFloat
deriving DecidableEq, Repr

structure Register where
  name : String
  addr : Nat
  len : Nat
  type : RegType
  /-- `get_i2c_addr_by_name` compares with this name. -/
  listed : Bool
deriving DecidableEq, Repr

def registers : List Register :=
  [⟨"INTSTAT", 0, 1, .uint, true⟩, ⟨"INTMASK", 1, 1, .uint, true⟩,
    ⟨"HW_VERS", 2, 1, .uint, true⟩, ⟨"SW_VERS", 3, 1, .uint, true⟩,
    ⟨"ADC_CH1", 4, 2, .uint, true⟩, ⟨"ADC_CH2", 5, 2, .uint, false⟩,
    ⟨"ADC_CH3", 6, 2, .uint, false⟩, ⟨"ADC_CH4", 7, 2, .uint, false⟩,
    ⟨"TAMPER", 10, 1, .uint, true⟩, ⟨"SENSOR1", 11, 1, .uint, true⟩,
    ⟨"SENSOR2", 12, 1, .uint, true⟩, ⟨"RELAY1", 13, 1, .uint, true⟩,
    ⟨"DEFAULT_BUTTON", 14, 1, .uint, true⟩, ⟨"DEFAULT_LED", 15, 1, .uint, true⟩,
    ⟨"RPS_CONNECTED", 20, 1, .uint, true⟩, ⟨"RPS_HW_VERS", 21, 1, .uint, true⟩,
    ⟨"RPS_SW_VERS", 22, 1, .uint, true⟩, ⟨"RPS_VAC", 23, 1, .uint, true⟩,
    ⟨"RPS_BAT_VOLTAGE", 24, 2, .pseudoFloat, true⟩,
    ⟨"RPS_CHRG_VOLTAGE", 26, 2, .pseudoFloat, true⟩, ⟨"RPS_BAT_CURRENT", 28, 2, .uint, true⟩,
    ⟨"RPS_TEMPER", 30, 1, .uint, true⟩, ⟨"RPS_LED_STATE", 31, 1, .uint, true⟩,
    ⟨"RPS_BAT_KEY", 32, 1, .uint, true⟩, ⟨"RPS_CHRG_KEY", 33, 1, .uint, true⟩,
    ⟨"RPS_REL_STATE", 34, 1, .uint, true⟩, ⟨"RPS_MIN_VOLTAGE", 35, 2, .pseudoFloat, true⟩,
    ⟨"RPS_DISCH_VOLTAGE", 37, 2, .pseudoFloat, true⟩, ⟨"RPS_REMAIN_TIME", 39, 2, .uint, true⟩,
    ⟨"RPS_TEST_OK", 41, 1, .uint, true⟩, ⟨"RPS_CPU_ID", 42, 1, .uint, true⟩,
    ⟨"RPS_LTC4151_OK", 43, 1, .uint, true⟩, ⟨"RPS_ADC_BAT_VOLT", 44, 2, .pseudoFloat, true⟩,
    ⟨"RPS_ADC_BAT_CURR", 46, 2, .uint, true⟩, ⟨"RPS_TEST_MODE", 48, 1, .uint, true⟩,
    ⟨"SHT_CONNECTED", 50, 1, .uint, true⟩, ⟨"SHT_TYPE", 51, 1, .uint, true⟩,
    ⟨"SHT_TEMPERATURE", 52, 2, .pseudoFloat, true⟩, ⟨"SHT_HUMIDITY", 54, 1, .uint, true⟩,
    ⟨"SFP1_PRESENT", 60, 1, .uint, true⟩, ⟨"SFP1_LOS", 61, 1, .uint, true⟩,
    ⟨"SFP1_VENDOR", 62, 16, .uint, true⟩, ⟨"SFP1_VENDOR_OUI", 78, 3, .uint, true⟩,
    ⟨"SFP1_VENDOR_PN", 81, 16, .uint, true⟩, ⟨"SFP1_VENDOR_REV", 97, 4, .uint, true⟩,
    ⟨"SFP1_CONNECTOR", 101, 1, .uint, true⟩, ⟨"SFP1_TEMPER", 102, 2, .uint, true⟩,
    ⟨"SFP1_VOLTAGE", 104, 2, .uint, true⟩, ⟨"SFP1_TX_BIAS", 106, 2, .uint, true⟩,
    ⟨"SFP1_TX_POWER", 108, 2, .uint, true⟩, ⟨"SFP1_RX_POWER", 110, 2, .uint, true⟩,
    ⟨"SFP2_PRESENT", 120, 1, .uint, true⟩, ⟨"SFP2_LOS", 121, 1, .uint, true⟩,
    ⟨"SFP2_VENDOR", 122, 16, .uint, true⟩, ⟨"SFP2_VENDOR_OUI", 138, 3, .uint, true⟩,
    ⟨"SFP2_VENDOR_PN", 141, 16, .uint, true⟩, ⟨"SFP2_VENDOR_REV", 157, 4, .uint, true⟩,
    ⟨"SFP2_CONNECTOR", 161, 1, .uint, true⟩, ⟨"SFP2_TEMPER", 162, 2, .uint, true⟩,
    ⟨"SFP2_VOLTAGE", 164, 2, .uint, true⟩, ⟨"SFP2_TX_BIAS", 166, 2, .uint, true⟩,
    ⟨"SFP2_TX_POWER", 168, 2, .uint, true⟩, ⟨"SFP2_RX_POWER", 170, 2, .uint, true⟩,
    ⟨"RTC_STATUS", 180, 1, .uint, true⟩, ⟨"RTC_YEAR", 181, 2, .uint, true⟩,
    ⟨"RTC_MONTH", 182, 1, .uint, true⟩, ⟨"RTC_DAY", 183, 1, .uint, true⟩,
    ⟨"RTC_WEEKDAY", 184, 1, .uint, true⟩, ⟨"RTC_HOUR", 185, 1, .uint, true⟩,
    ⟨"RTC_MINUTE", 186, 1, .uint, true⟩, ⟨"RTC_SECOND", 187, 1, .uint, true⟩,
    ⟨"POE_ID", 190, 1, .uint, true⟩, ⟨"POE_STATE", 191, 1, .uint, true⟩,
    ⟨"POE_BANK", 192, 1, .uint, true⟩, ⟨"POE_MODE", 193, 1, .uint, true⟩]

/-- `get_i2c_addr_by_name`. -/
def getI2cAddrByName (name : String) : Option Nat :=
  (registers.find? fun r => r.listed && r.name == name).map Register.addr

/-- `get_len_by_addr`. -/
def getLenByAddr (addr : Nat) : Nat :=
  ((registers.find? fun r => r.addr == addr).map Register.len).getD 1

/-- `get_type_by_addr`. -/
def getTypeByAddr (addr : Nat) : RegType :=
  ((registers.find? fun r => r.addr == addr).map Register.type).getD .uint

/-- `get_gpio_by_name`. -/
def getGpioByName (name : String) : Option Nat :=
  [("SYS_LED", 0), ("SYS_RESET", 1), ("IOMCU_RESET", 11), ("POE_RESET", 12), ("BOOT0", 14)].lookup
    name

theorem getI2cAddrByName_name : ∀ r ∈ registers,
    getI2cAddrByName r.name = if r.listed then some r.addr else none := by
  decide +kernel

theorem find_addr : ∀ r ∈ registers, (registers.find? fun s => s.addr == r.addr) = some r := by
  decide +kernel

theorem getLenByAddr_addr {r : Register} (h : r ∈ registers) : getLenByAddr r.addr = r.len := by
  rw [getLenByAddr, find_addr r h, Option.map_some, Option.getD_some]

theorem getTypeByAddr_addr {r : Register} (h : r ∈ registers) :
    getTypeByAddr r.addr = r.type := by
  rw [getTypeByAddr, find_addr r h, Option.map_some, Option.getD_some]

theorem getGpioByName_name : ∀ r ∈ registers, getGpioByName r.name = none := by
  decide +kernel

/-! ## The daemon and the client -/

inductive Opcode
  | read
  | write
  | response
deriving DecidableEq, Repr

/-- `struct sock_msg_t`, with the 255 bytes of `value` as a memory. -/
structure SockMsg where
  addr : Nat
  opcode : Opcode
  len : Nat
  value : Memory
  type : RegType

/-- One request to `hwsysd`: the controller's bytes afterwards, and the answer. -/
def hwsysd (mcu : Memory) (msg : SockMsg) : Memory × Option SockMsg :=
  match msg.opcode with
  | .read =>
    (mcu, some { msg with
      value := msg.value.write 0 (mcu.read msg.addr msg.len), opcode := .response })
  | .write => (mcu.write msg.addr (msg.value.read 0 msg.len), none)
  | .response => (mcu, none)

/-- A line of output. -/
inductive Line
  | number (n : Int)
  | fixed (whole rest : Nat)
  | text (s : List UInt8)
  | unknownCommand
deriving DecidableEq, Repr

/-- `value[0] | value[1] << 8`. -/
def uint16 (value : Memory) : Nat := (value 0).toNat ||| (value 1).toNat <<< 8

/-- The `switch` over the length of an answer. -/
def payload (msg : SockMsg) : Line :=
  match msg.len with
  | 1 => .number (msg.value 0).toNat
  | 2 =>
    let tmp16 := uint16 msg.value
    match msg.type with
    | .pseudoFloat =>
      if tmp16 < 1000 then .fixed (tmp16 / 10) (tmp16 % 10)
      else .fixed (tmp16 / 1000) (tmp16 % 1000)
    | .uint => .number tmp16
  | 4 =>
    .number (BitVec.ofNat 32 (uint16 msg.value ||| (msg.value 2).toNat <<< 16 |||
      (msg.value 3).toNat <<< 24)).toInt
  | _ => .text (CStrings.text (msg.value.read 0 255))

/-- What `get` prints of an answer. -/
def printed (msg : SockMsg) : List Line :=
  if msg.opcode = .response then
    (if msg.value 0 = 0xAA ∧ msg.value 1 = 0xAA then [.number (-1)] else []) ++ [payload msg]
  else [.number (-1)]

/-- The end of `main`: after a register the name is looked up as a GPIO line as
well.  What is done with a line is not part of the model. -/
def gpioPart (name : String) : List Line :=
  if (getGpioByName name).isNone then [.unknownCommand] else []

/-- `hwsys_ctrl NAME get`.  `stack` is what `sock_msg` holds before it is filled:
only the fields that are assigned and the bytes that are read differ from it.
Without an answer the message stays as it was sent. -/
def get (stack : SockMsg) (mcu : Memory) (name : String) : List Line :=
  match getI2cAddrByName name with
  | none => gpioPart name
  | some addr =>
    let sent : SockMsg := ⟨addr, .read, getLenByAddr addr, stack.value, getTypeByAddr addr⟩
    printed ((hwsysd mcu sent).2.getD sent) ++ gpioPart name

/-- The first four bytes of `value` in a `set`. -/
def encode (arg : List UInt8) : List UInt8 :=
  let i32val := (UInt8.ofNat (CStrings.atoi arg % 256).toNat).toUInt32
  [i32val.toUInt8, (i32val <<< 8).toUInt8, (i32val <<< 16).toUInt8, (i32val <<< 24).toUInt8]

/-- `hwsys_ctrl NAME set V`: the controller's bytes afterwards. -/
def set (stack : SockMsg) (mcu : Memory) (name : String) (arg : List UInt8) : Memory :=
  match getI2cAddrByName name with
  | none => mcu
  | some addr =>
    (hwsysd mcu ⟨addr, .write, getLenByAddr addr, stack.value.write 0 (encode arg), stack.type⟩).1

/-! ## Sequences of commands -/

/-- `hwsys_ctrl NAME set V`, for a register of one or two bytes and a value that
fits into them. -/
structure SetCommand where
  register : Register
  mem : register ∈ registers
  len : register.len = 1 ∨ register.len = 2
  /-- The text of `V`. -/
  arg : List UInt8
  value : Nat
  reads : CStrings.atoi arg = value
  lt : value < 256 ^ register.len
  /-- The memory of the process. -/
  stack : SockMsg

def SetCommand.run (mcu : Memory) (c : SetCommand) : Memory :=
  set c.stack mcu c.register.name c.arg

def runAll (mcu : Memory) (cs : List SetCommand) : Memory := cs.foldl SetCommand.run mcu

/-- The last command that sets `r`, and the commands after it. -/
def lastSet (r : Register) : List SetCommand → Option (SetCommand × List SetCommand)
  | [] => none
  | c :: cs => (lastSet r cs).or (if c.register = r then some (c, cs) else none)

/-- The numbers in an output. -/
def numbers (l : List Line) : List Int :=
  l.filterMap fun
    | .number n => some n
    | _ => none

/-- After the commands, the number printed for a register is its last value. -/
def ReturnsLast (stack : SockMsg) (mcu : Memory) (cs : List SetCommand) (r : Register) : Prop :=
  ∀ c after, lastSet r cs = some (c, after) →
    numbers (get stack (runAll mcu cs) r.name) = [(c.value : Int)]

def rtcYear : Register := ⟨"RTC_YEAR", 181, 2, .uint, true⟩
def rtcMonth : Register := ⟨"RTC_MONTH", 182, 1, .uint, true⟩

/-- The bytes that the later commands leave are those of the value.  A `set` writes
zero into the second byte, but the month is the second byte of the year. -/
structure Kept (stack : SockMsg) (c : SetCommand) (after : List SetCommand) : Prop where
  listed : c.register.listed = true
  high : c.value / 256 =
    if c.register = rtcYear then ((lastSet rtcMonth after).map (·.1.value)).getD 0 else 0
  month : c.register = rtcMonth → (∃ d ∈ after, d.register = rtcYear) → c.value = 0
  /-- The bytes are not those that are printed as an error. -/
  noError : ¬ (c.value % 256 = 0xAA ∧
    if c.register.len = 1 then stack.value 1 = 0xAA else c.value / 256 = 0xAA)

/-! ### What a command writes -/

/-- Of a value cut to one byte, the shifts leave nothing in the other bytes. -/
theorem encode_eq (arg : List UInt8) :
    encode arg = [UInt8.ofNat (CStrings.atoi arg % 256).toNat, 0, 0, 0] := by
  have hshift : ∀ b : UInt8, (b.toUInt32 <<< 8).toUInt8 = 0 ∧ (b.toUInt32 <<< 16).toUInt8 = 0 ∧
      (b.toUInt32 <<< 24).toUInt8 = 0 := by
    intro b
    refine ⟨?_, ?_, ?_⟩ <;> apply UInt8.toNat_inj.mp <;>
      simp [UInt32.toNat_shiftLeft, Nat.shiftLeft_eq] <;> omega
  obtain ⟨h8, h16, h24⟩ := hshift (UInt8.ofNat (CStrings.atoi arg % 256).toNat)
  simp only [encode]
  rw [h8, h16, h24, UInt8.toUInt8_toUInt32]

namespace SetCommand
variable (c : SetCommand) (m : Memory)

theorem ofNat_arg : UInt8.ofNat (CStrings.atoi c.arg % 256).toNat = UInt8.ofNat c.value := by
  apply UInt8.toNat_inj.mp
  rw [c.reads, UInt8.toNat_ofNat', UInt8.toNat_ofNat']
  omega

/-- Of a listed register, the first byte becomes the value modulo 256 and the
second one zero. -/
theorem run_of_listed (h : c.register.listed = true) :
    c.run m = m.write c.register.addr
      ([UInt8.ofNat c.value, 0, 0, 0].take c.register.len) := by
  have hlen : 0 + c.register.len ≤ (encode c.arg).length := by
    have hle : 0 + c.register.len ≤ 4 := by
      rcases c.len with h | h <;> rw [h] <;> decide
    rwa [encode_eq]
  have hsent := Memory.read_write_of_le c.stack.value 0 hlen
  rw [run, set, getI2cAddrByName_name _ c.mem, if_pos h]
  show m.write c.register.addr _ = _
  rw [getLenByAddr_addr c.mem, hsent, List.drop_zero, encode_eq, ofNat_arg]

theorem run_of_not_listed (h : c.register.listed = false) : c.run m = m := by
  rw [run, set, getI2cAddrByName_name _ c.mem, h]
  rfl

theorem run_addr (h : c.register.listed = true) :
    c.run m c.register.addr = UInt8.ofNat c.value := by
  rw [run_of_listed c m h]
  rcases c.len with hlen | hlen <;> rw [hlen] <;>
    exact m.write_of_mem c.register.addr (i := 0) (by simp)

theorem run_addr_succ (h : c.register.listed = true) (hlen : c.register.len = 2) :
    c.run m (c.register.addr + 1) = 0 := by
  rw [run_of_listed c m h, hlen]
  exact m.write_of_mem c.register.addr (i := 1) (by simp)

/-- Bytes outside the register stay. -/
theorem run_of_outside {i : Nat}
    (h : i < c.register.addr ∨ c.register.addr + c.register.len ≤ i) : c.run m i = m i := by
  cases hl : c.register.listed with
  | false => rw [run_of_not_listed c m hl]
  | true =>
    rw [run_of_listed c m hl]
    refine Memory.write_of_not_mem m ?_
    rcases c.len with hlen | hlen <;> rw [hlen] at h ⊢ <;> exact h

end SetCommand

/-! ### Overlaps -/

/-- The listed registers follow each other, but the month is in the year. -/
theorem pairwise_registers : registers.Pairwise fun r d =>
    r.addr + r.len ≤ d.addr ∨ r.listed = false ∨ d.listed = false ∨
      (r = rtcYear ∧ d = rtcMonth) := by
  decide +kernel

theorem apart {r d : Register} (hr : r ∈ registers) (hd : d ∈ registers) (hne : r ≠ d)
    (hlr : r.listed = true) (hld : d.listed = true) :
    r.addr + r.len ≤ d.addr ∨ d.addr + d.len ≤ r.addr ∨ (r = rtcYear ∧ d = rtcMonth) ∨
      (r = rtcMonth ∧ d = rtcYear) := by
  obtain ⟨i, hi, rfl⟩ := List.getElem_of_mem hr
  obtain ⟨j, hj, rfl⟩ := List.getElem_of_mem hd
  have horder := List.pairwise_iff_getElem.mp pairwise_registers
  have hij : i ≠ j := fun h => hne (by subst h; rfl)
  rcases Nat.lt_or_gt_of_ne hij with hlt | hlt
  · have h := horder i j hi hj hlt
    rw [hlr, hld] at h
    tauto
  · have h := horder j i hj hi hlt
    rw [hlr, hld] at h
    tauto

section Later
variable {r : Register} (hr : r ∈ registers) (hl : r.listed = true)
include hr hl

/-- A byte of a register under a command for another one, unless the two are the
year and the month and share the byte. -/
theorem run_of_inside {i : Nat} (hle : r.addr ≤ i) (hlt : i < r.addr + r.len) (m : Memory)
    {d : SetCommand} (hne : d.register ≠ r)
    (hshared : r = rtcYear ∧ d.register = rtcMonth ∨ r = rtcMonth ∧ d.register = rtcYear →
      i < d.register.addr ∨ d.register.addr + d.register.len ≤ i) :
    d.run m i = m i := by
  cases hld : d.register.listed with
  | false => rw [d.run_of_not_listed m hld]
  | true =>
    refine d.run_of_outside m ?_
    rcases apart hr d.mem (Ne.symm hne) hl hld with h | h | h
    · exact .inl (by omega)
    · exact .inr (by omega)
    · exact hshared h

/-- The first byte: that of the month is also the second byte of the year. -/
theorem run_first (hlen : 0 < r.len) (m : Memory) {d : SetCommand} (hne : d.register ≠ r) :
    d.run m r.addr = if r = rtcMonth ∧ d.register = rtcYear then 0 else m r.addr := by
  by_cases hc : r = rtcMonth ∧ d.register = rtcYear
  · rw [if_pos hc]
    obtain ⟨rfl, hd⟩ := hc
    have h := d.run_addr_succ m (by rw [hd]; rfl) (by rw [hd]; rfl)
    rwa [hd] at h
  · rw [if_neg hc]
    refine run_of_inside hr hl (Nat.le_refl _) (by omega) m hne ?_
    rintro (⟨hyear, hmonth⟩ | h)
    · rw [hyear, hmonth]
      exact .inl (by decide)
    · exact absurd h hc

/-- The second byte: that of the year is also the month. -/
theorem run_second (hlen : r.len = 2) (m : Memory) {d : SetCommand} (hne : d.register ≠ r) :
    d.run m (r.addr + 1) =
      if r = rtcYear ∧ d.register = rtcMonth then UInt8.ofNat d.value else m (r.addr + 1) := by
  by_cases hc : r = rtcYear ∧ d.register = rtcMonth
  · rw [if_pos hc]
    obtain ⟨rfl, hd⟩ := hc
    have h := d.run_addr m (by rw [hd]; rfl)
    rwa [hd] at h
  · rw [if_neg hc]
    refine run_of_inside hr hl (Nat.le_succ _) (by omega) m hne ?_
    rintro (h | ⟨hmonth, -⟩)
    · exact absurd h hc
    · -- the month has no second byte
      rw [hmonth] at hlen
      exact absurd hlen (by decide)

theorem runAll_first (hlen : 0 < r.len) {after : List SetCommand}
    (hne : ∀ d ∈ after, d.register ≠ r) (m : Memory) :
    runAll m after r.addr =
      if r = rtcMonth ∧ ∃ d ∈ after, d.register = rtcYear then 0 else m r.addr := by
  induction after generalizing m with
  | nil => simp [runAll]
  | cons d after ih =>
    rw [List.forall_mem_cons] at hne
    have hstep := run_first hr hl hlen m hne.1
    have hrest := ih hne.2 (d.run m)
    rw [hstep] at hrest
    rw [runAll, List.foldl_cons]
    refine hrest.trans ?_
    simp only [List.mem_cons, exists_eq_or_imp]
    by_cases hlater : r = rtcMonth ∧ ∃ d ∈ after, d.register = rtcYear
    · rw [if_pos hlater, if_pos ⟨hlater.1, .inr hlater.2⟩]
    · rw [if_neg hlater]
      by_cases hnow : r = rtcMonth ∧ d.register = rtcYear
      · rw [if_pos hnow, if_pos ⟨hnow.1, .inl hnow.2⟩]
      · rw [if_neg hnow, if_neg fun ⟨hm, h⟩ =>
          h.elim (fun h => hnow ⟨hm, h⟩) (fun h => hlater ⟨hm, h⟩)]

theorem runAll_second (hlen : r.len = 2) {after : List SetCommand}
    (hne : ∀ d ∈ after, d.register ≠ r) (m : Memory) :
    runAll m after (r.addr + 1) =
      if r = rtcYear then
        ((lastSet rtcMonth after).map fun p => UInt8.ofNat p.1.value).getD (m (r.addr + 1))
      else m (r.addr + 1) := by
  induction after generalizing m with
  | nil => simp [runAll, lastSet]
  | cons d after ih =>
    rw [List.forall_mem_cons] at hne
    have hstep := run_second hr hl hlen m hne.1
    have hrest := ih hne.2 (d.run m)
    rw [hstep] at hrest
    rw [runAll, List.foldl_cons]
    refine hrest.trans ?_
    rw [lastSet]
    by_cases hy : r = rtcYear
    · rw [if_pos hy, if_pos hy]
      cases lastSet rtcMonth after with
      | some p => rw [Option.some_or, Option.map_some, Option.getD_some, Option.getD_some]
      | none => by_cases hm : d.register = rtcMonth <;> simp [hy, hm]
    · rw [if_neg hy, if_neg hy, if_neg fun h => hy h.1]

end Later

/-! ### What is read -/

theorem uint16_eq (v : Memory) : uint16 v = (v 0).toNat + 256 * (v 1).toNat := by
  have h := Nat.shiftLeft_add_eq_or_of_lt (v 0).toNat_lt (v 1).toNat
  rw [uint16, Nat.or_comm, ← h, Nat.shiftLeft_eq]
  omega

theorem gpioPart_name {r : Register} (hr : r ∈ registers) :
    gpioPart r.name = [.unknownCommand] := by
  rw [gpioPart, getGpioByName_name r hr]
  rfl

theorem numbers_printed {msg : SockMsg} {n : Int} (hop : msg.opcode = .response)
    (hpay : payload msg = .number n) :
    numbers (printed msg ++ [.unknownCommand]) =
      (if msg.value 0 = 0xAA ∧ msg.value 1 = 0xAA then [-1] else []) ++ [n] := by
  rw [printed, if_pos hop, hpay]
  split <;> rfl

section Reading
variable {r : Register} (hr : r ∈ registers) (hl : r.listed = true) (stack : SockMsg) (m : Memory)
include hr hl

theorem get_of_listed :
    get stack m r.name =
      printed ⟨r.addr, .response, r.len, stack.value.write 0 (m.read r.addr r.len), r.type⟩ ++
        [.unknownCommand] := by
  rw [get, getI2cAddrByName_name r hr, if_pos hl]
  simp only [getLenByAddr_addr hr, getTypeByAddr_addr hr, hwsysd, Option.getD_some,
    gpioPart_name hr]

/-- One byte: the second one that is compared is that of the process. -/
theorem numbers_get_one (hlen : r.len = 1) :
    numbers (get stack m r.name) =
      (if m r.addr = 0xAA ∧ stack.value 1 = 0xAA then [-1] else []) ++
        [((m r.addr).toNat : Int)] := by
  have hfirst : stack.value.write 0 (m.read r.addr 1) 0 = m r.addr :=
    stack.value.write_read m 0 r.addr (i := 0) (by decide)
  have hsecond : stack.value.write 0 (m.read r.addr 1) 1 = stack.value 1 :=
    stack.value.write_of_not_mem (.inr (by simp))
  rw [get_of_listed hr hl stack m, hlen, numbers_printed rfl rfl]
  simp only [hfirst, hsecond]

theorem numbers_get_two (hlen : r.len = 2) (ht : r.type = .uint) :
    numbers (get stack m r.name) =
      (if m r.addr = 0xAA ∧ m (r.addr + 1) = 0xAA then [-1] else []) ++
        [(((m r.addr).toNat + 256 * (m (r.addr + 1)).toNat : Nat) : Int)] := by
  have hfirst : stack.value.write 0 (m.read r.addr 2) 0 = m r.addr :=
    stack.value.write_read m 0 r.addr (i := 0) (by decide)
  have hsecond : stack.value.write 0 (m.read r.addr 2) 1 = m (r.addr + 1) :=
    stack.value.write_read m 0 r.addr (i := 1) (by decide)
  rw [get_of_listed hr hl stack m, hlen, ht, numbers_printed rfl rfl, uint16_eq]
  simp only [hfirst, hsecond]

end Reading

theorem get_of_not_listed {r : Register} (hr : r ∈ registers) (hl : r.listed = false)
    (stack : SockMsg) (m : Memory) : numbers (get stack m r.name) = [] := by
  rw [get, getI2cAddrByName_name r hr, hl, if_neg Bool.false_ne_true, gpioPart_name hr]
  rfl

theorem lastSet_eq_none {r : Register} {cs : List SetCommand} (h : lastSet r cs = none) :
    ∀ d ∈ cs, d.register ≠ r := by
  induction cs with
  | nil => intro d hd; cases hd
  | cons c cs ih =>
    rw [lastSet, Option.or_eq_none_iff] at h
    rintro d (_ | ⟨_, hd⟩)
    · intro he
      rw [if_pos he] at h
      cases h.2
    · exact ih h.1 d hd

/-- The last command sets the register, and no later one does. -/
theorem lastSet_eq_some {r : Register} {cs : List SetCommand} {c : SetCommand}
    {after : List SetCommand} (h : lastSet r cs = some (c, after)) :
    c.register = r ∧ (∀ d ∈ after, d.register ≠ r) ∧
      ∀ m, ∃ m', runAll m cs = runAll (c.run m') after := by
  induction cs with
  | nil => cases h
  | cons d cs ih =>
    rw [lastSet, Option.or_eq_some_iff] at h
    rcases h with h | ⟨hnone, h⟩
    · obtain ⟨hc, hne, hrun⟩ := ih h
      exact ⟨hc, hne, fun m => hrun (d.run m)⟩
    · split at h
      · next hd =>
        cases h
        exact ⟨hd, lastSet_eq_none hnone, fun m => ⟨m, rfl⟩⟩
      · cases h

/-! ### When the value comes back -/

theorem error_append_eq {p : Prop} [Decidable p] {n v : Int} :
    (if p then [-1] else []) ++ [n] = [v] ↔ ¬ p ∧ n = v := by
  by_cases hp : p <;> simp [hp]

section Last
variable {c : SetCommand} {after : List SetCommand}
  (hne : ∀ d ∈ after, d.register ≠ c.register) (hl : c.register.listed = true)
include hne hl

/-- The first byte that a command and the commands after it leave. -/
theorem toNat_first (m : Memory) :
    (runAll (c.run m) after c.register.addr).toNat =
      if c.register = rtcMonth ∧ ∃ d ∈ after, d.register = rtcYear then 0
      else c.value % 256 := by
  have hpos : 0 < c.register.len := by
    rcases c.len with h | h <;> rw [h] <;> decide
  rw [runAll_first c.mem hl hpos hne, c.run_addr m hl]
  split
  · rfl
  · exact UInt8.toNat_ofNat'

/-- The second byte: zero, or the month. -/
theorem toNat_second (hlen : c.register.len = 2) (m : Memory) :
    (runAll (c.run m) after (c.register.addr + 1)).toNat =
      if c.register = rtcYear then ((lastSet rtcMonth after).map (·.1.value)).getD 0 else 0 := by
  rw [runAll_second c.mem hl hlen hne, c.run_addr_succ m hl hlen]
  split
  · cases hm : lastSet rtcMonth after with
    | none => rfl
    | some p =>
      have hlt : p.1.value < 256 := by
        have h := p.1.lt
        rwa [(lastSet_eq_some hm).1] at h
      rw [Option.map_some, Option.map_some, Option.getD_some, Option.getD_some,
        UInt8.toNat_ofNat', Nat.mod_eq_of_lt hlt]
  · rfl

theorem kept_iff_of_len_one (hlen : c.register.len = 1) (stack : SockMsg) (m : Memory) :
    numbers (get stack (runAll (c.run m) after) c.register.name) = [(c.value : Int)] ↔
      Kept stack c after := by
  have hfirst := toNat_first hne hl m
  have hlt : c.value < 256 := by
    have h := c.lt
    rwa [hlen] at h
  have hyear : c.register ≠ rtcYear := by
    intro h
    rw [h] at hlen
    exact absurd hlen (by decide)
  rw [numbers_get_one c.mem hl stack _ hlen, error_append_eq, Int.natCast_inj]
  constructor
  · rintro ⟨herror, hvalue⟩
    refine ⟨hl, ?_, fun hm hlater => ?_, fun ⟨hbyte, hstack⟩ => ?_⟩
    · rw [if_neg hyear]
      omega
    · rw [← hvalue, hfirst, if_pos ⟨hm, hlater⟩]
    · rw [if_pos hlen] at hstack
      exact herror ⟨UInt8.toNat_inj.mp (by rw [hvalue]; show c.value = 170; omega), hstack⟩
  · intro hkept
    have hvalue : (runAll (c.run m) after c.register.addr).toNat = c.value := by
      rw [hfirst]
      split
      · next h => exact (hkept.month h.1 h.2).symm
      · omega
    refine ⟨fun ⟨hbyte, hstack⟩ => hkept.noError ⟨?_, by rwa [if_pos hlen]⟩, hvalue⟩
    rw [← hvalue, hbyte]
    rfl

theorem kept_iff_of_len_two (hlen : c.register.len = 2) (ht : c.register.type = .uint)
    (stack : SockMsg) (m : Memory) :
    numbers (get stack (runAll (c.run m) after) c.register.name) = [(c.value : Int)] ↔
      Kept stack c after := by
  have hmonth : c.register ≠ rtcMonth := by
    intro h
    rw [h] at hlen
    exact absurd hlen (by decide)
  have hfirst := toNat_first hne hl m
  rw [if_neg fun h => hmonth h.1] at hfirst
  have hsecond := toNat_second hne hl hlen m
  rw [numbers_get_two c.mem hl stack _ hlen ht, error_append_eq, Int.natCast_inj,
    ← UInt8.toNat_inj, ← UInt8.toNat_inj, hfirst]
  have hone : ¬ c.register.len = 1 := by omega
  constructor
  · rintro ⟨herror, hvalue⟩
    have hhigh : c.value / 256 = (runAll (c.run m) after (c.register.addr + 1)).toNat := by omega
    refine ⟨hl, hhigh.trans hsecond, fun hm => absurd hm hmonth, fun ⟨hlow, h⟩ => ?_⟩
    rw [if_neg hone, hhigh] at h
    exact herror ⟨hlow, h⟩
  · intro hkept
    have hhigh := hkept.high.trans hsecond.symm
    refine ⟨fun ⟨hlow, h⟩ => hkept.noError ⟨hlow, ?_⟩, by omega⟩
    rw [if_neg hone, hhigh]
    exact h

end Last

theorem numbers_get_eq_iff {c : SetCommand} {after : List SetCommand}
    (hne : ∀ d ∈ after, d.register ≠ c.register) (ht : c.register.type = .uint)
    (stack : SockMsg) (m : Memory) :
    numbers (get stack (runAll (c.run m) after) c.register.name) = [(c.value : Int)] ↔
      Kept stack c after := by
  cases hl : c.register.listed with
  | false =>
    rw [get_of_not_listed c.mem hl]
    constructor
    · intro h
      cases h
    · intro h
      rw [h.listed] at hl
      cases hl
  | true =>
    rcases c.len with hlen | hlen
    · exact kept_iff_of_len_one hne hl hlen stack m
    · exact kept_iff_of_len_two hne hl hlen ht stack m

/-- The number printed is the value set last if and only if the name is known, the
second byte of the value is the one that stands there anyway, the first one is not
written by a later command, and the two are not taken for an error. -/
theorem get_last_set_iff (stack : SockMsg) (mcu : Memory) (cs : List SetCommand) (r : Register)
    (ht : r.type = .uint) :
    ReturnsLast stack mcu cs r ↔
      ∀ c after, lastSet r cs = some (c, after) → Kept stack c after := by
  refine forall_congr' fun c => forall_congr' fun after => forall_congr' fun h => ?_
  obtain ⟨rfl, hne, hrun⟩ := lastSet_eq_some h
  obtain ⟨m, hm⟩ := hrun mcu
  rw [hm]
  exact numbers_get_eq_iff hne ht stack m

/-- A process whose memory is zero. -/
def zeroStack : SockMsg := ⟨0, .read, 0, fun _ => 0, .uint⟩

def setRelay : SetCommand where
  register := ⟨"RELAY1", 13, 1, .uint, true⟩
  mem := by decide +kernel
  len := by decide
  arg := CStrings.lit "1"
  value := 1
  reads := by decide +kernel
  lt := by decide
  stack := zeroStack

def setYear : SetCommand where
  register := rtcYear
  mem := by decide +kernel
  len := by decide
  arg := CStrings.lit "2024"
  value := 2024
  reads := by decide +kernel
  lt := by decide
  stack := zeroStack

/-- The relay reads back, also when the year is set in between. -/
theorem get_last_set_relay :
    ReturnsLast zeroStack (fun _ => 0) [setRelay, setYear] setRelay.register := by
  refine (get_last_set_iff zeroStack _ _ _ rfl).mpr fun c after h => ?_
  cases h
  exact ⟨rfl, by decide, fun h => absurd h (by decide), by decide⟩

/-- The year 2024 reads back as 232. -/
theorem year_not_returned :
    numbers (get zeroStack (runAll (fun _ => 0) [setYear]) "RTC_YEAR") = [232] ∧
      ¬ ReturnsLast zeroStack (fun _ => 0) [setYear] rtcYear := by
  have hget : numbers (get zeroStack (runAll (fun _ => 0) [setYear]) "RTC_YEAR") = [232] := by
    decide +kernel
  refine ⟨hget, fun h => ?_⟩
  have hlast := h setYear [] rfl
  rw [show rtcYear.name = "RTC_YEAR" from rfl, hget] at hlast
  exact absurd hlast (by decide)

end TfPackages.Hwsys
