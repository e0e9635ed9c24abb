import TfPackages.OnesComplement
import TfPackages.Runs
import Mathlib.Algebra.Order.BigOperators.Group.List
import Mathlib.Algebra.Order.Group.Nat

/-! # The checksum of an echo request

`ping` sends an echo request to the host of a port.  `prepare_icmp_pkt` fills it in,
and last of all its checksum: `checksum` adds up the 16-bit words of the packet in a
32-bit accumulator, folds the accumulator twice and takes the complement.

The words are in the byte order of the host, and those of the receiver need not be.
`sum_words_eq_allOnes_iff` says that this does not matter to a packet that verifies,
and `checksum_verifies` that every packet does once its checksum is stored.
-/
namespace TfPackages.Ping

/-! ## Words in memory -/

/-- The order of the two bytes of a word. -/
inductive ByteOrder where
  | little
  | big
deriving DecidableEq, Repr

/-- The word of two bytes, the first of them at the lower address. -/
def ByteOrder.word : ByteOrder → UInt8 → UInt8 → BitVec 16
  | .little, b₀, b₁ => b₁.toBitVec ++ b₀.toBitVec
  | .big, b₀, b₁ => b₀.toBitVec ++ b₁.toBitVec

/-- The two bytes of a word. -/
def ByteOrder.bytes : ByteOrder → BitVec 16 → UInt8 × UInt8
  | .little, w => (⟨w.extractLsb' 0 8⟩, ⟨w.extractLsb' 8 8⟩)
  | .big, w => (⟨w.extractLsb' 8 8⟩, ⟨w.extractLsb' 0 8⟩)

/-- The aligned words of a buffer. -/
def words (order : ByteOrder) : List UInt8 → List (BitVec 16)
  | b₀ :: b₁ :: buf => order.word b₀ b₁ :: words order buf
  | _ => []

/-- `((ushort *) buf)[i] = w` -/
def storeWord (order : ByteOrder) (buf : List UInt8) (i : Nat) (w : BitVec 16) : List UInt8 :=
  (buf.set (2 * i) (order.bytes w).1).set (2 * i + 1) (order.bytes w).2

/-! ## The checksum -/

/-- `sum += *buf++` -/
def addWord (sum : BitVec 32) (w : BitVec 16) : BitVec 32 := sum + w.setWidth 32

/-- The loop of `checksum`, and the byte left over by an odd length. -/
def sumBuffer (host : ByteOrder) : List UInt8 → BitVec 32 → BitVec 32
  | b₀ :: b₁ :: buf, sum => sumBuffer host buf (addWord sum (host.word b₀ b₁))
  | [b], sum => sum + b.toBitVec.setWidth 32
  | [], sum => sum

/-- `sum = (sum >> 16) + (sum & 0xFFFF)` -/
def addHalves (sum : BitVec 32) : BitVec 32 := (sum >>> 16) + (sum &&& 0xFFFF#32)

/-- `sum += (sum >> 16)` -/
def addCarry (sum : BitVec 32) : BitVec 32 := sum + (sum >>> 16)

/-- `checksum(b, len)` of a buffer of `len` bytes. -/
def checksum (host : ByteOrder) (b : List UInt8) : BitVec 16 :=
  let sum := sumBuffer host b 0#32
  let sum := addHalves sum
  let sum := addCarry sum
  (~~~sum).setWidth 16

/-- No addition to the accumulator is cut off at 32 bits.  The loop adds the words one
by one (`sumBuffer_eq_exec`). -/
structure NeverOverflows (host : ByteOrder) (b : List UInt8) : Prop where
  loop : Runs.Meets addWord (fun sum w => sum.toNat + w.toNat < 2 ^ 32) 0#32 (words host b)
  halves : (sumBuffer host b 0#32 >>> 16).toNat +
    (sumBuffer host b 0#32 &&& 0xFFFF#32).toNat < 2 ^ 32
  carry : (addHalves (sumBuffer host b 0#32)).toNat +
    (addHalves (sumBuffer host b 0#32) >>> 16).toNat < 2 ^ 32

/-- A buffer with a field for its checksum that is still zero. -/
structure Buffer where
  bytes : List UInt8
  /-- The index of the field among the words. -/
  field : Nat
  even : 2 ∣ bytes.length
  length_le : bytes.length ≤ 2 ^ 16
  zero : bytes[2 * field]? = some 0 ∧ bytes[2 * field + 1]? = some 0

/-- The buffer with its checksum in the field. -/
def Buffer.filled (host : ByteOrder) (b : Buffer) : List UInt8 :=
  storeWord host b.bytes b.field (checksum host b.bytes)

/-- What `prepare_icmp_pkt` fills in before the checksum: a `struct icmp` of 28 bytes,
with the type in byte 0 and the id and the sequence number in the words 2 and 3, and
64 bytes of data. -/
def echoRequest (host : ByteOrder) (randomId : BitVec 16) : List UInt8 :=
  let data := (List.range 63).map (fun i => UInt8.ofNat (i + 'a'.toNat)) ++ [0]
  let pkt := List.replicate 28 0 ++ data
  let pkt := pkt.set 0 8 -- ICMP_ECHO
  let pkt := storeWord host pkt 2 randomId
  storeWord host pkt 3 0

/-- `prepare_icmp_pkt`, with `icmp_cksum` in word 1. -/
def prepareIcmpPkt (host : ByteOrder) (randomId : BitVec 16) : List UInt8 :=
  let pkt := echoRequest host randomId
  storeWord host pkt 1 (checksum host pkt)

/-! ## Reading and storing words -/

theorem toNat_append_byte (x y : BitVec 8) : (x ++ y).toNat = 256 * x.toNat + y.toNat := by
  rw [BitVec.toNat_append, ← Nat.shiftLeft_add_eq_or_of_lt y.isLt, Nat.shiftLeft_eq,
    Nat.mul_comm]

theorem toNat_word_little (b₀ b₁ : UInt8) :
    (ByteOrder.little.word b₀ b₁).toNat = 256 * b₁.toNat + b₀.toNat := toNat_append_byte ..

theorem toNat_word_big (b₀ b₁ : UInt8) :
    (ByteOrder.big.word b₀ b₁).toNat = 256 * b₀.toNat + b₁.toNat := toNat_append_byte ..

theorem word_bytes (order : ByteOrder) (w : BitVec 16) :
    order.word (order.bytes w).1 (order.bytes w).2 = w := by
  cases order with
  | little => exact BitVec.extractLsb'_append_extractLsb'
  | big => exact BitVec.extractLsb'_append_extractLsb'

theorem length_words (order : ByteOrder) (buf : List UInt8) :
    (words order buf).length = buf.length / 2 := by
  fun_induction words order buf with
  | case1 b₀ b₁ buf ih =>
    rw [List.length_cons, ih, List.length_cons, List.length_cons]
    omega
  | case2 buf hshort =>
    match buf with
    | [] => rfl
    | [_] => simp
    | b₀ :: b₁ :: buf => exact absurd rfl (hshort b₀ b₁ buf)

theorem words_getElem? (order : ByteOrder) {buf : List UInt8} {i : Nat} {b₀ b₁ : UInt8}
    (h₀ : buf[2 * i]? = some b₀) (h₁ : buf[2 * i + 1]? = some b₁) :
    (words order buf)[i]? = some (order.word b₀ b₁) := by
  induction i generalizing buf with
  | zero =>
    match buf with
    | _ :: _ :: buf =>
      cases h₀
      cases h₁
      rfl
  | succ i ih =>
    match buf with
    | _ :: _ :: buf => exact ih h₀ h₁

/-- Storing a word replaces it among the words of the buffer. -/
theorem words_storeWord (order : ByteOrder) (buf : List UInt8) (i : Nat) (w : BitVec 16) :
    words order (storeWord order buf i w) = (words order buf).set i w := by
  induction i generalizing buf with
  | zero =>
    match buf with
    | [] => rfl
    | [_] => rfl
    | b₀ :: b₁ :: buf =>
      have hstore : storeWord order (b₀ :: b₁ :: buf) 0 w =
          (order.bytes w).1 :: (order.bytes w).2 :: buf := rfl
      rw [hstore, words, word_bytes, words, List.set_cons_zero]
  | succ i ih =>
    match buf with
    | [] => rfl
    | [_] => rfl
    | b₀ :: b₁ :: buf =>
      have hstore : storeWord order (b₀ :: b₁ :: buf) (i + 1) w =
          b₀ :: b₁ :: storeWord order buf i w := rfl
      rw [hstore, words, ih, words, List.set_cons_succ]

/-! ## The accumulator -/

theorem toNat_addWord {sum : BitVec 32} {w : BitVec 16} (h : sum.toNat + w.toNat < 2 ^ 32) :
    (addWord sum w).toNat = sum.toNat + w.toNat := by
  have hwide : (w.setWidth 32).toNat = w.toNat := BitVec.toNat_setWidth_of_le (by decide)
  rw [addWord, BitVec.toNat_add, hwide, Nat.mod_eq_of_lt h]

/-- The accumulator holds the sum of all words as long as that fits. -/
theorem exec_addWord {sum : BitVec 32} {ws : List (BitVec 16)}
    (h : sum.toNat + (ws.map BitVec.toNat).sum < 2 ^ 32) :
    Runs.Meets addWord (fun sum w => sum.toNat + w.toNat < 2 ^ 32) sum ws ∧
      (Runs.exec addWord sum ws).toNat = sum.toNat + (ws.map BitVec.toNat).sum := by
  induction ws generalizing sum with
  | nil => exact ⟨trivial, rfl⟩
  | cons w ws ih =>
    rw [List.map_cons, List.sum_cons, ← Nat.add_assoc] at h ⊢
    have hstep : sum.toNat + w.toNat < 2 ^ 32 := by omega
    rw [← toNat_addWord hstep] at h ⊢
    obtain ⟨hmeets, hexec⟩ := ih h
    exact ⟨⟨hstep, hmeets⟩, hexec⟩

/-- The loop runs over the words of the buffer. -/
theorem sumBuffer_eq_exec (host : ByteOrder) {buf : List UInt8} (heven : 2 ∣ buf.length)
    (sum : BitVec 32) : sumBuffer host buf sum = Runs.exec addWord sum (words host buf) := by
  fun_induction sumBuffer host buf sum with
  | case1 b₀ b₁ buf sum ih => exact ih ((Nat.dvd_add_left (Nat.dvd_refl 2)).mp heven)
  | case2 sum b => exact absurd heven (by simp)
  | case3 sum => rfl

/-- A buffer of 2^16 bytes stays far below 2^32. -/
theorem sum_words_lt (order : ByteOrder) {buf : List UInt8} (h : buf.length ≤ 2 ^ 16) :
    ((words order buf).map BitVec.toNat).sum < 2 ^ 32 := by
  have hword : ∀ n ∈ (words order buf).map BitVec.toNat, n ≤ 2 ^ 16 - 1 := by
    intro n hn
    obtain ⟨w, -, rfl⟩ := List.mem_map.mp hn
    have hlt := w.isLt
    omega
  have hsum := List.sum_le_card_nsmul _ _ hword
  rw [List.length_map, length_words, Nat.nsmul_eq_mul] at hsum
  omega

/-- The loop over a whole buffer. -/
theorem exec_words (host : ByteOrder) {buf : List UInt8} (h : buf.length ≤ 2 ^ 16) :
    Runs.Meets addWord (fun sum w => sum.toNat + w.toNat < 2 ^ 32) 0#32 (words host buf) ∧
      (Runs.exec addWord 0#32 (words host buf)).toNat =
        ((words host buf).map BitVec.toNat).sum := by
  have hlt : (0#32).toNat + ((words host buf).map BitVec.toNat).sum < 2 ^ 32 := by
    rw [BitVec.toNat_zero, Nat.zero_add]
    exact sum_words_lt host h
  obtain ⟨hmeets, hexec⟩ := exec_addWord hlt
  rw [BitVec.toNat_zero, Nat.zero_add] at hexec
  exact ⟨hmeets, hexec⟩

theorem toNat_sumBuffer (host : ByteOrder) {buf : List UInt8} (heven : 2 ∣ buf.length)
    (h : buf.length ≤ 2 ^ 16) :
    (sumBuffer host buf 0#32).toNat = ((words host buf).map BitVec.toNat).sum := by
  rw [sumBuffer_eq_exec host heven]
  exact (exec_words host h).2

/-! ## The two folds -/

theorem toNat_high (sum : BitVec 32) : (sum >>> 16).toNat = sum.toNat / 2 ^ 16 := by
  rw [BitVec.toNat_ushiftRight, Nat.shiftRight_eq_div_pow]

theorem toNat_low (sum : BitVec 32) : (sum &&& 0xFFFF#32).toNat = sum.toNat % 2 ^ 16 := by
  rw [BitVec.toNat_and]
  exact Nat.and_two_pow_sub_one_eq_mod sum.toNat 16

theorem halves_lt (sum : BitVec 32) :
    (sum >>> 16).toNat + (sum &&& 0xFFFF#32).toNat < 2 ^ 32 := by
  have hlt := sum.isLt
  rw [toNat_high, toNat_low]
  omega

theorem toNat_addHalves (sum : BitVec 32) :
    (addHalves sum).toNat = sum.toNat / 2 ^ 16 + sum.toNat % 2 ^ 16 := by
  rw [addHalves, BitVec.toNat_add, Nat.mod_eq_of_lt (halves_lt sum), toNat_high, toNat_low]

theorem carry_lt (sum : BitVec 32) :
    (addHalves sum).toNat + (addHalves sum >>> 16).toNat < 2 ^ 32 := by
  have hlt := sum.isLt
  rw [toNat_high, toNat_addHalves]
  omega

/-- **The checksum is the complement of the folded accumulator.** -/
theorem folds_checksum (host : ByteOrder) (b : List UInt8) :
    OnesComplement.Folds (sumBuffer host b 0#32).toNat (~~~checksum host b) := by
  have hnot : ~~~checksum host b =
      (addCarry (addHalves (sumBuffer host b 0#32))).setWidth 16 := by
    rw [checksum, BitVec.setWidth_not (by decide), BitVec.not_not]
  have hcarry : (addCarry (addHalves (sumBuffer host b 0#32))).setWidth 16 =
      BitVec.ofNat 16 ((addHalves (sumBuffer host b 0#32)).toNat +
        (addHalves (sumBuffer host b 0#32)).toNat / 2 ^ 16) := by
    apply BitVec.eq_of_toNat_eq
    rw [BitVec.toNat_setWidth, BitVec.toNat_ofNat, addCarry, BitVec.toNat_add,
      Nat.mod_eq_of_lt (carry_lt _), toNat_high]
  rw [hnot, hcarry]
  exact OnesComplement.folds_twice (sumBuffer host b 0#32).isLt (toNat_addHalves _)

/-! ## The receiver -/

/-- The words in both orders, from the sums of the bytes at even and at odd places. -/
theorem sum_words_bytes (buf : List UInt8) : ∃ evens odds : Nat,
    ((words .little buf).map BitVec.toNat).sum = 256 * odds + evens ∧
      ((words .big buf).map BitVec.toNat).sum = 256 * evens + odds := by
  fun_induction words .little buf with
  | case1 b₀ b₁ buf ih =>
    obtain ⟨evens, odds, hlittle, hbig⟩ := ih
    refine ⟨b₀.toNat + evens, b₁.toNat + odds, ?_, ?_⟩
    · rw [List.map_cons, List.sum_cons, toNat_word_little, hlittle]
      omega
    · rw [words, List.map_cons, List.sum_cons, toNat_word_big, hbig]
      omega
  | case2 buf hshort =>
    match buf with
    | [] => exact ⟨0, 0, rfl, rfl⟩
    | [_] => exact ⟨0, 0, rfl, rfl⟩
    | b₀ :: b₁ :: buf => exact absurd rfl (hshort b₀ b₁ buf)

/-- **The byte order does not matter to a sum of ones.**  The two sums differ by a
factor 2^8, which is a unit modulo 2^16 - 1. -/
theorem sum_words_eq_allOnes_iff (order order' : ByteOrder) (buf : List UInt8) :
    OnesComplement.sum (words order buf) = BitVec.allOnes 16 ↔
      OnesComplement.sum (words order' buf) = BitVec.allOnes 16 := by
  obtain ⟨evens, odds, hlittle, hbig⟩ := sum_words_bytes buf
  rw [OnesComplement.sum_eq_allOnes_iff (by decide), OnesComplement.sum_eq_allOnes_iff (by decide)]
  cases order with
  | little =>
    cases order' with
    | little => rfl
    | big =>
      rw [hlittle, hbig]
      omega
  | big =>
    cases order' with
    | little =>
      rw [hlittle, hbig]
      omega
    | big => rfl

/-! ## Packets -/

/-- A buffer with its checksum adds up to ones, in either byte order. -/
theorem Buffer.sum_filled (host receiver : ByteOrder) (b : Buffer) :
    OnesComplement.sum (words receiver (b.filled host)) = BitVec.allOnes 16 := by
  rw [sum_words_eq_allOnes_iff receiver host, Buffer.filled, words_storeWord]
  have hfield : (words host b.bytes)[b.field]? = some 0#16 := by
    rw [words_getElem? host b.zero.1 b.zero.2]
    cases host <;> rfl
  have hfolds := folds_checksum host b.bytes
  rw [toNat_sumBuffer host b.even b.length_le] at hfolds
  have hsum := OnesComplement.sum_set_not (by decide) hfield hfolds
  rwa [BitVec.not_not] at hsum

/-- The request, still without its checksum. -/
def echoBuffer (host : ByteOrder) (randomId : BitVec 16) : Buffer where
  bytes := echoRequest host randomId
  field := 1
  even := by simp [echoRequest, storeWord]
  length_le := by simp [echoRequest, storeWord]
  zero := by simp [echoRequest, storeWord]

/-- Every echo request verifies. -/
theorem sum_prepareIcmpPkt (host receiver : ByteOrder) (randomId : BitVec 16) :
    OnesComplement.sum (words receiver (prepareIcmpPkt host randomId)) = BitVec.allOnes 16 :=
  (echoBuffer host randomId).sum_filled host receiver

/-- **The checksum verifies**: with it in its field, the words of the buffer add up
to ones, for a receiver of either byte order, and the accumulator holds every sum
on the way.  The echo request is such a buffer. -/
theorem checksum_verifies (host receiver : ByteOrder) (b : Buffer) :
    OnesComplement.sum (words receiver (b.filled host)) = 0xFFFF#16 ∧
      NeverOverflows host b.bytes ∧
      ∀ randomId, OnesComplement.sum (words receiver (prepareIcmpPkt host randomId)) =
        0xFFFF#16 := by
  obtain ⟨hloop, -⟩ := exec_words host b.length_le
  exact ⟨b.sum_filled host receiver, ⟨hloop, halves_lt _, carry_lt _⟩,
    sum_prepareIcmpPkt host receiver⟩

end TfPackages.Ping
