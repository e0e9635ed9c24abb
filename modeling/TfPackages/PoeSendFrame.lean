import TfPackages.PoePortSetup
import TfPackages.Tokens

/-! # Raw frames

The method `sendframe` takes the bytes of a frame as hexadecimal numbers in a text.
`ubus_poe_sendframe_cb` reads them with `strtoul` until the text is at its end or
the buffer is full, and queues what it has read.

`SentOrRefused` is what a caller may expect: an error, or a frame with exactly the
numbers of the text.  Three kinds of text break it.  The empty text has no number,
and is queued; a number may have a sign, and then needs no white space before it;
and what stands behind nine numbers is not looked at.
-/
namespace TfPackages.Poe
open CStrings

/-- What the method returns. -/
inductive SendStatus where
  /-- `UBUS_STATUS_INVALID_ARGUMENT` -/
  | invalidArgument
  /-- What `poe_cmd_queue` returns. -/
  | queued
deriving DecidableEq, Repr

/-- `ubus_poe_sendframe_cb` -/
def sendframe (s : State) (frame : List UInt8) : SendStatus × State :=
  match ubusPoeSendframeCb frame with
  | none => (.invalidArgument, s)
  | some cmd => (.queued, poeCmdQueue s cmd)

/-- The words of a text. -/
def words (frame : List UInt8) : List (List UInt8) := Tokens.tokens isBlank frame

/-- The frame has these bytes, the id translated and the sequence number in its
place, and `0xff` behind them up to the checksum. -/
structure Carries (d : Frame) (bytes : List UInt8) (seq : UInt8) : Prop where
  id : d.byte 0 = bcmToRtlCmdId (bytes.getD 0 0xff)
  seq : d.byte 1 = seq
  payload : ∀ i, 2 ≤ i → i ≤ 10 → d.byte i = bytes.getD i 0xff

/-- The words of the text are one to nine byte values, and a frame with these bytes
is queued. -/
def SentInFull (s : State) (frame : List UInt8) : Prop :=
  ∃ bytes : List UInt8, 1 ≤ bytes.length ∧ bytes.length ≤ 9 ∧
    List.Forall₂ (fun w b => HexNumber w b.toNat) (words frame) bytes ∧
    ∃ c : Cmd, (sendframe s frame).2.cmdPending = s.cmdPending ++ [c] ∧
      Carries c.cmd bytes (s.cmdSeq + 1)

/-- **A raw frame is sent in full or refused.** -/
def SentOrRefused (s : State) (frame : List UInt8) : Prop :=
  sendframe s frame = (.invalidArgument, s) ∨ SentInFull s frame

/-! ## Reading the numbers -/

/-- What is left of a text after `n` numbers that fit in a byte. -/
def afterNumbers : Nat → List UInt8 → Option (List UInt8)
  | 0, s => some s
  | n + 1, s => (strtoul16 s).bind fun r => if r.1 > 0xff then none else afterNumbers n r.2

/-- The condition on a text.  If it can be read as up to nine numbers, or as nine
with something left, then no number has a sign and only white space is left. -/
structure ReadsInFull (frame : List UInt8) : Prop where
  ne_nil : frame ≠ []
  read : ∀ n rest, n ≤ 9 → afterNumbers n frame = some rest → rest = [] ∨ n = 9 →
    ∃ taken, frame = taken ++ rest ∧ 0x2b ∉ taken ∧ 0x2d ∉ taken ∧ ∀ c ∈ rest, isBlank c = true

theorem afterNumbers_succ_eq_some {n : Nat} {s rest : List UInt8} :
    afterNumbers (n + 1) s = some rest ↔
      ∃ v next, strtoul16 s = some (v, next) ∧ v ≤ 0xff ∧ afterNumbers n next = some rest := by
  rw [afterNumbers, Option.bind_eq_some_iff]
  constructor
  · rintro ⟨⟨v, next⟩, hread, h⟩
    split at h
    · cases h
    · exact ⟨v, next, hread, by omega, h⟩
  · rintro ⟨v, next, hread, hv, h⟩
    refine ⟨(v, next), hread, ?_⟩
    rw [if_neg (by simpa using hv), h]

/-- The loop reads numbers until the text is at its end or there is no more room. -/
theorem sendframeLoop_eq_some {n : Nat} {s bytes : List UInt8}
    (h : sendframeLoop n s = some bytes) :
    ∃ rest, bytes.length ≤ n ∧ afterNumbers bytes.length s = some rest ∧
      (rest = [] ∨ bytes.length = n) := by
  induction n generalizing s bytes with
  | zero =>
    cases h
    exact ⟨s, le_rfl, rfl, .inr rfl⟩
  | succ n ih =>
    rw [sendframeLoop] at h
    split at h
    · rename_i hs
      cases h
      exact ⟨s, Nat.zero_le _, rfl, .inl hs⟩
    · obtain ⟨⟨v, next⟩, hread, h⟩ := Option.bind_eq_some_iff.mp h
      simp only at h
      split at h
      · cases h
      · rename_i hv
        obtain ⟨more, hmore, h⟩ := Option.bind_eq_some_iff.mp h
        cases h
        obtain ⟨rest, hlen, hafter, hend⟩ := ih hmore
        refine ⟨rest, ?_, ?_, ?_⟩
        · rw [List.length_cons]
          omega
        · exact afterNumbers_succ_eq_some.mpr ⟨v, next, hread, by omega, hafter⟩
        · exact hend.imp_right fun hfull => by rw [List.length_cons, hfull]

/-- The loop gets through a text that can be read to its end, or to the end of the
buffer. -/
theorem sendframeLoop_isSome {n m : Nat} {s rest : List UInt8} (hm : m ≤ n)
    (h : afterNumbers m s = some rest) (hend : rest = [] ∨ m = n) :
    ∃ bytes, sendframeLoop n s = some bytes := by
  induction n generalizing m s with
  | zero => exact ⟨[], rfl⟩
  | succ n ih =>
    rw [sendframeLoop]
    split
    · exact ⟨[], rfl⟩
    · rename_i hs
      cases m with
      | zero =>
        cases h
        rcases hend with hend | hend
        · exact absurd hend hs
        · cases hend
      | succ m =>
        obtain ⟨v, next, hread, hv, hafter⟩ := afterNumbers_succ_eq_some.mp h
        obtain ⟨more, hmore⟩ := ih (by omega) hafter (hend.imp_right fun hfull => by omega)
        refine ⟨UInt8.ofNat v :: more, ?_⟩
        rw [hread]
        simp only [Option.bind_eq_bind, Option.bind_some, if_neg (show ¬ v > 0xff by omega), hmore]

theorem suffix_of_afterNumbers {n : Nat} {s rest : List UInt8}
    (h : afterNumbers n s = some rest) : ∃ taken, s = taken ++ rest := by
  induction n generalizing s with
  | zero =>
    cases h
    exact ⟨[], rfl⟩
  | succ n ih =>
    obtain ⟨v, next, hread, -, hafter⟩ := afterNumbers_succ_eq_some.mp h
    obtain ⟨blank, sign, w, value, rfl, -⟩ := eq_append_of_strtoul16 hread
    obtain ⟨taken, rfl⟩ := ih hafter
    exact ⟨blank ++ (sign ++ (w ++ taken)), by simp⟩

/-- The bytes of a number are neither white space nor signs. -/
theorem mem_hexNumber {w : List UInt8} {value : Nat} (h : HexNumber w value) {c : UInt8}
    (hc : c ∈ w) : isBlank c = false ∧ c ≠ 0x2d ∧ c ≠ 0x2b := by
  obtain ⟨pre, digits, rfl, hpre, -, hhex, -⟩ := h.eq_append
  rcases List.mem_append.mp hc with hc | hc
  · rcases hpre with rfl | rfl | rfl
    · cases hc
    · rcases List.mem_pair.mp hc with rfl | rfl <;> decide
    · rcases List.mem_pair.mp hc with rfl | rfl <;> decide
  · obtain ⟨hb, hm, hp, -⟩ := hex_ne (hhex c hc)
    exact ⟨hb, hm, hp⟩

theorem hexNumber_ne_nil {w : List UInt8} {value : Nat} (h : HexNumber w value) : w ≠ [] := by
  obtain ⟨pre, digits, rfl, -, hne, -⟩ := h.eq_append
  simp [hne]

/-- The first byte of a number is a digit. -/
theorem head_hexNumber {w : List UInt8} {value : Nat} (h : HexNumber w value) :
    ∃ c t, w = c :: t ∧ isHex c = true := by
  obtain ⟨pre, digits, rfl, hpre, hne, hhex, -⟩ := h.eq_append
  obtain ⟨c, t, rfl⟩ := List.exists_cons_of_ne_nil hne
  rcases hpre with rfl | rfl | rfl
  · exact ⟨c, t, rfl, hhex c List.mem_cons_self⟩
  · exact ⟨0x30, 0x78 :: c :: t, rfl, by decide⟩
  · exact ⟨0x30, 0x58 :: c :: t, rfl, by decide⟩

/-- A text in which more numbers are read, or only white space is left, begins with
white space if it does not begin with a digit or a sign. -/
theorem blank_of_head {n : Nat} {s rest : List UInt8} (h : afterNumbers n s = some rest) {c : UInt8}
    (hc : c ∈ s.head?) (hhex : isHex c = false) (hplus : c ≠ 0x2b) (hminus : c ≠ 0x2d)
    (hrest : ∀ c ∈ rest, isBlank c = true) : isBlank c = true := by
  cases n with
  | zero =>
    cases h
    exact hrest c (List.mem_of_mem_head? hc)
  | succ n =>
    obtain ⟨v, next, hread, -⟩ := afterNumbers_succ_eq_some.mp h
    obtain ⟨blank, sign, w, value, rfl, hblank, hsign, hw, -⟩ := eq_append_of_strtoul16 hread
    cases blank with
    | cons b blank =>
      cases hc
      exact hblank _ List.mem_cons_self
    | nil =>
      obtain ⟨d, t, rfl, hd⟩ := head_hexNumber hw
      rcases hsign with ⟨rfl, -⟩ | rfl | rfl
      · cases hc
        rw [hd] at hhex
        cases hhex
      · cases hc
        exact absurd rfl hminus
      · cases hc
        exact absurd rfl hplus

/-- **Numbers without sign are the words of the text.** -/
theorem words_of_sendframeLoop {n : Nat} {s bytes taken rest : List UInt8}
    (h : sendframeLoop n s = some bytes) (hafter : afterNumbers bytes.length s = some rest)
    (hs : s = taken ++ rest) (hplus : 0x2b ∉ taken) (hminus : 0x2d ∉ taken)
    (hrest : ∀ c ∈ rest, isBlank c = true) :
    List.Forall₂ (fun w b => HexNumber w b.toNat) (words s) bytes := by
  induction n generalizing s bytes taken with
  | zero =>
    cases h
    cases hafter
    have hnil : words rest = [] := by
      have hwords := Tokens.tokens_delims hrest []
      rwa [List.append_nil, Tokens.tokens_nil] at hwords
    rw [hnil]
    exact .nil
  | succ n ih =>
    rw [sendframeLoop] at h
    split at h
    · rename_i hnil
      cases h
      rw [hnil, words, Tokens.tokens_nil]
      exact .nil
    · obtain ⟨⟨v, next⟩, hread, h⟩ := Option.bind_eq_some_iff.mp h
      simp only at h
      split at h
      · cases h
      · rename_i hv
        obtain ⟨more, hmore, h⟩ := Option.bind_eq_some_iff.mp h
        cases h
        obtain ⟨v', next', hread', -, hafter'⟩ := afterNumbers_succ_eq_some.mp hafter
        rw [hread, Option.some.injEq, Prod.mk.injEq] at hread'
        obtain ⟨rfl, rfl⟩ := hread'
        obtain ⟨blank, sign, w, value, heq, hblank, hsign, hw, hmunch⟩ :=
          eq_append_of_strtoul16 hread
        obtain ⟨taken', hnext⟩ := suffix_of_afterNumbers hafter'
        -- what has been taken is the number and what was taken after it
        have htaken : taken = blank ++ (sign ++ (w ++ taken')) := by
          rw [heq, hnext] at hs
          have happ : blank ++ (sign ++ (w ++ taken')) ++ rest = taken ++ rest := by
            rw [← hs]
            simp
          exact (List.append_cancel_right happ).symm
        rw [htaken] at hplus hminus
        simp only [List.mem_append, not_or] at hplus hminus
        obtain ⟨rfl, rfl⟩ : sign = [] ∧ v = value := by
          rcases hsign with hs | rfl | rfl
          · exact hs
          · exact absurd List.mem_cons_self hminus.2.1
          · exact absurd List.mem_cons_self hplus.2.1
        have hfollow : ∀ c ∈ next.head?, isBlank c = true := by
          intro c hc
          have hmem : c ∈ taken' ++ rest := hnext ▸ List.mem_of_mem_head? hc
          rcases List.mem_append.mp hmem with hmem | hmem
          · refine blank_of_head hafter' hc (hmunch c hc) ?_ ?_ hrest
            · rintro rfl
              exact hplus.2.2.2 hmem
            · rintro rfl
              exact hminus.2.2.2 hmem
          · exact hrest c hmem
        have hwords : words s = w :: words next := by
          rw [heq, words, List.nil_append, Tokens.tokens_delims hblank,
            Tokens.tokens_run (hexNumber_ne_nil hw) (fun c hc => (mem_hexNumber hw hc).1) hfollow]
          rfl
        rw [hwords]
        refine .cons ?_ (ih hmore hafter' hnext hplus.2.2.2 hminus.2.2.2)
        rwa [UInt8.toNat_ofNat_of_lt' (show v < 256 by omega)]

/-- Words that are numbers are read one after the other. -/
theorem words_afterNumbers {n : Nat} {s rest bytes : List UInt8}
    (hwords : List.Forall₂ (fun w b => HexNumber w b.toNat) (words s) bytes)
    (h : afterNumbers n s = some rest) :
    List.Forall₂ (fun w b => HexNumber w b.toNat) (words rest) (bytes.drop n) := by
  induction n generalizing s bytes with
  | zero =>
    cases h
    exact hwords
  | succ n ih =>
    obtain ⟨v, next, hread, -, hafter⟩ := afterNumbers_succ_eq_some.mp h
    cases bytes with
    | nil =>
      -- without a word there is no number to read
      exfalso
      have hnil : words s = [] := by
        cases hs : words s with
        | nil => rfl
        | cons w ws =>
          rw [hs] at hwords
          cases hwords
      obtain ⟨blank, sign, w, value, rfl, -, -, hw, -⟩ := eq_append_of_strtoul16 hread
      obtain ⟨c, t, rfl, -⟩ := head_hexNumber hw
      have hmem : c ∈ blank ++ (sign ++ (c :: t ++ next)) := by simp
      rcases Tokens.mem_tokens_of_mem (d := isBlank) hmem with hblank | ⟨u, hu, -⟩
      · rw [(mem_hexNumber hw List.mem_cons_self).1] at hblank
        cases hblank
      · rw [show Tokens.tokens isBlank _ = [] from hnil] at hu
        cases hu
    | cons b bytes =>
      cases hs : words s with
      | nil =>
        rw [hs] at hwords
        cases hwords
      | cons w ws =>
        rw [hs] at hwords
        cases hwords with
        | cons hw hall =>
          obtain ⟨pre, post, rfl, hpre, hpost, hws⟩ := Tokens.eq_append_of_tokens_cons hs
          have hb := b.toNat_lt
          rw [strtoul16_word hpre hw (by omega) hpost, Option.some.injEq, Prod.mk.injEq] at hread
          rw [List.drop_succ_cons]
          refine ih ?_ hafter
          rw [← hread.2, words, hws]
          exact hall

/-! ## The frame that is queued -/

/-- The frame built from some bytes carries them. -/
theorem carries_buildFrame (bytes : List UInt8) (seq : UInt8) :
    Carries (buildFrame bytes seq) bytes seq :=
  ⟨buildFrame_id bytes seq, buildFrame_seq bytes seq,
    fun _ h2 h10 => buildFrame_byte bytes seq h2 h10⟩

theorem sendframe_of_some {frame bytes : List UInt8} (h : ubusPoeSendframeCb frame = some bytes)
    (s : State) : ∃ c : Cmd, sendframe s frame = (.queued, poeCmdQueue s bytes) ∧
      (sendframe s frame).2.cmdPending = s.cmdPending ++ [c] ∧
      Carries c.cmd bytes (s.cmdSeq + 1) := by
  have hsend : sendframe s frame = (.queued, poeCmdQueue s bytes) := by rw [sendframe, h]
  refine ⟨⟨s.payloads.length, buildFrame bytes (s.cmdSeq + 1), 0⟩, hsend, ?_,
    carries_buildFrame _ _⟩
  rw [hsend, cmdPending_poeCmdQueue]

theorem hexNumber_of_mem {ws : List (List UInt8)} {bytes : List UInt8}
    (h : List.Forall₂ (fun w b => HexNumber w b.toNat) ws bytes) {w : List UInt8} (hw : w ∈ ws) :
    ∃ v, HexNumber w v := by
  induction h with
  | nil => cases hw
  | cons hfirst hall ih =>
    rcases List.mem_cons.mp hw with rfl | hw
    · exact ⟨_, hfirst⟩
    · exact ih hw

/-- A text of number words meets the condition, if there are one to nine. -/
theorem readsInFull_of_words {frame bytes : List UInt8} (hpos : 1 ≤ bytes.length)
    (hlen : bytes.length ≤ 9)
    (hwords : List.Forall₂ (fun w b => HexNumber w b.toNat) (words frame) bytes) :
    ReadsInFull frame := by
  have hsign : ∀ c, c = 0x2b ∨ c = 0x2d → c ∉ frame := by
    intro c hc hmem
    rcases Tokens.mem_tokens_of_mem (d := isBlank) hmem with hblank | ⟨w, hw, hcw⟩
    · rcases hc with rfl | rfl <;> cases hblank
    · obtain ⟨v, hv⟩ := hexNumber_of_mem hwords hw
      have hno := mem_hexNumber hv hcw
      exact hc.elim hno.2.2 hno.2.1
  refine ⟨?_, fun n rest hn hafter hend => ?_⟩
  · rintro rfl
    rw [words, Tokens.tokens_nil] at hwords
    cases hwords
    exact absurd hpos (by decide)
  · obtain ⟨taken, htaken⟩ := suffix_of_afterNumbers hafter
    refine ⟨taken, htaken, fun h => hsign _ (.inl rfl) ?_, fun h => hsign _ (.inr rfl) ?_, ?_⟩
    · rw [htaken]
      exact List.mem_append_left _ h
    · rw [htaken]
      exact List.mem_append_left _ h
    · rcases hend with rfl | rfl
      · simp
      · -- all words have been read
        have hleft := words_afterNumbers hwords hafter
        rw [List.drop_of_length_le hlen] at hleft
        have hnil : words rest = [] := by
          cases hs : words rest with
          | nil => rfl
          | cons w ws =>
            rw [hs] at hleft
            cases hleft
        intro c hc
        rcases Tokens.mem_tokens_of_mem (d := isBlank) hc with hblank | ⟨w, hw, -⟩
        · exact hblank
        · rw [show Tokens.tokens isBlank rest = [] from hnil] at hw
          cases hw

/-- **A raw frame is sent in full or refused exactly if its text reads in full.** -/
theorem sent_or_refused_iff (s : State) (frame : List UInt8) :
    SentOrRefused s frame ↔ ReadsInFull frame := by
  constructor
  · rintro (hrefused | ⟨bytes, hpos, hlen, hwords, -⟩)
    · have hnone : ubusPoeSendframeCb frame = none := by
        cases hread : ubusPoeSendframeCb frame with
        | none => rfl
        | some bytes =>
          obtain ⟨c, hsend, -⟩ := sendframe_of_some hread s
          rw [hsend] at hrefused
          cases hrefused
      refine ⟨?_, fun n rest hn hafter hend => ?_⟩
      · rintro rfl
        cases hnone
      · obtain ⟨bytes, hbytes⟩ := sendframeLoop_isSome hn hafter hend
        rw [ubusPoeSendframeCb, hbytes] at hnone
        cases hnone
    · exact readsInFull_of_words hpos hlen hwords
  · intro h
    cases hread : ubusPoeSendframeCb frame with
    | none => exact .inl (by rw [sendframe, hread])
    | some bytes =>
      obtain ⟨c, -, hpending, hcarries⟩ := sendframe_of_some hread s
      obtain ⟨rest, hlen, hafter, hend⟩ := sendframeLoop_eq_some hread
      obtain ⟨taken, htaken, hplus, hminus, hrest⟩ := h.read _ rest hlen hafter hend
      refine .inr ⟨bytes, ?_, hlen,
        words_of_sendframeLoop hread hafter htaken hplus hminus hrest, c, hpending, hcarries⟩
      -- something has been read of a text that is not empty
      by_contra hzero
      have hnil : bytes = [] := by
        cases bytes with
        | nil => rfl
        | cons b bytes => simp at hzero
      subst hnil
      cases hafter
      rcases hend with hnil | hfull
      · exact h.ne_nil hnil
      · cases hfull

/-- The empty text is queued as a frame of nothing but filling. -/
theorem empty_text_queued : ¬ SentOrRefused initial [] := by
  rintro (hrefused | ⟨bytes, hpos, -, hwords, -⟩)
  · cases hrefused
  · rw [words, Tokens.tokens_nil] at hwords
    cases hwords
    cases hpos

end TfPackages.Poe
