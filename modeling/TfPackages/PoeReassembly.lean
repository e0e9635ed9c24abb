import TfPackages.PoeStopAndWait

/-! # The pieces in which replies arrive do not matter

The serial port hands `poe_stream_msg_cb` whatever bytes have come in: a reply
may be cut anywhere.  The callback waits until its buffer holds twelve bytes and
consumes one reply per call, so on its own it would fall behind a buffer with two
replies.  With at most one frame unanswered there never are two: `step_bytewise`
takes one receipt apart into its bytes, and a run is the same as the run in which
every byte arrives alone.
-/
namespace TfPackages.Poe

/-- The event with every byte received alone. -/
def Event.bytewise : Event → List Event
  | .receive bytes => bytes.map fun b => .receive [b]
  | e => [e]

/-- Bytes that do not complete a reply can as well arrive with those that follow. -/
theorem step_receive_append {s : State} {bytes : List UInt8}
    (hb : s.readBuf.length + bytes.length < 12) (rest : List UInt8) :
    step (step s (.receive bytes)) (.receive rest) = step s (.receive (bytes ++ rest)) := by
  rw [step_receive s bytes, if_pos hb, step_receive, step_receive]
  simp only [List.length_append, ← Nat.add_assoc]
  split
  · simp only [List.append_assoc, Nat.add_assoc]
  · simp only [afterReply, List.append_assoc, List.length_append, Nat.add_assoc]

/-- The read buffer never holds a whole reply between two callbacks. -/
theorem Wire.readBuf_lt {s : State} (h : Wire s) : s.readBuf.length < 12 := by
  rw [h.buffered]
  exact Nat.mod_lt _ (by decide)

/-- Nothing received changes nothing. -/
theorem Wire.step_receive_nil {s : State} (h : Wire s) : step s (.receive []) = s := by
  rw [step_receive, if_pos (by simpa using h.readBuf_lt)]
  simp

/-- **One receipt** is the receipts of its bytes, one after the other. -/
theorem step_receive_bytewise {s : State} (h : Wire s) {bytes : List UInt8}
    (hs : Solicited s (.receive bytes)) :
    Runs.exec step s (bytes.map fun b => .receive [b]) = step s (.receive bytes) := by
  induction bytes generalizing s with
  | nil => exact h.step_receive_nil.symm
  | cons b bs ih =>
    have hlt := h.readBuf_lt
    rw [List.map_cons, Runs.exec, List.foldl_cons]
    by_cases hb : s.readBuf.length + [b].length < 12
    · have hfrag : step s (.receive [b]) =
          { s with readBuf := s.readBuf ++ [b], received := s.received + [b].length } := by
        rw [step_receive, if_pos hb]
      have hs' : Solicited (step s (.receive [b])) (.receive bs) := by
        rw [hfrag]
        simp only [Solicited, List.length_cons, List.length_nil] at hs ⊢
        omega
      have hw : Wire (step s (.receive [b])) := hfrag ▸ wire_fragment h hb
      exact (ih hw hs').trans (step_receive_append hb bs)
    · -- the byte completes the reply, and nothing is asked for beyond it
      obtain ⟨-, -, -, -, hlen, -⟩ := h.reply_answers hs (by
        simp only [List.length_cons, List.length_nil] at hb ⊢
        omega)
      have hbs : bs = [] := by
        apply List.eq_nil_of_length_eq_zero
        simp only [List.length_cons, List.length_nil] at hb hlen
        omega
      rw [hbs]
      rfl

/-- **One event** is its bytes. -/
theorem step_bytewise {s : State} (h : Wire s) {e : Event} (hs : Solicited s e) :
    Runs.exec step s e.bytewise = step s e := by
  cases e with
  | receive bytes => exact step_receive_bytewise h hs
  | queue payload => rfl
  | expire => rfl

/-- **A run** is the run of its bytes. -/
theorem exec_bytewise {s : State} (h : Wire s) {es : List Event}
    (hes : Runs.Meets step Solicited s es) :
    Runs.exec step s (es.flatMap Event.bytewise) = Runs.exec step s es := by
  induction es generalizing s with
  | nil => rfl
  | cons e es ih =>
    rw [List.flatMap_cons, Runs.exec, List.foldl_append]
    have hstep : List.foldl step s e.bytewise = step s e := step_bytewise h hes.1
    rw [hstep]
    exact ih (wire_step h hes.1).1 hes.2

/-- **Replies are reassembled.**  Two runs in which the same commands are queued,
the timer expires at the same points and the same bytes arrive between, cut into
different pieces, end in the same state: the same frames are written, the same
replies handled and the same commands left. -/
theorem reassembles (es es' : List Event) (hes : Runs.Meets step Solicited initial es)
    (hes' : Runs.Meets step Solicited initial es')
    (hbytes : es.flatMap Event.bytewise = es'.flatMap Event.bytewise) :
    Runs.exec step initial es = Runs.exec step initial es' := by
  rw [← exec_bytewise wire_initial hes, ← exec_bytewise wire_initial hes', hbytes]

/-- One reply in two pieces and in three. -/
theorem reassembles_in_pieces :
    Runs.exec step initial
        [.queue [0x23], .receive [0xfd, 0, 0, 0, 0], .receive [0, 0, 0, 0, 0, 0, 0xfd], .expire] =
      Runs.exec step initial
        [.queue [0x23], .receive [0xfd], .receive [0, 0, 0, 0, 0, 0, 0],
          .receive [0, 0, 0, 0xfd], .expire] :=
  reassembles _ _ (by decide +kernel) (by decide +kernel) rfl

end TfPackages.Poe
