import LzcSdk.Lib.ByteIo

/-!
# Programs step by step

Between two await points a program reads one portion of the bytes that arrived, or the kernel takes one portion of
what it writes. `Prog.settle` runs a program to its next await point: the end, or a read or a write that is not
complete (`Waiting`; a partly filled buffer is kept with the read). `Waiting.move` is one portion, or the failure of
the connection.

**Portions do not change what a program does** (`eval_move`): after any of them the program has the outcome it had
before, and leaves the same bytes unread and sent. So the only thing that can come between two portions is another
program on the same connection.
-/

namespace ByteIo

variable {ε α : Type}

/-- A program at an await point: in a read whose buffer is not full, or in a write that is not complete. -/
inductive Waiting (ε α : Type) where
  | reading (n : Nat) (next : Vector UInt8 n → Prog ε α) (got : List UInt8) (short : got.length < n)
  | writing (bs : List UInt8) (next : Prog ε α) (more : bs ≠ [])

/-- A program between two polls: it is done, or waits. -/
inductive Progress (ε α : Type) where
  | done (outcome : Outcome ε α)
  | waiting (x : Waiting ε α)

/-- Run to the next await point; empty reads and writes are none. -/
def Prog.settle : Prog ε α → Progress ε α
  | ret o => .done o
  | read 0 next => (next noBytes).settle
  | read (n + 1) next => .waiting (.reading (n + 1) next [] n.succ_pos)
  | write [] next => next.settle
  | write (b :: bs) next => .waiting (.writing (b :: bs) next (List.cons_ne_nil b bs))

/-- What happens to a waiting program: it reads or writes up to `k` bytes, or the connection fails. -/
inductive Move where
  | read (k : Nat)
  | write (k : Nat)
  | fail
  deriving DecidableEq, Repr

/-- The bytes that a move takes off the stream or puts on it. -/
def Move.size : Move → Nat
  | read k => k
  | write k => k
  | fail => 0

/-- Whether the kernel takes `k` more bytes. -/
def Sink.hasRoom (k : Nat) : Sink → Bool
  | ⟨_, none⟩ => true
  | ⟨_, some room⟩ => k ≤ room

/-- Take `k` bytes. -/
def Sink.take (bs : List UInt8) (k : Nat) : Sink → Sink
  | ⟨sent, room⟩ => ⟨sent ++ bs.take k, room.map (· - k)⟩

/-- The buffer of a read that has become full. -/
def fullBuffer {n : Nat} (got : List UInt8) (h : got.length = n) : Vector UInt8 n := ⟨got.toArray, by simpa using h⟩

section Moves

variable [FromIo ε]

/-- One move of a waiting program, if the connection allows it. -/
def Waiting.move (w : Wire) : Move → Waiting ε α → Option (Progress ε α × Wire)
  | .read k, .reading n next got _ =>
    if 0 < k ∧ k ≤ w.input.length then
      let buffer := got ++ w.input.take k
      let w' := { w with input := w.input.drop k }
      if h : buffer.length < n then some (.waiting (.reading n next buffer h), w')
      else if h : buffer.length = n then some ((next (fullBuffer buffer h)).settle, w')
      else none
    else none
  | .write k, .writing bs next _ =>
    if 0 < k ∧ k ≤ bs.length ∧ w.sink.hasRoom k then
      let w' := { w with sink := w.sink.take bs k }
      if h : bs.drop k ≠ [] then some (.waiting (.writing (bs.drop k) next h), w')
      else some (next.settle, w')
    else none
  | .fail, .reading _ _ _ _ => if w.input = [] then some (.done (.err (fromIo w.ending.error)), w) else none
  | .fail, .writing _ _ _ => if w.sink.room = some 0 then some (.done (.err (fromIo brokenPipe)), w) else none
  | _, _ => none

/-- `w'` is `w` after `n` bytes were taken off the stream or put on it. -/
def Moved (w w' : Wire) (n : Nat) : Prop :=
  ∃ taken part, w.input = taken ++ w'.input ∧ w'.ending = w.ending ∧ w'.sink.sent = w.sink.sent ++ part ∧
    w'.sink.room = w.sink.room.map (· - part.length) ∧ n = taken.length + part.length

theorem Moved.refl (w : Wire) : Moved w w 0 := ⟨[], [], rfl, rfl, by simp, by simp, rfl⟩

theorem Moved.trans {w₁ w₂ w₃ : Wire} {m n : Nat} (h₁ : Moved w₁ w₂ m) (h₂ : Moved w₂ w₃ n) : Moved w₁ w₃ (m + n) := by
  obtain ⟨taken₁, part₁, hin₁, hend₁, hsent₁, hroom₁, rfl⟩ := h₁
  obtain ⟨taken₂, part₂, hin₂, hend₂, hsent₂, hroom₂, rfl⟩ := h₂
  refine ⟨taken₁ ++ taken₂, part₁ ++ part₂, ?_, hend₂.trans hend₁, ?_, ?_, ?_⟩
  · rw [hin₁, hin₂, List.append_assoc]
  · rw [hsent₂, hsent₁, List.append_assoc]
  · rw [hroom₂, hroom₁, Option.map_map]
    congr 1
    funext room
    simp only [Function.comp_apply, List.length_append]
    omega
  · simp only [List.length_append]
    omega

/-- Nothing has moved. -/
theorem Moved.eq {w w' : Wire} (h : Moved w w' 0) : w' = w := by
  obtain ⟨taken, part, hin, hend, hsent, hroom, hn⟩ := h
  have htaken : taken = [] := List.length_eq_zero_iff.1 (by omega)
  have hpart : part = [] := List.length_eq_zero_iff.1 (by omega)
  subst htaken hpart
  obtain ⟨input, ending, sent, room⟩ := w
  obtain ⟨input', ending', sent', room'⟩ := w'
  simp_all

/-- A move moves as many bytes as it says. -/
theorem moved_of_move {w w' : Wire} {m : Move} {x : Waiting ε α} {r : Progress ε α} (h : x.move w m = some (r, w')) :
    Moved w w' m.size := by
  cases m with
  | read k =>
    cases x with
    | writing bs next more => cases h
    | reading n next got short =>
      simp only [Waiting.move] at h
      split at h
      · rename_i hk
        have hw : w' = { w with input := w.input.drop k } := by
          split at h
          · cases h; rfl
          · split at h
            · cases h; rfl
            · cases h
        subst hw
        exact ⟨w.input.take k, [], (List.take_append_drop k _).symm, rfl, by simp, by simp, by simp [Move.size, hk.2]⟩
      · cases h
  | write k =>
    cases x with
    | reading n next got short => cases h
    | writing bs next more =>
      simp only [Waiting.move] at h
      split at h
      · rename_i hk
        have hw : w' = { w with sink := w.sink.take bs k } := by split at h <;> cases h <;> rfl
        have hlen : (bs.take k).length = k := List.length_take_of_le hk.2.1
        subst hw
        exact ⟨[], bs.take k, rfl, rfl, rfl, by rw [hlen]; rfl, by simp [Move.size, hk.2.1]⟩
      · cases h
  | fail =>
    cases x <;> simp only [Waiting.move] at h <;> split at h <;> cases h <;> exact Moved.refl w

/-! ## The program that remains -/

/-- Run a waiting program to its end. -/
def Waiting.eval (w : Wire) : Waiting ε α → Outcome ε α × Wire
  | .reading n next got _ => (Prog.read n next).eval { w with input := got ++ w.input }
  | .writing bs next _ => (Prog.write bs next).eval w

/-- Run a program to its end. -/
def Progress.eval (w : Wire) : Progress ε α → Outcome ε α × Wire
  | .done o => (o, w)
  | .waiting x => x.eval w

theorem eval_settle (p : Prog ε α) (w : Wire) : p.settle.eval w = p.eval w := by
  induction p generalizing w with
  | ret o => rfl
  | read n next ih =>
    cases n with
    | zero => exact (ih _ w).trans (Prog.eval_read_append Prog.noBytes w.input).symm
    | succ n => rfl
  | write bs next ih =>
    cases bs with
    | nil =>
      obtain ⟨input, ending, sent, room⟩ := w
      rw [Prog.settle, ih]
      cases room <;> simp [Prog.eval, Sink.writeAll]
    | cons b bs => rfl

theorem Waiting.sent_prefix_eval (x : Waiting ε α) (w : Wire) : w.sink.sent <+: (x.eval w).2.sink.sent := by
  cases x with
  | reading n next got short => exact Prog.sent_prefix_eval (.read n next) { w with input := got ++ w.input }
  | writing bs next more => exact Prog.sent_prefix_eval (.write bs next) w

/-- Taking a first part leaves the rest to write. -/
theorem writeAll_take {bs : List UInt8} {k : Nat} {s : Sink} (hk : k ≤ bs.length) (hr : s.hasRoom k) :
    s.writeAll bs = (s.take bs k).writeAll (bs.drop k) := by
  obtain ⟨sent, _ | room⟩ := s
  · simp [Sink.writeAll, Sink.take]
  · have hr : k ≤ room := by simpa [Sink.hasRoom] using hr
    simp only [Sink.writeAll, Sink.take, Option.map_some, List.length_drop, List.append_assoc]
    by_cases h : bs.length ≤ room
    · rw [if_pos h, if_pos (by omega), List.take_append_drop]
      congr 3
      omega
    · rw [if_neg h, if_neg (by omega), show bs.take room = bs.take k ++ (bs.drop k).take (room - k) by
        rw [← List.take_add, Nat.add_sub_cancel' hr]]

/-- **Portions do not change what a program does.** -/
theorem eval_move {w w' : Wire} {m : Move} {x : Waiting ε α} {r : Progress ε α} (h : x.move w m = some (r, w')) :
    r.eval w' = x.eval w := by
  obtain ⟨input, ending, sink⟩ := w
  cases m with
  | read k =>
    cases x with
    | writing bs next more => cases h
    | reading n next got short =>
      simp only [Waiting.move] at h
      split at h
      · have hin : got ++ input = (got ++ input.take k) ++ input.drop k := by simp
        split at h
        · cases h
          simp only [Progress.eval, Waiting.eval, hin]
        · split at h
          · rename_i hfull
            cases h
            simp only [Waiting.eval, eval_settle, hin]
            exact (Prog.eval_read_append (fullBuffer _ hfull) (input.drop k)).symm
          · cases h
      · cases h
  | write k =>
    cases x with
    | reading n next got short => cases h
    | writing bs next more =>
      simp only [Waiting.move] at h
      split at h
      · rename_i hk
        have htake := writeAll_take hk.2.1 hk.2.2
        have hsame : (Prog.write (bs.drop k) next).eval ⟨input, ending, sink.take bs k⟩ =
            (Prog.write bs next).eval ⟨input, ending, sink⟩ := by
          simp only [Prog.eval, htake]
        split at h
        · cases h
          exact hsame
        · rename_i hnil
          cases h
          rw [not_not.1 hnil] at hsame
          rw [Waiting.eval, ← hsame, ← eval_settle (Prog.write [] next), Prog.settle]
      · cases h
  | fail =>
    cases x with
    | reading n next got short =>
      simp only [Waiting.move] at h
      split at h
      · rename_i hnil
        cases h
        subst hnil
        simp only [Progress.eval, Waiting.eval, List.append_nil]
        exact (Prog.eval_read_short short).symm
      · cases h
    | writing bs next more =>
      simp only [Waiting.move] at h
      split at h
      · rename_i hroom
        cases h
        obtain ⟨sent, room⟩ := sink
        cases (hroom : room = some 0)
        cases bs with
        | nil => exact absurd rfl more
        | cons b bs => simp [Progress.eval, Waiting.eval, Prog.eval, Sink.writeAll]
      · cases h

end Moves

end ByteIo
