import LzcSdk.Lib.Outcome

/-!
# Programs over a byte stream

A program that talks over a connected byte stream reads exact numbers of bytes, writes whole buffers, and in the end
returns, fails or panics (`Prog`). What the network chooses is not in the program: how the incoming bytes are cut into
segments, how the stream ends, and after how many bytes a write fails.

* `Prog.run` runs a program on a socket whose incoming bytes are a list of segments, one `read` per segment as
  `read_exact` loops.
* `Prog.eval` runs it on the concatenated bytes. **Segmentation is invisible** (`run_flat`): both give the same
  outcome, leave the same bytes unread and send the same bytes. So a property of a program is proved with `eval`.
-/

namespace ByteIo

/-- An input/output error of the operating system or of the stream helpers. -/
inductive IoError where
  | unexpectedEof
  | writeZero (message : String)
  | os (code : Nat)
  deriving DecidableEq, Repr

/-- Errors that an input/output error converts into. -/
class FromIo (ε : Type) where
  fromIo : IoError → ε

export FromIo (fromIo)

/-- How a peer's bytes end: it closes its side, or the connection fails. -/
inductive Ending where
  | eof
  | failed (code : Nat)
  deriving DecidableEq, Repr

/-- The error of a read that needs bytes after the last. -/
def Ending.error : Ending → IoError
  | eof => .unexpectedEof
  | failed code => .os code

/-- The outgoing side: the bytes taken by the kernel, and how many more it takes before writes fail. -/
structure Sink where
  sent : List UInt8
  room : Option Nat
  deriving DecidableEq, Repr

/-- Write a whole buffer; `false` when the connection fails before its end. -/
def Sink.writeAll (bs : List UInt8) : Sink → Bool × Sink
  | ⟨sent, none⟩ => (true, ⟨sent ++ bs, none⟩)
  | ⟨sent, some room⟩ =>
    if bs.length ≤ room then (true, ⟨sent ++ bs, some (room - bs.length)⟩)
    else (false, ⟨sent ++ bs.take room, some 0⟩)

/-- The same side behind some bytes. -/
def Sink.behind (before : List UInt8) (k : Sink) : Sink := ⟨before ++ k.sent, k.room⟩

namespace Sink

variable {bs : List UInt8} {k k' : Sink}

/-- What was sent before does not change what is taken. -/
theorem writeAll_behind (before bs : List UInt8) (k : Sink) :
    (k.behind before).writeAll bs = ((k.writeAll bs).1, (k.writeAll bs).2.behind before) := by
  obtain ⟨sent, _ | room⟩ := k
  · simp [behind, writeAll]
  · simp only [behind, writeAll]
    split <;> simp

/-- Two buffers are written like their concatenation. -/
theorem writeAll_append (as bs : List UInt8) (k : Sink) :
    k.writeAll (as ++ bs) = if (k.writeAll as).1 then (k.writeAll as).2.writeAll bs else k.writeAll as := by
  obtain ⟨sent, _ | room⟩ := k
  · simp [writeAll]
  · by_cases ha : as.length ≤ room
    · simp only [writeAll, ha, if_true, List.length_append, List.append_assoc, List.take_append]
      have hiff : as.length + bs.length ≤ room ↔ bs.length ≤ room - as.length := by omega
      simp only [hiff, List.take_of_length_le ha]
      split <;> simp [Nat.sub_sub]
    · have hab : ¬ (as ++ bs).length ≤ room := by rw [List.length_append]; omega
      simp only [writeAll, ha, hab, if_false, Bool.false_eq_true]
      rw [List.take_append_of_le_length (by omega)]

theorem sent_of_writeAll (h : k.writeAll bs = (true, k')) : k'.sent = k.sent ++ bs := by
  obtain ⟨sent, _ | room⟩ := k
  · cases h; rfl
  · simp only [writeAll] at h
    split at h <;> cases h
    rfl

/-- A buffer that is written takes up its length of the room. -/
theorem room_of_writeAll (h : k.writeAll bs = (true, k')) : k'.room = k.room.map (· - bs.length) := by
  obtain ⟨sent, _ | room⟩ := k
  · cases h; rfl
  · simp only [writeAll] at h
    split at h <;> cases h
    rfl

/-- A write that fails has taken a part of the buffer, and nothing is taken after it. -/
theorem sent_of_writeAll_failed (h : k.writeAll bs = (false, k')) :
    ∃ part, part <+: bs ∧ part ≠ bs ∧ k' = ⟨k.sent ++ part, some 0⟩ := by
  obtain ⟨sent, _ | room⟩ := k
  · cases h
  · simp only [writeAll] at h
    split at h <;> cases h
    rename_i hlt
    refine ⟨bs.take room, List.take_prefix room bs, fun heq => hlt ?_, rfl⟩
    rw [← heq]
    exact List.length_take_le room bs

/-- A write sends a prefix of the buffer, whether it fails or not. -/
theorem exists_sent_writeAll (bs : List UInt8) (k : Sink) :
    ∃ part, part <+: bs ∧ (k.writeAll bs).2.sent = k.sent ++ part := by
  match h : k.writeAll bs with
  | (true, k') => exact ⟨bs, List.prefix_rfl, sent_of_writeAll h⟩
  | (false, k') =>
    obtain ⟨part, hpre, -, rfl⟩ := sent_of_writeAll_failed h
    exact ⟨part, hpre, rfl⟩

theorem writeAll_full (hroom : k.room = some 0) (hne : bs ≠ []) : k.writeAll bs = (false, k) := by
  obtain ⟨sent, room⟩ := k
  cases (hroom : room = some 0)
  cases bs with
  | nil => exact absurd rfl hne
  | cons b bs => simp [writeAll]

end Sink

/-- The error of a write on a failed connection (`EPIPE`). -/
def brokenPipe : IoError := .os 32

/-- A connection seen as bytes. -/
structure Wire where
  input : List UInt8
  ending : Ending
  sink : Sink
  deriving DecidableEq, Repr

/-- A connection that has sent some bytes before. -/
def Wire.behind (before : List UInt8) (w : Wire) : Wire := { w with sink := w.sink.behind before }

/-- A connection whose incoming bytes arrive in segments. -/
structure Socket where
  segments : List (List UInt8)
  ending : Ending
  sink : Sink
  deriving DecidableEq, Repr

/-- The bytes of a connection, without the segments. -/
def Socket.flat (s : Socket) : Wire := ⟨s.segments.flatten, s.ending, s.sink⟩

/-- A program over a byte stream. -/
inductive Prog (ε α : Type) where
  | ret (outcome : Outcome ε α)
  | read (n : Nat) (next : Vector UInt8 n → Prog ε α)
  | write (bs : List UInt8) (next : Prog ε α)

namespace Prog

variable {ε α β : Type}

/-- One program after another; an error or a panic of the first ends both. -/
def bind : Prog ε α → (α → Prog ε β) → Prog ε β
  | ret (.ok a), f => f a
  | ret (.err e), _ => ret (.err e)
  | ret .panicked, _ => ret .panicked
  | read n next, f => read n fun v => (next v).bind f
  | write bs next, f => write bs (next.bind f)

instance : Monad (Prog ε) where
  pure a := ret (.ok a)
  bind := bind

/-- Read exactly `n` bytes. -/
def readExact (n : Nat) : Prog ε (Vector UInt8 n) := read n fun v => ret (.ok v)

/-- Read one byte. -/
def readU8 : Prog ε UInt8 := read 1 fun v => ret (.ok v[0])

/-- Write a whole buffer. -/
def writeAll (bs : List UInt8) : Prog ε Unit := write bs (ret (.ok ()))

/-- Fail. -/
def throw (e : ε) : Prog ε α := ret (.err e)

@[simp] theorem pure_eq (a : α) : (pure a : Prog ε α) = ret (.ok a) := rfl

@[simp] theorem ret_ok_bind (a : α) (f : α → Prog ε β) : (ret (.ok a) >>= f) = f a := rfl

@[simp] theorem read_bind (n : Nat) (next : Vector UInt8 n → Prog ε α) (f : α → Prog ε β) :
    (read n next >>= f) = read n fun v => next v >>= f := rfl

@[simp] theorem write_bind (bs : List UInt8) (next : Prog ε α) (f : α → Prog ε β) :
    (write bs next >>= f) = write bs (next >>= f) := rfl

@[simp] theorem readExact_bind (n : Nat) (f : Vector UInt8 n → Prog ε β) : (readExact n >>= f) = read n f := rfl

@[simp] theorem readU8_bind (f : UInt8 → Prog ε β) : (readU8 >>= f) = read 1 fun v => f v[0] := rfl

@[simp] theorem writeAll_bind (bs : List UInt8) (f : Unit → Prog ε β) : (writeAll bs >>= f) = write bs (f ()) := rfl

/-! ## Running on bytes -/

/-- The vector of a read of no bytes. -/
def noBytes : Vector UInt8 0 := #v[]

/-- The first `n` bytes as a vector. -/
def takeVec (xs : List UInt8) (n : Nat) (h : n ≤ xs.length) : Vector UInt8 n :=
  ⟨(xs.take n).toArray, by simp [h]⟩

theorem takeVec_append {n : Nat} (v : Vector UInt8 n) (rest : List UInt8) (h : n ≤ (v.toList ++ rest).length) :
    takeVec (v.toList ++ rest) n h = v := by
  apply Vector.toList_inj.1
  show (v.toList ++ rest).take n = v.toList
  exact List.take_left' (by simp)

section Eval

variable [FromIo ε]

/-- Run a program on the bytes of a connection. -/
def eval : Prog ε α → Wire → Outcome ε α × Wire
  | ret o, w => (o, w)
  | read n next, w =>
    if h : n ≤ w.input.length then
      (next (takeVec w.input n h)).eval { w with input := w.input.drop n }
    else (.err (fromIo w.ending.error), { w with input := [] })
  | write bs next, w =>
    let r := w.sink.writeAll bs
    if r.1 then next.eval { w with sink := r.2 } else (.err (fromIo brokenPipe), { w with sink := r.2 })

@[simp] theorem eval_ret (o : Outcome ε α) (w : Wire) : (ret o).eval w = (o, w) := rfl

section Steps

variable {n : Nat} {next : Vector UInt8 n → Prog ε α} {e : Ending} {k : Sink}

/-- A read that finds its bytes. -/
theorem eval_read_append (v : Vector UInt8 n) (rest : List UInt8) :
    (read n next).eval ⟨v.toList ++ rest, e, k⟩ = (next v).eval ⟨rest, e, k⟩ := by
  have hn : n ≤ (v.toList ++ rest).length := by rw [List.length_append, Vector.length_toList]; omega
  rw [eval, dif_pos hn]
  congr 2
  · exact takeVec_append v rest hn
  · exact List.drop_left' v.length_toList

/-- The same for bytes given as a list. -/
theorem eval_read_list (next : Vector UInt8 n → Prog ε α) {bs : List UInt8} (hn : bs.length = n) (rest : List UInt8) :
    ∃ v : Vector UInt8 n, v.toList = bs ∧ (read n next).eval ⟨bs ++ rest, e, k⟩ = (next v).eval ⟨rest, e, k⟩ := by
  let v : Vector UInt8 n := ⟨bs.toArray, by simpa using hn⟩
  exact ⟨v, rfl, eval_read_append v rest⟩

/-- A read that finds too few bytes takes them all and fails. -/
theorem eval_read_short {input : List UInt8} (h : input.length < n) :
    (read n next).eval ⟨input, e, k⟩ = (.err (fromIo e.error), ⟨[], e, k⟩) := by
  have hn : ¬ n ≤ input.length := by omega
  rw [eval, dif_neg hn]

/-- Reading one byte. -/
@[simp] theorem eval_read_one {next : Vector UInt8 1 → Prog ε α} (b : UInt8) (rest : List UInt8) :
    (read 1 next).eval ⟨b :: rest, e, k⟩ = (next #v[b]).eval ⟨rest, e, k⟩ :=
  eval_read_append #v[b] rest

/-- A write on a connection that never fails. -/
@[simp] theorem eval_write (bs : List UInt8) (next : Prog ε α) (input sent : List UInt8) :
    (write bs next).eval ⟨input, e, ⟨sent, none⟩⟩ = next.eval ⟨input, e, ⟨sent ++ bs, none⟩⟩ := rfl

end Steps

/-- Two buffers are written like their concatenation. -/
theorem eval_write_append (as bs : List UInt8) (next : Prog ε α) (w : Wire) :
    (write as (write bs next)).eval w = (write (as ++ bs) next).eval w := by
  simp only [eval, Sink.writeAll_append as bs w.sink]
  by_cases h : (w.sink.writeAll as).1 <;> simp [h]

/-- What was sent stays sent. -/
theorem sent_prefix_eval (p : Prog ε α) (w : Wire) : w.sink.sent <+: (p.eval w).2.sink.sent := by
  induction p generalizing w with
  | ret o => exact List.prefix_rfl
  | read n next ih =>
    rw [eval]
    split
    · exact ih _ { w with input := w.input.drop n }
    · exact List.prefix_rfl
  | write bs next ih =>
    match hk : w.sink.writeAll bs with
    | (true, k) =>
      simp only [eval, hk, if_true]
      refine List.IsPrefix.trans ?_ (ih _)
      exact Sink.sent_of_writeAll hk ▸ List.prefix_append _ _
    | (false, k) =>
      obtain ⟨part, -, -, rfl⟩ := Sink.sent_of_writeAll_failed hk
      simp only [eval, hk, Bool.false_eq_true, if_false]
      exact List.prefix_append _ _

/-- A sequence runs its second part where the first returned. -/
theorem eval_bind (p : Prog ε α) (f : α → Prog ε β) (w : Wire) :
    (p >>= f).eval w =
      match p.eval w with
      | (.ok a, w') => (f a).eval w'
      | (.err e, w') => (.err e, w')
      | (.panicked, w') => (.panicked, w') := by
  induction p generalizing w with
  | ret o => cases o <;> rfl
  | read n next ih =>
    simp only [read_bind, eval]
    split
    · exact ih _ _
    · rfl
  | write bs next ih =>
    simp only [write_bind, eval]
    split
    · exact ih _
    · rfl

/-- A sequence that returns is two programs that return. -/
theorem eval_bind_eq_ok {p : Prog ε α} {f : α → Prog ε β} {w w' : Wire} {b : β}
    (h : (p >>= f).eval w = (.ok b, w')) : ∃ a w₁, p.eval w = (.ok a, w₁) ∧ (f a).eval w₁ = (.ok b, w') := by
  rw [eval_bind] at h
  match hp : p.eval w with
  | (.ok a, w₁) =>
    rw [hp] at h
    exact ⟨a, w₁, rfl, h⟩
  | (.err e, w₁) =>
    rw [hp] at h
    cases h
  | (.panicked, w₁) =>
    rw [hp] at h
    cases h

/-! ### Bytes that were sent before -/

/-- A program does the same behind bytes that were sent before. -/
theorem eval_behind (before : List UInt8) (p : Prog ε α) (w : Wire) :
    p.eval (w.behind before) = ((p.eval w).1, (p.eval w).2.behind before) := by
  induction p generalizing w with
  | ret o => rfl
  | read n next ih =>
    by_cases h : n ≤ w.input.length
    · rw [eval, eval, dif_pos h, dif_pos (show n ≤ (w.behind before).input.length from h)]
      exact ih _ { w with input := w.input.drop n }
    · rw [eval, eval, dif_neg h, dif_neg (show ¬ n ≤ (w.behind before).input.length from h)]
      rfl
  | write bs next ih =>
    have hk : (w.behind before).sink.writeAll bs =
        ((w.sink.writeAll bs).1, (w.sink.writeAll bs).2.behind before) := Sink.writeAll_behind before bs w.sink
    simp only [eval, hk]
    split
    · exact ih { w with sink := (w.sink.writeAll bs).2 }
    · rfl

/-! ### Connections that stop taking bytes -/

/-- A connection that may fail takes a part of what one that never fails takes. -/
theorem sent_prefix_unlimited (p : Prog ε α) (input : List UInt8) (e : Ending) (sent : List UInt8)
    (room : Option Nat) :
    (p.eval ⟨input, e, ⟨sent, room⟩⟩).2.sink.sent <+: (p.eval ⟨input, e, ⟨sent, none⟩⟩).2.sink.sent := by
  induction p generalizing input sent room with
  | ret o => exact List.prefix_rfl
  | read n next ih =>
    simp only [eval]
    split
    · exact ih _ _ _ _
    · exact List.prefix_rfl
  | write bs next ih =>
    rw [eval_write]
    match hk : (⟨sent, room⟩ : Sink).writeAll bs with
    | (true, ⟨sent', room'⟩) =>
      have hsent : sent' = sent ++ bs := Sink.sent_of_writeAll hk
      simp only [eval, hk, if_true, hsent]
      exact ih _ _ _
    | (false, k) =>
      obtain ⟨part, hpart, -, rfl⟩ := Sink.sent_of_writeAll_failed hk
      simp only [eval, hk, Bool.false_eq_true, if_false]
      exact ((List.prefix_append_right_inj sent).2 hpart).trans
        (sent_prefix_eval next ⟨input, e, ⟨sent ++ bs, none⟩⟩)

/-- A program that returns has written everything, so it does the same on a connection that never fails. -/
theorem eval_unlimited (p : Prog ε α) {input : List UInt8} {e : Ending} {sent : List UInt8} {room : Option Nat} {a : α}
    {w : Wire} (h : p.eval ⟨input, e, ⟨sent, room⟩⟩ = (.ok a, w)) :
    p.eval ⟨input, e, ⟨sent, none⟩⟩ = (.ok a, { w with sink := ⟨w.sink.sent, none⟩ }) := by
  induction p generalizing input sent room with
  | ret o =>
    cases h
    rfl
  | read n next ih =>
    simp only [eval] at h ⊢
    split at h
    · rw [dif_pos ‹_›]
      exact ih _ h
    · cases h
  | write bs next ih =>
    rw [eval_write]
    match hk : (⟨sent, room⟩ : Sink).writeAll bs with
    | (true, ⟨sent', room'⟩) =>
      have hsent : sent' = sent ++ bs := Sink.sent_of_writeAll hk
      simp only [eval, hk, if_true, hsent] at h
      exact ih h
    | (false, k) =>
      simp only [eval, hk, Bool.false_eq_true, if_false] at h
      cases h

/-- A program that returns has used as much of the room as it has sent. -/
theorem room_of_eval (p : Prog ε α) {w w' : Wire} {a : α} (h : p.eval w = (.ok a, w')) :
    w'.sink.room = w.sink.room.map (· - (w'.sink.sent.length - w.sink.sent.length)) := by
  induction p generalizing w with
  | ret o =>
    cases h
    simp
  | read n next ih =>
    simp only [eval] at h
    split at h
    · have hrest := ih _ h
      exact hrest
    · cases h
  | write bs next ih =>
    match hk : w.sink.writeAll bs with
    | (true, k) =>
      simp only [eval, hk, if_true] at h
      have hsent : k.sent = w.sink.sent ++ bs := Sink.sent_of_writeAll hk
      have hroom : k.room = w.sink.room.map (· - bs.length) := Sink.room_of_writeAll hk
      have hlen := congrArg List.length hsent
      have hmore : k.sent.length ≤ w'.sink.sent.length := by
        have hpre := sent_prefix_eval next { w with sink := k }
        rw [h] at hpre
        exact hpre.length_le
      rw [ih h, hroom, Option.map_map]
      refine congrArg (fun f => Option.map f w.sink.room) (funext fun n => ?_)
      simp only [List.length_append] at hlen
      simp only [Function.comp_apply]
      omega
    | (false, k) =>
      simp only [eval, hk, Bool.false_eq_true, if_false] at h
      cases h

end Eval

/-! ## Running on an open connection -/

/-- Run a program on a connection that stays open; `none` where it waits for more bytes. -/
def await [FromIo ε] : Prog ε α → Wire → Option (Outcome ε α × Wire)
  | ret o, w => some (o, w)
  | read n next, w =>
    if h : n ≤ w.input.length then (next (takeVec w.input n h)).await { w with input := w.input.drop n } else none
  | write bs next, w =>
    let r := w.sink.writeAll bs
    if r.1 then next.await { w with sink := r.2 } else some (.err (fromIo brokenPipe), { w with sink := r.2 })

/-- A program that does not wait does what it does on the bytes alone. -/
theorem eval_of_await [FromIo ε] (p : Prog ε α) {w : Wire} {r : Outcome ε α × Wire} (h : p.await w = some r) :
    p.eval w = r := by
  induction p generalizing w with
  | ret o => exact Option.some.inj h
  | read n next ih =>
    rw [await] at h
    rw [eval]
    split at h
    · rw [dif_pos ‹_›]
      exact ih _ h
    · cases h
  | write bs next ih =>
    simp only [await] at h
    simp only [eval]
    split at h
    · rw [if_pos ‹_›]
      exact ih h
    · rw [if_neg ‹_›]
      exact Option.some.inj h

section Await

variable [FromIo ε] {n : Nat} {next : Vector UInt8 n → Prog ε α} {e : Ending} {k : Sink}

/-- A read that finds its bytes. -/
theorem await_read_append (v : Vector UInt8 n) (rest : List UInt8) :
    (read n next).await ⟨v.toList ++ rest, e, k⟩ = (next v).await ⟨rest, e, k⟩ := by
  have hn : n ≤ (v.toList ++ rest).length := by rw [List.length_append, Vector.length_toList]; omega
  rw [await, dif_pos hn]
  congr 2
  · exact takeVec_append v rest hn
  · exact List.drop_left' v.length_toList

/-- A read that finds too few bytes waits. -/
theorem await_read_short {input : List UInt8} (h : input.length < n) : (read n next).await ⟨input, e, k⟩ = none := by
  have hn : ¬ n ≤ input.length := by omega
  rw [await, dif_neg hn]

end Await

/-! ## Running on segments -/

/-- Take `n` bytes off the segments, one read per segment; `none` when they end before. -/
def readSegs : (n : Nat) → List (List UInt8) → Option (Vector UInt8 n) × List (List UInt8)
  | 0, segs => (some noBytes, segs)
  | _ + 1, [] => (none, [])
  | n + 1, seg :: segs =>
    if h : n + 1 ≤ seg.length then (some (takeVec seg (n + 1) h), seg.drop (n + 1) :: segs)
    else
      let r := readSegs (n + 1 - seg.length) segs
      (r.1.map fun v => ⟨seg.toArray ++ v.toArray, by simp; omega⟩, r.2)

/-- The bytes taken off the segments are the first of their concatenation, if it has enough. -/
theorem readSegs_fst : ∀ (n : Nat) (segs : List (List UInt8)),
    (readSegs n segs).1.map Vector.toList = if n ≤ segs.flatten.length then some (segs.flatten.take n) else none
  | 0, segs => by simp [readSegs]
  | n + 1, [] => by simp [readSegs]
  | n + 1, seg :: segs => by
    rw [readSegs]
    split
    · rename_i h
      have hle : n + 1 ≤ (seg :: segs).flatten.length := by simp; omega
      rw [if_pos hle, Option.map_some, List.flatten_cons, List.take_append_of_le_length h]
      rfl
    · rename_i h
      have ih := readSegs_fst (n + 1 - seg.length) segs
      dsimp only
      by_cases hle : n + 1 - seg.length ≤ segs.flatten.length
      · rw [if_pos hle] at ih
        obtain ⟨v, hv, hvl⟩ := Option.map_eq_some_iff.1 ih
        rw [if_pos (by simp only [List.flatten_cons, List.length_append]; omega), List.flatten_cons,
          List.take_append, List.take_of_length_le (by omega), hv, ← hvl]
        simp [Vector.toList]
      · rw [if_neg hle] at ih
        rw [if_neg (by simp only [List.flatten_cons, List.length_append]; omega), Option.map_eq_none_iff.1 ih]
        rfl

/-- What is left of the segments is the rest of their concatenation. -/
theorem readSegs_snd : ∀ (n : Nat) (segs : List (List UInt8)), (readSegs n segs).2.flatten = segs.flatten.drop n
  | 0, segs => by simp [readSegs]
  | n + 1, [] => by simp [readSegs]
  | n + 1, seg :: segs => by
    rw [readSegs]
    split
    · rename_i h
      simp only [List.flatten_cons]
      rw [List.drop_append_of_le_length h]
    · rename_i h
      have hdrop : seg.drop (n + 1) = [] := List.drop_of_length_le (by omega)
      rw [List.flatten_cons, List.drop_append, hdrop, List.nil_append]
      exact readSegs_snd _ _

section Run

variable [FromIo ε]

/-- Run a program on a socket. -/
def run : Prog ε α → Socket → Outcome ε α × Socket
  | ret o, s => (o, s)
  | read n next, s =>
    match readSegs n s.segments with
    | (some v, segs) => (next v).run { s with segments := segs }
    | (none, segs) => (.err (fromIo s.ending.error), { s with segments := segs })
  | write bs next, s =>
    let r := s.sink.writeAll bs
    if r.1 then next.run { s with sink := r.2 } else (.err (fromIo brokenPipe), { s with sink := r.2 })

/-- **Segmentation is invisible.** A program run on segments gives what it gives on their bytes. -/
theorem run_flat (p : Prog ε α) (s : Socket) : ((p.run s).1, (p.run s).2.flat) = p.eval s.flat := by
  induction p generalizing s with
  | ret o => rfl
  | read n next ih =>
    have hfst := readSegs_fst n s.segments
    have hsnd := readSegs_snd n s.segments
    rw [run]
    match hr : readSegs n s.segments with
    | (some v, segs) =>
      rw [hr] at hfst hsnd
      split at hfst
      · have hv : v.toList = s.segments.flatten.take n := Option.some.inj hfst
        have hin : s.segments.flatten = v.toList ++ segs.flatten := by
          rw [hv, show segs.flatten = s.segments.flatten.drop n from hsnd]
          exact (List.take_append_drop n _).symm
        rw [show s.flat = ⟨v.toList ++ segs.flatten, s.ending, s.sink⟩ by rw [← hin]; rfl, eval_read_append]
        exact ih v { s with segments := segs }
      · cases hfst
    | (none, segs) =>
      rw [hr] at hfst hsnd
      split at hfst
      · cases hfst
      · rename_i hgt
        have hnil : segs.flatten = [] := by
          rw [show segs.flatten = s.segments.flatten.drop n from hsnd]
          exact List.drop_of_length_le (by omega)
        rw [show s.flat = ⟨s.segments.flatten, s.ending, s.sink⟩ from rfl, eval_read_short (by omega),
          Socket.flat, hnil]
  | write bs next ih =>
    simp only [run, eval]
    have hs : s.flat.sink = s.sink := rfl
    rw [hs]
    split
    · exact ih _
    · rfl

theorem run_fst (p : Prog ε α) (s : Socket) : (p.run s).1 = (p.eval s.flat).1 := congrArg Prod.fst (run_flat p s)

theorem run_snd (p : Prog ε α) (s : Socket) : (p.run s).2.flat = (p.eval s.flat).2 := congrArg Prod.snd (run_flat p s)

end Run

end Prog

end ByteIo
