import LzcSdk.Lib.Steps
import LzcSdk.Lib.FairLock
import LzcSdk.Lib.Lts
import Mathlib.Logic.Function.Basic

/-!
# Calls that share one half of a connection

Any number of tasks make calls. A call prepares a program or is refused, waits for a fair lock, runs the program on the
connection while it holds the lock, and gives the lock up; the program's value is the answer, or the call starts over
(`Service`). The network decides the size of every portion that is read or written, and a call can be cancelled where it
awaits something: the lock, or the next portion (`step`). `granted` and `log` record the calls that got the lock and the
programs that ended, in order; no step looks at them.

Every step is one constructor of `Trans` (`trans_of_step`). The queue of the lock holds exactly the calls that wait or
run, and only its first runs (`Disciplined`, `disciplined_step`).
-/

namespace Locked

open ByteIo Outcome

/-- What the calls on one half of a connection do. -/
structure Service (κ ε α : Type) where
  /-- The program of a call, or the refusal before it asks for the lock. -/
  prepare : κ → Outcome ε (Prog ε α)
  /-- The call to make next, where a program's value is not the answer. -/
  again : κ → α → Option κ

/-- Where a call is. -/
inductive Phase (κ ε α : Type) where
  | idle
  | entering (call : κ)
  | queued (call : κ) (prog : Prog ε α)
  | running (call : κ) (moved : Nat) (x : Waiting ε α)
  | finished (call : κ) (outcome : Outcome ε α)
  | cancelled (call : κ)

namespace Phase

variable {κ ε α : Type}

/-- The call is in the queue of the lock. -/
@[simp] def inQueue : Phase κ ε α → Prop
  | queued _ _ => True
  | running _ _ _ => True
  | _ => False

/-- The call's program is in the middle. -/
@[simp] def isRunning : Phase κ ε α → Prop
  | running _ _ _ => True
  | _ => False

end Phase

/-- A program that ended. -/
structure Entry (κ ε α : Type) where
  task : Nat
  call : κ
  outcome : Outcome ε α

/-- The calls, the lock and the connection. -/
structure State (κ ε α : Type) where
  lock : FairLock Nat
  phase : Nat → Phase κ ε α
  wire : Wire
  granted : List (Nat × κ)
  log : List (Entry κ ε α)

/-- What can happen. -/
inductive Action (κ : Type) where
  | call (t : Nat) (c : κ)
  | enter (t : Nat)
  | grant (t : Nat)
  | move (t : Nat) (m : Move)
  | cancel (t : Nat)

section Machine

variable {κ ε α : Type}

/-- Nobody calls yet. -/
def init (wire : Wire) : State κ ε α := ⟨.free, fun _ => .idle, wire, [], []⟩

/-- Change the phase of one call. -/
def State.set (s : State κ ε α) (t : Nat) (p : Phase κ ε α) : State κ ε α :=
  { s with phase := Function.update s.phase t p }

/-- The phase after a program that ended: an answer, or the next call. -/
def Service.after (svc : Service κ ε α) (c : κ) : Outcome ε α → Phase κ ε α
  | ok a =>
    match svc.again c a with
    | some c' => .entering c'
    | none => .finished c (ok a)
  | o => .finished c o

/-- The program of the call ran to its next await point or to its end, where the lock is given up. -/
def State.advance (svc : Service κ ε α) (s : State κ ε α) (t : Nat) (c : κ) (moved : Nat) :
    Progress ε α → State κ ε α
  | .waiting x => s.set t (.running c moved x)
  | .done o => { s.set t (svc.after c o) with lock := s.lock.release t, log := s.log ++ [⟨t, c, o⟩] }

variable [FromIo ε] (svc : Service κ ε α)

/-- The state after an action, if it is enabled. -/
def step (s : State κ ε α) : Action κ → Option (State κ ε α)
  | .call t c =>
    match s.phase t with
    | .idle => some (s.set t (.entering c))
    | _ => none
  | .enter t =>
    match s.phase t with
    | .entering c =>
      match svc.prepare c with
      | ok p => some { s.set t (.queued c p) with lock := s.lock.acquire t }
      | err e => some (s.set t (.finished c (err e)))
      | panicked => some (s.set t (.finished c panicked))
    | _ => none
  | .grant t =>
    match s.phase t with
    | .queued c p =>
      if s.lock.holder = some t then
        some ({ s with granted := s.granted ++ [(t, c)] }.advance svc t c 0 p.settle)
      else none
    | _ => none
  | .move t m =>
    match s.phase t with
    | .running c moved x =>
      match x.move s.wire m with
      | some (r, w) => some ({ s with wire := w }.advance svc t c (moved + m.size) r)
      | none => none
    | _ => none
  | .cancel t =>
    match s.phase t with
    | .queued c _ => some { s.set t (.cancelled c) with lock := s.lock.release t }
    | .running c _ _ => some { s.set t (.cancelled c) with lock := s.lock.release t }
    | _ => none

/-- The steps, one constructor each. -/
inductive Trans (s : State κ ε α) : Action κ → State κ ε α → Prop
  | call {t : Nat} {c : κ} (hph : s.phase t = .idle) : Trans s (.call t c) (s.set t (.entering c))
  | enter {t : Nat} {c : κ} {p : Prog ε α} (hph : s.phase t = .entering c) (hp : svc.prepare c = ok p) :
    Trans s (.enter t) { s.set t (.queued c p) with lock := s.lock.acquire t }
  | refuse {t : Nat} {c : κ} {o : Outcome ε α} (hph : s.phase t = .entering c) (hp : ∀ p, svc.prepare c ≠ ok p)
    (ho : o = svc.prepare c >>= fun _ => panicked) : Trans s (.enter t) (s.set t (.finished c o))
  | grant {t : Nat} {c : κ} {p : Prog ε α} (hph : s.phase t = .queued c p) (hh : s.lock.holder = some t) :
    Trans s (.grant t) ({ s with granted := s.granted ++ [(t, c)] }.advance svc t c 0 p.settle)
  | move {t : Nat} {c : κ} {moved : Nat} {x : Waiting ε α} {m : Move} {r : Progress ε α} {w : Wire}
    (hph : s.phase t = .running c moved x) (hm : x.move s.wire m = some (r, w)) :
    Trans s (.move t m) ({ s with wire := w }.advance svc t c (moved + m.size) r)
  | leave {t : Nat} {c : κ} {p : Prog ε α} (hph : s.phase t = .queued c p) :
    Trans s (.cancel t) { s.set t (.cancelled c) with lock := s.lock.release t }
  | abandon {t : Nat} {c : κ} {moved : Nat} {x : Waiting ε α} (hph : s.phase t = .running c moved x) :
    Trans s (.cancel t) { s.set t (.cancelled c) with lock := s.lock.release t }

variable {svc} {s s' : State κ ε α}

theorem trans_of_step {a : Action κ} (h : step svc s a = some s') : Trans svc s a s' := by
  cases a with
  | call t c =>
    simp only [step] at h
    split at h
    · cases h; exact .call ‹_›
    · cases h
  | enter t =>
    simp only [step] at h
    split at h
    · split at h
      · cases h; exact .enter ‹_› ‹_›
      · rename_i hp; cases h; exact .refuse ‹_› (by simp [hp]) (by rw [hp, err_bind])
      · rename_i hp; cases h; exact .refuse ‹_› (by simp [hp]) (by rw [hp, panicked_bind])
    · cases h
  | grant t =>
    simp only [step] at h
    split at h
    · split at h
      · cases h; exact .grant ‹_› ‹_›
      · cases h
    · cases h
  | move t m =>
    simp only [step] at h
    split at h
    · split at h
      · cases h; exact .move ‹_› ‹_›
      · cases h
    · cases h
  | cancel t =>
    simp only [step] at h
    split at h
    · cases h; exact .leave ‹_›
    · cases h; exact .abandon ‹_›
    · cases h

end Machine

/-! ## The lock -/

section Discipline

variable {κ ε α : Type}

/-- The queue of the lock holds the calls that wait or run, and only its first runs. -/
structure Disciplined (svc : Service κ ε α) (s : State κ ε α) : Prop where
  serves : s.lock.Serves s.phase Phase.inQueue Phase.isRunning
  prepared : ∀ t c p, s.phase t = .queued c p → svc.prepare c = ok p

variable {svc : Service κ ε α} {s s' : State κ ε α} {t : Nat} {p : Phase κ ε α}

theorem disciplined_init (wire : Wire) : Disciplined svc (init wire : State κ ε α) :=
  ⟨⟨fun _ => ⟨(nomatch ·), (nomatch ·)⟩, fun _ => (nomatch ·)⟩, fun _ _ _ => (nomatch ·)⟩

/-- A call that changes its phase, but not into the queue. -/
theorem prepared_update (h : Disciplined svc s) (hp : ∀ c q, p ≠ .queued c q) (u : Nat) (c : κ) (q : Prog ε α)
    (hu : Function.update s.phase t p u = .queued c q) : svc.prepare c = ok q := by
  rcases eq_or_ne u t with rfl | hne
  · rw [Function.update_self] at hu
    exact absurd hu (hp c q)
  · rw [Function.update_of_ne hne] at hu
    exact h.prepared u c q hu

theorem not_inQueue_after (svc : Service κ ε α) (c : κ) (o : Outcome ε α) : ¬ (svc.after c o).inQueue := by
  rcases o with a | e | _
  · simp only [Service.after]
    split <;> exact fun h => nomatch h
  · exact fun h => nomatch h
  · exact fun h => nomatch h

theorem not_isRunning_of_not_inQueue (h : ¬ p.inQueue) : ¬ p.isRunning := by
  cases p <;> first | exact h | exact id

theorem not_isRunning_after (svc : Service κ ε α) (c : κ) (o : Outcome ε α) : ¬ (svc.after c o).isRunning :=
  not_isRunning_of_not_inQueue (not_inQueue_after svc c o)

/-- The holder runs on, or gives the lock up. -/
theorem Disciplined.advance (h : Disciplined svc s) (hq : (s.phase t).inQueue) (hh : s.lock.holder = some t) (c : κ)
    (moved : Nat) (r : Progress ε α) : Disciplined svc (s.advance svc t c moved r) := by
  cases r with
  | waiting x =>
    exact ⟨h.serves.keep (p := Phase.running c moved x) ⟨fun _ => hq, fun _ => trivial⟩ fun _ => hh,
      prepared_update h fun _ _ => (nomatch ·)⟩
  | done o =>
    refine ⟨h.serves.release (not_inQueue_after svc c o) (not_isRunning_after svc c o),
      prepared_update h fun c' q hp => ?_⟩
    exact not_inQueue_after svc c o (by rw [hp]; trivial)

variable [FromIo ε]

/-- Every step keeps the discipline of the lock. -/
theorem disciplined_step {a : Action κ} (h : Disciplined svc s) (ha : Trans svc s a s') : Disciplined svc s' := by
  cases ha with
  | call hph =>
    exact ⟨h.serves.keep (p := Phase.entering _) (by rw [hph]; rfl) (nomatch ·),
      prepared_update h fun _ _ => (nomatch ·)⟩
  | @enter t c p hph hp =>
    refine ⟨h.serves.acquire (p := Phase.queued c p) trivial (nomatch ·), fun u c' q hu => ?_⟩
    rcases eq_or_ne u t with rfl | hne
    · simp only [State.set, Function.update_self] at hu
      cases hu
      exact hp
    · simp only [State.set, Function.update_of_ne hne] at hu
      exact h.prepared u c' q hu
  | refuse hph hp ho =>
    exact ⟨h.serves.keep (p := Phase.finished _ _) (by rw [hph]; rfl) (nomatch ·),
      prepared_update h fun _ _ => (nomatch ·)⟩
  | @grant t c p hph hh =>
    have h' : Disciplined svc { s with granted := s.granted ++ [(t, c)] } := ⟨h.serves, h.prepared⟩
    exact h'.advance (by rw [hph]; trivial) hh c 0 p.settle
  | @move t c moved x m r w hph hm =>
    have h' : Disciplined svc { s with wire := w } := ⟨h.serves, h.prepared⟩
    exact h'.advance (by rw [hph]; trivial) (h.serves.holder t (by rw [hph]; trivial)) c _ r
  | leave hph | abandon hph =>
    exact ⟨h.serves.release (p := Phase.cancelled _) (nomatch ·) (nomatch ·), prepared_update h fun _ _ => (nomatch ·)⟩

end Discipline

end Locked
