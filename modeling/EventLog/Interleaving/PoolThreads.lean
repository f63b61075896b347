import EventLog.Interleaving.Calls

/-!
# Threads on a pool

Any number of threads acquire and release records of one pool, their atomic steps
interleaved in any way.  A thread releases only a record that it holds.

The state also keeps how often the head changed, and each thread how often it had
changed when the thread last read it: a version of thirty-two bits tells two heads apart
only if fewer than that many changes lie between them.
-/

namespace EventLog

namespace PoolThreads

/-! ## State -/

/-- What a thread is about. -/
inductive Activity where
  | idle
  | acquiring (phase : Pool.AcquirePhase)
  | releasing (phase : Pool.ReleasePhase)
  deriving DecidableEq, Repr

/-- A thread. -/
structure Worker where
  activity : Activity := .idle
  /-- The records that it holds. -/
  holds : List Nat := []
  /-- The number of changes of the head when it last read the head. -/
  readAt : Nat := 0
  deriving DecidableEq, Repr, Inhabited

/-- A pool and its threads. -/
structure State where
  pool : Pool
  threads : Array Worker
  changes : Nat := 0
  deriving DecidableEq, Repr

/-- All records free and all threads idle. -/
def start (pool : Pool) (threads : Nat) : State :=
  { pool, threads := Array.replicate threads {} }

/-! ## Steps -/

/-- What a thread does next. -/
inductive Move where
  /-- It begins to acquire a record. -/
  | acquire
  /-- It begins to release a record that it holds. -/
  | release (index : Nat)
  /-- It takes the next atomic step of its call; `weak` makes an exchange fail. -/
  | advance (weak : Bool)
  deriving DecidableEq, Repr

/-- The thread after the last step of an acquisition, or in the middle of one. -/
def Worker.afterAcquire (w : Worker) : Pool.AcquirePhase → Worker
  | .done (some index) => { w with activity := .idle, holds := index :: w.holds }
  | .done none => { w with activity := .idle }
  | phase => { w with activity := .acquiring phase }

/-- The thread after the last step of a release, or in the middle of one. -/
def Worker.afterRelease (w : Worker) : Pool.ReleasePhase → Worker
  | .done => { w with activity := .idle }
  | phase => { w with activity := .releasing phase }

/-- The phase has just read the head. -/
def readsHead : Activity → Bool
  | .acquiring (.readLink _) => true
  | .releasing (.writeLink ..) => true
  | _ => false

/-- The state with one thread changed. -/
def State.setThread (s : State) (i : Nat) (w : Worker) : State :=
  { s with threads := s.threads.setIfInBounds i w }

/-- The number of changes of the head after a step that leads from one pool to another. -/
def changesAfter (changes : Nat) (before after : Pool) : Nat :=
  if after.head = before.head then changes else changes + 1

/-- The thread after it noted how often the head had changed, if it has just read it. -/
def Worker.noting (w : Worker) (changes : Nat) : Worker :=
  if readsHead w.activity then { w with readAt := changes } else w

/-- The state after a thread took an atomic step on the pool. -/
def State.commit (s : State) (i : Nat) (w : Worker) (pool : Pool) : State :=
  let changes := changesAfter s.changes s.pool pool
  { pool, threads := s.threads.setIfInBounds i (w.noting changes), changes }

/-- The state after a move of a thread; `none` if the thread cannot make it. -/
def step? (s : State) (i : Nat) (m : Move) : Option State :=
  match s.threads[i]? with
  | none => none
  | some w =>
    match m, w.activity with
    | .acquire, .idle =>
      some (s.setThread i { w with activity := .acquiring .readHead })
    | .release index, .idle =>
      if index ∈ w.holds then
        some (s.setThread i
          { w with activity := .releasing (.readHead index), holds := w.holds.erase index })
      else none
    | .advance weak, .acquiring phase =>
      let (phase, pool) := phase.step weak s.pool
      some (s.commit i (w.afterAcquire phase) pool)
    | .advance weak, .releasing phase =>
      let (phase, pool) := phase.step weak s.pool
      some (s.commit i (w.afterRelease phase) pool)
    | _, _ => none

/-- All threads are in no call. -/
def State.isQuiet (s : State) : Bool :=
  s.threads.all fun w => w.activity = .idle

/-! ## Churning -/

/-- Threads that acquire and release a number of times each. -/
structure Churn where
  state : State
  /-- How often each thread is to acquire yet. -/
  left : Array Nat

namespace Churn

/-- What a thread does next: it goes on with its call, gives back what it holds, or
acquires again. -/
def moveOf (c : Churn) (i : Nat) : Option Move :=
  match c.state.threads[i]? with
  | none => none
  | some w =>
    match w.activity, w.holds with
    | .idle, index :: _ => some (.release index)
    | .idle, [] => if c.left[i]?.getD 0 = 0 then none else some .acquire
    | _, _ => some (.advance false)

/-- One step of a thread. -/
def step (i : Nat) (c : Churn) : Churn :=
  match c.moveOf i with
  | none => c
  | some m =>
    match step? c.state i m with
    | none => c
    | some state =>
      { state, left := if m = .acquire then c.left.modify i (· - 1) else c.left }

/-- Nothing is left to do. -/
def isDone (c : Churn) : Bool :=
  c.left.all (· = 0) && c.state.threads.all fun w => w.activity = .idle && w.holds.isEmpty

/-- Every thread acquires and releases `times` times, in turns.  A round in which all
threads contend lets at least one exchange succeed every few steps, so the number of
rounds is enough. -/
def run (pool : Pool) (threads times : Nat) : State :=
  (Turns.run step threads isDone (20 * (threads + 1) * (times + 1))
    ⟨start pool threads, Array.replicate threads times⟩).state

end Churn

/-- The records that a thread gets when it acquires to exhaustion, at most as many as
there are, and the pool after that. -/
def acquireAll : Nat → Pool → List Nat × Pool
  | 0, p => ([], p)
  | fuel + 1, p =>
    match p.acquire with
    | .ok (some index, p) =>
      let (rest, p) := acquireAll fuel p
      (index :: rest, p)
    | .ok (none, p) => ([], p)
    | .error _ => ([], p)

end PoolThreads

end EventLog
