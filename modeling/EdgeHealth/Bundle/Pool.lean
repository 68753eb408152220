/-!
# A pool of workers

Workers take tasks from a queue, one at a time, until the queue is empty or the work is cancelled. A
worker looks whether the work is cancelled, takes the task at the head of the queue, is busy with it
for a while, leaves the result, and looks again. Between any two of these steps others may act, and
the work may be cancelled at any moment.

## Main definitions

* `Worker` : what a worker is doing.
* `Pool` : the queue, the workers, and the results so far.
* `Pool.Move`, `Pool.move?` : the steps of a pool.
* `Pool.follow?` : the pool after a list of steps.
* `Pool.isAtRest` : whether all workers have stopped.
* `Pool.inOrder`, `Pool.skipped` : the outcome of a pool at rest.
* `Pool.drive` : the steps in the order of time.
-/

namespace EdgeHealth

/-- What a worker is doing. -/
inductive Worker (α : Type) where
  /-- It is about to look whether the work is cancelled. -/
  | idle
  /-- It has seen that the work is not cancelled and is about to take a task. -/
  | ready
  /-- It is busy with the task of a number until a moment. -/
  | busy (number : Nat) (task : α) (due : Nat)
  /-- It does nothing more. -/
  | stopped
  deriving DecidableEq, Repr

/-- A step of a pool. -/
inductive Pool.Move where
  /-- The work is cancelled. -/
  | cancel
  /-- A worker looks whether the work is cancelled. -/
  | look (worker : Nat)
  /-- A worker takes a task, or stops because there is none. -/
  | take (worker : Nat)
  /-- A worker leaves the result of its task. -/
  | finish (worker : Nat)
  deriving DecidableEq, Repr

namespace Worker

variable {α : Type}

/-- A bound for the steps that a worker takes without a further task. -/
def weight : Worker α → Nat
  | .idle => 2
  | .ready => 1
  | .busy .. => 3
  | .stopped => 0

/-- How much is still to be done by workers. -/
def totalWeight : List (Worker α) → Nat
  | [] => 0
  | w :: rest => w.weight + totalWeight rest

/-- The step that a worker takes at a moment; none if it waits or has stopped. -/
def move? (now i : Nat) : Worker α → Option Pool.Move
  | .idle => some (.look i)
  | .ready => some (.take i)
  | .busy _ _ due => if due ≤ now then some (.finish i) else none
  | .stopped => none

/-- The moment until which a worker is busy. -/
def due? : Worker α → Option Nat
  | .busy _ _ due => some due
  | _ => none

end Worker

/-- What the tasks come to, and how long they take. Two equal tasks with different numbers need not
come to the same. -/
structure Labour (α β : Type) where
  /-- The result of the task of a number. -/
  result : (number : Nat) → α → β
  /-- How long the task of a number takes. -/
  duration : (number : Nat) → α → Nat

/-- A pool of workers. -/
structure Pool (α β : Type) where
  /-- The moment. -/
  now : Nat
  /-- Whether the work is cancelled. -/
  cancelled : Bool
  /-- The tasks that have not been taken, with their numbers. -/
  queue : List (Nat × α)
  /-- The workers. -/
  workers : List (Worker α)
  /-- The tasks that have been taken, in the order in which they were. -/
  started : List α
  /-- The results with their numbers and tasks, in the order in which they came. -/
  results : List (Nat × α × β)
  deriving DecidableEq, Repr

namespace Pool

variable {α β : Type}

/-- Tasks with their numbers. -/
def numbered (tasks : List α) : List (Nat × α) := (List.range tasks.length).zip tasks

/-- The pool before its work: at least one worker, and no more than there are tasks. -/
def start (workers : Nat) (cancelled : Bool) (tasks : List α) : Pool α β where
  now := 0
  cancelled := cancelled
  queue := numbered tasks
  workers := List.replicate (min (max workers 1) tasks.length) .idle
  started := []
  results := []

/-! ### Steps -/

/-- The pool with a worker doing something else. -/
def setWorker (p : Pool α β) (i : Nat) (w : Worker α) : Pool α β :=
  { p with workers := p.workers.set i w }

/-- The pool after a step, if that is possible. -/
def move? (labour : Labour α β) (p : Pool α β) : Move → Option (Pool α β)
  | .cancel => if p.cancelled then none else some { p with cancelled := true }
  | .look i =>
    match p.workers[i]? with
    | some .idle => some (p.setWorker i (if p.cancelled then .stopped else .ready))
    | _ => none
  | .take i =>
    match p.workers[i]?, p.queue with
    | some .ready, [] => some (p.setWorker i .stopped)
    | some .ready, (number, task) :: rest =>
      some { p.setWorker i (.busy number task (p.now + labour.duration number task)) with
        queue := rest
        started := p.started ++ [task] }
    | _, _ => none
  | .finish i =>
    match p.workers[i]? with
    | some (.busy number task due) =>
      some { p.setWorker i .idle with
        now := max p.now due
        results := p.results ++ [(number, task, labour.result number task)] }
    | _ => none

/-- The pool after a list of steps, if all of them are possible. -/
def follow? (labour : Labour α β) (p : Pool α β) : List Move → Option (Pool α β)
  | [] => some p
  | m :: rest => (p.move? labour m).bind fun next => follow? labour next rest

/-- Whether all workers have stopped. -/
def isAtRest (p : Pool α β) : Bool :=
  p.workers.all fun w =>
    match w with
    | .stopped => true
    | _ => false

/-! ### The outcome -/

/-- The results with their tasks, in the order of the numbers below a count. -/
def inOrder (p : Pool α β) (count : Nat) : List (α × β) :=
  (List.range count).filterMap fun number => p.results.lookup number

/-- How many of a count of tasks have no result. -/
def skipped (p : Pool α β) (count : Nat) : Nat := count - p.results.length

/-! ### Steps in the order of time -/

/-- A bound for the steps of a pool, which every step makes smaller. -/
def remaining (p : Pool α β) : Nat :=
  (if p.cancelled then 0 else 1) + 4 * p.queue.length + Worker.totalWeight p.workers

/-- The step of the first worker that can act at a moment, counting workers from a number on. -/
def firstMove? (now : Nat) : (i : Nat) → List (Worker α) → Option Move
  | _, [] => none
  | i, w :: rest => (Worker.move? now i w).or (firstMove? now (i + 1) rest)

/-- The first worker that is busy until the earliest moment, and that moment, counting workers from
a number on. -/
def earliest? : (i : Nat) → List (Worker α) → Option (Nat × Nat)
  | _, [] => none
  | i, w :: rest =>
    match Worker.due? w, earliest? (i + 1) rest with
    | some due, some (j, later) => if due ≤ later then some (i, due) else some (j, later)
    | some due, none => some (i, due)
    | none, found => found

/-- The next step in the order of time. Every worker acts as long as it does not wait, in the order
of the workers. The work is cancelled once `cancelAt` tasks have been taken. -/
def next? (cancelAt : Option Nat) (p : Pool α β) : Option Move :=
  if !p.cancelled && cancelAt.any (· ≤ p.started.length) then some .cancel
  else
    (firstMove? p.now 0 p.workers).or ((earliest? 0 p.workers).map fun (i, _) => .finish i)

/-- The pool after at most `fuel` steps in the order of time. -/
def driveFor (labour : Labour α β) (cancelAt : Option Nat) : (fuel : Nat) → Pool α β → Pool α β
  | 0, p => p
  | fuel + 1, p =>
    match (p.next? cancelAt).bind (p.move? labour) with
    | none => p
    | some q => driveFor labour cancelAt fuel q

/-- The pool after all its steps in the order of time. -/
def drive (labour : Labour α β) (cancelAt : Option Nat) (p : Pool α β) : Pool α β :=
  driveFor labour cancelAt p.remaining p

end Pool

end EdgeHealth
