import EdgeHealth.Cluster.Call

/-!
# Sessions with a cluster

A session puts questions to a cluster one after another. Time is counted in milliseconds; it passes
while a reply is waited for and at no other moment. A session may have a limit: what is not finished
by then is cut off at that moment. A session may also be aborted, which ends everything that waits
for it. A session leaves a trace of what it asked and when. A reply may depend on all that was asked
before; a `Cluster` is the special case in which it does not.

## Main definitions

* `Event`, `Trace` : what a session leaves behind.
* `Responder` : who replies to the questions of a session.
* `Interruption` : why a session has no result.
* `Outcome` : how a session ended, when, and its trace.
* `Session` : a session, with its monad structure.
* `Session.ask` : one question.
* `Session.abort` : the session that is aborted.
* `Session.timeout` : a session that is given up after some time.
* `Session.within` : a session that is given up at a moment.
* `Session.runWith`, `Session.run` : a session from its first moment on.
* `Attempt` : a session that may fail.
-/

namespace EdgeHealth

/-- What a session does. -/
inductive Event where
  /-- A question was put. -/
  | asked (call : Call)
  /-- A request was sent over a connection. -/
  | sent (request : String)
  deriving DecidableEq, Repr

/-- What a session did, in order, each with the moment at which it was done. -/
abbrev Trace : Type := List (Nat × Event)

/-- Who replies to the questions of a session. A reply may depend on what was done before and on
the moment at which the question is put. -/
structure Responder where
  /-- The reply to a question. -/
  reply : (past : Trace) → (now : Nat) → (c : Call) → Reply c.Answer

/-- A cluster replies to a question in the same way at all times. -/
def Cluster.responder (cluster : Cluster) : Responder := ⟨fun _ _ c => cluster.reply c⟩

/-- Why a session has no result. -/
inductive Interruption where
  /-- The limit came before the end. -/
  | cutOff
  /-- The session was aborted. -/
  | aborted
  deriving DecidableEq, Repr

/-- How a session ended. -/
structure Outcome (α : Type) where
  /-- The result, or why there is none. -/
  result : Except Interruption α
  /-- The moment of the end. -/
  time : Nat
  /-- What the session did, in order. -/
  trace : Trace
  deriving Repr

/-- What a session did, in order, without the moments. -/
def Outcome.events {α : Type} (o : Outcome α) : List Event := o.trace.map Prod.snd

/-- A session with someone who replies, after what was done before, under a limit in time and from a
moment on. -/
def Session (α : Type) : Type :=
  Responder → (past : Trace) → (limit : Option Nat) → (now : Nat) → Outcome α

namespace Session

variable {α β : Type}

/-- The session that does nothing. -/
def pure (a : α) : Session α := fun _ _ _ now => ⟨.ok a, now, []⟩

/-- A session after another one, unless that has no result. -/
def bind (s : Session α) (f : α → Session β) : Session β := fun responder past limit now =>
  let first := s responder past limit now
  match first.result with
  | .error i => ⟨.error i, first.time, first.trace⟩
  | .ok a =>
    let second := f a responder (past ++ first.trace) limit first.time
    ⟨second.result, second.time, first.trace ++ second.trace⟩

instance : Monad Session where
  pure := Session.pure
  bind := Session.bind

/-- One question. It is cut off when the reply comes after the limit. -/
def ask (call : Call) : Session (Except ClusterError call.Answer) :=
  fun responder past limit now =>
    let reply := responder.reply past now call
    match limit with
    | none => ⟨.ok reply.answer, now + reply.delay, [(now, .asked call)]⟩
    | some moment =>
      if moment < now + reply.delay then ⟨.error .cutOff, moment, [(now, .asked call)]⟩
      else ⟨.ok reply.answer, now + reply.delay, [(now, .asked call)]⟩

/-- A trace of one event. -/
def trace (event : Event) : Session Unit := fun _ _ _ now => ⟨.ok (), now, [(now, event)]⟩

/-- The session that waits for ever, which means up to the limit. -/
def never : Session α := fun _ _ limit now => ⟨.error .cutOff, limit.getD now, []⟩

/-- The session that is aborted. -/
def abort : Session α := fun _ _ _ now => ⟨.error .aborted, now, []⟩

/-- The earlier of a moment and a limit. -/
def earlier (moment : Nat) : Option Nat → Nat
  | none => moment
  | some limit => min moment limit

/-- What a result comes to for those who wait for it up to a moment. Where the session was cut off
at that moment, they go on without a result; else nothing comes after it. -/
def awaited (atMoment : Bool) : Except Interruption α → Except Interruption (Option α)
  | .ok a => .ok (some a)
  | .error .cutOff => if atMoment then .ok none else .error .cutOff
  | .error .aborted => .error .aborted

/-- A session that is given up after some time. Where the limit comes no earlier, the session ends
without a result; else it is cut off. -/
def timeout (duration : Nat) (s : Session α) : Session (Option α) :=
  fun responder past limit now =>
    let moment := now + duration
    let inner := s responder past (some (earlier moment limit)) now
    ⟨awaited (moment ≤ earlier moment limit) inner.result, inner.time, inner.trace⟩

/-- A session that is given up at a moment, and is not started when that has come already. -/
def within (deadline : Option Nat) (s : Session α) : Session (Option α) :=
  fun responder past limit now =>
    match deadline with
    | none =>
      let inner := s responder past limit now
      ⟨inner.result.map some, inner.time, inner.trace⟩
    | some moment =>
      if moment ≤ now then ⟨.ok none, now, []⟩
      else
        let inner := s responder past (some (earlier moment limit)) now
        ⟨awaited (moment ≤ earlier moment limit) inner.result, inner.time, inner.trace⟩

/-- How a session that starts at the first moment and has no limit ends. -/
def runWith (s : Session α) (responder : Responder) : Outcome α := s responder [] none 0

/-- How a session with a cluster that starts at the first moment and has no limit ends. -/
def run (s : Session α) (cluster : Cluster) : Outcome α := s.runWith cluster.responder

/-- Sessions one after another, with the list of their results. -/
def forEach (f : α → Session β) : List α → Session (List β)
  | [] => pure []
  | a :: rest => bind (f a) fun b => bind (forEach f rest) fun bs => pure (b :: bs)

end Session

/-- A session that may fail. -/
abbrev Attempt (α : Type) : Type := ExceptT ClusterError Session α

namespace Attempt

variable {α β : Type}

/-- One question, whose failure is that of the attempt. -/
def ask (call : Call) : Attempt call.Answer := ExceptT.mk (Session.ask call)

/-- One question, whose failure is an answer too. -/
def askFor (call : Call) : Attempt (Except ClusterError call.Answer) :=
  ExceptT.mk ((Session.ask call).bind fun answer => Session.pure (.ok answer))

/-- The attempt that fails. -/
def fail (e : ClusterError) : Attempt α := ExceptT.mk (Session.pure (.error e))

/-- The attempt that is aborted. This is no failure: nothing comes after it. -/
def abort : Attempt α := ExceptT.mk Session.abort

/-- A session as an attempt that does not fail. -/
def lift (s : Session α) : Attempt α := ExceptT.mk (s.bind fun a => Session.pure (.ok a))

/-- Attempts one after another, up to the first that fails, with the list of their results. -/
def forEach (f : α → Attempt β) : List α → Attempt (List β)
  | [] => Pure.pure []
  | a :: rest => do
    let b ← f a
    let bs ← forEach f rest
    return b :: bs

end Attempt

end EdgeHealth
