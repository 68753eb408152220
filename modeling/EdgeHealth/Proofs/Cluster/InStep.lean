import Mathlib.Logic.Function.Basic
import EdgeHealth.Proofs.Cluster.Limit
import EdgeHealth.Proofs.Cluster.Parallel

/-!
# Sessions with two clusters

Two sessions are held with two clusters, and the second one may start some time later. They are *in
step* when the second does what the first does, later by that time, and their results stand in some
relation. The questions that are put are among those that a comparison permits; for these the two
clusters have to reply alike, and nothing is asked of their other replies. Sessions in step are put
together to sessions in step.

Nothing is known of what was done before: clusters reply in the same way at all times. A limit and a
deadline have to be later by the same time as the session. In particular sessions without a limit
come to the same results whenever they start.

## Main definitions

* `Comparison` : two clusters, a lag, and the questions that may be put.
* `Comparison.Shares` : a question that may be put and to which the clusters reply alike.
* `Outcome.InStep`, `Session.InStep`, `Attempt.InStep` : outcomes and sessions in step.

## Main results

* `Session.InStep.bind`, `Session.InStep.forEach`, `Session.InStep.timeout`,
  `Session.InStep.within` : sessions that are put together.
* `Session.InStep.run_eq`, `Attempt.InStep.run_eq` : what is in step and starts together ends in the
  same way.
-/

namespace EdgeHealth

variable {α β γ δ : Type} {R : α → β → Prop} {S : γ → δ → Prop}

/-- Equal results, of which something is known. -/
def Same (P : α → Prop) (a a' : α) : Prop := a = a' ∧ P a

theorem forall₂_same_iff {P : α → Prop} : {l l' : List α} →
    (List.Forall₂ (Same P) l l' ↔ Same (fun l => ∀ a ∈ l, P a) l l')
  | [], [] => by simp [Same]
  | [], _ :: _ => by simp [Same]
  | _ :: _, [] => by simp [Same]
  | a :: l, a' :: l' => by
    rw [List.forall₂_cons, forall₂_same_iff, Same, Same, Same, List.cons.injEq,
      List.forall_mem_cons, and_and_and_comm]

/-- The cluster with another reply to one question. -/
def Cluster.answering (cluster : Cluster) (call : Call) (reply : Reply call.Answer) : Cluster :=
  ⟨Function.update cluster.reply call reply⟩

@[simp] theorem Cluster.reply_answering_self (cluster : Cluster) (call : Call)
    (reply : Reply call.Answer) : (cluster.answering call reply).reply call = reply := by
  simp [answering]

theorem Cluster.reply_answering_of_ne {call call' : Call} (h : call' ≠ call) (cluster : Cluster)
    (reply : Reply call.Answer) :
    (cluster.answering call reply).reply call' = cluster.reply call' := by
  simp [answering, h]

/-- Two clusters with which sessions are held, and what the sessions may ask. -/
structure Comparison where
  /-- The cluster of the first session. -/
  first : Cluster
  /-- The cluster of the second session. -/
  second : Cluster
  /-- By how many milliseconds the second session is later; it is earlier if this is negative. -/
  lag : Int
  /-- The questions that may be put. -/
  permits : Call → Prop

namespace Comparison

variable (w : Comparison)

/-- A moment of the first session, and the same moment of the second one. -/
def Lags (t t' : Nat) : Prop := (t' : Int) = t + w.lag

/-- A question that may be put and to which both clusters reply alike. -/
structure Shares (call : Call) : Prop where
  /-- The question may be put. -/
  permits : w.permits call
  /-- The replies are equal. -/
  reply_eq : w.first.reply call = w.second.reply call

/-- An event of the first session, and the same event of the second one. -/
structure SameEvent (e e' : Nat × Event) : Prop where
  lags : w.Lags e.1 e'.1
  event_eq : e.2 = e'.2
  permits : ∀ call, e.2 = .asked call → w.permits call

variable {w}

/-- Without a lag both sessions see the same moments. -/
theorem lags_self (h : w.lag = 0) (moment : Nat) : w.Lags moment moment := by
  simp [Lags, h]

/-- Without a deadline the lag between two sessions does not matter. -/
theorem rel_lags_of_none {deadline : Option Nat} (h : deadline = none) :
    Option.Rel w.Lags deadline deadline := by
  rw [h]
  exact .none

/-- Without a lag both sessions see the same deadline. -/
theorem rel_lags_self (h : w.lag = 0) (deadline : Option Nat) :
    Option.Rel w.Lags deadline deadline := by
  cases deadline with
  | none => exact .none
  | some moment => exact .some (lags_self h moment)

/-- The earlier one of a moment and a limit, at both sessions. -/
theorem Lags.earlier {m m' : Nat} (hm : w.Lags m m') {limit limit' : Option Nat}
    (hlimit : Option.Rel w.Lags limit limit') :
    w.Lags (Session.earlier m limit) (Session.earlier m' limit') := by
  cases hlimit with
  | none => exact hm
  | some hlimit =>
    simp only [Lags, Session.earlier_some] at hm hlimit ⊢
    omega

theorem Lags.le_iff {m m' n n' : Nat} (hm : w.Lags m m') (hn : w.Lags n n') : m ≤ n ↔ m' ≤ n' := by
  simp only [Lags] at hm hn
  omega

theorem Lags.add {m m' : Nat} (hm : w.Lags m m') (duration : Nat) :
    w.Lags (m + duration) (m' + duration) := by
  simp only [Lags] at hm ⊢
  omega

end Comparison

/-- Two outcomes, the second of which came later but in the same way. -/
structure Outcome.InStep (w : Comparison) (R : α → β → Prop) (o : Outcome α) (o' : Outcome β) :
    Prop where
  /-- The moments of the end. -/
  time : w.Lags o.time o'.time
  /-- The same was done, and nothing was asked that may not be asked. -/
  trace : List.Forall₂ w.SameEvent o.trace o'.trace
  /-- Both came to results that are related, or neither has a result, for the same reason. -/
  result : Alike R o.result o'.result

namespace Outcome.InStep

variable {w : Comparison} {o : Outcome α}

/-- Nothing is asked that may not be asked. -/
theorem permits {o' : Outcome β} (h : o.InStep w R o') :
    ∀ call, .asked call ∈ o.events → w.permits call := by
  obtain ⟨_, _, trace⟩ := o
  obtain ⟨_, _, trace'⟩ := o'
  obtain ⟨-, htrace, -⟩ := h
  intro call hcall
  simp only [Outcome.events] at hcall htrace
  induction htrace with
  | nil => cases hcall
  | cons he _ ih =>
    rw [List.map_cons, List.mem_cons] at hcall
    rcases hcall with hcall | hcall
    · exact he.permits call hcall.symm
    · exact ih hcall

/-- The same is done, only later. -/
theorem events_eq {o' : Outcome β} (h : o.InStep w R o') : o.events = o'.events :=
  List.forall₂_eq_eq_eq ▸ List.forall₂_map_left_iff.2
    (List.forall₂_map_right_iff.2 (h.trace.imp fun _ _ he => he.event_eq))

/-- Outcomes in step without a lag are equal if related results are. -/
theorem eq {o' : Outcome α} {R : α → α → Prop} (h : o.InStep w R o') (hlag : w.lag = 0)
    (hR : ∀ a b, R a b → a = b) : o = o' := by
  have heq {t t' : Nat} (ht : w.Lags t t') : t = t' := by
    simp only [Comparison.Lags, hlag] at ht
    omega
  obtain ⟨result, time, trace⟩ := o
  obtain ⟨result', time', trace'⟩ := o'
  obtain ⟨htime, htrace, hresult⟩ := h
  congr 1
  · exact hresult.eq hR
  · exact heq htime
  · refine List.forall₂_eq_eq_eq ▸ htrace.imp fun e e' he => ?_
    exact Prod.ext (heq he.lags) he.event_eq

end Outcome.InStep

namespace Session

/-- Two sessions that do the same, each with its cluster, and come to related results. -/
def InStep (w : Comparison) (R : α → β → Prop) (s : Session α) (t : Session β) : Prop :=
  ∀ (past past' : Trace) ⦃limit limit' : Option Nat⦄ ⦃now now' : Nat⦄,
    Option.Rel w.Lags limit limit' → w.Lags now now' →
      (s w.first.responder past limit now).InStep w R (t w.second.responder past' limit' now')

variable {w : Comparison} {s : Session α} {t : Session β}

/-! ### Single steps -/

theorem inStep_pure {a : α} {b : β} (h : R a b) : (pure a).InStep w R (pure b) :=
  fun _ _ _ _ _ _ _ hnow => ⟨hnow, .nil, .ok h⟩

theorem inStep_abort : (abort : Session α).InStep w R (abort : Session β) :=
  fun _ _ _ _ _ _ _ hnow => ⟨hnow, .nil, .error _⟩

/-- A question to which the replies take the same time and are related. -/
theorem inStep_ask {call : Call}
    {R : Except ClusterError call.Answer → Except ClusterError call.Answer → Prop}
    (hpermits : w.permits call)
    (hdelay : (w.first.reply call).delay = (w.second.reply call).delay)
    (hanswer : R (w.first.reply call).answer (w.second.reply call).answer) :
    (ask call).InStep w R (ask call) := by
  intro past past' limit limit' now now' hlimit hnow
  have htrace : List.Forall₂ w.SameEvent [(now, .asked call)] [(now', .asked call)] :=
    .cons ⟨hnow, rfl, fun _ h => by cases h; exact hpermits⟩ .nil
  have harrival := hnow.add (w.second.reply call).delay
  simp only [ask, Cluster.responder_reply, hdelay]
  cases hlimit with
  | none => exact ⟨harrival, htrace, .ok hanswer⟩
  | some hmoment =>
    simp only [← Nat.not_le, harrival.le_iff hmoment]
    split
    · exact ⟨hmoment, htrace, .error _⟩
    · exact ⟨harrival, htrace, .ok hanswer⟩

theorem inStep_trace_sent (request : String) :
    (trace (.sent request)).InStep w Eq (trace (.sent request)) :=
  fun _ _ _ _ _ _ _ hnow =>
    ⟨hnow, .cons ⟨hnow, rfl, fun _ h => nomatch h⟩ .nil, .ok rfl⟩

theorem inStep_never : (never : Session α).InStep w R (never : Session β) := by
  intro past past' limit limit' now now' hlimit hnow
  cases hlimit with
  | none => exact ⟨hnow, .nil, .error _⟩
  | some hmoment => exact ⟨hmoment, .nil, .error _⟩

/-! ### Sessions that are put together -/

theorem InStep.mono {R' : α → β → Prop} (h : s.InStep w R t) (hR : ∀ a b, R a b → R' a b) :
    s.InStep w R' t :=
  fun past past' _ _ _ _ hlimit hnow =>
    have hstep := h past past' hlimit hnow
    ⟨hstep.time, hstep.trace, hstep.result.mono hR⟩

/-- What is known of all results of the first session. -/
theorem InStep.and_ensures {P : α → Prop} (h : s.InStep w R t) (hP : s.Ensures P) :
    s.InStep w (fun a b => R a b ∧ P a) t := by
  intro past past' limit limit' now now' hlimit hnow
  obtain ⟨htime, htrace, hresult⟩ := h past past' hlimit hnow
  refine ⟨htime, htrace, ?_⟩
  obtain ⟨i, hr, hr'⟩ | ⟨a, b, hr, hr', hab⟩ := hresult.cases
  · rw [hr, hr']
    exact .error i
  · rw [hr, hr']
    exact .ok ⟨hab, hP hr⟩

theorem InStep.bind {f : α → Session γ} {g : β → Session δ} (h : s.InStep w R t)
    (hf : ∀ a b, R a b → (f a).InStep w S (g b)) : (s.bind f).InStep w S (t.bind g) := by
  intro past past' limit limit' now now' hlimit hnow
  obtain ⟨htime, htrace, hresult⟩ := h past past' hlimit hnow
  obtain ⟨i, hr, hr'⟩ | ⟨a, b, hr, hr', hab⟩ := hresult.cases
  · rw [bind_of_error hr, bind_of_error hr']
    exact ⟨htime, htrace, .error i⟩
  · rw [bind_of_ok hr, bind_of_ok hr']
    obtain ⟨htime', htrace', hresult'⟩ := hf a b hab _ _ hlimit htime
    exact ⟨htime', List.rel_append htrace htrace', hresult'⟩

theorem InStep.forEach {f : α → Session γ} {g : β → Session δ} : {l : List α} → {l' : List β} →
    List.Forall₂ (fun a b => (f a).InStep w S (g b)) l l' →
    (Session.forEach f l).InStep w (List.Forall₂ S) (Session.forEach g l')
  | [], [], .nil => inStep_pure .nil
  | _ :: _, _ :: _, .cons h hl =>
    h.bind fun _ _ hcd => (InStep.forEach hl).bind fun _ _ hrest => inStep_pure (.cons hcd hrest)

/-- Sessions that are given up after the same time. -/
theorem InStep.timeout (h : s.InStep w R t) (duration : Nat) :
    (timeout duration s).InStep w (Option.Rel R) (timeout duration t) := by
  intro past past' limit limit' now now' hlimit hnow
  have hmoment := hnow.add duration
  have hearlier := hmoment.earlier hlimit
  obtain ⟨htime, htrace, hresult⟩ := h past past' (.some hearlier) hnow
  refine ⟨by rwa [timeout_time, timeout_time], by rwa [timeout_trace, timeout_trace], ?_⟩
  simp only [Session.timeout, hmoment.le_iff hearlier]
  exact alike_awaited _ hresult

/-- Sessions that are given up at the same deadline, as each session sees it. -/
theorem InStep.within (h : s.InStep w R t) {deadline deadline' : Option Nat}
    (hdeadline : Option.Rel w.Lags deadline deadline') :
    (Session.within deadline s).InStep w (Option.Rel R) (Session.within deadline' t) := by
  intro past past' limit limit' now now' hlimit hnow
  cases hdeadline with
  | none =>
    obtain ⟨htime, htrace, hresult⟩ := h past past' hlimit hnow
    exact ⟨htime, htrace, hresult.map_some⟩
  | some hmoment =>
    have hearlier := hmoment.earlier hlimit
    obtain ⟨htime, htrace, hresult⟩ := h past past' (.some hearlier) hnow
    simp only [Session.within, hmoment.le_iff hnow, hmoment.le_iff hearlier]
    split
    · exact ⟨hnow, .nil, .ok .none⟩
    · exact ⟨htime, htrace, alike_awaited _ hresult⟩

/-- Sessions that are held from the first moment on, without a limit. -/
theorem InStep.run (h : s.InStep w R t) (hlag : w.lag = 0) :
    (s.run w.first).InStep w R (t.run w.second) :=
  h [] [] .none (Comparison.lags_self hlag 0)

theorem InStep.run_eq {t : Session α} {R : α → α → Prop} (h : s.InStep w R t) (hlag : w.lag = 0)
    (hR : ∀ a b, R a b → a = b) : s.run w.first = t.run w.second :=
  (h.run hlag).eq hlag hR

end Session

namespace Attempt

variable {w : Comparison} {a : Attempt α} {b : Attempt β}

/-! ### Attempts -/

/-- Two attempts that do the same, each with its cluster, and come to related results or to one
failure. -/
def InStep (w : Comparison) (R : α → β → Prop) (a : Attempt α) (b : Attempt β) : Prop :=
  Session.InStep w (Alike R) a.run b.run

theorem InStep.mono {R' : α → β → Prop} (h : a.InStep w R b) (hR : ∀ x y, R x y → R' x y) :
    a.InStep w R' b :=
  Session.InStep.mono h fun _ _ => Alike.mono hR

theorem inStep_pure {x : α} {y : β} (h : R x y) :
    InStep w R (Pure.pure x : Attempt α) (Pure.pure y : Attempt β) :=
  Session.inStep_pure (.ok h)

theorem inStep_fail (e : ClusterError) : InStep w R (fail e) (fail e) :=
  Session.inStep_pure (.error e)

theorem inStep_abort : InStep w R (abort : Attempt α) (abort : Attempt β) := Session.inStep_abort

/-- What is known of all results of the first attempt. -/
theorem InStep.and_ensures {P : α → Prop} (h : a.InStep w R b) (hP : a.Ensures P) :
    a.InStep w (fun x y => R x y ∧ P x) b := by
  refine (Session.InStep.and_ensures h hP).mono fun r r' hr => ?_
  obtain ⟨hr, hP⟩ := hr
  cases hr with
  | ok hxy => exact .ok ⟨hxy, hP _ rfl⟩
  | error e => exact .error e

theorem InStep.bind {f : α → Attempt γ} {g : β → Attempt δ} (h : a.InStep w R b)
    (hf : ∀ x y, R x y → (f x).InStep w S (g y)) : (a >>= f).InStep w S (b >>= g) := by
  unfold InStep
  rw [Session.run_bind, Session.run_bind]
  refine Session.InStep.bind h fun r r' hr => ?_
  cases hr with
  | ok hxy => exact hf _ _ hxy
  | error e => exact Session.inStep_pure (.error e)

theorem InStep.forEach {f : α → Attempt γ} {g : β → Attempt δ} : {l : List α} → {l' : List β} →
    List.Forall₂ (fun x y => (f x).InStep w S (g y)) l l' →
    (Attempt.forEach f l).InStep w (List.Forall₂ S) (Attempt.forEach g l')
  | [], [], .nil => inStep_pure .nil
  | _ :: _, _ :: _, .cons h hl =>
    h.bind fun _ _ hzw => (InStep.forEach hl).bind fun _ _ hrest => inStep_pure (.cons hzw hrest)

/-- Sessions as attempts that do not fail. -/
theorem inStep_lift {s : Session α} {t : Session β} (h : s.InStep w R t) :
    (lift s).InStep w R (lift t) :=
  h.bind fun _ _ hab => Session.inStep_pure (.ok hab)

/-- A question to which the replies take the same time and are answered alike. -/
theorem inStep_ask {call : Call} {R : call.Answer → call.Answer → Prop}
    (hpermits : w.permits call)
    (hdelay : (w.first.reply call).delay = (w.second.reply call).delay)
    (hanswer : Alike R (w.first.reply call).answer (w.second.reply call).answer) :
    (ask call).InStep w R (ask call) :=
  Session.inStep_ask hpermits hdelay hanswer

/-- A question to which both clusters reply alike, with what is known of the answer. -/
theorem inStep_ask_of_shares {call : Call} (h : w.Shares call) {P : call.Answer → Prop}
    (hP : ∀ x, (w.first.reply call).answer = .ok x → P x) :
    (ask call).InStep w (Same P) (ask call) := by
  refine inStep_ask h.permits (by rw [h.reply_eq]) ?_
  rw [← h.reply_eq]
  cases hanswer : (w.first.reply call).answer with
  | ok x => exact .ok ⟨rfl, hP x hanswer⟩
  | error e => exact .error e

/-- A question whose failure is an answer too. -/
theorem inStep_askFor {call : Call}
    {R : Except ClusterError call.Answer → Except ClusterError call.Answer → Prop}
    (hpermits : w.permits call)
    (hdelay : (w.first.reply call).delay = (w.second.reply call).delay)
    (hanswer : R (w.first.reply call).answer (w.second.reply call).answer) :
    (askFor call).InStep w R (askFor call) :=
  (Session.inStep_ask hpermits hdelay hanswer).bind fun _ _ h => Session.inStep_pure (.ok h)

theorem InStep.run_eq {b : Attempt α} {R : α → α → Prop} (h : a.InStep w R b) (hlag : w.lag = 0)
    (hR : ∀ x y, R x y → x = y) :
    Session.run a.run w.first = Session.run b.run w.second :=
  Session.InStep.run_eq h hlag fun _ _ hr => hr.eq hR

end Attempt

end EdgeHealth
