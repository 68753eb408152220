import EdgeHealth.Proofs.Cluster.InStep

/-!
# What sessions yield

A cluster replies in the same way at all times. So a session that nothing limits *yields* the same
with a cluster, whenever it begins and whatever was done before it: always one result, or never one.
What sessions yield that are put together is told by what each of them yields. Time has no part in
this: a session may take longer with one cluster than with another one and yield the same.

A session that does not put a question yields the same with all clusters that differ in the reply to
that question only.

## Main definitions

* `Session.Yields` : what a session comes to with a cluster.
* `sequence` : the values of several outcomes, or the first error.
* `Cluster.SameBut` : two clusters that differ in the reply to one question only.

## Main results

* `Session.Yields.bind`, `Session.Yields.forEach` : sessions that are put together.
* `Session.exists_yields` : a session that yields the same with each of several clusters.
-/

namespace EdgeHealth

variable {α β : Type} {cluster : Cluster}

/-- Two clusters that reply alike to every question but one. -/
def Cluster.SameBut (call : Call) (c c' : Cluster) : Prop :=
  ∀ other, other ≠ call → c'.reply other = c.reply other

theorem Cluster.SameBut.refl (call : Call) (c : Cluster) : c.SameBut call c := fun _ _ => rfl

theorem Cluster.sameBut_answering (cluster : Cluster) (call : Call) (reply : Reply call.Answer) :
    cluster.SameBut call (cluster.answering call reply) :=
  fun _ h => reply_answering_of_ne h cluster reply

/-- The values of several outcomes in order, or the first error among them. -/
def sequence {ε : Type} : List (Except ε α) → Except ε (List α)
  | [] => .ok []
  | r :: rest => r.bind fun a => (sequence rest).map fun as => a :: as

theorem exists_of_map_eq_ok {ε : Type} {r : Except ε α} {g : α → β} {b : β}
    (h : r.map g = .ok b) : ∃ a, r = .ok a ∧ g a = b := by
  cases r with
  | ok a => exact ⟨a, rfl, Except.ok.inj h⟩
  | error i => cases h

theorem exists_of_bind_eq_ok {ε : Type} {r : Except ε α} {g : α → Except ε β} {b : β}
    (h : r.bind g = .ok b) : ∃ a, r = .ok a ∧ g a = .ok b := by
  cases r with
  | ok a => exact ⟨a, rfl, h⟩
  | error i => cases h

/-- The values of several outcomes are values of outcomes among them. -/
theorem mem_of_sequence_eq_ok {ε : Type} : {rs : List (Except ε α)} → {as : List α} →
    sequence rs = .ok as → ∀ a ∈ as, .ok a ∈ rs
  | [], as, h, a, ha => by
    obtain rfl : [] = as := Except.ok.inj h
    cases ha
  | r :: rs, as, h, a, ha => by
    obtain ⟨first, rfl, h⟩ := exists_of_bind_eq_ok h
    obtain ⟨rest, hrest, rfl⟩ := exists_of_map_eq_ok h
    rcases List.mem_cons.1 ha with rfl | ha
    · exact List.mem_cons_self
    · exact List.mem_cons_of_mem _ (mem_of_sequence_eq_ok hrest a ha)

theorem sequence_append {ε : Type} (rs rs' : List (Except ε α)) :
    sequence (rs ++ rs') =
      (sequence rs).bind fun as => (sequence rs').map fun as' => as ++ as' := by
  induction rs with
  | nil => cases h : sequence rs' <;> simp [sequence, h, Except.bind, Except.map]
  | cons r rs ih =>
    rw [List.cons_append, sequence, sequence, ih]
    cases r <;> cases sequence rs <;> cases sequence rs' <;> rfl

/-- What holds of one thing each for all members of a list, as one thing about two lists. -/
theorem exists_forall₂ {R : α → β → Prop} {P : β → Prop} : (l : List α) →
    (∀ a ∈ l, ∃ b, P b ∧ R a b) → ∃ bs, (∀ b ∈ bs, P b) ∧ List.Forall₂ R l bs
  | [], _ => ⟨[], List.forall_mem_nil _, .nil⟩
  | _ :: l, h => by
    obtain ⟨b, hP, hR⟩ := h _ List.mem_cons_self
    obtain ⟨bs, hPs, hRs⟩ := exists_forall₂ l fun a ha => h a (List.mem_cons_of_mem _ ha)
    exact ⟨b :: bs, List.forall_mem_cons.2 ⟨hP, hPs⟩, .cons hR hRs⟩

namespace Session

/-- With a cluster and without a limit, a session comes to the same whenever it begins. -/
def Yields (cluster : Cluster) (s : Session α) (r : Except Interruption α) : Prop :=
  ∀ past now, (s cluster.responder past none now).result = r

variable {s : Session α} {a : α} {r : Except Interruption α}

theorem yields_pure (a : α) : (pure a).Yields cluster (.ok a) := fun _ _ => rfl

theorem yields_ask (call : Call) : (ask call).Yields cluster (.ok (cluster.reply call).answer) :=
  fun _ _ => rfl

theorem Yields.bind {f : α → Session β} {r : Except Interruption β}
    (h : s.Yields cluster (.ok a)) (hf : (f a).Yields cluster r) :
    (s.bind f).Yields cluster r := by
  intro past now
  rw [bind_of_ok (h past now)]
  exact hf _ _

/-- What would follow a session without a result is left out. -/
theorem Yields.bind_error {i : Interruption} (h : s.Yields cluster (.error i))
    (f : α → Session β) : (s.bind f).Yields cluster (.error i) :=
  fun past now => result_bind_of_error (h past now)

/-- After a session another one is held if the first has a result. -/
theorem Yields.bind_of_forall {f : α → Session β} {g : α → Except Interruption β}
    (h : s.Yields cluster r) (hf : ∀ a, r = .ok a → (f a).Yields cluster (g a)) :
    (s.bind f).Yields cluster (r.bind g) := by
  cases r with
  | ok a => exact h.bind (hf a rfl)
  | error i => exact h.bind_error f

/-- A session of which only the result is looked at. -/
theorem Yields.bind_pure (h : s.Yields cluster r) (g : α → β) :
    (s.bind fun a => pure (g a)).Yields cluster (r.map g) := by
  cases r with
  | ok a => exact h.bind (yields_pure (g a))
  | error i => exact h.bind_error _

theorem Yields.within_none (h : s.Yields cluster r) :
    (within none s).Yields cluster (r.map some) :=
  fun past now => congrArg (Except.map some) (h past now)

theorem Yields.forEach {f : α → Session β} : {l : List α} → {rs : List (Except Interruption β)} →
    List.Forall₂ (fun a r => (f a).Yields cluster r) l rs →
      (Session.forEach f l).Yields cluster (sequence rs)
  | [], [], .nil => yields_pure []
  | _ :: _, .ok b :: _, .cons h hl => h.bind ((Yields.forEach hl).bind_pure (b :: ·))
  | _ :: _, .error _ :: _, .cons h _ => h.bind_error _

/-- What is known of all results of a session is known of what it yields. -/
theorem Ensures.of_yields {P : α → Prop} (hP : s.Ensures P) (h : s.Yields cluster (.ok a)) : P a :=
  hP (h [] 0)

/-- A session yields the same with several clusters if it is in step with itself for any two of
them, whenever it begins. -/
theorem exists_yields (among : Cluster → Prop) (hcluster : among cluster)
    (h : ∀ c c' lag, among c → among c' → s.InStep ⟨c, c', lag, fun _ => True⟩ Eq s) :
    ∃ r, ∀ c, among c → s.Yields c r := by
  refine ⟨(s cluster.responder [] none 0).result, fun c hc past now => ?_⟩
  -- the session that begins at `now` is the one that begins at once, later by `now`
  have hstep := h cluster c now hcluster hc [] past .none
    (show (now : Int) = (0 : Nat) + (now : Int) by omega)
  exact (hstep.result.eq fun _ _ h => h).symm

end Session

namespace Attempt

variable {a : Attempt α} {f : α → Attempt β}

theorem yields_askFor (call : Call) :
    (askFor call).run.Yields cluster (.ok (.ok (cluster.reply call).answer)) :=
  (Session.yields_ask call).bind (Session.yields_pure _)

theorem yields_bind {x : α} {r : Except Interruption (Except ClusterError β)}
    (h : a.run.Yields cluster (.ok (.ok x))) (hf : (f x).run.Yields cluster r) :
    (a >>= f).run.Yields cluster r := by
  rw [Session.run_bind]
  exact h.bind hf

/-- What follows a failure is left out. -/
theorem yields_bind_error {e : ClusterError} (h : a.run.Yields cluster (.ok (.error e))) :
    (a >>= f).run.Yields cluster (.ok (.error e)) := by
  rw [Session.run_bind]
  exact h.bind (Session.yields_pure _)

/-- Attempts that all come to something come to a list. -/
theorem exists_yields_forEach : (l : List α) →
    (∀ x ∈ l, ∃ y, (f x).run.Yields cluster (.ok (.ok y))) →
    ∃ ys, (forEach f l).run.Yields cluster (.ok (.ok ys))
  | [], _ => ⟨[], Session.yields_pure _⟩
  | x :: l, h => by
    obtain ⟨y, hy⟩ := h x List.mem_cons_self
    obtain ⟨ys, hys⟩ := exists_yields_forEach l fun x hx => h x (List.mem_cons_of_mem _ hx)
    exact ⟨y :: ys, yields_bind hy (yields_bind hys (Session.yields_pure _))⟩

end Attempt

end EdgeHealth
