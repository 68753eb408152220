import EdgeHealth.Proofs.Cluster.Yields

/-!
# What sessions do

With a cluster and without a limit, what a session does and what it comes to are the same whenever
it begins; only the moments differ. A session that is put together from others does what they do,
one after another. In particular a session that may fail does nothing more once it has failed,
whatever its failures are.

A session that is in step with itself, as far as two runs with one cluster go, does something of
which the moment of its beginning knows nothing.

## Main definitions

* `Session.Performs` : what a session does with a cluster, and its result.

## Main results

* `Session.Performs.bind`, `Session.Performs.exists_forEach` : sessions that are put together.
* `Session.performs_run_bind`, `Session.performs_run_bind_error` : sessions that may fail.
* `Session.exists_performs` : a session in step with itself.
-/

namespace EdgeHealth.Session

variable {α β : Type} {cluster : Cluster}

/-- With a cluster and without a limit, a session does the same things in the same order and comes
to the same whenever it begins. -/
structure Performs (cluster : Cluster) (s : Session α) (events : List Event)
    (r : Except Interruption α) : Prop where
  /-- What the session comes to. -/
  yields : s.Yields cluster r
  /-- What the session does. -/
  events_eq : ∀ past now, (s cluster.responder past none now).events = events

variable {s : Session α} {events events' : List Event} {a : α} {r : Except Interruption α}

/-- A session that is held from the first moment on. -/
theorem Performs.run (h : s.Performs cluster events r) :
    (s.run cluster).result = r ∧ (s.run cluster).events = events :=
  ⟨h.yields [] 0, h.events_eq [] 0⟩

theorem performs_pure (a : α) : (pure a).Performs cluster [] (.ok a) :=
  ⟨yields_pure a, fun _ _ => rfl⟩

theorem performs_ask (call : Call) :
    (ask call).Performs cluster [.asked call] (.ok (cluster.reply call).answer) :=
  ⟨yields_ask call, fun _ _ => rfl⟩

/-! ### Sessions that are put together -/

theorem Performs.bind {f : α → Session β} {r : Except Interruption β}
    (h : s.Performs cluster events (.ok a)) (hf : (f a).Performs cluster events' r) :
    (s.bind f).Performs cluster (events ++ events') r := by
  refine ⟨h.yields.bind hf.yields, fun past now => ?_⟩
  have hfirst := h.events_eq past now
  rw [bind_of_ok (h.yields past now)]
  simp only [Outcome.events, List.map_append] at hfirst ⊢
  rw [hfirst]
  exact congrArg _ (hf.events_eq _ _)

/-- What would follow a session without a result is not done. -/
theorem Performs.bind_error {i : Interruption} (h : s.Performs cluster events (.error i))
    (f : α → Session β) : (s.bind f).Performs cluster events (.error i) := by
  refine ⟨h.yields.bind_error f, fun past now => ?_⟩
  rw [bind_of_error (h.yields past now)]
  exact h.events_eq past now

/-- A session after which nothing is done. -/
theorem Performs.bind_idle {f : α → Session β} {g : α → β} (h : s.Performs cluster events r)
    (hf : ∀ a, (f a).Performs cluster [] (.ok (g a))) :
    (s.bind f).Performs cluster events (r.map g) := by
  cases r with
  | ok a =>
    have hlast : (s.bind f).Performs cluster (events ++ []) (.ok (g a)) := h.bind (hf a)
    rwa [List.append_nil] at hlast
  | error i => exact h.bind_error f

/-- A session of which only the result is looked at. -/
theorem Performs.bind_pure (h : s.Performs cluster events r) (g : α → β) :
    (s.bind fun a => pure (g a)).Performs cluster events (r.map g) :=
  h.bind_idle fun a => performs_pure (g a)

/-- After a session another one is done if the first has a result. -/
theorem Performs.exists_bind {f : α → Session β} {g : α → Except Interruption β}
    (h : s.Performs cluster events r) (hf : ∀ a, r = .ok a → (f a).Performs cluster events' (g a)) :
    ∃ done, (s.bind f).Performs cluster done (r.bind g) ∧ done <+: events ++ events' ∧
      ∀ b, r.bind g = .ok b → done = events ++ events' := by
  cases r with
  | ok a => exact ⟨_, h.bind (hf a rfl), List.prefix_rfl, fun _ _ => rfl⟩
  | error i => exact ⟨events, h.bind_error f, List.prefix_append _ _, nofun⟩

/-- Sessions one after another do what each of them does, up to the first that has no result. -/
theorem Performs.exists_forEach {f : α → Session β} {events : α → List Event}
    {g : α → Except Interruption β} : (l : List α) →
    (∀ a ∈ l, (f a).Performs cluster (events a) (g a)) →
    ∃ done, (Session.forEach f l).Performs cluster done (sequence (l.map g)) ∧
      done <+: l.flatMap events ∧ ∀ bs, sequence (l.map g) = .ok bs → done = l.flatMap events
  | [], _ => ⟨[], performs_pure [], List.prefix_rfl, fun _ _ => rfl⟩
  | a :: l, h => by
    obtain ⟨done, hdone, hprefix, heq⟩ :=
      exists_forEach l fun a ha => h a (List.mem_cons_of_mem _ ha)
    have ha := h a List.mem_cons_self
    rw [List.map_cons, List.flatMap_cons]
    cases hr : g a with
    | error i =>
      rw [hr] at ha
      exact ⟨events a, ha.bind_error _, List.prefix_append _ _, nofun⟩
    | ok b =>
      rw [hr] at ha
      refine ⟨events a ++ done, ha.bind (hdone.bind_pure _), (List.prefix_append_right_inj _).2
        hprefix, fun bs hbs => ?_⟩
      obtain ⟨bs', hbs', -⟩ := exists_of_map_eq_ok hbs
      rw [heq bs' hbs']

/-! ### Sessions that may fail -/

section MayFail

variable {ε : Type} {x : ExceptT ε Session α} {f : α → ExceptT ε Session β}

theorem performs_run_bind {r : Except Interruption (Except ε β)}
    (h : x.run.Performs cluster events (.ok (.ok a)))
    (hf : (f a).run.Performs cluster events' r) :
    (x >>= f).run.Performs cluster (events ++ events') r := by
  rw [run_bind]
  exact h.bind hf

/-- After a failure nothing more is done. -/
theorem performs_run_bind_error {e : ε} (h : x.run.Performs cluster events (.ok (.error e))) :
    (x >>= f).run.Performs cluster events (.ok (.error e)) := by
  rw [run_bind, ← List.append_nil events]
  exact h.bind (performs_pure _)

/-- A session that may fail of which only the result is looked at. -/
theorem performs_run_bind_pure (h : x.run.Performs cluster events (.ok (.ok a))) (g : α → β) :
    (x >>= fun a => Pure.pure (g a)).run.Performs cluster events (.ok (.ok (g a))) := by
  rw [← List.append_nil events]
  exact performs_run_bind h (performs_pure _)

theorem performs_run_lift (h : s.Performs cluster events (.ok a)) :
    (ExceptT.lift s : ExceptT ε Session α).run.Performs cluster events (.ok (.ok a)) :=
  h.bind_pure Except.ok

end MayFail

/-! ### Sessions in step with themselves -/

/-- A session that is in step with itself does the same whenever it begins. -/
theorem exists_performs (cluster : Cluster)
    (h : ∀ w : Comparison, (∀ call, w.Shares call) → s.InStep w Eq s) :
    ∃ events r, s.Performs cluster events r := by
  obtain ⟨r, hr⟩ := exists_yields (s := s) (· = cluster) rfl fun c c' lag hc hc' =>
    h ⟨c, c', lag, fun _ => True⟩ fun _ => ⟨trivial, by rw [hc, hc']⟩
  refine ⟨(s cluster.responder [] none 0).events, r, hr cluster rfl, fun past now => ?_⟩
  exact (h ⟨cluster, cluster, now, fun _ => True⟩ (fun _ => ⟨trivial, rfl⟩) [] past .none
    (show (now : Int) = (0 : Nat) + (now : Int) by omega)).events_eq.symm

end EdgeHealth.Session
