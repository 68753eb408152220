import EdgeHealth.Proofs.Cluster.Plain

/-!
# Sessions under an earlier limit

What a session does under a limit is what it does under an earlier one, up to that moment: either
it has ended by then, and in the same way, or it is cut off there. A session that has this property
is *punctual*. All sessions are made of questions, requests and waits, and so all of them are
punctual; a wait that is given up after some time takes the limit into account, so that the moment
of giving up may come after it.

Nothing is done at the moment of the limit itself unless a reply arrives just then. This is so for a
session that is *timely*. A *prompt* session also ends before the limit if it ends at all, so that
another session may follow.

## Main definitions

* `Outcome.IsCutAt` : one outcome is another one that was cut off at a moment.
* `Session.Punctual` : what a session does is the same under an earlier limit.
* `Cluster.Avoids` : no question of a trace is replied to at a moment.
* `Session.Prompt`, `Session.Timely` : nothing is done at the moment of the limit.

## Main results

* `Session.Plain.punctual`, `Session.Punctual.timeout` : sessions that are punctual.
* `Session.Plain.prompt`, `Session.Timely.timeout` : sessions that do nothing at the limit.
-/

namespace EdgeHealth

variable {α β : Type}

/-- An outcome that is another one, or that one cut off at a moment. -/
def Outcome.IsCutAt (moment : Nat) (cut full : Outcome α) : Prop :=
  (cut = full ∧ full.time ≤ moment) ∨
    (cut.result = .error .cutOff ∧ cut.time = moment ∧ cut.trace <+: full.trace)

theorem Outcome.IsCutAt.time_le {moment : Nat} {cut full : Outcome α}
    (h : cut.IsCutAt moment full) : cut.time ≤ moment := by
  rcases h with ⟨rfl, h⟩ | ⟨_, h, _⟩
  · exact h
  · exact Nat.le_of_eq h

namespace Session

@[simp] theorem earlier_none (moment : Nat) : earlier moment none = moment := rfl

@[simp] theorem earlier_some (moment limit : Nat) :
    earlier moment (some limit) = min moment limit := rfl

theorem earlier_earlier (a b : Nat) (limit : Option Nat) :
    earlier a (some (earlier b limit)) = earlier b (some (earlier a limit)) := by
  cases limit <;> simp only [earlier_none, earlier_some] <;> omega

theorem earlier_le (moment : Nat) (limit : Option Nat) : earlier moment limit ≤ moment := by
  cases limit <;> simp only [earlier_none, earlier_some] <;> omega

/-! ### Punctual sessions -/

/-- A session that does the same under an earlier limit, up to that. -/
structure Punctual (s : Session α) : Prop where
  /-- A session is cut off at the limit and at no other moment. -/
  time_eq : ∀ {responder past limit now},
    (s responder past (some limit) now).result = .error .cutOff →
      (s responder past (some limit) now).time = limit
  /-- Nothing is done after the limit. -/
  event_le : ∀ {responder past limit now}, now ≤ limit →
    ∀ e ∈ (s responder past (some limit) now).trace, e.1 ≤ limit
  /-- Under an earlier limit the session is the same, or cut off there. -/
  isCutAt : ∀ responder past limit {now moment}, now ≤ moment →
    (s responder past (some (earlier moment limit)) now).IsCutAt moment
      (s responder past limit now)

/-- A session under a limit ends no later than at that. -/
theorem Punctual.time_le {s : Session α} (hs : s.Punctual) {responder : Responder} {past : Trace}
    {limit now : Nat} (h : now ≤ limit) : (s responder past (some limit) now).time ≤ limit :=
  (hs.isCutAt responder past none h).time_le

theorem punctual_pure (a : α) : (pure a).Punctual where
  time_eq h := nomatch h
  event_le _ := List.forall_mem_nil _
  isCutAt _ _ _ _ _ h := .inl ⟨rfl, h⟩

theorem punctual_trace (event : Event) : (trace event).Punctual where
  time_eq h := nomatch h
  event_le h := List.forall_mem_singleton.2 h
  isCutAt _ _ _ _ _ h := .inl ⟨rfl, h⟩

theorem punctual_abort : (abort : Session α).Punctual where
  time_eq h := nomatch h
  event_le _ := List.forall_mem_nil _
  isCutAt _ _ _ _ _ h := .inl ⟨rfl, h⟩

theorem punctual_never : (never : Session α).Punctual where
  time_eq _ := rfl
  event_le _ := List.forall_mem_nil _
  isCutAt responder past limit now moment _ := by
    cases limit with
    | none => exact .inr ⟨rfl, rfl, List.prefix_rfl⟩
    | some limit =>
      rcases Nat.le_total limit moment with h | h
      · exact .inl ⟨by simp [never, earlier, h], h⟩
      · exact .inr ⟨rfl, by simp [never, earlier, h], List.prefix_rfl⟩

theorem punctual_ask (call : Call) : (ask call).Punctual where
  time_eq {responder past limit now} h := by
    simp only [ask] at h ⊢
    split at h
    · next hlate => rw [if_pos hlate]
    · cases h
  event_le {responder past limit now} h := by
    simp only [ask]
    split <;> exact List.forall_mem_singleton.2 h
  isCutAt responder past limit now moment h := by
    generalize hd : now + (responder.reply past now call).delay = arrival
    cases limit with
    | none =>
      by_cases ha : moment < arrival
      · exact .inr (by simp [ask, earlier, hd, ha])
      · exact .inl (by simp [ask, earlier, hd, ha]; omega)
    | some limit =>
      by_cases ha : min moment limit < arrival
      · by_cases hl : limit ≤ moment
        · have : limit < arrival := by omega
          exact .inl (by simp [ask, earlier, hd, this, hl])
        · have : moment < arrival := by omega
          refine .inr ?_
          by_cases hla : limit < arrival <;> simp [ask, earlier, hd, ha, hla] <;> omega
      · have : ¬ limit < arrival := by omega
        exact .inl (by simp [ask, earlier, hd, ha, this]; omega)

/-- A session after another one is punctual: it goes on only if that one has ended by then. -/
theorem Punctual.bind {s : Session α} {f : α → Session β} (hs : s.Punctual)
    (hf : ∀ a, (f a).Punctual) : (s.bind f).Punctual where
  time_eq {responder past limit now} h := by
    cases hr : (s responder past (some limit) now).result with
    | error i =>
      rw [result_bind_of_error hr] at h
      cases h
      rw [bind_of_error hr]
      exact hs.time_eq hr
    | ok a =>
      rw [bind_of_ok hr] at h ⊢
      exact (hf a).time_eq h
  event_le {responder past limit now} h := by
    cases hr : (s responder past (some limit) now).result with
    | error i =>
      rw [bind_of_error hr]
      exact hs.event_le h
    | ok a =>
      rw [bind_of_ok hr]
      exact List.forall_mem_append.2 ⟨hs.event_le h, (hf a).event_le (hs.time_le h)⟩
  isCutAt responder past limit now moment h := by
    rcases hs.isCutAt responder past limit h with ⟨heq, htime⟩ | ⟨hnone, htime, htrace⟩
    · cases hr : (s responder past limit now).result with
      | error i =>
        rw [bind_of_error hr, bind_of_error (heq ▸ hr), heq]
        exact .inl ⟨rfl, htime⟩
      | ok a =>
        rw [bind_of_ok hr, bind_of_ok (heq ▸ hr), heq]
        rcases (hf a).isCutAt responder (past ++ (s responder past limit now).trace) limit
          htime with ⟨heq', htime'⟩ | ⟨hnone', htime', htrace'⟩
        · rw [heq']
          exact .inl ⟨rfl, htime'⟩
        · exact .inr ⟨hnone', htime', (List.prefix_append_right_inj _).2 htrace'⟩
    · rw [bind_of_error hnone]
      exact .inr ⟨rfl, htime, htrace.trans prefix_trace_bind⟩

/-- A session that is given up after some time does what it does under the earlier of that moment
and the limit. -/
theorem timeout_trace (duration : Nat) (s : Session α) (responder : Responder) (past : Trace)
    (limit : Option Nat) (now : Nat) :
    (timeout duration s responder past limit now).trace =
      (s responder past (some (earlier (now + duration) limit)) now).trace := rfl

theorem timeout_time (duration : Nat) (s : Session α) (responder : Responder) (past : Trace)
    (limit : Option Nat) (now : Nat) :
    (timeout duration s responder past limit now).time =
      (s responder past (some (earlier (now + duration) limit)) now).time := rfl

/-- Without a limit, a session that is given up after some time comes to what it comes to until
then. -/
theorem timeout_result (duration : Nat) (s : Session α) (responder : Responder) (past : Trace)
    (now : Nat) :
    (timeout duration s responder past none now).result =
      awaited true (s responder past (some (now + duration)) now).result := by
  simp only [timeout, earlier_none, Nat.le_refl, decide_true]

/-- A session that is given up after some time is cut off only if the limit comes earlier. -/
theorem timeout_result_eq_cutOff {duration : Nat} {s : Session α} {responder : Responder}
    {past : Trace} {limit : Option Nat} {now : Nat} :
    (timeout duration s responder past limit now).result = .error .cutOff ↔
      (s responder past (some (earlier (now + duration) limit)) now).result = .error .cutOff ∧
        earlier (now + duration) limit < now + duration := by
  rw [← Nat.not_le, ← decide_eq_false_iff_not]
  exact awaited_eq_cutOff_iff

/-- A session that is given up after some time ends in the same way under an earlier limit if what
is given up does, by that limit. -/
private theorem timeout_eq_of_eq {s : Session α} (hs : s.Punctual) {duration : Nat}
    {responder : Responder} {past : Trace} {limit : Option Nat} {now moment : Nat}
    (heq : s responder past (some (earlier (now + duration) (some (earlier moment limit)))) now =
      s responder past (some (earlier (now + duration) limit)) now)
    (htime : (s responder past (some (earlier (now + duration) limit)) now).time ≤ moment) :
    timeout duration s responder past (some (earlier moment limit)) now =
      timeout duration s responder past limit now := by
  simp only [timeout, heq]
  cases hr : (s responder past (some (earlier (now + duration) limit)) now).result with
  | ok a => rfl
  | error i => cases i with
  | aborted => rfl
  | cutOff =>
    -- both are given up at the same moment, so the limit is the earlier one in both or in neither
    rw [hs.time_eq hr] at htime
    have hiff : now + duration ≤ earlier (now + duration) (some (earlier moment limit)) ↔
        now + duration ≤ earlier (now + duration) limit := by
      cases limit <;> simp only [earlier_none, earlier_some] at htime ⊢ <;> omega
    simp only [hiff]

/-- A session that is given up after some time is punctual. -/
theorem Punctual.timeout {s : Session α} (hs : s.Punctual) (duration : Nat) :
    (timeout duration s).Punctual where
  time_eq {responder past limit now} h := by
    obtain ⟨hnone, hlt⟩ := timeout_result_eq_cutOff.1 h
    rw [timeout_time, hs.time_eq hnone]
    simp only [earlier_some] at hlt ⊢
    omega
  event_le {responder past limit now} h := by
    rw [timeout_trace]
    intro e he
    have hle := hs.event_le (by simp only [earlier_some]; omega) e he
    simp only [earlier_some] at hle
    omega
  isCutAt responder past limit now moment h := by
    rcases hs.isCutAt responder past (some (earlier (now + duration) limit)) h with
      ⟨heq, htime⟩ | ⟨hnone, htime, htrace⟩
    · rw [earlier_earlier] at heq
      exact .inl ⟨timeout_eq_of_eq hs heq htime, by rwa [timeout_time]⟩
    · have hlimit := (hs.time_eq hnone).symm.trans htime
      by_cases hm : now + duration ≤ moment
      · -- the session is given up just when it would be cut off
        have hsame : earlier moment (some (earlier (now + duration) limit)) =
            earlier (now + duration) limit := by
          simp only [earlier_some] at hlimit ⊢
          have := earlier_le (now + duration) limit
          omega
        rw [hsame] at htime
        have heq : s responder past
            (some (earlier (now + duration) (some (earlier moment limit)))) now =
            s responder past (some (earlier (now + duration) limit)) now := by
          rw [earlier_earlier, hsame]
        exact .inl ⟨timeout_eq_of_eq hs heq (Nat.le_of_eq htime), by
          rw [timeout_time]
          exact Nat.le_of_eq htime⟩
      · rw [earlier_earlier] at hnone htime htrace hlimit
        refine .inr ⟨timeout_result_eq_cutOff.2 ⟨hnone, by omega⟩, ?_, ?_⟩
        · rwa [timeout_time]
        · rwa [timeout_trace, timeout_trace]

theorem Plain.punctual {s : Session α} (hs : s.Plain) : s.Punctual := by
  induction hs with
  | pure a => exact punctual_pure a
  | ask call => exact punctual_ask call
  | trace event => exact punctual_trace event
  | bind _ _ ihs ihf => exact ihs.bind ihf

end Session

/-! ### Deadlines -/

namespace Session

/-- A session that is given up at a deadline is the same as one that is not, or it is given up at
that moment, or at once if the deadline has passed. -/
theorem Punctual.within_cases {s : Session α} (hs : s.Punctual) {responder : Responder}
    {past : Trace} {now : Nat} (deadline : Nat)
    (hfree : (s responder past none now).result ≠ .error .cutOff) :
    ((s responder past none now).time ≤ deadline ∧
      within (some deadline) s responder past none now = within none s responder past none now) ∨
      ∃ trace, within (some deadline) s responder past none now =
          ⟨.ok none, max deadline now, trace⟩ ∧
        trace <+: (s responder past none now).trace := by
  by_cases hpassed : deadline ≤ now
  · exact .inr ⟨[], by simp [within, hpassed], List.nil_prefix⟩
  · rcases hs.isCutAt responder past none (Nat.le_of_not_le hpassed) with
      ⟨heq, htime⟩ | ⟨hnone, htime, htrace⟩
    · rw [earlier_none] at heq
      refine .inl ⟨htime, ?_⟩
      simp only [within, if_neg hpassed, earlier_none, heq, awaited_of_ne_cutOff hfree]
    · rw [earlier_none] at hnone htime htrace
      refine .inr ⟨_, ?_, htrace⟩
      simp [within, hpassed, hnone, awaited, htime, Nat.le_of_not_le hpassed]

end Session

/-! ### The moment of the limit -/

@[simp] theorem Cluster.responder_reply (cluster : Cluster) (past : Trace) (now : Nat)
    (call : Call) : cluster.responder.reply past now call = cluster.reply call := rfl

/-- No question of a trace is replied to at a moment. -/
def Cluster.Avoids (cluster : Cluster) (moment : Nat) (trace : Trace) : Prop :=
  ∀ t call, (t, .asked call) ∈ trace → t + (cluster.reply call).delay ≠ moment

theorem Cluster.Avoids.mono {cluster : Cluster} {moment : Nat} {trace trace' : Trace}
    (h : cluster.Avoids moment trace) (hsub : trace' ⊆ trace) : cluster.Avoids moment trace' :=
  fun t call hmem => h t call (hsub hmem)

namespace Session

/-- A session that does nothing at the limit, unless a reply arrives just then. -/
def Timely (s : Session α) : Prop :=
  ∀ ⦃cluster : Cluster⦄ ⦃past limit now⦄, now < limit →
    cluster.Avoids limit (s cluster.responder past (some limit) now).trace →
      ∀ e ∈ (s cluster.responder past (some limit) now).trace, e.1 < limit

/-- A session that does nothing at the limit and does not end at it, unless a reply arrives just
then. -/
structure Prompt (s : Session α) : Prop where
  /-- Nothing is done at the limit. -/
  timely : s.Timely
  /-- The session ends before the limit, if it ends. -/
  time_lt : ∀ {cluster : Cluster} {past limit now}, now < limit →
    cluster.Avoids limit (s cluster.responder past (some limit) now).trace →
      ∀ {a}, (s cluster.responder past (some limit) now).result = .ok a →
        (s cluster.responder past (some limit) now).time < limit

theorem prompt_pure (a : α) : (pure a).Prompt where
  timely _ _ _ _ _ _ := List.forall_mem_nil _
  time_lt h _ _ _ := h

theorem prompt_trace (event : Event) : (trace event).Prompt where
  timely _ _ _ _ h _ := List.forall_mem_singleton.2 h
  time_lt h _ _ _ := h

theorem prompt_abort : (abort : Session α).Prompt where
  timely _ _ _ _ _ _ := List.forall_mem_nil _
  time_lt _ _ _ h := nomatch h

theorem prompt_never : (never : Session α).Prompt where
  timely _ _ _ _ _ _ := List.forall_mem_nil _
  time_lt _ _ _ h := nomatch h

theorem prompt_ask (call : Call) : (ask call).Prompt where
  timely cluster past limit now h _ := by
    simp only [ask]
    split <;> exact List.forall_mem_singleton.2 h
  time_lt {cluster past limit now} _ havoids {a} ha := by
    by_cases hlate : limit < now + (cluster.reply call).delay
    · simp [ask, hlate] at ha
    · have hne := havoids now call (by simp [ask, hlate])
      have htime : (ask call cluster.responder past (some limit) now).time =
          now + (cluster.reply call).delay := by simp [ask, hlate]
      omega

/-- Nothing is done at the limit by a session after another one that ends before it. -/
theorem Timely.bind {s : Session α} {f : α → Session β} (hs : s.Prompt)
    (hf : ∀ a, (f a).Timely) : (s.bind f).Timely := by
  intro cluster past limit now h havoids
  cases hr : (s cluster.responder past (some limit) now).result with
  | error i =>
    rw [bind_of_error hr] at havoids ⊢
    exact hs.timely h havoids
  | ok a =>
    rw [bind_of_ok hr] at havoids ⊢
    have hfirst := havoids.mono (List.subset_append_left _ _)
    exact List.forall_mem_append.2 ⟨hs.timely h hfirst,
      hf a (hs.time_lt h hfirst hr) (havoids.mono (List.subset_append_right _ _))⟩

theorem Prompt.bind {s : Session α} {f : α → Session β} (hs : s.Prompt)
    (hf : ∀ a, (f a).Prompt) : (s.bind f).Prompt where
  timely := .bind hs fun a => (hf a).timely
  time_lt {cluster past limit now} h havoids b hb := by
    cases hr : (s cluster.responder past (some limit) now).result with
    | error i =>
      rw [bind_of_error hr] at hb
      cases hb
    | ok a =>
      rw [bind_of_ok hr] at havoids hb ⊢
      exact (hf a).time_lt (hs.time_lt h (havoids.mono (List.subset_append_left _ _)) hr)
        (havoids.mono (List.subset_append_right _ _)) hb

/-- Nothing is done at the limit by a session after which only its result is looked at. -/
theorem Timely.bind_pure {s : Session α} {f : α → Session β} (hs : s.Timely)
    (hf : ∀ a, ∃ b, f a = pure b) : (s.bind f).Timely := by
  intro cluster past limit now h havoids
  rw [trace_bind_of_pure hf] at havoids ⊢
  exact hs h havoids

/-- A session that is given up after some time does nothing at the limit: what is given up does
nothing then, or is given up before. -/
theorem Timely.timeout {s : Session α} (hs : s.Timely) (hp : s.Punctual) (duration : Nat) :
    (timeout duration s).Timely := by
  intro cluster past limit now h havoids
  rw [timeout_trace, earlier_some] at havoids ⊢
  by_cases hl : limit ≤ now + duration
  · rw [Nat.min_eq_right hl] at havoids ⊢
    exact hs h havoids
  · intro e he
    have hle := hp.event_le (by omega) e he
    omega

/-- A session that is given up at a deadline does nothing at that moment. -/
theorem Timely.within {s : Session α} (hs : s.Timely) {cluster : Cluster} {past : Trace}
    {now deadline : Nat} (havoids : cluster.Avoids deadline
      (within (some deadline) s cluster.responder past none now).trace) :
    ∀ e ∈ (within (some deadline) s cluster.responder past none now).trace, e.1 < deadline := by
  by_cases hpassed : deadline ≤ now
  · simp [Session.within, hpassed]
  · have htrace : (Session.within (some deadline) s cluster.responder past none now).trace =
        (s cluster.responder past (some deadline) now).trace := by
      simp only [Session.within, if_neg hpassed, earlier_none]
    rw [htrace] at havoids ⊢
    exact hs (Nat.lt_of_not_le hpassed) havoids

/-- A session made of questions and requests ends before the limit, if it ends. -/
theorem Plain.prompt {s : Session α} (hs : s.Plain) : s.Prompt := by
  induction hs with
  | pure a => exact prompt_pure a
  | ask call => exact prompt_ask call
  | trace event => exact prompt_trace event
  | bind _ _ ihs ihf => exact ihs.bind ihf

end Session

namespace Attempt

/-! ### Attempts under a limit -/

theorem punctual_run_bind {a : Attempt α} {f : α → Attempt β} (ha : a.run.Punctual)
    (hf : ∀ x, (f x).run.Punctual) : (a >>= f).run.Punctual := by
  rw [Session.run_bind]
  refine ha.bind fun r => ?_
  cases r with
  | ok x => exact hf x
  | error e => exact Session.punctual_pure _

theorem prompt_run_bind {a : Attempt α} {f : α → Attempt β} (ha : a.run.Prompt)
    (hf : ∀ x, (f x).run.Prompt) : (a >>= f).run.Prompt := by
  rw [Session.run_bind]
  refine ha.bind fun r => ?_
  cases r with
  | ok x => exact hf x
  | error e => exact Session.prompt_pure _

theorem timely_run_bind {a : Attempt α} {f : α → Attempt β} (ha : a.run.Prompt)
    (hf : ∀ x, (f x).run.Timely) : (a >>= f).run.Timely := by
  rw [Session.run_bind]
  refine .bind ha fun r => ?_
  cases r with
  | ok x => exact hf x
  | error e => exact (Session.prompt_pure _).timely

end Attempt

end EdgeHealth
