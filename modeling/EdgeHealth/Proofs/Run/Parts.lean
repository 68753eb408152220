import EdgeHealth.Proofs.Cluster.Limit
import EdgeHealth.Proofs.Run.Cancelled
import EdgeHealth.Run.Report

/-!
# Parts of a run with a deadline

A run with a deadline is compared part by part to the run without one. A part *agrees* with the same
part of the run without a deadline when it is equal to it, or equal up to a first check that was cut
off, after which all checks are left out. The latter may be so where the part without a deadline is
aborted. From the deadline on a part is *idle*: all of its checks are left out, and the cluster is
asked nothing. Both properties hold of parts one after another.

Two kinds of checks are left out: those that say that they were cut off, and those that say that a
kind is not served. The latter need no question, once it is known what the API serves.

## Main definitions

* `RunRequest.cancellations` : the checks that say that something planned was cut off.
* `Cluster.Discovers` : what an API serves became known before the deadline.
* `RunRequest.LeftOut` : a check that was left out for the deadline.
* `RunRequest.IsCutShort` : checks of which the last ones were left out.
* `RunRequest.Agrees`, `RunRequest.IsIdle` : a part of a run with a deadline.

## Main results

* `RunRequest.LeftOut.status_eq` : checks that were left out are skipped.
* `RunRequest.Agrees.append`, `RunRequest.IsIdle.append` : one part after another.
* `RunRequest.Agrees.forEach`, `RunRequest.IsIdle.forEach` : parts one after another.
-/

namespace EdgeHealth

variable {α β γ : Type}

/-- The kinds that an API serves became known by a deadline: the question was put, and the reply
came by then. -/
def Cluster.Discovers (cluster : Cluster) (deadline : Nat) (trace : Trace) (s : Service)
    (resources : List ApiResource) : Prop :=
  (cluster.reply (.listApiResources s.api)).answer = .ok resources ∧
    ∃ t, (t, .asked (.listApiResources s.api)) ∈ trace ∧
      t + (cluster.reply (.listApiResources s.api)).delay ≤ deadline

theorem Cluster.Discovers.mono {cluster : Cluster} {deadline : Nat} {trace trace' : Trace}
    {s : Service} {resources : List ApiResource}
    (h : cluster.Discovers deadline trace s resources) (hsub : trace ⊆ trace') :
    cluster.Discovers deadline trace' s resources :=
  ⟨h.1, h.2.imp fun _ ht => ht.imp_left fun hmem => hsub hmem⟩

namespace RunRequest

/-- The checks that say that something planned was cut off. -/
def cancellations (q : RunRequest) (context : RunContext) : List Check :=
  (q.plansBefore context).map Planned.cancelled ++
    q.selectedServices.flatMap (q.undiscovered context)

/-- A check that was left out for the deadline, given what the run has done: it says that it was cut
off, or that a kind is not served by an API that had been discovered. -/
inductive LeftOut (q : RunRequest) (context : RunContext) (cluster : Cluster) (deadline : Nat)
    (trace : Trace) : Check → Prop
  | cancelled {c : Check} (h : c ∈ q.cancellations context) :
    LeftOut q context cluster deadline trace c
  | absent {s : Service} {k : Kind} {resources : List ApiResource}
    (hservice : s ∈ q.selectedServices) (hkind : k ∈ q.selectedKinds s)
    (hdiscovers : cluster.Discovers deadline trace s resources)
    (hserved : k ∉ Discovery.served s resources) :
    LeftOut q context cluster deadline trace (Discovery.absentKind q.withDisplays k)

variable {q : RunRequest} {context : RunContext} {cluster : Cluster} {deadline : Nat}

/-- Every cancellation says that it is one. -/
theorem exists_eq_cancelled_of_mem_cancellations {c : Check} (h : c ∈ q.cancellations context) :
    ∃ name description target, c = .cancelled name description target := by
  rcases List.mem_append.1 h with h | h
  · obtain ⟨p, _, rfl⟩ := List.mem_map.1 h
    exact ⟨_, _, _, rfl⟩
  · obtain ⟨s, _, h⟩ := List.mem_flatMap.1 h
    rcases List.mem_cons.1 h with rfl | h
    · exact ⟨_, _, _, rfl⟩
    · obtain ⟨p, _, rfl⟩ := List.mem_map.1 h
      exact ⟨_, _, _, rfl⟩

/-- A check that was left out is a skipped one. -/
theorem LeftOut.status_eq {trace : Trace} {c : Check}
    (h : q.LeftOut context cluster deadline trace c) : c.status = .skipped := by
  cases h with
  | cancelled h =>
    obtain ⟨_, _, _, rfl⟩ := exists_eq_cancelled_of_mem_cancellations h
    rfl
  | absent => exact Discovery.status_absentKind _ _

variable (q context cluster deadline) in
/-- A list of checks of which the first ones were kept. The check after them was cut off, and all
others were left out. -/
def IsCutShort (trace : Trace) (kept given : List Check) : Prop :=
  (∀ c ∈ kept, c.isCancelled = false) ∧
    ∃ c rest, given = kept ++ c :: rest ∧ c.isCancelled ∧
      ∀ x ∈ c :: rest, q.LeftOut context cluster deadline trace x

namespace IsCutShort

variable {trace : Trace} {kept given : List Check}

theorem append_left (h : q.IsCutShort context cluster deadline trace kept given)
    {start : List Check} (hstart : ∀ c ∈ start, c.isCancelled = false) :
    q.IsCutShort context cluster deadline trace (start ++ kept) (start ++ given) := by
  obtain ⟨hkept, c, rest, rfl, hc, hrest⟩ := h
  exact ⟨List.forall_mem_append.2 ⟨hstart, hkept⟩, c, rest, (List.append_assoc _ _ _).symm, hc,
    hrest⟩

theorem append_right (h : q.IsCutShort context cluster deadline trace kept given)
    {late : List Check} (hlate : ∀ x ∈ late, q.LeftOut context cluster deadline trace x) :
    q.IsCutShort context cluster deadline trace kept (given ++ late) := by
  obtain ⟨hkept, c, rest, rfl, hc, hrest⟩ := h
  refine ⟨hkept, c, rest ++ late, by simp, hc, ?_⟩
  rw [← List.cons_append]
  exact List.forall_mem_append.2 ⟨hrest, hlate⟩

/-- A list of checks of which all were left out, the first one because it was cut off. -/
theorem of_leftOut {c : Check} {rest : List Check} (hc : c.isCancelled)
    (h : ∀ x ∈ c :: rest, q.LeftOut context cluster deadline trace x) :
    q.IsCutShort context cluster deadline trace [] (c :: rest) :=
  ⟨List.forall_mem_nil _, c, rest, rfl, hc, h⟩

/-- The checks that were kept are those before the first one that was cut off, and the rest was left
out. -/
theorem at_findIdx (h : q.IsCutShort context cluster deadline trace kept given) :
    given.findIdx Check.isCancelled = kept.length ∧ kept.length < given.length ∧
      given.take kept.length = kept ∧
      ∀ c ∈ given.drop kept.length, q.LeftOut context cluster deadline trace c := by
  obtain ⟨hkept, c, rest, rfl, hc, hrest⟩ := h
  refine ⟨?_, by simp, List.take_left, ?_⟩
  · rw [List.findIdx_append, List.findIdx_eq_length.2 hkept, if_neg (Nat.lt_irrefl _),
      List.findIdx_cons, hc]
    exact Nat.zero_add _
  · rwa [List.drop_left]

end IsCutShort

/-! ### Parts of a run -/

variable (q context cluster deadline) in
/-- A part of a run with a deadline, with a view of the checks in its result, agrees with the same
part of a run without one, where something is known of what the run has done before. -/
structure Agrees (known : Trace → Prop) (checks : α → List Check) (free bound : Session α) :
    Prop where
  /-- Without a deadline no check was cut off. -/
  isCancelled_eq : ∀ {past now a}, (free cluster.responder past none now).result = .ok a →
    ∀ c ∈ checks a, c.isCancelled = false
  /-- With the deadline the part is the same, or it is cut short. -/
  agree : ∀ past now, known past →
    bound cluster.responder past none now = free cluster.responder past none now ∨
      ∃ b kept, (bound cluster.responder past none now).result = .ok b ∧
        deadline ≤ (bound cluster.responder past none now).time ∧
        (bound cluster.responder past none now).trace <+:
          (free cluster.responder past none now).trace ∧
        q.IsCutShort context cluster deadline
          (past ++ (bound cluster.responder past none now).trace) kept (checks b) ∧
        ∀ a, (free cluster.responder past none now).result = .ok a → kept <+: checks a
  /-- With the deadline nothing is done at it, unless a reply arrives just then. -/
  timely : ∀ {past now},
    cluster.Avoids deadline (bound cluster.responder past none now).trace →
      ∀ e ∈ (bound cluster.responder past none now).trace, e.1 < deadline

variable (q context cluster deadline) in
/-- A part of a run with a deadline does nothing from the deadline on, and all of its checks are
left out. -/
def IsIdle (known : Trace → Prop) (checks : α → List Check) (bound : Session α) : Prop :=
  ∀ ⦃past now⦄, known past → deadline ≤ now →
    ∃ b, bound cluster.responder past none now = ⟨.ok b, now, []⟩ ∧
      ∀ c ∈ checks b, q.LeftOut context cluster deadline past c

variable {known : Trace → Prop} {checksA : α → List Check} {checksB : β → List Check}
  {checks : γ → List Check}

/-- A part without a check that was cut off, and without a question, agrees. -/
theorem agrees_pure {a : α} (h : ∀ c ∈ checksA a, c.isCancelled = false) :
    q.Agrees context cluster deadline known checksA (Session.pure a) (Session.pure a) where
  isCancelled_eq ha := Except.ok.inj ha ▸ h
  agree _ _ _ := .inl rfl
  timely _ := List.forall_mem_nil _

theorem isIdle_pure {a : α}
    (h : ∀ past, known past → ∀ c ∈ checksA a, q.LeftOut context cluster deadline past c) :
    q.IsIdle context cluster deadline known checksA (Session.pure a) :=
  fun past _ hpast _ => ⟨a, rfl, h past hpast⟩

/-- One part after another agrees with the same parts without a deadline, if the second one is idle
from the deadline on. Other checks may stand in front. -/
theorem Agrees.append {free bound : Session α} {free' bound' : Session β} {f : α → β → γ}
    (start : List Check) (hstart : ∀ c ∈ start, c.isCancelled = false)
    (h : q.Agrees context cluster deadline known checksA free bound)
    (h' : q.Agrees context cluster deadline known checksB free' bound')
    (hidle : q.IsIdle context cluster deadline known checksB bound')
    (hknown : ∀ past trace, known past → known (past ++ trace))
    (hchecks : ∀ a b, checks (f a b) = start ++ (checksA a ++ checksB b)) :
    q.Agrees context cluster deadline known checks
      (free.bind fun a => free'.bind fun b => Session.pure (f a b))
      (bound.bind fun a => bound'.bind fun b => Session.pure (f a b)) where
  isCancelled_eq hresult := by
    obtain ⟨a, b, ha, hb, rfl⟩ := Session.exists_of_bind_bind_pure hresult
    rw [hchecks]
    exact List.forall_mem_append.2 ⟨hstart,
      List.forall_mem_append.2 ⟨h.isCancelled_eq ha, h'.isCancelled_eq hb⟩⟩
  agree past now hpast := by
    rcases h.agree past now hpast with heq | ⟨a', kept, ha', htime, htrace, hcut, hstarts⟩
    · cases ha : (free cluster.responder past none now).result with
      | error i =>
        left
        rw [Session.bind_of_error ha, Session.bind_of_error (heq ▸ ha), heq]
      | ok a =>
        -- the first part is the same, so that the second one starts at the same moment
        have hpast' := hknown past (free cluster.responder past none now).trace hpast
        rcases h'.agree _ (free cluster.responder past none now).time hpast' with
          heq' | ⟨b', kept, hb', htime, htrace, hcut, hstarts⟩
        · left
          simp only [Session.bind, heq, ha, heq']
        · right
          have hbound := Session.bind_bind_pure_of_ok (g := f) (heq ▸ ha) (heq.symm ▸ hb')
          rw [hbound, Session.bind_of_ok ha, heq]
          refine ⟨_, start ++ (checksA a ++ kept), rfl, htime, (List.prefix_append_right_inj _).2
            (htrace.trans Session.prefix_trace_bind), ?_, fun c hc => ?_⟩
          · rw [hchecks, ← List.append_assoc past]
            exact (hcut.append_left (h.isCancelled_eq ha)).append_left hstart
          · obtain ⟨b, hb, hc⟩ := Session.exists_of_bind hc
            obtain rfl : f a b = c := Except.ok.inj hc
            rw [hchecks]
            exact (List.prefix_append_right_inj _).2 ((List.prefix_append_right_inj _).2
              (hstarts b hb))
    · -- the first part is cut short, so that the second one is idle
      obtain ⟨b', hrun, hleft⟩ := hidle
        (hknown past (bound cluster.responder past none now).trace hpast) htime
      right
      rw [Session.bind_bind_pure_of_ok ha' (by rw [hrun]), hrun, List.append_nil]
      refine ⟨_, start ++ kept, rfl, htime, htrace.trans Session.prefix_trace_bind, ?_,
        fun c hc => ?_⟩
      · rw [hchecks]
        exact (hcut.append_right hleft).append_left hstart
      · obtain ⟨a, b, ha, -, rfl⟩ := Session.exists_of_bind_bind_pure hc
        rw [hchecks]
        exact (List.prefix_append_right_inj _).2 ((hstarts a ha).trans (List.prefix_append _ _))
  timely {past now} := by
    intro havoids
    cases hr : (bound cluster.responder past none now).result with
    | error i =>
      rw [Session.bind_of_error hr] at havoids ⊢
      exact h.timely havoids
    | ok a =>
      rw [Session.bind_of_ok hr, Session.trace_bind_of_pure fun _ => ⟨_, rfl⟩] at havoids ⊢
      exact List.forall_mem_append.2 ⟨h.timely (havoids.mono (List.subset_append_left _ _)),
        h'.timely (havoids.mono (List.subset_append_right _ _))⟩

theorem IsIdle.append {bound : Session α} {bound' : Session β} {f : α → β → γ}
    (h : q.IsIdle context cluster deadline known checksA bound)
    (h' : q.IsIdle context cluster deadline known checksB bound')
    (hchecks : ∀ a b, checks (f a b) = checksA a ++ checksB b) :
    q.IsIdle context cluster deadline known checks
      (bound.bind fun a => bound'.bind fun b => Session.pure (f a b)) := by
  intro past now hpast hnow
  obtain ⟨a, ha, hleft⟩ := h hpast hnow
  obtain ⟨b, hb, hleft'⟩ := h' hpast hnow
  refine ⟨f a b, ?_, ?_⟩
  · rw [Session.bind_bind_pure_of_ok (a := a) (b := b) (by rw [ha]) (by simp [ha, hb])]
    simp [ha, hb]
  · rw [hchecks]
    exact List.forall_mem_append.2 ⟨hleft, hleft'⟩

/-- Another view of the checks of a part, after which nothing is done. -/
theorem Agrees.map {free bound : Session α} {f : α → β}
    (h : q.Agrees context cluster deadline known checksA free bound)
    (hchecks : ∀ a, checksB (f a) = checksA a) :
    q.Agrees context cluster deadline known checksB (free.bind fun a => Session.pure (f a))
      (bound.bind fun a => Session.pure (f a)) where
  isCancelled_eq hresult := by
    obtain ⟨a, ha, hb⟩ := Session.exists_of_bind hresult
    rw [← Except.ok.inj hb, hchecks]
    exact h.isCancelled_eq ha
  agree past now hpast := by
    rcases h.agree past now hpast with heq | ⟨a', kept, ha', htime, htrace, hcut, hstarts⟩
    · left
      simp only [Session.bind, heq]
    · right
      rw [Session.bind_pure_of_ok ha', Session.trace_bind_of_pure fun _ => ⟨_, rfl⟩]
      refine ⟨_, kept, rfl, htime, htrace, by rwa [hchecks], fun b hb => ?_⟩
      obtain ⟨a, ha, hb⟩ := Session.exists_of_bind hb
      rw [← Except.ok.inj hb, hchecks]
      exact hstarts a ha
  timely := by
    intro past now havoids
    rw [Session.trace_bind_of_pure fun _ => ⟨_, rfl⟩] at havoids ⊢
    exact h.timely havoids

theorem IsIdle.map {bound : Session α} {f : α → β}
    (h : q.IsIdle context cluster deadline known checksA bound)
    (hchecks : ∀ a, checksB (f a) = checksA a) :
    q.IsIdle context cluster deadline known checksB (bound.bind fun a => Session.pure (f a)) := by
  intro past now hpast hnow
  obtain ⟨a, ha, hleft⟩ := h hpast hnow
  refine ⟨f a, ?_, by rwa [hchecks]⟩
  rw [Session.bind_pure_of_ok (a := a) (by rw [ha]), ha]

theorem IsIdle.forEach (checksB : β → List Check) {bound : α → Session β} : (l : List α) →
    (∀ a ∈ l, q.IsIdle context cluster deadline known checksB (bound a)) →
      q.IsIdle context cluster deadline known (fun bs => bs.flatMap checksB)
        (Session.forEach bound l)
  | [], _ => isIdle_pure fun _ _ => List.forall_mem_nil _
  | a :: l, h => (h a List.mem_cons_self).append
      (IsIdle.forEach checksB l fun a ha => h a (List.mem_cons_of_mem _ ha)) fun _ _ => rfl

/-- Parts one after another agree with the same parts without a deadline, if all of them do and are
idle from the deadline on. -/
theorem Agrees.forEach (checksB : β → List Check) {free bound : α → Session β}
    (hknown : ∀ past trace, known past → known (past ++ trace)) : (l : List α) →
    (∀ a ∈ l, q.Agrees context cluster deadline known checksB (free a) (bound a)) →
    (∀ a ∈ l, q.IsIdle context cluster deadline known checksB (bound a)) →
      q.Agrees context cluster deadline known (fun bs => bs.flatMap checksB)
        (Session.forEach free l) (Session.forEach bound l)
  | [], _, _ => agrees_pure (List.forall_mem_nil _)
  | a :: l, h, hidle =>
    .append [] (List.forall_mem_nil _) (h a List.mem_cons_self)
      (Agrees.forEach checksB hknown l (fun a ha => h a (List.mem_cons_of_mem _ ha))
        fun a ha => hidle a (List.mem_cons_of_mem _ ha))
      (IsIdle.forEach checksB l fun a ha => hidle a (List.mem_cons_of_mem _ ha))
      hknown fun _ _ => rfl

/-- After a question that was answered in time, a part goes on with the answer. -/
private theorem bind_within_ask {call : Call} (limit : Option Nat) {past : Trace} {now : Nat}
    {f : Option (Except ClusterError call.Answer) → Session α}
    (h : Session.within limit (Session.ask call) cluster.responder past none now =
      ⟨.ok (some (cluster.reply call).answer), now + (cluster.reply call).delay,
        [(now, .asked call)]⟩) :
    (Session.within limit (Session.ask call)).bind f cluster.responder past none now =
      (fun rest => ⟨rest.result, rest.time, [(now, .asked call)] ++ rest.trace⟩)
        (f (some (cluster.reply call).answer) cluster.responder (past ++ [(now, .asked call)]) none
          (now + (cluster.reply call).delay)) := by
  simp only [Session.bind, h]

/-- A question under a deadline is answered in time, or there is no answer. -/
private theorem within_ask_cases (deadline : Nat) (call : Call) (past : Trace) (now : Nat) :
    (now + (cluster.reply call).delay ≤ deadline ∧
      Session.within (some deadline) (Session.ask call) cluster.responder past none now =
        ⟨.ok (some (cluster.reply call).answer), now + (cluster.reply call).delay,
          [(now, .asked call)]⟩) ∨
      ∃ trace, Session.within (some deadline) (Session.ask call) cluster.responder past none now =
          ⟨.ok none, max deadline now, trace⟩ ∧
        trace <+: [(now, .asked call)] := by
  have hfree : (Session.ask call cluster.responder past none now).result ≠ .error .cutOff := nofun
  exact (Session.Plain.ask call).punctual.within_cases deadline hfree

/-- A part that depends on a question agrees with the same part without a deadline, if what follows
the answer does. When there is no answer by the deadline, all checks of the part are left out. -/
theorem Agrees.within_ask {call : Call}
    {free bound : Option (Except ClusterError call.Answer) → Session α} {a : α} {c : Check}
    {rest : List Check}
    (h : q.Agrees context cluster deadline
      (fun past => ∃ t, (t, .asked call) ∈ past ∧ t + (cluster.reply call).delay ≤ deadline)
      checksA (free (some (cluster.reply call).answer)) (bound (some (cluster.reply call).answer)))
    (hnone : bound none = Session.pure a) (hchecks : checksA a = c :: rest) (hc : c.isCancelled)
    (hleft : ∀ trace, ∀ x ∈ c :: rest, q.LeftOut context cluster deadline trace x) :
    q.Agrees context cluster deadline known checksA
      ((Session.within none (Session.ask call)).bind free)
      ((Session.within (some deadline) (Session.ask call)).bind bound) where
  isCancelled_eq hresult := by
    rw [bind_within_ask none rfl] at hresult
    exact h.isCancelled_eq hresult
  agree past now _ := by
    rw [bind_within_ask none rfl]
    rcases within_ask_cases deadline call past now with ⟨htime, heq⟩ | ⟨trace, heq, htrace⟩
    · -- the reply arrives in time, and the rest of the part starts at the same moment
      rw [bind_within_ask (some deadline) heq]
      rcases h.agree _ (now + (cluster.reply call).delay)
        ⟨now, List.mem_append_right past (List.mem_singleton.2 rfl), htime⟩ with
        heq' | ⟨b, kept, hb, htime', htrace', hcut, hstarts⟩
      · exact .inl (by rw [heq'])
      · refine .inr ⟨b, kept, hb, htime', (List.prefix_append_right_inj _).2 htrace', ?_, hstarts⟩
        rwa [← List.append_assoc]
    · -- the deadline passes before
      rw [Session.bind_of_ok (a := none) (by rw [heq]), heq, hnone]
      refine .inr ⟨a, [], rfl, Nat.le_max_left _ _, ?_, ?_, fun _ _ => List.nil_prefix⟩
      · simpa [Session.pure] using htrace.trans (List.prefix_append _ _)
      · rw [hchecks]
        exact .of_leftOut hc (hleft _)
  timely := by
    intro past now havoids
    have htimely (h : cluster.Avoids deadline (Session.within (some deadline) (Session.ask call)
        cluster.responder past none now).trace) :=
      (Session.Plain.ask call).prompt.timely.within h
    rcases within_ask_cases deadline call past now with ⟨_, heq⟩ | ⟨trace, heq, _⟩
    · rw [bind_within_ask (some deadline) heq] at havoids ⊢
      rw [heq] at htimely
      exact List.forall_mem_append.2 ⟨htimely (havoids.mono (List.subset_append_left _ _)),
        h.timely (havoids.mono (List.subset_append_right _ _))⟩
    · rw [Session.bind_of_ok (a := none) (by rw [heq]), hnone] at havoids ⊢
      exact List.forall_mem_append.2 ⟨htimely (havoids.mono (List.subset_append_left _ _)),
        List.forall_mem_nil _⟩

/-- A part that depends on a question is idle, if all of its checks are left out without an
answer. -/
theorem IsIdle.within_ask {call : Call}
    {bound : Option (Except ClusterError call.Answer) → Session α} {a : α}
    (hnone : bound none = Session.pure a)
    (hleft : ∀ trace, ∀ c ∈ checksA a, q.LeftOut context cluster deadline trace c) :
    q.IsIdle context cluster deadline known checksA
      ((Session.within (some deadline) (Session.ask call)).bind bound) := by
  intro past now _ hnow
  have hwithin : Session.within (some deadline) (Session.ask call) cluster.responder past none now =
      ⟨.ok none, now, []⟩ := by simp [Session.within, hnow]
  refine ⟨a, ?_, hleft past⟩
  rw [Session.bind_of_ok (a := none) (by rw [hwithin]), hwithin, hnone]
  rfl

end RunRequest

end EdgeHealth
