import EdgeHealth.Cluster.Session

/-!
# What sessions come to

A session is *plain* when it puts questions and sends requests one after another and does nothing
else: it waits for no longer than the replies take, and it is not aborted. A plain session without a
limit always ends with a result. Of other sessions it is told when they are aborted, given who
replies. What is known of every result of a session is a property that the session *ensures*; it is
known whoever replies, and whatever the replies are.

## Main definitions

* `Session.MayGive` : the results that a session may have.
* `Session.CompletesUnless` : a session ends with a result unless it has a limit or is aborted.
* `Session.Ensures`, `Attempt.Ensures` : what is known of every result.
* `Session.Plain`, `Attempt.Plain` : sessions made of questions and requests only.

## Main results

* `Session.CompletesUnless.cases` : how a session without a limit ends.
* `Session.Plain.completes` : a plain session ends with a result.
* `Session.Ensures.bind`, `Attempt.Ensures.bind` : what is known of a session after another one.
-/

namespace EdgeHealth

variable {α β : Type}

namespace Session

/-! ### One session after another -/

section Bind

variable {s : Session α} {f : α → Session β} {responder : Responder} {past : Trace}
  {limit : Option Nat} {now : Nat}

/-- After a session without a result there is no other one. -/
theorem bind_of_error {i : Interruption} (h : (s responder past limit now).result = .error i) :
    s.bind f responder past limit now =
      ⟨.error i, (s responder past limit now).time, (s responder past limit now).trace⟩ := by
  simp only [bind, h]

theorem result_bind_of_error {i : Interruption}
    (h : (s responder past limit now).result = .error i) :
    (s.bind f responder past limit now).result = .error i := by
  rw [bind_of_error h]

/-- A session after another one goes on from where that ended. -/
theorem bind_of_ok {a : α} (h : (s responder past limit now).result = .ok a) :
    s.bind f responder past limit now =
      ⟨(f a responder (past ++ (s responder past limit now).trace) limit
          (s responder past limit now).time).result,
        (f a responder (past ++ (s responder past limit now).trace) limit
          (s responder past limit now).time).time,
        (s responder past limit now).trace ++
          (f a responder (past ++ (s responder past limit now).trace) limit
            (s responder past limit now).time).trace⟩ := by
  simp only [bind, h]

/-- What a session does comes first, whatever is done after it. -/
theorem prefix_trace_bind : (s responder past limit now).trace <+:
    (s.bind f responder past limit now).trace := by
  cases h : (s responder past limit now).result with
  | error i => simp only [bind_of_error h, List.prefix_rfl]
  | ok a => simp only [bind_of_ok h, List.prefix_append]

/-- After a session of which only the result is looked at, nothing is done. -/
theorem trace_bind_of_pure (hf : ∀ a, ∃ b, f a = pure b) :
    (s.bind f responder past limit now).trace = (s responder past limit now).trace := by
  cases h : (s responder past limit now).result with
  | error i => rw [bind_of_error h]
  | ok a =>
    obtain ⟨b, hb⟩ := hf a
    rw [bind_of_ok h, hb]
    exact List.append_nil _

/-- A session of which the result is looked at. -/
theorem bind_pure_of_ok {g : α → β} {a : α}
    (ha : (s responder past limit now).result = .ok a) :
    s.bind (fun a => pure (g a)) responder past limit now =
      ⟨.ok (g a), (s responder past limit now).time, (s responder past limit now).trace⟩ := by
  simp only [bind, pure, ha, List.append_nil]

/-- Two sessions one after another, with a result made of theirs. -/
theorem bind_bind_pure_of_ok {γ : Type} {t : Session β} {g : α → β → γ} {a : α} {b : β}
    (ha : (s responder past limit now).result = .ok a)
    (hb : (t responder (past ++ (s responder past limit now).trace) limit
      (s responder past limit now).time).result = .ok b) :
    s.bind (fun a => t.bind fun b => pure (g a b)) responder past limit now =
      ⟨.ok (g a b),
        (t responder (past ++ (s responder past limit now).trace) limit
          (s responder past limit now).time).time,
        (s responder past limit now).trace ++
          (t responder (past ++ (s responder past limit now).trace) limit
            (s responder past limit now).time).trace⟩ := by
  simp only [bind, pure, ha, hb, List.append_nil]

/-- What a session after another one comes to, it comes to after a result of that. -/
theorem exists_of_bind {b : β} (h : (s.bind f responder past limit now).result = .ok b) :
    ∃ a, (s responder past limit now).result = .ok a ∧
      (f a responder (past ++ (s responder past limit now).trace) limit
        (s responder past limit now).time).result = .ok b := by
  cases hs : (s responder past limit now).result with
  | error i =>
    rw [result_bind_of_error hs] at h
    cases h
  | ok a =>
    rw [bind_of_ok hs] at h
    exact ⟨a, rfl, h⟩

/-- What two sessions one after another come to is made of a result of each. -/
theorem exists_of_bind_bind_pure {γ : Type} {t : Session β} {g : α → β → γ} {c : γ}
    (h : (s.bind (fun a => t.bind fun b => pure (g a b)) responder past limit now).result = .ok c) :
    ∃ a b, (s responder past limit now).result = .ok a ∧
      (t responder (past ++ (s responder past limit now).trace) limit
        (s responder past limit now).time).result = .ok b ∧ g a b = c := by
  obtain ⟨a, ha, h⟩ := exists_of_bind h
  obtain ⟨b, hb, h⟩ := exists_of_bind h
  exact ⟨a, b, ha, hb, Except.ok.inj h⟩

end Bind

/-! ### Sessions that come to an end -/

/-- A result that a session may have, given who replies. -/
def MayGive (responder : Responder) (s : Session α) (a : α) : Prop :=
  ∃ past limit now, (s responder past limit now).result = .ok a

/-- A session that ends with a result, given who replies, when it has no limit and is not aborted;
and it is aborted only if something is the case. -/
structure CompletesUnless (E : Prop) (responder : Responder) (s : Session α) : Prop where
  /-- Without a limit the session is not cut off. -/
  not_cutOff : ∀ past now, (s responder past none now).result ≠ .error .cutOff
  /-- The case in which the session may be aborted. -/
  of_aborted : ∀ {past limit now}, (s responder past limit now).result = .error .aborted → E

section Completes

variable {E : Prop} {responder : Responder} {s : Session α}

/-- Without a limit a session has a result or is aborted. -/
theorem CompletesUnless.cases (hs : s.CompletesUnless E responder) (past : Trace) (now : Nat) :
    (∃ a, (s responder past none now).result = .ok a) ∨
      ((s responder past none now).result = .error .aborted ∧ E) := by
  cases h : (s responder past none now).result with
  | ok a => exact .inl ⟨a, rfl⟩
  | error i => cases i with
    | cutOff => exact absurd h (hs.not_cutOff past now)
    | aborted => exact .inr ⟨rfl, hs.of_aborted h⟩

/-- A session that is aborted in no case has a result. -/
theorem CompletesUnless.exists_ok (hs : s.CompletesUnless False responder) (past : Trace)
    (now : Nat) : ∃ a, (s responder past none now).result = .ok a :=
  (hs.cases past now).resolve_right fun h => h.2

theorem CompletesUnless.mono {E' : Prop} (hs : s.CompletesUnless E responder) (hE : E → E') :
    s.CompletesUnless E' responder :=
  ⟨hs.not_cutOff, fun h => hE (hs.of_aborted h)⟩

theorem completes_pure (a : α) : (pure a).CompletesUnless E responder := ⟨nofun, nofun⟩

theorem completes_abort (h : E) : (abort : Session α).CompletesUnless E responder :=
  ⟨nofun, fun _ => h⟩

theorem completes_trace (event : Event) : (trace event).CompletesUnless E responder :=
  ⟨nofun, nofun⟩

/-- A question is not aborted. -/
theorem result_ask_ne_aborted (call : Call) (past : Trace) (limit : Option Nat) (now : Nat) :
    (ask call responder past limit now).result ≠ .error .aborted := by
  cases limit with
  | none => exact nofun
  | some moment =>
    simp only [ask]
    split <;> exact nofun

theorem completes_ask (call : Call) : (ask call).CompletesUnless E responder :=
  ⟨nofun, fun h => absurd h (result_ask_ne_aborted call _ _ _)⟩

/-- The result of a question is a reply to it. -/
theorem MayGive.exists_answer {call : Call} {answer : Except ClusterError call.Answer}
    (h : (ask call).MayGive responder answer) :
    ∃ past now, (responder.reply past now call).answer = answer := by
  obtain ⟨past, limit, now, h⟩ := h
  refine ⟨past, now, ?_⟩
  cases limit with
  | none => exact Except.ok.inj h
  | some moment =>
    simp only [ask] at h
    split at h
    · cases h
    · exact Except.ok.inj h

theorem CompletesUnless.bind {f : α → Session β} (hs : s.CompletesUnless E responder)
    (hf : ∀ a, s.MayGive responder a → (f a).CompletesUnless E responder) :
    (s.bind f).CompletesUnless E responder where
  not_cutOff past now := by
    cases h : (s responder past none now).result with
    | error i =>
      rw [result_bind_of_error h]
      rintro ⟨⟩
      exact hs.not_cutOff past now h
    | ok a =>
      rw [bind_of_ok h]
      exact (hf a ⟨_, _, _, h⟩).not_cutOff _ _
  of_aborted {past limit now} haborted := by
    cases h : (s responder past limit now).result with
    | error i =>
      rw [result_bind_of_error h] at haborted
      cases haborted
      exact hs.of_aborted h
    | ok a =>
      rw [bind_of_ok h] at haborted
      exact (hf a ⟨_, _, _, h⟩).of_aborted haborted

/-! Where a session is given up, it is aborted only if it was aborted before. -/

theorem awaited_eq_aborted_iff {atMoment : Bool} {r : Except Interruption α} :
    awaited atMoment r = .error .aborted ↔ r = .error .aborted := by
  cases r with
  | ok a => exact iff_of_false nofun nofun
  | error i => cases i <;> cases atMoment <;> simp [awaited]

theorem awaited_eq_cutOff_iff {atMoment : Bool} {r : Except Interruption α} :
    awaited atMoment r = .error .cutOff ↔ r = .error .cutOff ∧ atMoment = false := by
  cases r with
  | ok a => exact iff_of_false nofun nofun
  | error i => cases i <;> cases atMoment <;> simp [awaited]

theorem awaited_eq_some_iff {atMoment : Bool} {r : Except Interruption α} {a : α} :
    awaited atMoment r = .ok (some a) ↔ r = .ok a := by
  cases r with
  | ok b => simp [awaited]
  | error i => cases i <;> cases atMoment <;> simp [awaited]

/-- Those who wait for a session that is not cut off wait for its end. -/
theorem awaited_of_ne_cutOff {atMoment : Bool} {r : Except Interruption α}
    (h : r ≠ .error .cutOff) : awaited atMoment r = r.map some := by
  cases r with
  | ok a => rfl
  | error i => cases i with
    | cutOff => exact absurd rfl h
    | aborted => rfl

/-- Those who wait for a session that is not aborted, up to the moment at which it is cut off, go on
in any case. -/
theorem awaited_of_ne_aborted {r : Except Interruption α} (h : r ≠ .error .aborted) :
    awaited true r = .ok r.toOption := by
  cases r with
  | ok a => rfl
  | error i => cases i with
    | cutOff => rfl
    | aborted => exact absurd rfl h

theorem map_some_eq_iff {r r' : Except Interruption α} : r.map some = r'.map some ↔ r = r' := by
  cases r <;> cases r' <;> simp [Except.map]

/-- A session that is given up after some time comes to an end, even if it waits for ever. -/
theorem completes_timeout (duration : Nat)
    (hs : ∀ past limit now, (s responder past limit now).result ≠ .error .aborted) :
    (timeout duration s).CompletesUnless E responder where
  not_cutOff past now h := by simpa [earlier] using (awaited_eq_cutOff_iff.1 h).2
  of_aborted h := absurd (awaited_eq_aborted_iff.1 h) (hs _ _ _)

/-- A session that is given up at a deadline comes to an end. -/
theorem CompletesUnless.within (hs : s.CompletesUnless E responder) (deadline : Option Nat) :
    (Session.within deadline s).CompletesUnless E responder where
  not_cutOff past now := by
    cases deadline with
    | none => exact fun h => hs.not_cutOff past now (map_some_eq_iff.1 h)
    | some moment =>
      simp only [Session.within]
      split
      · exact nofun
      · exact fun h => by simpa [earlier] using (awaited_eq_cutOff_iff.1 h).2
  of_aborted {past limit now} h := by
    cases deadline with
    | none => exact hs.of_aborted (map_some_eq_iff.1 h)
    | some moment =>
      simp only [Session.within] at h
      split at h
      · cases h
      · exact hs.of_aborted (awaited_eq_aborted_iff.1 h)

theorem CompletesUnless.forEach {f : α → Session β} : (l : List α) →
    (∀ a ∈ l, (f a).CompletesUnless E responder) →
      (Session.forEach f l).CompletesUnless E responder
  | [], _ => completes_pure []
  | a :: l, h =>
    (h a List.mem_cons_self).bind fun b _ =>
      (CompletesUnless.forEach l fun a ha => h a (List.mem_cons_of_mem _ ha)).bind fun bs _ =>
        completes_pure (b :: bs)

end Completes

/-! ### What is known of every result -/

/-- A session whose results all have a property, whoever replies. -/
def Ensures (P : α → Prop) (s : Session α) : Prop :=
  ∀ ⦃responder past limit now a⦄, (s responder past limit now).result = .ok a → P a

theorem ensures_of_forall {P : α → Prop} (h : ∀ a, P a) (s : Session α) : s.Ensures P :=
  fun _ _ _ _ a _ => h a

theorem Ensures.mono {P Q : α → Prop} {s : Session α} (h : s.Ensures P) (hPQ : ∀ a, P a → Q a) :
    s.Ensures Q :=
  fun _ _ _ _ _ ha => hPQ _ (h ha)

theorem ensures_pure {P : α → Prop} {a : α} (h : P a) : (pure a).Ensures P := by
  intro _ _ _ _ b hb
  cases hb
  exact h

/-- What is known of a session after another one may rest on what is known of that. -/
theorem Ensures.bind {P : α → Prop} {Q : β → Prop} {s : Session α} {f : α → Session β}
    (hs : s.Ensures P) (hf : ∀ a, P a → (f a).Ensures Q) : (s.bind f).Ensures Q := by
  intro responder past limit now b hb
  cases h : (s responder past limit now).result with
  | error i =>
    rw [bind_of_error h] at hb
    cases hb
  | ok a =>
    rw [bind_of_ok h] at hb
    exact hf a (hs h) hb

theorem Ensures.within {P : α → Prop} {s : Session α} (hs : s.Ensures P)
    (deadline : Option Nat) :
    (Session.within deadline s).Ensures fun r => ∀ a, r = some a → P a := by
  rintro responder past limit now _ h a rfl
  cases deadline with
  | none =>
    have hmap : (s responder past limit now).result.map some = (Except.ok a).map some := h
    exact hs (map_some_eq_iff.1 hmap)
  | some moment =>
    simp only [Session.within] at h
    split at h
    · cases h
    · exact hs (awaited_eq_some_iff.1 h)

theorem Ensures.forEach {P : β → Prop} {f : α → Session β} : (l : List α) →
    (∀ a ∈ l, (f a).Ensures P) → (Session.forEach f l).Ensures fun bs => ∀ b ∈ bs, P b
  | [], _ => ensures_pure (by simp)
  | a :: l, h =>
    (h a List.mem_cons_self).bind fun b hb =>
      (Ensures.forEach l fun a ha => h a (List.mem_cons_of_mem _ ha)).bind fun bs hbs =>
        ensures_pure (List.forall_mem_cons.2 ⟨hb, hbs⟩)

/-! ### Sessions made of questions -/

/-- A session made of questions and requests, one after another. -/
inductive Plain : {α : Type} → Session α → Prop
  | pure {α : Type} (a : α) : Plain (Session.pure a)
  | ask (call : Call) : Plain (Session.ask call)
  | trace (event : Event) : Plain (Session.trace event)
  | bind {α β : Type} {s : Session α} {f : α → Session β} (hs : Plain s)
      (hf : ∀ a, Plain (f a)) : Plain (s.bind f)

/-- A session made of questions ends with a result. -/
theorem Plain.completes {E : Prop} {responder : Responder} {s : Session α} (hs : s.Plain) :
    s.CompletesUnless E responder := by
  induction hs with
  | pure a => exact completes_pure a
  | ask call => exact completes_ask call
  | trace event => exact completes_trace event
  | bind _ _ ihs ihf => exact ihs.bind fun a _ => ihf a

end Session

/-- A session that may fail, after another one. -/
theorem Session.run_bind {ε : Type} (x : ExceptT ε Session α) (f : α → ExceptT ε Session β) :
    (x >>= f).run = x.run.bind fun r => match r with
      | .ok a => (f a).run
      | .error e => Session.pure (.error e) := by
  refine congrArg (Session.bind x.run) (funext fun r => ?_)
  cases r <;> rfl

namespace Attempt

/-! ### Attempts -/

/-- An attempt whose results all have a property, whoever replies. Nothing is said of a failure. -/
def Ensures (P : α → Prop) (a : Attempt α) : Prop :=
  a.run.Ensures fun r => ∀ x, r = .ok x → P x

/-- An attempt made of questions and requests, one after another. -/
def Plain (a : Attempt α) : Prop := a.run.Plain

theorem ensures_of_forall {P : α → Prop} (h : ∀ x, P x) (a : Attempt α) : a.Ensures P :=
  Session.ensures_of_forall (fun _ x _ => h x) _

theorem Ensures.mono {P Q : α → Prop} {a : Attempt α} (h : a.Ensures P) (hPQ : ∀ x, P x → Q x) :
    a.Ensures Q :=
  Session.Ensures.mono h fun _ hr x hx => hPQ x (hr x hx)

theorem Ensures.and {P Q : α → Prop} {a : Attempt α} (hP : a.Ensures P) (hQ : a.Ensures Q) :
    a.Ensures fun x => P x ∧ Q x :=
  fun _ _ _ _ _ hr x hx => ⟨hP hr x hx, hQ hr x hx⟩

theorem ensures_pure {P : α → Prop} {x : α} (h : P x) :
    Ensures P (Pure.pure x : Attempt α) :=
  Session.ensures_pure fun y hy => by cases hy; exact h

theorem ensures_fail (P : α → Prop) (e : ClusterError) : Ensures P (fail e) :=
  Session.ensures_pure fun y hy => by cases hy

theorem ensures_abort (P : α → Prop) : Ensures P (abort : Attempt α) := by
  intro _ _ _ _ _ hr
  cases hr

/-- What is known of an attempt after another one may rest on what is known of that. -/
theorem Ensures.bind {P : α → Prop} {Q : β → Prop} {a : Attempt α} {f : α → Attempt β}
    (ha : a.Ensures P) (hf : ∀ x, P x → (f x).Ensures Q) : (a >>= f).Ensures Q := by
  unfold Ensures
  rw [Session.run_bind]
  refine Session.Ensures.bind ha fun r hr => ?_
  cases r with
  | ok x => exact hf x (hr x rfl)
  | error e => exact Session.ensures_pure fun y hy => by cases hy

theorem completes_run_bind {E : Prop} {responder : Responder} {a : Attempt α} {f : α → Attempt β}
    (ha : a.run.CompletesUnless E responder)
    (hf : ∀ x, a.run.MayGive responder (.ok x) → (f x).run.CompletesUnless E responder) :
    (a >>= f).run.CompletesUnless E responder := by
  rw [Session.run_bind]
  refine ha.bind fun r hr => ?_
  cases r with
  | ok x => exact hf x hr
  | error e => exact Session.completes_pure _

theorem Ensures.forEach {P : β → Prop} {f : α → Attempt β} : (l : List α) →
    (∀ x ∈ l, (f x).Ensures P) → Ensures (fun ys => ∀ y ∈ ys, P y) (Attempt.forEach f l)
  | [], _ => ensures_pure (by simp)
  | x :: l, h =>
    (h x List.mem_cons_self).bind fun y hy =>
      (Ensures.forEach l fun x hx => h x (List.mem_cons_of_mem _ hx)).bind fun ys hys =>
        ensures_pure (List.forall_mem_cons.2 ⟨hy, hys⟩)

theorem plain_pure (x : α) : Plain (Pure.pure x : Attempt α) := .pure _

theorem plain_fail (e : ClusterError) : Plain (fail e : Attempt α) := .pure _

theorem plain_ask (call : Call) : Plain (ask call) := .ask call

theorem plain_askFor (call : Call) : Plain (askFor call) := .bind (.ask call) fun _ => .pure _

theorem plain_lift {s : Session α} (hs : s.Plain) : Plain (lift s) := .bind hs fun _ => .pure _

theorem Plain.bind {a : Attempt α} {f : α → Attempt β} (ha : a.Plain)
    (hf : ∀ x, (f x).Plain) : (a >>= f).Plain := by
  unfold Plain
  rw [Session.run_bind]
  refine Session.Plain.bind ha fun r => ?_
  cases r with
  | ok x => exact hf x
  | error e => exact .pure _

theorem Plain.forEach {f : α → Attempt β} (hf : ∀ x, (f x).Plain) : (l : List α) →
    Plain (Attempt.forEach f l)
  | [] => plain_pure []
  | x :: l => (hf x).bind fun y => (Plain.forEach hf l).bind fun ys => plain_pure (y :: ys)

end Attempt

end EdgeHealth
