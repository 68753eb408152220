import Mathlib.Data.List.Forall2
import EdgeHealth.Proofs.Cluster.Plain

/-!
# Sessions that run alike

Two sessions run *alike* when, whoever replies and whatever was done before, they do the same at the
same moments, are cut off or aborted together, and come to results that stand in some relation; only
the second one may also be aborted where the first one is not. The sessions need not be equal, and
their results need not be of one type. Sessions that run alike are put together to sessions that do.

## Main definitions

* `Alike` : two outcomes with related values or one error.
* `Session.Parallel` : two sessions that run alike.
* `Attempt.Parallel` : the same for attempts, whose failures are equal.

## Main results

* `Session.Parallel.bind`, `Session.Parallel.forEach`, `Session.Parallel.within` : sessions that are
  put together.
* `Session.Parallel.runWith` : the results of two sessions that run alike.
* `Session.Ensures.parallel` : what is known of the results of one session.
* `Attempt.Parallel.bind`, `Attempt.Parallel.forEach` : attempts that are put together.
-/

namespace EdgeHealth

variable {α β γ δ ε : Type} {R : α → β → Prop} {S : γ → δ → Prop}

/-- Two outcomes: related values or one error. -/
inductive Alike (R : α → β → Prop) : Except ε α → Except ε β → Prop
  | ok {a : α} {b : β} (h : R a b) : Alike R (.ok a) (.ok b)
  | error (e : ε) : Alike R (.error e) (.error e)

namespace Alike

variable {r : Except ε α} {r' : Except ε β}

theorem mono {R' : α → β → Prop} (hR : ∀ a b, R a b → R' a b) : Alike R r r' → Alike R' r r'
  | .ok h => .ok (hR _ _ h)
  | .error e => .error e

theorem cases : Alike R r r' → (∃ e, r = .error e ∧ r' = .error e) ∨
    ∃ a b, r = .ok a ∧ r' = .ok b ∧ R a b
  | .ok h => .inr ⟨_, _, rfl, rfl, h⟩
  | .error e => .inl ⟨e, rfl, rfl⟩

theorem map_some : Alike R r r' → Alike (Option.Rel R) (r.map some) (r'.map some)
  | .ok h => .ok (.some h)
  | .error e => .error e

/-- An outcome is like itself, with what is known of its value. -/
theorem refl_of {P : α → Prop} (h : ∀ a, r = .ok a → P a) : Alike (fun a b => a = b ∧ P a) r r := by
  cases r with
  | ok a => exact .ok ⟨rfl, h a rfl⟩
  | error e => exact .error e

theorem refl (r : Except ε α) : Alike Eq r r := by
  cases r with
  | ok a => exact .ok rfl
  | error e => exact .error e

theorem eq {R : α → α → Prop} {r r' : Except ε α} (h : Alike R r r') (hR : ∀ a b, R a b → a = b) :
    r = r' := by
  cases h with
  | ok h => rw [hR _ _ h]
  | error e => rfl

end Alike

theorem alike_awaited {r : Except Interruption α} {r' : Except Interruption β} (atMoment : Bool) :
    Alike R r r' →
      Alike (Option.Rel R) (Session.awaited atMoment r) (Session.awaited atMoment r')
  | .ok h => .ok (.some h)
  | .error Interruption.aborted => .error Interruption.aborted
  | .error Interruption.cutOff => by
    cases atMoment
    · exact .error Interruption.cutOff
    · exact .ok .none

namespace Session

/-- Two sessions that do the same at the same moments and come to related results, unless the second
one is aborted. -/
def Parallel (R : α → β → Prop) (s : Session α) (t : Session β) : Prop :=
  ∀ responder past limit now,
    (t responder past limit now).result = .error .aborted ∨
      ((s responder past limit now).time = (t responder past limit now).time ∧
        (s responder past limit now).trace = (t responder past limit now).trace ∧
        Alike R (s responder past limit now).result (t responder past limit now).result)

variable {s : Session α} {t : Session β}

theorem Parallel.mono {R' : α → β → Prop} (h : s.Parallel R t) (hR : ∀ a b, R a b → R' a b) :
    s.Parallel R' t := fun responder past limit now =>
  (h responder past limit now).imp_right fun ⟨htime, htrace, hresult⟩ =>
    ⟨htime, htrace, hresult.mono hR⟩

theorem parallel_pure {a : α} {b : β} (h : R a b) : (pure a).Parallel R (pure b) :=
  fun _ _ _ _ => .inr ⟨rfl, rfl, .ok h⟩

/-- A session that is aborted runs alike with every other one before it. -/
theorem parallel_abort (R : α → β → Prop) (s : Session α) : s.Parallel R abort :=
  fun _ _ _ _ => .inl rfl

/-- What is known of the results of a session, as a relation of the session to itself. -/
theorem Ensures.parallel {P : α → Prop} (h : s.Ensures P) :
    s.Parallel (fun a b => a = b ∧ P a) s :=
  fun _ _ _ _ => .inr ⟨rfl, rfl, .refl_of fun _ ha => h ha⟩

theorem parallel_refl (s : Session α) : s.Parallel Eq s :=
  (ensures_of_forall (fun _ => trivial) s).parallel.mono fun _ _ h => h.1

/-- What is known of the results of a session that runs like itself. -/
theorem Parallel.ensures {P : α → Prop} (h : s.Parallel (fun a b => a = b ∧ P a) s) :
    s.Ensures P := by
  intro responder past limit now a ha
  rcases h responder past limit now with haborted | ⟨-, -, hresult⟩
  · cases ha.symm.trans haborted
  · rw [ha] at hresult
    cases hresult with
    | ok hab => exact hab.2

theorem Parallel.bind {f : α → Session γ} {g : β → Session δ} (h : s.Parallel R t)
    (hf : ∀ a b, R a b → (f a).Parallel S (g b)) : (s.bind f).Parallel S (t.bind g) := by
  intro responder past limit now
  rcases h responder past limit now with haborted | ⟨htime, htrace, hresult⟩
  · exact .inl (result_bind_of_error haborted)
  · obtain ⟨i, hs, ht⟩ | ⟨a, b, hs, ht, hab⟩ := hresult.cases
    · rw [bind_of_error hs, bind_of_error ht]
      exact .inr ⟨htime, htrace, .error i⟩
    · rw [bind_of_ok hs, bind_of_ok ht, htime, htrace]
      exact (hf a b hab responder (past ++ (t responder past limit now).trace) limit
        (t responder past limit now).time).imp_right fun ⟨htime', htrace', hresult'⟩ =>
          ⟨htime', congrArg _ htrace', hresult'⟩

/-- Sessions one after another. -/
theorem Parallel.forEach {f : α → Session γ} {g : β → Session δ} : {l : List α} → {l' : List β} →
    List.Forall₂ (fun a b => (f a).Parallel S (g b)) l l' →
    (Session.forEach f l).Parallel (List.Forall₂ S) (Session.forEach g l')
  | [], [], .nil => parallel_pure .nil
  | _ :: _, _ :: _, .cons h hl =>
    h.bind fun _ _ hcd => (Parallel.forEach hl).bind fun _ _ hrest =>
      parallel_pure (.cons hcd hrest)

/-- Sessions that are given up at one deadline. -/
theorem Parallel.within (h : s.Parallel R t) (deadline : Option Nat) :
    (Session.within deadline s).Parallel (Option.Rel R) (Session.within deadline t) := by
  intro responder past limit now
  cases deadline with
  | none =>
    rcases h responder past limit now with haborted | ⟨htime, htrace, hresult⟩
    · left
      simp only [Session.within, haborted]
      rfl
    · exact .inr ⟨htime, htrace, hresult.map_some⟩
  | some moment =>
    simp only [Session.within]
    split
    · exact .inr ⟨rfl, rfl, .ok .none⟩
    · rcases h responder past (some (earlier moment limit)) now with
        haborted | ⟨htime, htrace, hresult⟩
      · exact .inl (awaited_eq_aborted_iff.2 haborted)
      · exact .inr ⟨htime, htrace, alike_awaited _ hresult⟩

/-- Of two sessions that run alike, the second one comes to an end as the first one does, or is
aborted. -/
theorem Parallel.runWith {E : Prop} {responder : Responder} (h : s.Parallel R t)
    (ht : t.CompletesUnless E responder) :
    ((t.runWith responder).result = .error .aborted ∧ E) ∨
      ((s.runWith responder).trace = (t.runWith responder).trace ∧
        (s.runWith responder).time = (t.runWith responder).time ∧
        ∃ a b, (s.runWith responder).result = .ok a ∧ (t.runWith responder).result = .ok b ∧
          R a b) := by
  rcases ht.cases [] 0 with ⟨b, hb⟩ | haborted
  · rcases h responder [] none 0 with haborted | ⟨htime, htrace, hresult⟩
    · cases hb.symm.trans haborted
    · rw [hb] at hresult
      generalize hr : (s responder [] none 0).result = r at hresult
      cases hresult with
      | ok hab => exact .inr ⟨htrace, htime, _, b, hr, hb, hab⟩
  · exact .inl haborted

end Session

namespace Attempt

/-- Two attempts that do the same at the same moments, and come to related results or to one
failure, unless the second one is aborted. -/
def Parallel (R : α → β → Prop) (a : Attempt α) (b : Attempt β) : Prop :=
  a.run.Parallel (Alike R) b.run

variable {a : Attempt α} {b : Attempt β}

theorem Parallel.mono {R' : α → β → Prop} (h : a.Parallel R b) (hR : ∀ x y, R x y → R' x y) :
    a.Parallel R' b :=
  Session.Parallel.mono h fun _ _ => Alike.mono hR

theorem parallel_pure {x : α} {y : β} (h : R x y) :
    Parallel R (Pure.pure x : Attempt α) (Pure.pure y : Attempt β) :=
  Session.parallel_pure (.ok h)

theorem parallel_fail (R : α → β → Prop) (e : ClusterError) : Parallel R (fail e) (fail e) :=
  Session.parallel_pure (.error e)

theorem parallel_abort (R : α → β → Prop) (a : Attempt α) : Parallel R a abort :=
  Session.parallel_abort _ a.run

/-- What is known of the results of an attempt, as a relation of the attempt to itself. -/
theorem Ensures.parallel {P : α → Prop} (h : a.Ensures P) :
    a.Parallel (fun x y => x = y ∧ P x) a := by
  refine (Session.Ensures.parallel h).mono fun r r' hr => ?_
  obtain ⟨rfl, hP⟩ := hr
  exact .refl_of hP

theorem parallel_refl (a : Attempt α) : a.Parallel Eq a :=
  (Session.parallel_refl a.run).mono fun r _ hr => hr ▸ .refl r

theorem Parallel.bind {f : α → Attempt γ} {g : β → Attempt δ} (h : a.Parallel R b)
    (hf : ∀ x y, R x y → (f x).Parallel S (g y)) : (a >>= f).Parallel S (b >>= g) := by
  unfold Parallel
  rw [Session.run_bind, Session.run_bind]
  refine Session.Parallel.bind h fun r r' hr => ?_
  cases hr with
  | ok hxy => exact hf _ _ hxy
  | error e => exact Session.parallel_pure (.error e)

/-- Attempts one after another. -/
theorem Parallel.forEach {f : α → Attempt γ} {g : β → Attempt δ} : {l : List α} → {l' : List β} →
    List.Forall₂ (fun x y => (f x).Parallel S (g y)) l l' →
    (Attempt.forEach f l).Parallel (List.Forall₂ S) (Attempt.forEach g l')
  | [], [], .nil => parallel_pure .nil
  | _ :: _, _ :: _, .cons h hl =>
    h.bind fun _ _ hzw => (Parallel.forEach hl).bind fun _ _ hrest =>
      parallel_pure (.cons hzw hrest)

end Attempt

end EdgeHealth
