import Mathlib.Algebra.BigOperators.Group.List.Basic
import Mathlib.Algebra.Ring.Int.Defs
import EdgeHealth.Evaluate.Pods
import EdgeHealth.Evaluate.Readiness
import EdgeHealth.Proofs.Cluster.Limit
import EdgeHealth.Proofs.Cluster.Parallel

/-!
# Evaluations that may be aborted

Two evaluations compute with numbers of a fixed width. The check of the pods adds the restarts of
containers, but only for the lines about a pod; the check of the nodes multiplies the number of
cores that a policy demands. Where a number does not fit, the evaluation is aborted. This is the
only way in which it can be; apart from it both are made of a question and what comes of the answer.

## Main definitions

* `PodHealth.Overflows`, `PodHealth.AnyOverflows` : restarts that cannot be added.
* `ReadinessPolicy.Overflows` : cores that cannot be counted in thousandths.

## Main results

* `PodHealth.exceeds_iff`, `PodHealth.isTooMuch_iff` : when the lines about pods cannot be made.
* `Service.completes_checkPods`, `Readiness.completes_checkNodes` : when evaluations are aborted.
-/

namespace EdgeHealth

/-- The containers of a pod of which the restarts are known. -/
def Pod.containers (p : Pod) : List ContainerStatus :=
  (p.status.bind PodStatus.containers).getD []

/-- The sum of the restarts of some containers, one after another, is at some point no signed number
of 32 bits. -/
def PodHealth.Overflows (containers : List ContainerStatus) : Prop :=
  ∃ front, front <+: containers ∧
    ¬ (-2 ^ 31 ≤ (front.map ContainerStatus.restartCount).sum ∧
      (front.map ContainerStatus.restartCount).sum < 2 ^ 31)

/-- Among some pods there is one that belongs to a start of names and whose restarts cannot be
added. -/
def PodHealth.AnyOverflows (starts : List PodPrefix) (pods : List Pod) : Prop :=
  ∃ p ∈ pods, (∃ q ∈ starts, q.start.toList <+: p.name.toList) ∧ Overflows p.containers

/-- A policy demands more cores than can be counted in thousandths with 64 bits. -/
def ReadinessPolicy.Overflows (policy : ReadinessPolicy) : Prop := 2 ^ 64 ≤ 1000 * policy.minVcpu

instance (policy : ReadinessPolicy) : Decidable policy.Overflows :=
  inferInstanceAs (Decidable (_ ≤ _))

theorem DetailLevel.showsDetail_iff {level : DetailLevel} :
    level.showsDetail = true ↔ level ≠ .summary := by
  cases level <;> decide

namespace PodHealth

/-! ### Restarts that cannot be added -/

theorem isInt32_iff {n : Int} : isInt32 n = true ↔ -2 ^ 31 ≤ n ∧ n < 2 ^ 31 := by
  have hmin : Int32.minValue.toInt = -2 ^ 31 := rfl
  have hmax : Int32.maxValue.toInt = 2 ^ 31 - 1 := rfl
  simp only [isInt32, hmin, hmax, Bool.and_eq_true, decide_eq_true_eq]
  omega

theorem restarts_eq_sum : (containers : List ContainerStatus) →
    restarts containers = (containers.map ContainerStatus.restartCount).sum
  | [] => rfl
  | c :: rest => by rw [restarts, restarts_eq_sum rest, List.map_cons, List.sum_cons]

/-- A sum to which counts are added leaves the numbers of 32 bits if some of the first counts make
it do so. -/
theorem exceedsFrom_iff : (containers : List ContainerStatus) → {sum : Int} → isInt32 sum = true →
    (exceedsFrom sum containers = true ↔
      ∃ front, front <+: containers ∧ isInt32 (sum + restarts front) = false)
  | [], sum, hsum => by
    refine iff_of_false Bool.false_ne_true ?_
    rintro ⟨front, hfront, hexceeds⟩
    rw [List.prefix_nil.1 hfront, restarts, Int.add_zero, hsum] at hexceeds
    cases hexceeds
  | c :: rest, sum, hsum => by
    simp only [List.prefix_cons_iff]
    cases hnext : isInt32 (sum + c.restartCount) with
    | false =>
      refine iff_of_true (by simp [exceedsFrom, hnext]) ⟨[c], .inr ⟨[], rfl, List.nil_prefix⟩, ?_⟩
      rwa [restarts, restarts, Int.add_zero]
    | true =>
      have hrest : exceedsFrom sum (c :: rest) = exceedsFrom (sum + c.restartCount) rest := by
        simp [exceedsFrom, hnext]
      rw [hrest, exceedsFrom_iff rest hnext]
      constructor
      · rintro ⟨front, hfront, hexceeds⟩
        refine ⟨c :: front, .inr ⟨front, rfl, hfront⟩, ?_⟩
        rwa [restarts, ← Int.add_assoc]
      · rintro ⟨_, rfl | ⟨front, rfl, hfront⟩, hexceeds⟩
        · rw [restarts, Int.add_zero, hsum] at hexceeds
          cases hexceeds
        · refine ⟨front, hfront, ?_⟩
          rwa [restarts, ← Int.add_assoc] at hexceeds

theorem exceeds_iff {p : Pod} : exceeds p = true ↔ Overflows p.containers := by
  refine (exceedsFrom_iff p.containers (by decide)).trans (exists_congr fun front => ?_)
  rw [← Bool.not_eq_true, isInt32_iff, Int.zero_add, restarts_eq_sum]

/-- A pod belongs to some start of names if its name begins with one. -/
theorem isSome_bestStart?_iff {name : String} : {starts : List PodPrefix} →
    ((bestStart? name starts).isSome = true ↔ ∃ q ∈ starts, q.start.toList <+: name.toList)
  | [] => by simp [bestStart?]
  | q :: rest => by
    rw [List.exists_mem_cons_iff, ← isSome_bestStart?_iff, ← String.startsWith_string_iff,
      bestStart?]
    cases bestStart? name rest with
    | none => by_cases hq : name.startsWith q.start = true <;> simp [hq]
    | some best => dsimp only; split <;> simp

/-- The lines about pods cannot be made where the restarts of a pod are shown that cannot be
added. -/
theorem isTooMuch_iff {withDisplays : Bool} {level : DetailLevel} {starts : List PodPrefix}
    {pods : List Pod} :
    isTooMuch withDisplays level starts pods = true ↔
      withDisplays = true ∧ level ≠ .summary ∧ AnyOverflows starts pods := by
  simp only [isTooMuch, Bool.and_eq_true, List.any_eq_true, isSome_bestStart?_iff, exceeds_iff,
    and_assoc, DetailLevel.showsDetail_iff, AnyOverflows]

/-! ### The check of the pods -/

section

variable {withDisplays withDisplays' : Bool} {level level' : DetailLevel} {starts : List PodPrefix}
  {pods : List Pod}

theorem gather_of_isTooMuch (h : isTooMuch withDisplays level starts pods = true) :
    gather withDisplays level starts pods = Attempt.abort := if_pos h

theorem gather_of_not_isTooMuch (h : isTooMuch withDisplays level starts pods = false) :
    gather withDisplays level starts pods = pure (notes level starts pods) :=
  if_neg (by rw [h]; exact Bool.false_ne_true)

/-- What is known of the notes about pods is known whether they can be made or not. -/
theorem gather_ensures {P : List Note → Prop} (h : P (notes level starts pods)) :
    (gather withDisplays level starts pods).Ensures P := by
  unfold gather
  split
  · exact Attempt.ensures_abort P
  · exact Attempt.ensures_pure h

theorem punctual_gather : (gather withDisplays level starts pods).run.Punctual := by
  unfold gather
  split
  · exact Session.punctual_abort
  · exact Session.punctual_pure _

theorem prompt_gather : (gather withDisplays level starts pods).run.Prompt := by
  unfold gather
  split
  · exact Session.prompt_abort
  · exact Session.prompt_pure _

theorem completes_gather {responder : Responder} :
    (gather withDisplays level starts pods).run.CompletesUnless
      (isTooMuch withDisplays level starts pods = true) responder := by
  unfold gather
  split
  · next h => exact Session.completes_abort h
  · exact Session.completes_pure _

/-- Where more is shown, more may be too much. -/
theorem parallel_gather {N : List Note → List Note → Prop} (hd : withDisplays → withDisplays')
    (hlevel : level ≠ .summary → level' ≠ .summary)
    (h : N (notes level starts pods) (notes level' starts pods)) :
    (gather withDisplays level starts pods).Parallel N
      (gather withDisplays' level' starts pods) := by
  cases htoo' : isTooMuch withDisplays' level' starts pods with
  | true =>
    rw [gather_of_isTooMuch htoo']
    exact Attempt.parallel_abort N _
  | false =>
    have htoo : isTooMuch withDisplays level starts pods = false := by
      rw [← Bool.not_eq_true, isTooMuch_iff] at htoo' ⊢
      exact fun ⟨hshown, hdetail, hpods⟩ => htoo' ⟨hd hshown, hlevel hdetail, hpods⟩
    rw [gather_of_not_isTooMuch htoo, gather_of_not_isTooMuch htoo']
    exact Attempt.parallel_pure h

end

end PodHealth

namespace Service

/-- Pods are listed among which one belongs to a service and has restarts that cannot be added. -/
def PodsOverflow (s : Service) (ns : Option String) (responder : Responder) : Prop :=
  ∃ past now pods, (responder.reply past now (.listPods ns none)).answer = .ok pods ∧
    PodHealth.AnyOverflows s.podPrefixes pods

variable (scope : Scope) (s : Service)

/-- What is known of the notes about all lists of pods leads to what is known of the check. -/
theorem checkPods_ensures {P : Check → Prop} (h : ∀ pods, P (.ofNotesFor scope.withDisplays
    s.podCheck s.podCheckDescription (PodHealth.notes scope.level s.podPrefixes pods))) :
    (s.checkPods scope).Ensures P :=
  .bind (Attempt.ensures_of_forall (fun _ => trivial) _) fun pods _ =>
    .bind (PodHealth.gather_ensures (P := fun notes => P (.ofNotesFor scope.withDisplays s.podCheck
      s.podCheckDescription notes)) (h pods)) fun _ hnotes => Attempt.ensures_pure hnotes

/-- What the check comes to where pods are listed. -/
theorem result_checkPods {pods : List Pod} {responder : Responder} {past : Trace}
    {limit : Option Nat} {now : Nat}
    (hpods : ((Attempt.ask (.listPods scope.context.ns none)).run responder past limit now).result =
      .ok (.ok pods)) :
    ((s.checkPods scope).run responder past limit now).result =
      if PodHealth.isTooMuch scope.withDisplays scope.level s.podPrefixes pods then .error .aborted
      else .ok (.ok (.ofNotesFor scope.withDisplays s.podCheck s.podCheckDescription
        (PodHealth.notes scope.level s.podPrefixes pods))) := by
  rw [checkPods, Session.run_bind, Session.bind_of_ok hpods]
  simp only [PodHealth.gather]
  split <;> rfl

theorem punctual_checkPods : (s.checkPods scope).run.Punctual :=
  Attempt.punctual_run_bind (Attempt.plain_ask _).punctual fun _ =>
    Attempt.punctual_run_bind PodHealth.punctual_gather fun _ => Session.punctual_pure _

theorem prompt_checkPods : (s.checkPods scope).run.Prompt :=
  Attempt.prompt_run_bind (Attempt.plain_ask _).prompt fun _ =>
    Attempt.prompt_run_bind PodHealth.prompt_gather fun _ => Session.prompt_pure _

/-- The check of the pods is aborted only if restarts are shown that cannot be added. -/
theorem completes_checkPods {responder : Responder} : (s.checkPods scope).run.CompletesUnless
    (scope.withDisplays = true ∧ scope.level ≠ .summary ∧
      s.PodsOverflow scope.context.ns responder) responder := by
  refine Attempt.completes_run_bind (Session.completes_ask _) fun pods hpods => ?_
  obtain ⟨past, now, hanswer⟩ := Session.MayGive.exists_answer hpods
  refine Attempt.completes_run_bind (PodHealth.completes_gather.mono fun h => ?_) fun _ _ =>
    Session.completes_pure _
  obtain ⟨hshown, hdetail, hpod⟩ := PodHealth.isTooMuch_iff.1 h
  exact ⟨hshown, hdetail, past, now, pods, hanswer, hpod⟩

end Service

namespace Readiness

/-! ### The check of the nodes -/

variable {level : DetailLevel} {policy : ReadinessPolicy} {nodes : List Node}

theorem overflows_iff : policy.Overflows ↔ ¬ minCpuMillis policy < UInt64.size := by
  have hsize : UInt64.size = 2 ^ 64 := rfl
  rw [ReadinessPolicy.Overflows, minCpuMillis, hsize, Nat.mul_comm, Nat.not_lt]

/-- What is known of the notes about nodes is known whether they can be made or not. -/
theorem gatherNodes_ensures {P : List Note → Prop} (hnone : P noNodesNotes)
    (h : ∀ least, P (nodesNotes level policy least nodes)) :
    (gatherNodes level policy nodes).Ensures P := by
  unfold gatherNodes
  split
  · exact Attempt.ensures_pure hnone
  · exact Attempt.ensures_fail P _
  · split
    · exact Attempt.ensures_pure (h _)
    · exact Attempt.ensures_abort P

theorem punctual_gatherNodes : (gatherNodes level policy nodes).run.Punctual := by
  unfold gatherNodes
  split
  · exact Session.punctual_pure _
  · exact Session.punctual_pure _
  · split
    · exact Session.punctual_pure _
    · exact Session.punctual_abort

theorem prompt_gatherNodes : (gatherNodes level policy nodes).run.Prompt := by
  unfold gatherNodes
  split
  · exact Session.prompt_pure _
  · exact Session.prompt_pure _
  · split
    · exact Session.prompt_pure _
    · exact Session.prompt_abort

theorem completes_gatherNodes {responder : Responder} :
    (gatherNodes level policy nodes).run.CompletesUnless policy.Overflows responder := by
  unfold gatherNodes
  split
  · exact Session.completes_pure _
  · exact Session.completes_pure _
  · split
    · exact Session.completes_pure _
    · next h => exact Session.completes_abort (overflows_iff.2 h)

/-- Whether the notes about nodes can be made does not depend on how much is shown. -/
theorem parallel_gatherNodes {N : List Note → List Note → Prop} {level' : DetailLevel}
    (hnone : N noNodesNotes noNodesNotes)
    (h : ∀ least, N (nodesNotes level policy least nodes) (nodesNotes level' policy least nodes)) :
    (gatherNodes level policy nodes).Parallel N (gatherNodes level' policy nodes) := by
  unfold gatherNodes
  split
  · exact Attempt.parallel_pure hnone
  · exact Attempt.parallel_fail N _
  · split
    · exact Attempt.parallel_pure (h _)
    · exact Attempt.parallel_abort N _

variable (scope : Scope) (policy : ReadinessPolicy)

/-- What is known of the notes about all lists of nodes leads to what is known of the check. -/
theorem checkNodes_ensures {P : Check → Prop}
    (hnone : P (.ofNotesFor scope.withDisplays nodesCheck nodesDescription noNodesNotes))
    (h : ∀ least nodes, P (.ofNotesFor scope.withDisplays nodesCheck nodesDescription
      (nodesNotes scope.level policy least nodes))) :
    (checkNodes scope policy).Ensures P :=
  .bind (Attempt.ensures_of_forall (fun _ => trivial) _) fun nodes _ =>
    .bind (gatherNodes_ensures (P := fun notes => P (.ofNotesFor scope.withDisplays nodesCheck
      nodesDescription notes)) hnone fun least => h least nodes) fun _ hnotes =>
        Attempt.ensures_pure hnotes

theorem punctual_checkNodes : (checkNodes scope policy).run.Punctual :=
  Attempt.punctual_run_bind (Attempt.plain_ask _).punctual fun _ =>
    Attempt.punctual_run_bind punctual_gatherNodes fun _ => Session.punctual_pure _

theorem prompt_checkNodes : (checkNodes scope policy).run.Prompt :=
  Attempt.prompt_run_bind (Attempt.plain_ask _).prompt fun _ =>
    Attempt.prompt_run_bind prompt_gatherNodes fun _ => Session.prompt_pure _

/-- The check of the nodes is aborted only if the policy demands too many cores. -/
theorem completes_checkNodes {responder : Responder} :
    (checkNodes scope policy).run.CompletesUnless policy.Overflows responder :=
  Attempt.completes_run_bind (Session.completes_ask _) fun _ _ =>
    Attempt.completes_run_bind completes_gatherNodes fun _ _ => Session.completes_pure _

end Readiness

/-! ### A pod that was started again too often -/

/-- A pod of which one container was started again as often as can be counted, and another one
once. -/
def Pod.restless : Pod where
  metadata := ⟨some "aio-mq-mqttbridge-0", some "edge", none⟩
  spec := none
  status := some ⟨some "Running", none,
    some [⟨"", "", "bridge", true, 2147483647⟩, ⟨"", "", "proxy", true, 1⟩]⟩

/-- A cluster that lists this pod, and serves nothing else. -/
def Cluster.restless : Cluster where
  reply
    | .listApiResources _ => ⟨2, .ok []⟩
    | .listPods .. => ⟨3, .ok [.restless]⟩
    | _ => ⟨2, .error (.api 503 "unavailable")⟩

end EdgeHealth
