import Mathlib.Algebra.BigOperators.Group.List.Basic
import EdgeHealth.Proofs.Check.Soundness
import EdgeHealth.Proofs.Evaluate.Coverage
import EdgeHealth.Proofs.Evaluate.Overflow
import EdgeHealth.Proofs.Evaluate.Stripped

/-!
# The restarts that are told of a pod

Among the lines about a pod there may be one that tells how often its containers were started again.
The counts are added in signed numbers of 32 bits. While their sum is less than `2 ^ 31`, the line
tells it, and is there exactly if a container was started again. Once the sum is greater, an
addition overflows on the way, and the check of the pods is aborted.

The counts are added for human readers only. So without lines the check of the pods comes about
wherever the pods are listed. With lines it comes about too, and records the same, unless a pod of
the service has restarts that cannot be added.

## Main definitions

* `ContainerStatus.IsCounted` : a count of restarts that is a natural number of 31 bits.
* `PodHealth.restartLines` : the lines of a pod that tell its restarts.

## Main results

* `PodHealth.overflows_iff` : when an addition overflows.
* `PodHealth.restartLines_eq` : the line about restarts.
* `PodHealth.restarts_told_within_bounds` : what is told of the restarts of a pod.
-/

namespace EdgeHealth

/-- A count of restarts is a natural number of 31 bits. -/
def ContainerStatus.IsCounted (c : ContainerStatus) : Prop :=
  0 ≤ c.restartCount ∧ c.restartCount < 2 ^ 31

instance (c : ContainerStatus) : Decidable c.IsCounted :=
  inferInstanceAs (Decidable (_ ∧ _))

namespace PodHealth

/-! ### Sums of counts -/

section

variable {containers : List ContainerStatus} (hcounts : ∀ c ∈ containers, c.IsCounted)
include hcounts

theorem restarts_nonneg : 0 ≤ restarts containers := by
  induction containers with
  | nil => exact Int.le_refl 0
  | cons c rest ih =>
    obtain ⟨hc, hrest⟩ := List.forall_mem_cons.1 hcounts
    rw [restarts]
    exact Int.add_nonneg hc.1 (ih hrest)

/-- The sum is positive if a container was started again. -/
theorem restarts_pos_iff : 0 < restarts containers ↔ ∃ c ∈ containers, 0 < c.restartCount := by
  induction containers with
  | nil => simp [restarts]
  | cons c rest ih =>
    obtain ⟨hc, hrest⟩ := List.forall_mem_cons.1 hcounts
    have hnonneg := restarts_nonneg hrest
    have hpos : 0 < restarts (c :: rest) ↔ 0 < c.restartCount ∨ 0 < restarts rest := by
      have hcount := hc.1
      rw [restarts]
      omega
    rw [hpos, ih hrest, List.exists_mem_cons_iff]

/-- An addition overflows if the sum is too great: the sums on the way are no greater. -/
theorem overflows_iff : Overflows containers ↔ 2 ^ 31 ≤ restarts containers := by
  constructor
  · rintro ⟨front, ⟨rest, rfl⟩, hfront⟩
    have hfront' : 0 ≤ restarts front :=
      restarts_nonneg fun c hc => hcounts c (List.mem_append_left rest hc)
    have hrest : 0 ≤ restarts rest :=
      restarts_nonneg fun c hc => hcounts c (List.mem_append_right front hc)
    have hsum : restarts (front ++ rest) = restarts front + restarts rest := by
      simp only [restarts_eq_sum, List.map_append, List.sum_append]
    rw [← restarts_eq_sum] at hfront
    omega
  · intro h
    refine ⟨containers, List.prefix_refl containers, ?_⟩
    rw [← restarts_eq_sum]
    omega

end

/-! ### The lines about restarts -/

/-- The line that tells a number of restarts. -/
def restartLine (count : Int) : Display := .field 6 "Restarts" (Text.ofInt count)

/-- Whether a line is about restarts. -/
def tellsRestarts (line : Display) : Bool := line.spans.contains ⟨"Restarts", .label⟩

/-- The lines about a pod that are about restarts. -/
def restartLines (level : DetailLevel) (p : Pod) : List Display :=
  (lines level p).filter tellsRestarts

theorem tellsRestarts_field (indent : Nat) (label text : String) :
    tellsRestarts (.field indent label text) = decide (label = "Restarts") := by
  simp [tellsRestarts, Display.field, Display.blank, Display.label, Display.plain, Display.value,
    Display.push, eq_comm]

theorem filter_placeLines (p : Pod) : (placeLines p).filter tellsRestarts = [] := by
  rw [placeLines, List.filter_append]
  cases p.spec.bind PodSpec.nodeName <;> cases p.status.bind PodStatus.startTime <;>
    simp [tellsRestarts_field]

theorem filter_containerLines (p : Pod) :
    (containerLines p).filter tellsRestarts =
      if 0 < restarts p.containers then [restartLine (restarts p.containers)] else [] := by
  rw [containerLines, Pod.containers]
  cases p.status.bind PodStatus.containers with
  | none => rfl
  | some containers =>
    dsimp only
    rw [Option.getD_some, List.filter_cons_of_neg (by simp [tellsRestarts_field])]
    split
    · exact List.filter_cons_of_pos (by simp [tellsRestarts_field])
    · rfl

/-- Where more than one line is shown, the sum is told if it is positive. -/
theorem restartLines_eq {level : DetailLevel} (hlevel : level ≠ .summary) (p : Pod) :
    restartLines level p =
      if 0 < restarts p.containers then [restartLine (restarts p.containers)] else [] := by
  have hfirst (line : Display) (hline : tellsRestarts line = false) (rest : List Display) :
      (line :: rest).filter tellsRestarts = rest.filter tellsRestarts :=
    List.filter_cons_of_neg (by simp [hline])
  have hplace : (if level.isVerbose then placeLines p else []).filter tellsRestarts = [] := by
    split
    · exact filter_placeLines p
    · rfl
  rw [restartLines, lines, if_pos (DetailLevel.showsDetail_iff.2 hlevel), List.cons_append, hfirst,
    List.filter_append, filter_containerLines, hplace, List.append_nil]
  simp [tellsRestarts, Display.blank, Display.status, Display.plain, Display.value, Display.push]

/-! ### What is told -/

/-- **What is told of the restarts of a pod.** Where more than one line is shown and the counts are
natural numbers of 31 bits, an addition overflows exactly if their sum is too great for a signed
number of 32 bits. If it is not, there is a line about restarts exactly if a container was started
again, and it tells the sum. Where the check of the pods comes about without lines, it does so with
them, and records the same, unless a listed pod of the service has restarts that cannot be added;
then the check with lines is aborted. -/
theorem restarts_told_within_bounds {level : DetailLevel} (hlevel : level ≠ .summary) {p : Pod}
    (hcounts : ∀ c ∈ p.containers, c.IsCounted) :
    let total := (p.containers.map ContainerStatus.restartCount).sum
    (Overflows p.containers ↔ 2 ^ 31 ≤ total) ∧
    (total < 2 ^ 31 → restartLines level p =
      if ∃ c ∈ p.containers, 0 < c.restartCount then [restartLine total] else []) ∧
    ∀ context names (s : Service) responder past limit now c,
      ((s.checkPods ⟨context, names, level, false⟩).run responder past limit now).result =
        .ok (.ok c) →
      ∃ pods, ((Attempt.ask (.listPods context.ns none)).run responder past limit now).result =
          .ok (.ok pods) ∧
        let displayed :=
          ((s.checkPods ⟨context, names, level, true⟩).run responder past limit now).result
        (¬ AnyOverflows s.podPrefixes pods →
          ∃ c', displayed = .ok (.ok c') ∧ c = c'.withoutDisplays) ∧
        (AnyOverflows s.podPrefixes pods → displayed = .error .aborted) := by
  intro total
  have htotal : restarts p.containers = total := restarts_eq_sum p.containers
  refine ⟨htotal ▸ overflows_iff hcounts, fun _ => ?_, ?_⟩
  · simp only [restartLines_eq hlevel, restarts_pos_iff hcounts]
    rw [htotal]
  · intro context names s responder past limit now c hc
    obtain ⟨pods, hpods, -⟩ := Attempt.exists_of_run_bind hc
    have hresult (d : Bool) := s.result_checkPods ⟨context, names, level, d⟩ hpods
    have htoo :
        isTooMuch true level s.podPrefixes pods = true ↔ AnyOverflows s.podPrefixes pods := by
      rw [isTooMuch_iff]
      exact ⟨fun h => h.2.2, fun h => ⟨rfl, hlevel, h⟩⟩
    refine ⟨pods, hpods, fun hany => ⟨_, (hresult true).trans (if_neg (htoo.not.2 hany)), ?_⟩,
      fun hany => (hresult true).trans (if_pos (htoo.2 hany))⟩
    have hplain := (hresult false).symm.trans hc
    rw [if_neg (by simp [isTooMuch])] at hplain
    cases hplain
    exact makesChecks_strippable.ofNotes _ _ _ _ ⟨rfl, strippable_notes level s.podPrefixes pods⟩

/-- A pod with two containers. -/
private def restartedPod (first second : Int) : Pod where
  metadata := ⟨some "aio-mq-mqttbridge-0", some "edge", none⟩
  spec := none
  status := some ⟨some "Running", none,
    some [⟨"", "", "bridge", true, first⟩, ⟨"", "", "proxy", true, second⟩]⟩

/-- A cluster that lists one pod. -/
private def listingPod (p : Pod) : Cluster where
  reply
    | .listPods _ _ => ⟨3, .ok [p]⟩
    | _ => ⟨3, .error (.api 503 "unavailable")⟩

private def podContext : RunContext := ⟨none, 5, none, false, 80⟩

/-- Containers that were started again seven times in all. -/
theorem restarts_told_within_bounds_seven :
    DetailLevel.verbose ≠ .summary ∧ (∀ c ∈ (restartedPod 3 4).containers, c.IsCounted) ∧
      restartLines .verbose (restartedPod 3 4) = [restartLine 7] ∧
      ∃ c, ((Service.connector.checkPods ⟨podContext, .any, .verbose, false⟩).run
          (listingPod (restartedPod 3 4)).responder [] none 0).result = .ok (.ok c) ∧
        ∃ pods, ¬ AnyOverflows Service.connector.podPrefixes pods ∧
        ∃ c', ((Service.connector.checkPods ⟨podContext, .any, .verbose, true⟩).run
          (listingPod (restartedPod 3 4)).responder [] none 0).result = .ok (.ok c') ∧
        c = c'.withoutDisplays := by
  have hcounts : ∀ c ∈ (restartedPod 3 4).containers, c.IsCounted := by decide
  have hlevel : DetailLevel.verbose ≠ .summary := by decide
  obtain ⟨hoverflows, htold, hchecks⟩ := restarts_told_within_bounds hlevel hcounts
  obtain ⟨pods, hpods, hdisplayed, -⟩ := hchecks podContext .any .connector
    (listingPod (restartedPod 3 4)).responder [] none 0 _ rfl
  obtain rfl : [restartedPod 3 4] = pods := Except.ok.inj (Except.ok.inj hpods)
  have hnone : ¬ AnyOverflows Service.connector.podPrefixes [restartedPod 3 4] := by
    rintro ⟨p, hp, -, hp'⟩
    rw [List.mem_singleton.1 hp, hoverflows] at hp'
    exact absurd hp' (by decide)
  obtain ⟨c', hc', heq⟩ := hdisplayed hnone
  refine ⟨hlevel, hcounts, ?_, _, rfl, _, hnone, c', hc', heq⟩
  rw [htold (by decide)]
  decide +kernel

/-- A container that was started again as often as can be counted, and another one that was started
again once: the sum is not told, and the check with lines is aborted where the one without comes
about. -/
theorem restarts_beyond_bounds_aborted :
    (∀ c ∈ (restartedPod 2147483647 1).containers, c.IsCounted) ∧
      (∃ c ∈ (restartedPod 2147483647 1).containers, 0 < c.restartCount) ∧
      (∃ c, ((Service.connector.checkPods ⟨podContext, .any, .detail, false⟩).run
        (listingPod (restartedPod 2147483647 1)).responder [] none 0).result = .ok (.ok c)) ∧
      ((Service.connector.checkPods ⟨podContext, .any, .detail, true⟩).run
        (listingPod (restartedPod 2147483647 1)).responder [] none 0).result =
          .error .aborted := by
  have hpods : ((Attempt.ask (.listPods none none)).run
      (listingPod (restartedPod 2147483647 1)).responder [] none 0).result =
        .ok (.ok [restartedPod 2147483647 1]) := rfl
  refine ⟨by decide, by decide, ⟨_, rfl⟩, ?_⟩
  rw [Service.result_checkPods _ _ hpods, if_pos (by decide +kernel)]

end PodHealth

end EdgeHealth
