import EdgeHealth.Proofs.Evaluate.Soundness

/-!
# Checks that were cut off

A check that was cut off says so in its only observation. It can be told from every other check of a
run: an evaluation observes something that was not skipped, and the checks about what an API does
not serve observe something else.

## Main definitions

* `Check.isCancelled` : whether a check says that it was cut off.

## Main results

* `Check.isCancelled_cancelled`, `Check.entries_cancelled` : the check that says that it was cut
  off.
* `Check.IsConclusive.isCancelled_eq_false`, `Discovery.isCancelled_missingApi`,
  `Discovery.isCancelled_absentKind` : all other checks.
-/

namespace EdgeHealth

namespace Check

/-- Whether a check says that it was cut off. -/
def isCancelled (c : Check) : Bool :=
  c.targets.keys.any fun target => c == .cancelled c.name c.description target

@[simp] theorem isCancelled_cancelled (name description target : String) :
    (cancelled name description target).isCancelled = true :=
  List.any_eq_true.2 ⟨target, List.mem_singleton.2 rfl, beq_self_eq_true _⟩

/-- The check that says that it was cut off has one entry, for all namespaces, with one
observation. -/
theorem entries_cancelled (name description target : String) :
    (cancelled name description target).entries =
      [(target, allNamespaces,
        ⟨["evaluated"], [.of .skipped (.string cancelledText)], .skipped, [], none⟩)] := rfl

theorem evaluations_of_isCancelled {c : Check} (h : c.isCancelled) :
    c.evaluations = [.of .skipped (.string cancelledText)] := by
  obtain ⟨target, _, hc⟩ := List.any_eq_true.1 h
  rw [eq_of_beq hc, evaluations, entries_cancelled]
  rfl

/-- A check that says that it was cut off has no other observation. -/
theorem eq_of_isCancelled {c : Check} (h : c.isCancelled) {x : Evaluation}
    (hx : x ∈ c.evaluations) : x = .of .skipped (.string cancelledText) := by
  rw [evaluations_of_isCancelled h] at hx
  exact List.mem_singleton.1 hx

/-- A conclusive check was not cut off. -/
theorem IsConclusive.isCancelled_eq_false {c : Check} (hc : c.IsConclusive) :
    c.isCancelled = false := by
  rw [Bool.eq_false_iff]
  intro h
  refine hc.status_ne (.of .skipped (.string cancelledText)) ?_ rfl
  rw [evaluations_of_isCancelled h]
  exact List.mem_singleton_self _

end Check

namespace Discovery

theorem isCancelled_missingApi (withDisplays : Bool) (s : Service) :
    (missingApi withDisplays s).isCancelled = false := by
  rw [Bool.eq_false_iff]
  intro h
  have hx := Check.eq_of_isCancelled h
    (Check.mem_evaluations_ofNotesFor.2 ⟨_, List.mem_cons_self, List.mem_singleton.2 rfl⟩)
  revert hx
  cases s <;> decide

theorem isCancelled_absentKind (withDisplays : Bool) (k : Kind) :
    (absentKind withDisplays k).isCancelled = false := by
  rw [Bool.eq_false_iff]
  intro h
  have hx := Check.eq_of_isCancelled h
    (Check.mem_evaluations_ofNotesFor.2 ⟨_, List.mem_cons_self, List.mem_singleton.2 rfl⟩)
  exact nomatch congrArg Evaluation.kind hx

@[simp] theorem status_absentKind (withDisplays : Bool) (k : Kind) :
    (absentKind withDisplays k).status = .skipped := by
  cases withDisplays <;> rfl

end Discovery

end EdgeHealth
