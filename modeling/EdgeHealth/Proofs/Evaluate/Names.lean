import EdgeHealth.Evaluate.Readiness
import EdgeHealth.Evaluate.Statistics

/-!
# Names are told apart

Every kind has its own words, and the check of a kind has a name that no other check has: no check
of another kind, none of what an API serves, of pods or of statistics, and none before deployment.

## Main results

* `Kind.word_injective`, `Kind.plural_injective` : the words for kinds.
* `Kind.checkName_injective`, `Service.enumerationCheck_ne`, `Service.podCheck_ne`,
  `Statistics.checkName_ne`, `Readiness.name_ne` : the names of checks.
-/

namespace EdgeHealth

namespace Kind

theorem word_injective {k k' : Kind} (h : k.word = k'.word) : k = k' := by
  revert h
  cases k <;> cases k' <;> decide

theorem plural_injective {k k' : Kind} (h : k.plural = k'.plural) : k = k' :=
  word_injective (String.append_left_inj "s" |>.1 h)

theorem checkName_injective {k k' : Kind} (h : k.checkName = k'.checkName) : k = k' := by
  revert h
  cases k <;> cases k' <;> decide +kernel

/-- Each kind is one of a single service. -/
theorem service_eq_of_mem_kinds {s : Service} {k : Kind} (h : k ∈ s.kinds) : k.service = s := by
  revert h
  cases s <;> cases k <;> decide

end Kind

namespace Service

theorem enumerationCheck_ne (s : Service) (k : Kind) : s.enumerationCheck ≠ k.checkName := by
  cases s <;> cases k <;> decide +kernel

theorem podCheck_ne (s : Service) (k : Kind) : s.podCheck ≠ k.checkName := by
  cases s <;> cases k <;> decide +kernel

end Service

theorem Statistics.checkName_ne (k : Kind) : checkName ≠ k.checkName := by
  cases k <;> decide +kernel

theorem Readiness.name_ne (k : Kind) :
    versionCheck ≠ k.checkName ∧ nodesCheck ≠ k.checkName ∧ storageCheck ≠ k.checkName := by
  cases k <;> decide +kernel

end EdgeHealth
