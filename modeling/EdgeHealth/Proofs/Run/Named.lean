import EdgeHealth.Proofs.Cluster.Yields
import EdgeHealth.Proofs.Run.InStep
import EdgeHealth.Proofs.Text.Glob

/-!
# A pattern of names is a restriction of the cluster

A run may look at those resources only whose names a pattern stands for. It does the same as a run
that looks at all resources of a cluster which lists no others. Only the lists are short: each
resource is still there when it is asked for by its name, so that a reference to it leads somewhere,
and pods, nodes and statistics are what they are.

## Main definitions

* `StandsFor` : the names that a pattern stands for.
* `Cluster.onlyNamed` : the cluster that lists only resources of such names.

## Main results

* `NameFilter.accepts_ofPattern_iff` : what a pattern accepts.
* `RunRequest.report_chooses_by_name` : the two runs.
-/

namespace EdgeHealth

open EdgeHealth.Text

/-- The names that a pattern stands for, in any case of letters; the empty pattern stands for all of
them. -/
def StandsFor (pattern name : String) : Prop :=
  pattern = "" ∨ Glob.Matches (lowerCase pattern.toList) (lowerCase name.toList)

instance (pattern name : String) : Decidable (StandsFor pattern name) :=
  inferInstanceAs (Decidable (_ ∨ _))

theorem NameFilter.accepts_ofPattern_iff {pattern name : String} :
    (ofPattern (some pattern)).accepts name = true ↔ StandsFor pattern name := by
  by_cases h : pattern = ""
  · subst h
    simp [ofPattern, accepts, StandsFor, Option.filter]
  · simp [ofPattern, accepts, StandsFor, h, Option.filter, Glob.accepts_iff_matches]

/-- The resources whose names a pattern stands for. -/
def Reply.onlyNamed (pattern : String) (reply : Reply (List Resource)) : Reply (List Resource) where
  delay := reply.delay
  answer := reply.answer.map fun resources =>
    resources.filter fun r => StandsFor pattern (Resource.name r)

/-- The cluster that lists only those custom resources whose names a pattern stands for. -/
def Cluster.onlyNamed (pattern : String) (cluster : Cluster) : Cluster where
  reply
    | .listObjects api plural => (cluster.reply (.listObjects api plural)).onlyNamed pattern
    | .listObjectsIn api ns plural =>
      (cluster.reply (.listObjectsIn api ns plural)).onlyNamed pattern
    | call => cluster.reply call

/-- Everything but lists of custom resources is what it is. -/
theorem Cluster.reply_onlyNamed {call : Call} (h : ¬ call.ListsObjects) (pattern : String)
    (cluster : Cluster) : (cluster.onlyNamed pattern).reply call = cluster.reply call := by
  cases call with
  | listObjects api plural => exact absurd trivial h
  | listObjectsIn api ns plural => exact absurd trivial h
  | _ => rfl

theorem Cluster.listReply_onlyNamed (pattern : String) (cluster : Cluster) (k : Kind)
    (ns : Option String) : (cluster.onlyNamed pattern).listReply k ns =
      (cluster.listReply k ns).onlyNamed pattern := by
  cases ns <;> rfl

/-- A pattern chooses from the answer what is left in the answer that is restricted. -/
theorem Reply.alike_onlyNamed (pattern : String) (reply : Reply (List Resource)) :
    Alike (ChosenAlike (fun _ => True) (.ofPattern (some pattern)) (.ofPattern none))
      reply.answer (reply.onlyNamed pattern).answer := by
  obtain ⟨delay, answer⟩ := reply
  cases answer with
  | ok resources =>
    refine .ok ⟨?_, fun _ _ => trivial⟩
    have hall : (NameFilter.ofPattern none).accepts = fun _ => true := rfl
    rw [hall, List.filter_true]
    refine List.filter_congr fun r _ => ?_
    rw [Bool.eq_iff_iff, NameFilter.accepts_ofPattern_iff, decide_eq_true_eq]
  | error e => exact .error e

/-- A resource that is there is found. -/
theorem Finding.yields_exists?_of_answer {cluster : Cluster} {ns name : String} {referent : Kind}
    {r : Resource}
    (h : (cluster.reply (.getObject referent.api ns referent.plural name)).answer = .ok r) :
    (exists? ns referent name).run.Yields cluster (.ok (.ok true)) := by
  refine Attempt.yields_bind (Attempt.yields_askFor _) ?_
  rw [h]
  exact Session.yields_pure _

namespace RunRequest

/-- The run that chooses by a pattern, beside the run with the cluster that is restricted by it. -/
def choosing (pattern : String) (cluster : Cluster) : Comparison where
  first := cluster
  second := cluster.onlyNamed pattern
  lag := 0
  permits _ := True

theorem shares_choosing (pattern : String) (cluster : Cluster) (call : Call)
    (h : ¬ call.ListsObjects) : (choosing pattern cluster).Shares call :=
  ⟨trivial, (Cluster.reply_onlyNamed h pattern cluster).symm⟩

theorem listsAlike_choosing (q : RunRequest) (context : RunContext) (pattern : String)
    (cluster : Cluster) (k : Kind) :
    k.ListsAlike (choosing pattern cluster) (fun _ => True)
      ((q.naming (some pattern)).scopeAfter context) (.ofPattern none) := by
  refine Kind.listsAlike_of_replies trivial ?_ ?_ <;>
    simp only [choosing, Cluster.listReply_onlyNamed]
  · rfl
  · exact Reply.alike_onlyNamed pattern _

/-- **A pattern of names restricts the lists of resources and nothing else.** The run with the
pattern ends with a report, unless it is aborted because a number is too great, and does the same,
at the same moments and in the same way, as the run that looks at every name does with the cluster
whose lists hold only resources of such names. That cluster replies to every other question as the
cluster itself: a resource that the pattern hides is still found by a reference to it. The check of
the pods is the one without a pattern. -/
theorem report_chooses_by_name (q : RunRequest) (context : RunContext) (cluster : Cluster)
    (pattern : String) :
    ((∃ report, (((q.naming (some pattern)).report context).run cluster).result = .ok report) ∨
      ((((q.naming (some pattern)).report context).run cluster).result = .error .aborted ∧
        q.Overflows context cluster.responder)) ∧
    ((q.naming (some pattern)).report context).run cluster =
      ((q.naming none).report context).run (cluster.onlyNamed pattern) ∧
    (∀ call, ¬ Call.ListsObjects call →
      (cluster.onlyNamed pattern).reply call = cluster.reply call) ∧
    (∀ ns referent name r,
      (cluster.reply (.getObject (Kind.api referent) ns referent.plural name)).answer = .ok r →
        (Finding.exists? ns referent name).run.Yields (cluster.onlyNamed pattern)
          (.ok (.ok true))) ∧
    ∀ s, Service.checkPods ((q.naming (some pattern)).scopeAfter context) s =
      s.checkPods ((q.naming none).scopeAfter context) := by
  have hshares := shares_choosing pattern cluster
  have hwithin := Comparison.sharesWithin_of_forall hshares context.ns
  refine ⟨((q.naming (some pattern)).completes_report context).cases [] 0, ?_,
    fun call h => Cluster.reply_onlyNamed h pattern cluster,
    fun ns referent name r h => ?_, fun _ => rfl⟩
  · have hstep := inStep_report (q := q.naming (some pattern)) none
      (Comparison.rel_lags_self rfl context.deadline)
      (Comparison.sharesReadiness_of_forall hshares) hwithin
      (fun _ _ => (hshares _ id).discovers)
      fun _ _ k _ => listsAlike_choosing q context pattern cluster k
    exact hstep.run_eq rfl fun _ _ h => h
  · rw [← Cluster.reply_onlyNamed id pattern cluster] at h
    exact Finding.yields_exists?_of_answer h

/-- A bridge of a name. -/
private def bridge (name : String) : Resource :=
  .object [("metadata", .object [("name", .string name), ("namespace", .string "edge")])]

/-- A cluster that lists two bridges, and has a bridge of every name. -/
private def bridged : Cluster where
  reply
    | .listObjects _ _ => ⟨3, .ok [bridge "hidden", bridge "Shown"]⟩
    | .getObject _ _ _ name => ⟨3, .ok (bridge name)⟩
    | _ => ⟨3, .error (.api 503 "unavailable")⟩

/-- A pattern that hides one of two bridges from the list, though a reference to it leads there. -/
theorem report_chooses_by_name_hidden :
    ¬ Call.ListsObjects .listNodes ∧
    ((bridged.onlyNamed "sh?w*").listReply .mqttBridgeConnector none).answer =
      .ok [bridge "Shown"] ∧
    (bridged.reply (.getObject Kind.mqttBridgeConnector.api "edge" Kind.mqttBridgeConnector.plural
      "hidden")).answer = .ok (bridge "hidden") ∧
    (Finding.exists? "edge" .mqttBridgeConnector "hidden").run.Yields (bridged.onlyNamed "sh?w*")
      (.ok (.ok true)) ∧
    (bridged.onlyNamed "sh?w*").reply .listNodes = bridged.reply .listNodes := by
  obtain ⟨_, _, hreply, hfound, _⟩ :=
    report_chooses_by_name default ⟨none, 5, some 10, false, 80⟩ bridged "sh?w*"
  exact ⟨id, by decide +kernel, rfl, hfound "edge" .mqttBridgeConnector "hidden" _ rfl,
    hreply .listNodes id⟩

end RunRequest

end EdgeHealth
