import Mathlib.Data.List.Forall2
import EdgeHealth.Proofs.Check.Locality
import EdgeHealth.Proofs.Check.Soundness
import EdgeHealth.Proofs.Evaluate.Coverage
import EdgeHealth.Proofs.Evaluate.Overflow
import EdgeHealth.Proofs.Evaluate.Soundness

/-!
# What the check of the nodes decides

The check of the nodes makes a few demands on every node, one after another: on its architecture,
its processing power, its memory and, if the policy names one, its kernel. A demand that the node
says nothing readable about is a warning. Else it is a success or an error, as what the node offers
suffices or not. The check is a success if and only if every node meets every demand.

The least processing power is a thousand times the count of cores that the policy names, computed
with 64 bits. Where this product is too great for that, the check is aborted.

## Main definitions

* `Readiness.Demand` : what is demanded of a node, with `Demand.Offers` and `Demand.Suffices`.
* `Readiness.Demand.Judges` : the outcome of a demand on a node.
* `Readiness.Decides` : a check of nodes.

## Main results

* `Readiness.forall₂_judges` : the findings about a node are the outcomes of the demands.
* `Readiness.checkNodes_decides` : what the check of the nodes decides.
-/

namespace EdgeHealth

/-! ### Statuses and places -/

/-- The worst of several statuses is a success if all of them are. -/
theorem Status.worstOf_eq_success_iff {l : List Status} :
    worstOf l = .success ↔ ∀ s ∈ l, s = .success := by
  have hrank : ∀ s : Status, s = .success ↔ s.rank ≤ 0 := by
    intro s
    cases s <;> decide
  simp only [hrank, rank_worstOf_le_iff]

/-- Notes without lines for human readers have the same observations. -/
theorem flatMap_evaluations_filter (notes : List Note) :
    (notes.filter fun n => !n.isDisplay).flatMap (fun n => n.change.evaluations) =
      notes.flatMap fun n => n.change.evaluations := by
  induction notes with
  | nil => rfl
  | cons n notes ih =>
    obtain ⟨target, ns, change⟩ := n
    cases change with
    | display lines =>
      rw [List.filter_cons_of_neg Bool.false_ne_true, ih]
      rfl
    | _ => rw [List.filter_cons_of_pos (by rfl), List.flatMap_cons, List.flatMap_cons, ih]

/-- Notes with one place make a single entry, which holds their observations in order. -/
theorem Check.exists_entries_ofNotes {name description target ns : String} {notes : List Note}
    (hne : notes ≠ []) (h : ∀ n ∈ notes, n.target = target ∧ n.ns = ns) :
    ∃ entry, (ofNotes name description notes).entries = [(target, ns, entry)] ∧
      entry.evaluations = notes.flatMap fun n => n.change.evaluations := by
  have hkeys : (notes.map Note.ns).eraseDups = [ns] :=
    eraseDups_map_of_forall_eq hne fun n hn => (h n hn).2
  have hfilter : (notes.filter fun n => n.ns = ns) = notes :=
    List.filter_eq_self.2 fun n hn => decide_eq_true (h n hn).2
  refine ⟨notes.foldl (fun e n => e.apply n.change) Entry.empty, ?_, ?_⟩
  · rw [entries_ofNotes_of_target_eq hne fun n hn => (h n hn).1, hkeys, List.map_singleton, hfilter]
  · rw [← List.foldl_map (f := Note.change), Entry.evaluations_foldl_apply, List.flatMap_map]
    rfl

/-- Notes with one place, of which the first is an observation, make a single entry, with lines for
human readers or without. -/
theorem Check.exists_entries_ofNotesFor (withDisplays : Bool) (name description : String)
    {target ns : String} {n : Note} {notes : List Note} (hn : n.isDisplay = false)
    (h : ∀ m ∈ n :: notes, m.target = target ∧ m.ns = ns) :
    ∃ entry, (ofNotesFor withDisplays name description (n :: notes)).entries =
        [(target, ns, entry)] ∧
      entry.evaluations = (n :: notes).flatMap fun m => m.change.evaluations := by
  cases withDisplays with
  | true => exact exists_entries_ofNotes (List.cons_ne_nil n notes) h
  | false =>
    rw [← flatMap_evaluations_filter]
    have hne : (n :: notes).filter (fun m => !m.isDisplay) ≠ [] := by
      rw [List.filter_cons_of_pos (by rw [hn]; rfl)]
      exact List.cons_ne_nil _ _
    exact exists_entries_ofNotes hne fun m hm => h m (List.mem_filter.1 hm).1

/-- What is related one by one is known on one side if it is known on the other. -/
theorem forall_mem_iff_of_forall₂ {α β : Type} {R : α → β → Prop} {P : α → Prop} {Q : β → Prop}
    (hR : ∀ a b, R a b → (P a ↔ Q b)) {l : List α} {l' : List β} (h : List.Forall₂ R l l') :
    (∀ a ∈ l, P a) ↔ ∀ b ∈ l', Q b := by
  induction h with
  | nil => simp
  | cons hab _ ih => rw [List.forall_mem_cons, List.forall_mem_cons, hR _ _ hab, ih]

namespace Readiness

/-! ### Demands -/

/-- Something that is demanded of a node. -/
inductive Demand where
  /-- An architecture that is allowed. -/
  | architecture
  /-- Enough processing power. -/
  | cpu
  /-- Enough memory. -/
  | memory
  /-- A kernel that is not older than another one. -/
  | kernel (oldest : Version)

/-- The demands of a policy on each node. -/
def demands (policy : ReadinessPolicy) : List Demand :=
  [.architecture, .cpu, .memory] ++ (policy.minKernel.map .kernel).toList

theorem length_demands (policy : ReadinessPolicy) :
    (demands policy).length = if policy.minKernel.isSome then 4 else 3 := by
  rw [demands]
  cases policy.minKernel <;> rfl

namespace Demand

/-- What a node may offer: an architecture, thousandths of a core, bytes, or a version. -/
def Offer : Demand → Type
  | .architecture => String
  | .cpu => Nat
  | .memory => Nat
  | .kernel _ => Version

/-- What a node says that it offers. A field that is missing, empty or unreadable offers nothing. -/
def Offers (n : Node) : (d : Demand) → d.Offer → Prop
  | .architecture, name => n.info?.map NodeInfo.architecture = some name ∧ name ≠ ""
  | .cpu, millis => ∃ raw, n.allocatable? "cpu" = some raw ∧ Quantity.cpuMillis? raw = some millis
  | .memory, bytes =>
    ∃ raw, n.allocatable? "memory" = some raw ∧ Quantity.memoryBytes? raw = some bytes
  | .kernel _, version =>
    ∃ raw, n.info?.map NodeInfo.kernelVersion = some raw ∧ raw ≠ "" ∧
      Version.read? raw = some version

/-- What suffices, given the least memory in bytes. -/
def Suffices (policy : ReadinessPolicy) (bytes : Nat) : (d : Demand) → d.Offer → Prop
  | .architecture, name => name ∈ policy.architectures
  | .cpu, (offer : Nat) => 1000 * policy.minVcpu ≤ offer
  | .memory, (offer : Nat) => bytes ≤ offer
  | .kernel oldest, version => version.atLeast oldest

/-- The demand is met by a node. -/
def IsMet (policy : ReadinessPolicy) (bytes : Nat) (n : Node) (d : Demand) : Prop :=
  ∃ offer, d.Offers n offer ∧ d.Suffices policy bytes offer

/-- The outcome of a demand on a node. -/
structure Judges (policy : ReadinessPolicy) (bytes : Nat) (n : Node) (d : Demand)
    (e : Evaluation) : Prop where
  /-- A success says that the demand is met. -/
  success_iff : e.status = .success ↔ d.IsMet policy bytes n
  /-- A warning says that the node offers nothing. -/
  warning_iff : e.status = .warning ↔ ¬ ∃ offer, d.Offers n offer
  /-- An error says that the node offers too little. -/
  error_iff : e.status = .error ↔
    ∃ offer, d.Offers n offer ∧ ¬ d.Suffices policy bytes offer
  /-- It is about the node. -/
  name_eq : e.name = some n.name
  /-- It is about a node. -/
  kind_eq : e.kind = some "node"

end Demand

/-! ### Findings -/

section

variable {α : Type} {value : Option α} {holds : α → Bool}

/-- A node says what is there and not empty. -/
theorem said_eq_some_iff {text : Option String} {s : String} :
    said text = some s ↔ text = some s ∧ s ≠ "" := by
  rw [said, Option.filter_eq_some_iff]
  simp

theorem statusOf_eq_success_iff :
    statusOf value holds = .success ↔ ∃ a, value = some a ∧ holds a := by
  cases value <;> simp [statusOf]

theorem statusOf_eq_warning_iff : statusOf value holds = .warning ↔ value = none := by
  cases value with
  | none => simp [statusOf]
  | some a => cases h : holds a <;> simp [statusOf, h]

theorem statusOf_eq_error_iff :
    statusOf value holds = .error ↔ ∃ a, value = some a ∧ ¬ holds a := by
  cases value <;> simp [statusOf]

end

section

variable {policy : ReadinessPolicy} {bytes : Nat} {n : Node}

/-- A status that says what comes of a value is the outcome of the demand on the value. -/
theorem judges_of_statusOf {d : Demand} {value : Option d.Offer} {holds : d.Offer → Bool}
    (hvalue : ∀ offer, value = some offer ↔ d.Offers n offer)
    (hholds : ∀ offer, holds offer ↔ d.Suffices policy bytes offer) (said : Json) :
    d.Judges policy bytes n ⟨statusOf value holds, said, some n.name, some "node"⟩ where
  success_iff := by
    simp only [statusOf_eq_success_iff, hvalue, hholds, Demand.IsMet]
  warning_iff := by
    simp only [statusOf_eq_warning_iff, ← hvalue, Option.eq_none_iff_forall_ne_some, not_exists]
  error_iff := by
    simp only [statusOf_eq_error_iff, hvalue, hholds]
  name_eq := rfl
  kind_eq := rfl

/-- A finding as an observation of the node. -/
def NodeFinding.evaluation (f : NodeFinding) (n : Node) : Evaluation :=
  ⟨f.status, textOrNull f.value, some n.name, some "node"⟩

theorem judges_architectureFinding :
    Demand.architecture.Judges policy bytes n
      ((architectureFinding policy n).evaluation n) :=
  judges_of_statusOf (d := .architecture) (fun _ => said_eq_some_iff)
    (fun _ => List.contains_iff_mem) _

theorem judges_cpuFinding :
    Demand.cpu.Judges policy bytes n ((cpuFinding policy n).evaluation n) := by
  refine judges_of_statusOf (d := .cpu) (fun _ => Option.bind_eq_some_iff)
    (fun (offer : Nat) => ?_) _
  rw [decide_eq_true_iff, minCpuMillis, Nat.mul_comm]
  rfl

theorem judges_memoryFinding :
    Demand.memory.Judges policy bytes n ((memoryFinding policy bytes n).evaluation n) :=
  judges_of_statusOf (d := .memory) (fun _ => Option.bind_eq_some_iff)
    (fun (offer : Nat) => decide_eq_true_iff (p := bytes ≤ offer)) _

theorem judges_kernelFinding (oldest : Version) :
    (Demand.kernel oldest).Judges policy bytes n
      ((kernelFinding oldest n).evaluation n) := by
  have hvalue : ∀ version : Version,
      (said (n.info?.map NodeInfo.kernelVersion)).bind Version.read? = some version ↔
        ∃ raw, n.info?.map NodeInfo.kernelVersion = some raw ∧ raw ≠ "" ∧
          Version.read? raw = some version := by
    intro version
    simp only [Option.bind_eq_some_iff, said_eq_some_iff, and_assoc]
  exact judges_of_statusOf (d := .kernel oldest) hvalue (fun _ => Iff.rfl) _

/-- **The findings about a node are the outcomes of the demands.** -/
theorem forall₂_judges (policy : ReadinessPolicy) (bytes : Nat) (n : Node) :
    List.Forall₂ (Demand.Judges policy bytes n) (demands policy)
      ((nodeFindings policy bytes n).map fun f => f.evaluation n) := by
  rw [demands, nodeFindings, List.map_append]
  refine .cons judges_architectureFinding (.cons judges_cpuFinding (.cons judges_memoryFinding ?_))
  cases policy.minKernel with
  | none => exact .nil
  | some oldest => exact .cons (judges_kernelFinding oldest) .nil

end

/-! ### The check -/

/-- A check of nodes, given the least memory in bytes. -/
structure Decides (policy : ReadinessPolicy) (bytes : Nat) (nodes : List Node) (c : Check) :
    Prop where
  /-- There is one entry: the number of the nodes, and then the outcomes of the demands on each of
  them, in order. -/
  entries_eq : ∃ entry blocks, c.entries = [(nodesTarget, allNamespaces, entry)] ∧
    entry.evaluations = .of .success (.ofNat nodes.length) :: blocks.flatten ∧
    List.Forall₂
      (fun n block => List.Forall₂ (Demand.Judges policy bytes n) (demands policy) block)
      nodes blocks
  /-- The number of the observations. -/
  length_eq : c.evaluations.length = 1 + nodes.length * (if policy.minKernel.isSome then 4 else 3)
  /-- The check is a success if every node meets every demand. -/
  status_iff : c.status = .success ↔
    ∀ n ∈ nodes, ∀ d ∈ demands policy, d.IsMet policy bytes n

section

variable {policy : ReadinessPolicy} {bytes : Nat} {nodes : List Node} {c : Check}
  {blocks : List (List Evaluation)}

/-- Every node has one observation for each demand. -/
theorem length_flatten_of_forall₂
    (h : List.Forall₂ (fun n block =>
      List.Forall₂ (Demand.Judges policy bytes n) (demands policy) block) nodes blocks) :
    blocks.flatten.length = nodes.length * (demands policy).length := by
  induction h with
  | nil => simp
  | cons hblock _ ih =>
    rw [List.flatten_cons, List.length_append, ih, ← hblock.length_eq, List.length_cons,
      Nat.succ_mul, Nat.add_comm]

/-- All observations are successes if every node meets every demand. -/
theorem forall_status_iff_of_forall₂
    (h : List.Forall₂ (fun n block =>
      List.Forall₂ (Demand.Judges policy bytes n) (demands policy) block) nodes blocks) :
    (∀ e ∈ blocks.flatten, e.status = .success) ↔
      ∀ n ∈ nodes, ∀ d ∈ demands policy, d.IsMet policy bytes n := by
  have hflatten : (∀ e ∈ blocks.flatten, e.status = .success) ↔
      ∀ block ∈ blocks, ∀ e ∈ block, e.status = .success := by
    simp only [List.mem_flatten]
    exact ⟨fun h block hblock e he => h e ⟨block, hblock, he⟩,
      fun h e ⟨block, hblock, he⟩ => h block hblock e he⟩
  rw [hflatten]
  refine (forall_mem_iff_of_forall₂ (fun n block hblock => ?_) h).symm
  exact forall_mem_iff_of_forall₂ (fun d e hjudges => hjudges.success_iff.symm) hblock

/-- A conclusive check with such an entry decides as it should. -/
theorem decides_of_entries (hc : c.IsConclusive) {entry : Entry}
    (hentries : c.entries = [(nodesTarget, allNamespaces, entry)])
    (hentry : entry.evaluations = .of .success (.ofNat nodes.length) :: blocks.flatten)
    (hblocks : List.Forall₂ (fun n block =>
      List.Forall₂ (Demand.Judges policy bytes n) (demands policy) block) nodes blocks) :
    Decides policy bytes nodes c := by
  have hevaluations : c.evaluations = entry.evaluations := by
    rw [Check.evaluations, hentries, List.flatMap_singleton]
  refine ⟨⟨entry, blocks, hentries, hentry, hblocks⟩, ?_, ?_⟩
  · rw [hevaluations, hentry, List.length_cons, length_flatten_of_forall₂ hblocks, length_demands,
      Nat.add_comm]
  · rw [hc.isSound.status_eq, Check.evaluatedStatus, Status.worstOf_eq_success_iff,
      List.forall_mem_map, hevaluations, hentry, List.forall_mem_cons,
      forall_status_iff_of_forall₂ hblocks]
    exact and_iff_right rfl

end

/-- All notes about nodes have one place. -/
theorem place_of_mem_nodesNotes (level : DetailLevel) (policy : ReadinessPolicy) (bytes : Nat)
    (nodes : List Node) :
    ∀ n ∈ nodesNotes level policy bytes nodes, n.target = nodesTarget ∧ n.ns = allNamespaces := by
  refine List.forall_mem_cons.2 ⟨⟨rfl, rfl⟩, fun n hn => ?_⟩
  obtain ⟨node, -, hn⟩ := List.mem_flatMap.1 hn
  rcases List.mem_append.1 hn with hn | hn
  · obtain ⟨f, -, rfl⟩ := List.mem_map.1 hn
    exact ⟨rfl, rfl⟩
  · rw [List.mem_singleton.1 hn]
    exact ⟨rfl, rfl⟩

/-- The observations in the notes about nodes. -/
theorem flatMap_evaluations_nodesNotes (level : DetailLevel) (policy : ReadinessPolicy)
    (bytes : Nat) (nodes : List Node) :
    (nodesNotes level policy bytes nodes).flatMap (fun n => n.change.evaluations) =
      .of .success (.ofNat nodes.length) ::
        (nodes.map fun n => (nodeFindings policy bytes n).map fun f => f.evaluation n).flatten := by
  have hnode : ∀ n : Node,
      (nodeNotes level policy bytes n).flatMap (fun note => note.change.evaluations) =
        (nodeFindings policy bytes n).map fun f => f.evaluation n := by
    intro n
    rw [nodeNotes, List.flatMap_append, List.flatMap_map, List.flatMap_singleton,
      List.map_eq_flatMap]
    exact List.append_nil _
  rw [nodesNotes, List.flatMap_cons, List.flatMap_assoc]
  simp only [hnode, List.flatMap_def]
  rfl

/-- The notes about nodes make a check that decides as it should, with lines for human readers or
without. -/
theorem decides_ofNotesFor (withDisplays : Bool) (level : DetailLevel) (policy : ReadinessPolicy)
    (bytes : Nat) (nodes : List Node) (name description : String) :
    Decides policy bytes nodes
      (.ofNotesFor withDisplays name description (nodesNotes level policy bytes nodes)) := by
  have hconclusive : (Check.ofNotesFor withDisplays name description
      (nodesNotes level policy bytes nodes)).IsConclusive :=
    Check.isConclusive_ofNotesFor withDisplays name description isFinding_of_mem_nodesNotes
  have hblocks : List.Forall₂ (fun n block =>
      List.Forall₂ (Demand.Judges policy bytes n) (demands policy) block)
      nodes (nodes.map fun n => (nodeFindings policy bytes n).map fun f => f.evaluation n) := by
    rw [List.forall₂_map_right_iff, List.forall₂_same]
    exact fun n _ => forall₂_judges policy bytes n
  obtain ⟨entry, hentries, hentry⟩ := Check.exists_entries_ofNotesFor withDisplays name description
    rfl (place_of_mem_nodesNotes level policy bytes nodes)
  exact decides_of_entries hconclusive hentries
    (hentry.trans (flatMap_evaluations_nodesNotes level policy bytes nodes)) hblocks

/-- A policy that can be checked names an amount of memory. -/
theorem exists_memoryBytes?_of_validate {policy : ReadinessPolicy} (h : policy.validate = .ok ()) :
    ∃ bytes, Quantity.memoryBytes? policy.minMemory = some bytes := by
  rw [ReadinessPolicy.validate, ReadinessPolicy.minMemoryBytes] at h
  cases hread : Quantity.memoryBytes? policy.minMemory with
  | some bytes => exact ⟨bytes, rfl⟩
  | none =>
    rw [hread] at h
    cases h

/-- **What the check of the nodes decides.** Whoever replies, and however much time there is: where
nodes are listed and the policy can be checked, the check comes about and decides on the demands of
the policy. Only where a thousand times its count of cores is too great for 64 bits, the check is
aborted instead. -/
theorem checkNodes_decides (scope : Scope) {policy : ReadinessPolicy}
    (hvalid : policy.validate = .ok ()) {nodes : List Node} (hne : nodes ≠ [])
    {responder : Responder} {past : Trace} {limit : Option Nat} {now : Nat}
    (hnodes : ((Attempt.ask .listNodes).run responder past limit now).result = .ok (.ok nodes)) :
    let result := ((checkNodes scope policy).run responder past limit now).result
    ∃ bytes, Quantity.memoryBytes? policy.minMemory = some bytes ∧
      (1000 * policy.minVcpu < 2 ^ 64 → ∃ c, result = .ok (.ok c) ∧
        Decides policy bytes nodes c) ∧
      (2 ^ 64 ≤ 1000 * policy.minVcpu → result = .error .aborted) := by
  intro result
  obtain ⟨bytes, hbytes⟩ := exists_memoryBytes?_of_validate hvalid
  have hleast : policy.minMemoryBytes = .ok bytes := by
    rw [ReadinessPolicy.minMemoryBytes, hbytes]
  have hresult : ∃ past' now', result = ((gatherNodes scope.level policy nodes >>= fun notes =>
      pure (.ofNotesFor scope.withDisplays nodesCheck nodesDescription notes)).run responder past'
        limit now').result := by
    simp only [result, checkNodes]
    rw [Session.run_bind, Session.bind_of_ok hnodes]
    exact ⟨_, _, rfl⟩
  obtain ⟨past', now', hresult⟩ := hresult
  obtain ⟨n, rest, rfl⟩ := List.exists_cons_of_ne_nil hne
  refine ⟨bytes, hbytes, fun hfits => ?_, fun hoverflows => ?_⟩
  · rw [← Nat.not_le, ← ReadinessPolicy.Overflows, overflows_iff, Decidable.not_not] at hfits
    refine ⟨_, hresult.trans ?_, decides_ofNotesFor scope.withDisplays scope.level policy bytes
      (n :: rest) nodesCheck nodesDescription⟩
    simp only [gatherNodes, hleast, if_pos hfits]
    rfl
  · rw [← ReadinessPolicy.Overflows, overflows_iff] at hoverflows
    rw [hresult]
    simp only [gatherNodes, hleast, if_neg hoverflows]
    rfl

/-- A node with some processing power. -/
private def nodeWith (name cpu : String) : Node where
  metadata := ⟨some name, none, none⟩
  status := some ⟨some [("cpu", cpu), ("memory", "32Gi")],
    some ⟨"amd64", "", "", "5.15.0-91-generic", "", "", "", "", "", ""⟩⟩

/-- A node that says nothing. -/
private def silentNode : Node := ⟨⟨some "silent", none, none⟩, none⟩

/-- A cluster that lists some nodes. -/
private def clusterOf (nodes : List Node) : Cluster where
  reply
    | .listNodes => ⟨3, .ok nodes⟩
    | _ => ⟨3, .error (.api 503 "unavailable")⟩

/-- The policy where nothing else is said, with a demand on the kernel. -/
private def kernelPolicy : ReadinessPolicy :=
  { ReadinessPolicy.standard with minKernel := some ⟨[5, 15]⟩ }

/-- The scope of a run that shows no lines. -/
private def recorded : Scope := ⟨⟨none, 5, none, false, 80⟩, .any, .summary, false⟩

/-- Two nodes, of which one says nothing. -/
theorem checkNodes_decides_two :
    kernelPolicy.validate = .ok () ∧ [nodeWith "big" "4", silentNode] ≠ [] ∧
      ((Attempt.ask .listNodes).run (clusterOf [nodeWith "big" "4", silentNode]).responder [] none
        0).result = .ok (.ok [nodeWith "big" "4", silentNode]) ∧
      ∃ bytes c, ((checkNodes recorded kernelPolicy).run
          (clusterOf [nodeWith "big" "4", silentNode]).responder [] none 0).result = .ok (.ok c) ∧
        Decides kernelPolicy bytes [nodeWith "big" "4", silentNode] c ∧
        c.evaluations.length = 9 := by
  have hvalid : kernelPolicy.validate = .ok () := by decide
  have hnodes : ((Attempt.ask .listNodes).run
      (clusterOf [nodeWith "big" "4", silentNode]).responder [] none 0).result =
        .ok (.ok [nodeWith "big" "4", silentNode]) := rfl
  obtain ⟨bytes, -, hfits, -⟩ := checkNodes_decides recorded hvalid (List.cons_ne_nil _ _) hnodes
  obtain ⟨c, hresult, hdecides⟩ := hfits (by decide)
  exact ⟨hvalid, List.cons_ne_nil _ _, hnodes, bytes, c, hresult, hdecides, hdecides.length_eq⟩

/-- The policy where nothing else is said, with more cores than there can be. -/
private def greedyPolicy : ReadinessPolicy :=
  { ReadinessPolicy.standard with minVcpu := 18446744073709552 }

/-- A node that offers too little is told nothing about where the policy demands so many cores that
a thousand times their count is too great for 64 bits. -/
theorem checkNodes_greedy_aborted :
    greedyPolicy.validate = .ok () ∧
      ((checkNodes recorded greedyPolicy).run (clusterOf [nodeWith "small" "1"]).responder [] none
        0).result = .error .aborted ∧
      Demand.cpu.Offers (nodeWith "small" "1") (1000 : Nat) ∧
      1000 < 1000 * greedyPolicy.minVcpu := by
  have hmillis : Quantity.cpuMillis? "1" = some (1000 : Nat) := by decide
  exact ⟨by decide, rfl, ⟨"1", rfl, hmillis⟩, by decide⟩

end Readiness

end EdgeHealth
