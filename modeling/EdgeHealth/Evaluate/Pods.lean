import EdgeHealth.Evaluate.Finding

/-!
# Checking the pods of a service

The check of the pods in which a service runs. A pod belongs to the longest of the starts of names
that its own name begins with.

The restarts of the containers of a pod are added for the lines about it, in signed numbers of 32
bits. A sum that is none of these aborts the check. Where the lines are not made, nothing is added.

## Main definitions

* `PodHealth.phaseStatus` : the status of a phase.
* `PodHealth.bestStart?` : the start of names that a pod belongs to.
* `PodHealth.exceedsFrom` : whether the restarts of containers are too many to be added.
* `PodHealth.notes` : the notes about a list of pods.
* `PodHealth.gather` : the same, unless there are too many restarts.
* `Service.checkPods` : the check of the pods of a service.
-/

namespace EdgeHealth

namespace PodHealth

/-- The status of a phase. -/
def phaseStatus : Option String → Status
  | some phase =>
    if phase = "Running" ∨ phase = "Succeeded" then .success
    else if phase = "Failed" then .error
    else .warning
  | none => .warning

/-- The start of names that a name belongs to: the longest of those that it begins with. -/
def bestStart? (name : String) : List PodPrefix → Option String
  | [] => none
  | p :: rest =>
    match bestStart? name rest with
    | some best =>
      if name.startsWith p.start && best.length < p.start.length then some p.start else some best
    | none => if name.startsWith p.start then some p.start else none

/-- The sum of restart counts. -/
def restarts : List ContainerStatus → Int
  | [] => 0
  | c :: rest => c.restartCount + restarts rest

/-- Whether a number is a signed one of 32 bits. -/
def isInt32 (n : Int) : Bool := Int32.minValue.toInt ≤ n && n ≤ Int32.maxValue.toInt

/-- Whether a sum leaves the signed numbers of 32 bits when restart counts are added to it, one
after another. -/
def exceedsFrom (sum : Int) : List ContainerStatus → Bool
  | [] => false
  | c :: rest =>
    let next := sum + c.restartCount
    !isInt32 next || exceedsFrom next rest

/-- Whether the restart counts of a pod cannot be added. -/
def exceeds (p : Pod) : Bool :=
  exceedsFrom 0 ((p.status.bind PodStatus.containers).getD [])

/-- The lines about the containers of a pod. -/
def containerLines (p : Pod) : List Display :=
  match p.status.bind PodStatus.containers with
  | none => []
  | some containers =>
    let ready := (containers.filter ContainerStatus.ready).length
    Display.field 6 "Containers ready" s!"{ready}/{containers.length}" ::
      if 0 < restarts containers then
        [Display.field 6 "Restarts" (Text.ofInt (restarts containers))]
      else []

/-- The lines about where a pod runs and since when. -/
def placeLines (p : Pod) : List Display :=
  let node := (p.spec.bind PodSpec.nodeName).map fun name => Display.field 6 "Node" name
  let started := (p.status.bind PodStatus.startTime).map fun t =>
    Display.field 6 "Started" (t.written "+00:00")
  node.toList ++ started.toList

/-- The lines about a pod at a level of detail. -/
def lines (level : DetailLevel) (p : Pod) : List Display :=
  ((((Display.blank 2).plain "Pod ").value p.name).plain " in phase ").status
      (p.phase?.getD "N/A") (phaseStatus p.phase?) ::
    (if level.showsDetail then containerLines p else []) ++
    (if level.isVerbose then placeLines p else [])

/-- The target for the pods whose names start in one way. -/
def target (start : String) : String := s!"pod/{start}"

/-- The notes about one pod. -/
def podNotes (level : DetailLevel) (target : String) (p : Pod) : List Note :=
  let ns := p.nsOr allNamespaces
  let phase : Json := match p.phase? with
    | some phase => .string phase
    | none => .null
  [.observe target ns "status.phase"
      ⟨phaseStatus p.phase?, .object [("name", .string p.name), ("status.phase", phase)],
        some p.name, some "pod"⟩,
    .display target ns (lines level p)]

/-- The notes when there is no pod for a start of names. -/
def absenceNotes (start : String) : List Note :=
  let message := s!"{start} pod not detected."
  [.observe (target start) allNamespaces s!"len({target start})>=1"
      ⟨.warning, .string message, none, some "pod"⟩,
    .display (target start) allNamespaces [.notice 0 message .warning]]

/-- The notes about the pods that belong to one start of names. -/
def startNotes (level : DetailLevel) (starts : List PodPrefix) (pods : List Pod)
    (p : PodPrefix) : List Note :=
  match pods.filter fun pod => bestStart? pod.name starts == some p.start with
  | [] => if p.required then absenceNotes p.start else []
  | found => found.flatMap (podNotes level (target p.start))

/-- The notes about a list of pods, for each start of names in order. -/
def notes (level : DetailLevel) (starts : List PodPrefix) (pods : List Pod) : List Note :=
  starts.flatMap (startNotes level starts pods)

/-- Whether the lines about a list of pods cannot be made. The restarts are added for each pod that
belongs to a start of names, but only where they are shown. -/
def isTooMuch (withDisplays : Bool) (level : DetailLevel) (starts : List PodPrefix)
    (pods : List Pod) : Bool :=
  withDisplays && level.showsDetail &&
    pods.any fun p => (bestStart? p.name starts).isSome && exceeds p

/-- The notes about a list of pods. The check is aborted where lines are wanted that cannot be
made. -/
def gather (withDisplays : Bool) (level : DetailLevel) (starts : List PodPrefix)
    (pods : List Pod) : Attempt (List Note) :=
  if isTooMuch withDisplays level starts pods then Attempt.abort
  else return notes level starts pods

end PodHealth

namespace Service

/-- What the check of the pods does. -/
def podCheckDescription (s : Service) : String := s!"Evaluate {s.title} runtime pods"

/-- The check of the pods of a service. -/
def checkPods (scope : Scope) (s : Service) : Attempt Check := do
  let pods ← Attempt.ask (.listPods scope.context.ns none)
  let notes ← PodHealth.gather scope.withDisplays scope.level s.podPrefixes pods
  return .ofNotesFor scope.withDisplays s.podCheck s.podCheckDescription notes

end Service

end EdgeHealth
