import EdgeHealth.Json.Decode
import EdgeHealth.Quantity
import EdgeHealth.Version

/-!
# Settings

What a cluster has to offer before the services are deployed, and the settings of a run. Every
setting has a value of its own where none is given.

## Main definitions

* `ReadinessPolicy` : what the cluster has to offer.
* `ReadinessPolicy.validate` : whether a policy can be checked.
* `Settings` : the contents of a file of settings.
* `SettingsError` : why settings cannot be used.
* `RunContext` : where and how long a run looks.
-/

namespace EdgeHealth

open Json

/-- What a cluster has to offer before the services are deployed. -/
structure ReadinessPolicy where
  /-- The oldest version of the cluster. -/
  minVersion : Version
  /-- The architectures that nodes may have. -/
  architectures : List String
  /-- The least count of cores of a node. -/
  minVcpu : Nat
  /-- The least memory of a node, as a quantity. -/
  minMemory : String
  /-- The oldest kernel; without it the kernel is not checked. -/
  minKernel : Option Version
  /-- The storage classes of which one has to be there; without any they are not checked. -/
  storageClasses : List String
  /-- Whether warnings count as failures. -/
  strict : Bool
  deriving DecidableEq, Repr

/-- Why settings cannot be used. -/
inductive SettingsError where
  /-- The file cannot be read. -/
  | unreadable
  /-- The text is not a document of settings. -/
  | malformed
  /-- A value makes no sense. -/
  | invalid (field message : String)
  deriving DecidableEq, Repr

/-- The wording of a value that makes no sense; other errors have no wording of their own. -/
def SettingsError.message? : SettingsError → Option String
  | .invalid field message => some s!"Invalid value for {field}: {message}"
  | _ => none

namespace ReadinessPolicy

/-- The policy where nothing else is said. -/
def standard : ReadinessPolicy where
  minVersion := ⟨[1, 20]⟩
  architectures := ["amd64"]
  minVcpu := 4
  minMemory := "16G"
  minKernel := none
  storageClasses := []
  strict := false

instance : Inhabited ReadinessPolicy := ⟨standard⟩

/-- The least memory of a node in bytes. -/
def minMemoryBytes (p : ReadinessPolicy) : Except SettingsError Nat :=
  match Quantity.memoryBytes? p.minMemory with
  | some bytes => .ok bytes
  | none => .error (.invalid "minMemory" s!"'{p.minMemory}' is not a memory quantity")

/-- A policy can be checked if its memory is a quantity and it allows an architecture. -/
def validate (p : ReadinessPolicy) : Except SettingsError Unit :=
  match p.minMemoryBytes with
  | .error e => .error e
  | .ok _ =>
    if p.architectures.isEmpty then
      .error (.invalid "allowedArchitectures" "at least one architecture is required")
    else .ok ()

/-- A version in a text. -/
def version? (v : Json) : Option Version := v.text?.bind Version.read?

/-- The policy of a record. -/
def ofJson? (v : Json) : Option ReadinessPolicy :=
  if v.isRecord 7 then do
    let minVersion ← v.fieldOr? 0 "minK8sVersion" standard.minVersion version?
    let architectures ← v.fieldOr? 1 "allowedArchitectures" standard.architectures (list? text?)
    let minVcpu ← v.fieldOr? 2 "minVcpu" standard.minVcpu (natUpTo? Number.maxUInt64)
    let minMemory ← v.fieldOr? 3 "minMemory" standard.minMemory text?
    let minKernel ← v.fieldOr? 4 "minKernelVersion" none (optional? version?)
    let storageClasses ← v.fieldOr? 5 "storageClasses" [] (list? text?)
    let strict ← v.fieldOr? 6 "strict" false bool?
    return ⟨minVersion, architectures, minVcpu, minMemory, minKernel, storageClasses, strict⟩
  else none

/-- A policy as a record. -/
def toJson (p : ReadinessPolicy) : Json :=
  .object ([("minK8sVersion", .string p.minVersion.text),
      ("allowedArchitectures", ofTexts p.architectures),
      ("minVcpu", ofNat p.minVcpu),
      ("minMemory", .string p.minMemory)] ++
    optionalMember "minKernelVersion" (p.minKernel.map fun v => .string v.text) ++
    optionalMember "storageClasses"
      (if p.storageClasses.isEmpty then none else some (ofTexts p.storageClasses)) ++
    [("strict", .bool p.strict)])

end ReadinessPolicy

/-- The contents of a file of settings. -/
structure Settings where
  /-- What the cluster has to offer. -/
  readiness : ReadinessPolicy
  /-- How long a question to the cluster may take, in seconds. -/
  apiTimeoutSeconds : Nat
  /-- The port at which the statistics of the broker are served. -/
  brokerStatsPort : Nat
  deriving DecidableEq, Repr

namespace Settings

/-- The settings where nothing else is said. -/
def standard : Settings := ⟨.standard, 30, 9600⟩

/-- Settings as a record. -/
def toJson (s : Settings) : Json :=
  .object [("preDeployment", s.readiness.toJson), ("apiTimeoutSeconds", ofNat s.apiTimeoutSeconds),
    ("brokerStatsPort", ofNat s.brokerStatsPort)]

end Settings

/-- Where and how long a run looks. -/
structure RunContext where
  /-- The only namespace that is looked at; all of them without it. -/
  ns : Option String
  /-- How long a question to the cluster may take, in milliseconds. -/
  apiTimeout : Nat
  /-- The moment at which checks that are not finished are given up. -/
  deadline : Option Nat
  /-- Whether the statistics of the broker are looked at. -/
  brokerStats : Bool
  /-- The port at which they are served. -/
  statsPort : Nat
  deriving DecidableEq, Repr

/-- The context of a run under some settings, which has no deadline. -/
def RunContext.ofSettings (s : Settings) : RunContext :=
  ⟨none, s.apiTimeoutSeconds * 1000, none, false, s.brokerStatsPort⟩

end EdgeHealth
