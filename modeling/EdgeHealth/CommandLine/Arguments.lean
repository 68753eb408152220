import EdgeHealth.Catalog
import EdgeHealth.CommandLine.Grammar
import EdgeHealth.Number.Literal
import EdgeHealth.Status

/-!
# The arguments of the program

The commands of the program, what each takes, and how they are read from the words of a command
line.

## Main definitions

* `LogOptions` : what is logged; every command takes it.
* `CheckArguments`, `BundleArguments` : the arguments of the commands.
* `CommandLine` : a command with its arguments.
* `CommandLine.read` : the command in the words after the name of the program.
-/

namespace EdgeHealth

/-- What is logged. -/
structure LogOptions where
  /-- How much; at most 255. -/
  verbosity : Nat
  /-- Whether each line is a record. -/
  asJson : Bool
  deriving DecidableEq, Repr

namespace LogOptions

/-- The options where nothing is said. -/
def standard : LogOptions := ⟨0, false⟩

/-- The options after those of the program. A verbosity of the command itself has the last word. -/
def after (own outer : LogOptions) : LogOptions :=
  ⟨if own.verbosity = 0 then outer.verbosity else own.verbosity, own.asJson || outer.asJson⟩

/-- The switches for the options. -/
def switches : List (Switch LogOptions) :=
  [((Switch.mark "verbose" fun o : LogOptions =>
      { o with verbosity := min 255 (o.verbosity + 1) }).withLetter 'v').repeating,
    .mark "log-json" fun o => { o with asJson := true }]

end LogOptions

/-- The services that are checked. -/
inductive ServiceChoice where
  /-- One service. -/
  | only (service : Service)
  /-- All services. -/
  | all
  deriving DecidableEq, Repr

/-- The choice for a word. -/
def ServiceChoice.ofWord? (word : String) : Option ServiceChoice :=
  if word = "all" then some .all
  else (Service.all.find? fun s => s.word == word).map .only

/-- The arguments of the command that checks. -/
structure CheckArguments where
  /-- The services. -/
  service : ServiceChoice
  /-- Whether the checks before deployment are asked for. -/
  before : Bool
  /-- Whether the checks after deployment are asked for. -/
  after : Bool
  /-- Whether the report is for human readers. -/
  asList : Bool
  /-- Words for the kinds that are looked at. -/
  kinds : Option (List String)
  /-- A pattern for the names of the resources that are looked at. -/
  namePattern : Option String
  /-- How much of a resource is shown. -/
  level : DetailLevel
  /-- The only namespace that is looked at. -/
  ns : Option String
  /-- Whether warnings before deployment are failures. -/
  strict : Bool
  /-- The file of settings. -/
  settings : Option String
  /-- How long the checks may take, in seconds. -/
  timeout : Option Nat
  /-- Whether the statistics of the broker are looked at. -/
  stats : Bool
  /-- The name of the cluster among those that are known. -/
  cluster : Option String
  /-- Whether the report is without colors. -/
  plain : Bool
  deriving DecidableEq, Repr

namespace CheckArguments

/-- The arguments where nothing is said. -/
def standard : CheckArguments where
  service := .all
  before := false
  after := false
  asList := false
  kinds := none
  namePattern := none
  level := .summary
  ns := none
  strict := false
  settings := none
  timeout := none
  stats := false
  cluster := none
  plain := false

/-- The pieces of a text between commas. -/
def pieces (text : String) : List String :=
  (Text.splitOn ',' text.toList).map String.ofList

/-- The level for a number. -/
def level? (cs : List Char) : Option DetailLevel :=
  (Number.integer? 0 2 cs).bind fun i => DetailLevel.ofNat? i.toNat

/-- What the command takes. -/
def grammar : Grammar CheckArguments where
  switches :=
    [.mark "pre" fun a => { a with before := true },
      .mark "post" fun a => { a with after := true },
      .mark "as-list" fun a => { a with asList := true },
      (Switch.text "resources" fun text (a : CheckArguments) =>
        { a with kinds := some (a.kinds.getD [] ++ pieces text) }).repeating,
      .text "resource-name" fun text a => { a with namePattern := some text },
      .number "detail-level" level? fun level a => { a with level },
      (Switch.text "namespace" fun text (a : CheckArguments) =>
        { a with ns := some text }).withLetter 'n',
      .mark "strict" fun a => { a with strict := true },
      .path "config" fun path a => { a with settings := some path },
      .number "timeout-seconds" (Number.natural? Number.maxUInt64) fun seconds a =>
        { a with timeout := some seconds },
      .mark "stats" fun a => { a with stats := true },
      .text "context" fun text a => { a with cluster := some text },
      .mark "no-color" fun a => { a with plain := true }]
  operand := some (.take "service" fun word a =>
    match ServiceChoice.ofWord? word with
    | some service => .ok { a with service }
    | none => .error (.unknownValue "service" word))
  commands := []

end CheckArguments

/-- The arguments of the command that collects a bundle. -/
structure BundleArguments where
  /-- The service to collect from, or the word that stands for those that are found. -/
  service : String
  /-- The age of the oldest log lines, in seconds. -/
  logAge : Int
  /-- The directory for the archive. -/
  directory : String
  /-- The name of the cluster among those that are known. -/
  cluster : Option String
  /-- The file of settings. -/
  settings : Option String
  /-- Whether no progress is shown. -/
  quiet : Bool
  deriving DecidableEq, Repr

namespace BundleArguments

/-- The arguments where nothing is said: logs are collected for seven days. -/
def standard : BundleArguments where
  service := "auto"
  logAge := 60 * 60 * 24 * 7
  directory := "."
  cluster := none
  settings := none
  quiet := false

/-- What the command takes. -/
def grammar : Grammar BundleArguments where
  switches :=
    [.text "ops-service" fun service a => { a with service },
      .number "log-age-seconds" Number.int64? fun logAge a => { a with logAge },
      .path "bundle-dir" fun directory a => { a with directory },
      .text "context" fun text a => { a with cluster := some text },
      .path "config" fun path a => { a with settings := some path },
      .mark "no-progress" fun a => { a with quiet := true }]
  operand := none
  commands := []

end BundleArguments

/-- A command with its arguments. -/
inductive Command where
  /-- It tells the version of the program. -/
  | version
  /-- It checks the cluster. -/
  | check (arguments : CheckArguments)
  /-- It collects a bundle. -/
  | bundle (arguments : BundleArguments)
  deriving DecidableEq, Repr

/-- A command line. -/
structure CommandLine where
  /-- What is logged. -/
  log : LogOptions
  /-- What is done. -/
  command : Command
  deriving DecidableEq, Repr

namespace CommandLine

/-- What the program takes before a command. -/
def grammar : Grammar LogOptions where
  switches := LogOptions.switches ++ [.help, .version]
  operand := none
  commands := ["version", "check", "support-bundle", "help"]

/-- What a command takes along with the options of the log and the wish for help. -/
def alongWithLog {α : Type} (g : Grammar α) : Grammar (LogOptions × α) where
  switches :=
    LogOptions.switches.map (Switch.within Prod.fst fun log pair => (log, pair.2)) ++
    g.switches.map (Switch.within Prod.snd fun a pair => (pair.1, a)) ++ [.help]
  operand := g.operand.map (Switch.within Prod.snd fun a pair => (pair.1, a))
  commands := g.commands

/-- What a wish for help about commands comes to. No command has a command below it. -/
def helpAbout : List String → UsageError
  | [] => .help
  | [word] => if grammar.commands.contains word then .help else .unknownCommand word
  | word :: below :: _ =>
    .unknownCommand (if grammar.commands.contains word then below else word)

/-- A command whose arguments are in words, after options of the log. -/
def ofWords {α : Type} (outer : LogOptions) (g : Grammar α) (standard : α) (command : α → Command)
    (words : List String) : Except UsageError CommandLine :=
  ((alongWithLog g).read (.standard, standard) words).map fun (log, a) =>
    ⟨log.after outer, command a⟩

/-- The command in the words after the name of the program. -/
def read (words : List String) : Except UsageError CommandLine :=
  match grammar.words words (.start .standard) with
  | .error e => .error e
  | .ok (outer, rest) =>
    let log := outer.arguments
    match rest with
    | "version" :: rest =>
      ofWords log ⟨[], none, []⟩ () (fun _ => .version) rest
    | "check" :: rest => ofWords log CheckArguments.grammar .standard .check rest
    | "support-bundle" :: rest => ofWords log BundleArguments.grammar .standard .bundle rest
    | "help" :: rest => .error (helpAbout rest)
    | _ => .error (if outer.given.isEmpty then .nothingGiven else .missingCommand)

end CommandLine

end EdgeHealth
