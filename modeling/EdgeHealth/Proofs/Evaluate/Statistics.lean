import EdgeHealth.Proofs.Check.Contents
import EdgeHealth.Proofs.Evaluate.Limit

/-!
# The statistics of the broker, whatever comes of them

The check of the statistics asks for the pods and then waits for what one of them serves. The pod
may be missing, the connection may be refused, break off, or stay silent for ever, and the bytes
that come may be anything. None of this fails the check: it then consists of one warning, that the
statistics cannot be reached. Statistics that do come are recorded behind a good observation, and
only a threshold that is not met makes the check a warning. The wait is given up after some time, so
that the check is over by then.

## Main definitions

* `Scrape.served?` : the statistics that a reply brings within some time.
* `Statistics.served?` : the statistics that the serving pod brings.
* `Statistics.Reports` : a check about statistics, or about their absence.

## Main results

* `Scrape.result_fetch` : what the wait for statistics comes to.
* `Statistics.gather_eq` : the notes about statistics, or about their absence.
* `Statistics.check_never_fails` : the check of the statistics.
-/

namespace EdgeHealth

/-- The answer to a question is awaited for some time. -/
theorem Attempt.result_ask (call : Call) (duration : Nat) (responder : Responder) (past : Trace)
    (now : Nat) :
    ((ask call).run responder past (some (now + duration)) now).result =
      if (responder.reply past now call).delay ≤ duration then
        .ok (responder.reply past now call).answer
      else .error .cutOff := by
  split
  · next h => simp [ask, Session.ask, ExceptT.run, ExceptT.mk, Nat.not_lt.2 h]
  · next h => simp [ask, Session.ask, ExceptT.run, ExceptT.mk, Nat.not_le.1 h]

namespace Scrape

/-- The statistics that come over a connection, if any do. -/
def received? : Connection → Option BrokerStats
  | .responds bytes => (readResponse bytes).toOption
  | _ => none

/-- The statistics that a reply to the question for a connection brings within some time. -/
def served? (reply : Reply Connection) (duration : Nat) : Option BrokerStats :=
  if reply.delay ≤ duration then reply.answer.toOption.bind received? else none

theorem result_exchange (port : Nat) (connection : Connection) (responder : Responder)
    (past : Trace) (moment now : Nat) :
    ((exchange port connection).run responder past (some moment) now).result.toOption.bind
      Except.toOption = received? connection := by
  cases connection <;> rfl

/-- The wait for statistics comes to those that are served in time, and to none otherwise. -/
theorem result_fetch (ns pod : String) (port duration : Nat) (responder : Responder)
    (past : Trace) (now : Nat) :
    ((fetch ns pod port).run responder past (some (now + duration)) now).result.toOption.bind
        Except.toOption =
      served? (responder.reply past now (.forwardPort ns pod port)) duration := by
  have hask := Attempt.result_ask (.forwardPort ns pod port) duration responder past now
  rw [fetch, Session.run_bind, served?]
  split
  · next h =>
    rw [if_pos h] at hask
    rw [Session.bind_of_ok hask]
    cases (responder.reply past now (.forwardPort ns pod port)).answer with
    | error e => rfl
    | ok connection => exact result_exchange port connection ..
  · next h =>
    rw [if_neg h] at hask
    rw [Session.bind_of_error hask]
    rfl

end Scrape

namespace Statistics

/-! ### The notes -/

/-- The statistics that the serving one of some pods brings in time. -/
def served? (context : RunContext) (pods : List Pod) (responder : Responder) (past : Trace)
    (now : Nat) : Option BrokerStats :=
  (servingPod? pods).bind fun pod =>
    Scrape.served?
      (responder.reply past now
        (.forwardPort (pod.nsOr allNamespaces) pod.name context.statsPort))
      context.apiTimeout

/-- The notes about statistics, or about their absence. -/
def outcomeNotes (ns : String) (port : Nat) (value : Json) : Option BrokerStats → List Note
  | some stats => record ns (reachable port) .success value ++ notes ns stats
  | none => record ns (reachable port) .warning value

theorem fetchNotes_eq (context : RunContext) (ns pod : String)
    (outcome : Option (Except ClusterError BrokerStats)) :
    ∃ value, fetchNotes context ns pod outcome =
      outcomeNotes ns context.statsPort value (outcome.bind Except.toOption) := by
  match outcome with
  | some (.ok stats) => exact ⟨_, rfl⟩
  | some (.error e) => exact ⟨_, rfl⟩
  | none => exact ⟨_, rfl⟩

/-- What is gathered are notes about the statistics that are served, or about their absence, and it
takes no longer than one question may. -/
theorem gather_eq (context : RunContext) (pods : List Pod) (responder : Responder)
    (past : Trace) (now : Nat) :
    (∃ ns value, ((gather context pods).run responder past none now).result =
      .ok (.ok (outcomeNotes ns context.statsPort value
        (served? context pods responder past now)))) ∧
    ((gather context pods).run responder past none now).time ≤ now + context.apiTimeout := by
  rw [gather, served?]
  cases servingPod? pods with
  | none =>
    exact ⟨⟨allNamespaces, .string s!"No running {Service.statisticsPod} pod detected.", rfl⟩,
      Nat.le_add_right ..⟩
  | some pod =>
    let ns := pod.nsOr allNamespaces
    let wait := Session.timeout context.apiTimeout
      (Scrape.fetch ns pod.name context.statsPort).run
    have hwait := (Session.timeout_result context.apiTimeout
      (Scrape.fetch ns pod.name context.statsPort).run responder past now).trans
        (Session.awaited_of_ne_aborted (result_fetch_ne_aborted _ _ _ _ _ _))
    have hlift : (Attempt.lift wait).run responder past none now =
        ⟨.ok (.ok _), (wait responder past none now).time, (wait responder past none now).trace⟩ :=
      Session.bind_pure_of_ok hwait
    dsimp only
    rw [Session.run_bind, Session.bind_of_ok (congrArg Outcome.result hlift), hlift]
    constructor
    · obtain ⟨value, hnotes⟩ := fetchNotes_eq context ns pod.name
        ((Scrape.fetch ns pod.name context.statsPort).run responder past
          (some (now + context.apiTimeout)) now).result.toOption
      rw [Scrape.result_fetch] at hnotes
      exact ⟨ns, value, congrArg (fun notes => Except.ok (Except.ok notes)) hnotes⟩
    · change (wait responder past none now).time ≤ _
      rw [Session.timeout_time]
      exact (Scrape.punctual_fetch ns pod.name context.statsPort).time_le (Nat.le_add_right ..)

/-! ### What the notes record -/

/-- What is recorded of statistics: conditions with their outcomes and values. -/
def readings (stats : BrokerStats) : List (String × Status × Json) :=
  (reported.filterMap fun metric =>
      (stats.get? metric).map fun v => (metric, .success, .ofBinary64 v)) ++
    stats.thresholds.map fun t =>
      (t.condition, if t.met then .success else .warning, .ofBinary64 t.value)

theorem notes_eq_flatMap (ns : String) (stats : BrokerStats) :
    notes ns stats = (readings stats).flatMap fun (condition, status, value) =>
      record ns condition status value := by
  simp only [notes, readings, List.flatMap_def, List.map_append, List.map_filterMap, List.map_map,
    Option.map_map]
  rfl

theorem observed_notes (ns : String) (stats : BrokerStats) :
    (notes ns stats).flatMap (fun n => n.change.observed) =
      (readings stats).map fun (condition, status, value) => (condition, .of status value) := by
  rw [notes_eq_flatMap, List.flatMap_assoc, ← List.flatMap_pure_eq_map]
  rfl

/-- The first thing that is recorded is whether there are statistics. -/
theorem observed_outcomeNotes (ns : String) (port : Nat) (value : Json)
    (served : Option BrokerStats) :
    (outcomeNotes ns port value served).flatMap (fun n => n.change.observed) =
      (reachable port, .of (if served.isSome then .success else .warning) value) ::
        ((served.map readings).getD []).map fun (condition, status, value) =>
          (condition, .of status value) := by
  cases served with
  | none => rfl
  | some stats =>
    rw [outcomeNotes, List.flatMap_append, observed_notes]
    rfl

theorem place_of_mem_outcomeNotes {ns : String} {port : Nat} {value : Json}
    {served : Option BrokerStats} :
    ∀ n ∈ outcomeNotes ns port value served, n.place = (target, ns) := by
  cases served with
  | none => exact place_of_mem_record
  | some stats => exact List.forall_mem_append.2 ⟨place_of_mem_record, place_of_mem_notes⟩

theorem isPaired_of_mem_outcomeNotes {ns : String} {port : Nat} {value : Json}
    {served : Option BrokerStats} :
    ∀ n ∈ outcomeNotes ns port value served, n.change.isPaired := by
  have hfinding : ∀ n ∈ outcomeNotes ns port value served, n.change.isFinding := by
    cases served with
    | none => exact fun n hn => isFinding_of_mem_record hn nofun
    | some stats =>
      exact List.forall_mem_append.2
        ⟨fun n hn => isFinding_of_mem_record hn nofun, isFinding_of_mem_notes⟩
  exact fun n hn => Change.isPaired_of_isFinding (hfinding n hn)

theorem exists_observe_mem_outcomeNotes (ns : String) (port : Nat) (value : Json)
    (served : Option BrokerStats) :
    ∃ n ∈ outcomeNotes ns port value served, n.isDisplay = false := by
  cases served with
  | none => exact ⟨_, List.mem_cons_of_mem _ List.mem_cons_self, rfl⟩
  | some stats =>
    exact ⟨_, List.mem_append_left _ (List.mem_cons_of_mem _ List.mem_cons_self), rfl⟩

/-- Whatever is read is a success or a warning, and a warning is a threshold that is not met. -/
theorem status_of_mem_readings {stats : BrokerStats} {reading : String × Status × Json}
    (h : reading ∈ readings stats) :
    reading.2.1 = .success ∨
      reading.2.1 = .warning ∧ ∃ t ∈ stats.thresholds, t.met = false := by
  rcases List.mem_append.1 h with h | h
  · obtain ⟨metric, -, h⟩ := List.mem_filterMap.1 h
    obtain ⟨v, -, rfl⟩ := Option.map_eq_some_iff.1 h
    exact .inl rfl
  · obtain ⟨t, ht, rfl⟩ := List.mem_map.1 h
    cases hmet : t.met with
    | true => exact .inl (by simp)
    | false => exact .inr ⟨by simp, t, ht, hmet⟩

/-- A threshold that is not met is read as a warning. -/
theorem exists_warning_of_not_met {stats : BrokerStats} {t : Threshold}
    (ht : t ∈ stats.thresholds) (hmet : t.met = false) :
    ∃ reading ∈ readings stats, reading.2.1 = .warning :=
  ⟨_, List.mem_append_right _ (List.mem_map_of_mem ht), by simp [hmet]⟩

/-- The statuses that are observed where statistics were served. -/
def statuses (stats : BrokerStats) : List Status :=
  .success :: (readings stats).map fun reading => reading.2.1

theorem mem_statuses_cases {stats : BrokerStats} :
    ∀ s ∈ statuses stats, s = .success ∨ s = .warning :=
  List.forall_mem_cons.2 ⟨.inl rfl, List.forall_mem_map.2 fun _ hreading =>
    (status_of_mem_readings hreading).imp_right And.left⟩

theorem warning_mem_statuses_iff {stats : BrokerStats} :
    .warning ∈ statuses stats ↔ ∃ t ∈ stats.thresholds, t.met = false := by
  constructor
  · intro hmem
    obtain ⟨reading, hreading, heq⟩ := List.mem_map.1 ((List.mem_cons.1 hmem).resolve_left nofun)
    rcases status_of_mem_readings hreading with hsuccess | ⟨-, hmet⟩
    · rw [hsuccess] at heq
      cases heq
    · exact hmet
  · rintro ⟨t, ht, hmet⟩
    obtain ⟨reading, hreading, heq⟩ := exists_warning_of_not_met ht hmet
    exact List.mem_cons_of_mem _ (List.mem_map.2 ⟨reading, hreading, heq⟩)

/-! ### The check -/

/-- A check about statistics, or about their absence. -/
structure Reports (port : Nat) (served : Option BrokerStats) (c : Check) : Prop where
  /-- The check is no failure. -/
  status_cases : c.status = .success ∨ c.status = .warning
  /-- There is one entry, which begins with whether there are statistics and goes on only if there
  are. -/
  exists_entry : ∃ ns entry first rest, c.entries = [(target, ns, entry)] ∧ entry.isConsistent ∧
    entry.pairs = (reachable port, first) :: rest ∧
    (first.status = .success ↔ served.isSome) ∧ (first.status ≠ .success → rest = [])
  /-- Where there are statistics, the check is a warning exactly if a threshold is not met. -/
  status_iff : ∀ stats, served = some stats →
    (c.status = .warning ↔ ∃ t ∈ stats.thresholds, t.met = false)

/-- The notes about statistics make a check about them. -/
theorem reports_ofNotesFor (withDisplays : Bool) (name description ns : String) (port : Nat)
    (value : Json) (served : Option BrokerStats) :
    Reports port served
      (.ofNotesFor withDisplays name description (outcomeNotes ns port value served)) := by
  let c := Check.ofNotesFor withDisplays name description (outcomeNotes ns port value served)
  obtain ⟨entry, hentries, hconsistent, hpairs⟩ := Check.exists_entries_of_place name description
    withDisplays isPaired_of_mem_outcomeNotes place_of_mem_outcomeNotes
    (exists_observe_mem_outcomeNotes ns port value served)
  have hstatus : c.status = .worstOf _ :=
    Check.status_ofNotesFor name description withDisplays isPaired_of_mem_outcomeNotes
  rw [observed_outcomeNotes] at hpairs hstatus
  cases served with
  | none =>
    have hwarning : c.status = .warning := hstatus
    exact ⟨.inr hwarning, ⟨ns, entry, _, [], hentries, hconsistent, hpairs, by simp [Evaluation.of],
      fun _ => rfl⟩, nofun⟩
  | some stats =>
    have hworst : c.status = .worstOf (statuses stats) := by
      rw [hstatus, List.map_cons, Option.map_some, Option.getD_some, List.map_map]
      rfl
    refine ⟨?_, ⟨ns, entry, _, _, hentries, hconsistent, hpairs, by simp [Evaluation.of],
      fun hne => absurd rfl hne⟩, fun stats' hstats => ?_⟩
    · change c.status = .success ∨ c.status = .warning
      rw [hworst]
      rcases Status.worstOf_eq_success_or_mem (statuses stats) with hsuccess | hmem
      · exact .inl hsuccess
      · exact mem_statuses_cases _ hmem
    · obtain rfl : stats = stats' := Option.some.inj hstats
      change c.status = .warning ↔ _
      rw [hworst, Status.worstOf_eq_warning_iff mem_statuses_cases, warning_mem_statuses_iff]

/-- **The statistics never fail their check.** Whoever replies, and whenever: where the pods cannot
be listed, the check fails as this question does. Where they can, there is a check, at most one
timeout after their list came, whatever the connection to the serving pod does and whatever bytes it
brings. The check is a success or a warning and has one entry, whose first observation is whether
the statistics can be reached. It is a good one exactly if they were served in time, and else it is
the only one. Where they were served, the check is a warning exactly if a threshold is not met. -/
theorem check_never_fails (scope : Scope) (responder : Responder) (past : Trace) (now : Nat) :
    let listing :=
      (Attempt.ask (.listPods scope.context.ns none)).run responder past none now
    let outcome := (check scope).run responder past none now
    (∀ e, listing.result = .ok (.error e) → outcome.result = .ok (.error e)) ∧
    ∀ pods, listing.result = .ok (.ok pods) →
      outcome.time ≤ listing.time + scope.context.apiTimeout ∧
      ∃ c, outcome.result = .ok (.ok c) ∧
        Reports scope.context.statsPort
          (served? scope.context pods responder (past ++ listing.trace) listing.time) c := by
  intro listing outcome
  have hcheck : outcome = Session.bind _ _ responder past none now :=
    congrFun (congrFun (congrFun (congrFun (Session.run_bind _ _) responder) past) none) now
  constructor
  · intro e he
    rw [hcheck, Session.bind_of_ok he]
    rfl
  · intro pods hpods
    obtain ⟨⟨ns, value, hnotes⟩, htime⟩ :=
      gather_eq scope.context pods responder (past ++ listing.trace) listing.time
    rw [hcheck, Session.bind_of_ok hpods]
    dsimp only
    rw [Session.run_bind, Session.bind_of_ok hnotes]
    exact ⟨htime, _, rfl, reports_ofNotesFor ..⟩

/-- A pod that runs and has the name of one that serves statistics. -/
private def runningPod : Pod where
  metadata := ⟨some "aio-mq-diagnostics-service-0", some "edge", none⟩
  spec := none
  status := some ⟨some "Running", none, none⟩

/-- A cluster in which a pod serves statistics over a connection. -/
private def serving (connection : Connection) : Cluster where
  reply
    | .listPods .. => ⟨3, .ok [runningPod]⟩
    | .forwardPort .. => ⟨7, .ok connection⟩
    | _ => ⟨3, .error (.api 503 "unavailable")⟩

/-- The scope of a run that gives a connection ten seconds. -/
private def tenSeconds : Scope := ⟨⟨none, 10000, none, false, 9600⟩, .any, .summary, true⟩

private theorem served?_serving (connection : Connection) (past : Trace) (now : Nat) :
    served? tenSeconds.context [runningPod] (serving connection).responder past now =
      Scrape.received? connection := by
  have hpod : servingPod? [runningPod] = some runningPod := by decide +kernel
  rw [served?, hpod]
  rfl

/-- A response that tells of three lost messages. -/
private def lostMessages : Connection :=
  .responds ("HTTP/1.0 200 OK\n\naio_mq_payload_check_total_messages_lost 3\n".toList.map
    Char.toNat)

/-- A connection that stays silent, and one that tells of lost messages. -/
theorem check_never_fails_serving :
    (∃ c, ((check tenSeconds).run.run (serving .stalls)).result = .ok (.ok c) ∧
      Reports 9600 none c ∧ ((check tenSeconds).run.run (serving .stalls)).time ≤ 10003) ∧
    ∃ c, ((check tenSeconds).run.run (serving lostMessages)).result = .ok (.ok c) ∧
      c.status = .warning := by
  constructor
  · obtain ⟨htime, c, hc, hreports⟩ :=
      (check_never_fails tenSeconds (serving .stalls).responder [] 0).2 [runningPod] rfl
    rw [served?_serving] at hreports
    exact ⟨c, hc, hreports, htime⟩
  · obtain ⟨-, c, hc, hreports⟩ :=
      (check_never_fails tenSeconds (serving lostMessages).responder [] 0).2 [runningPod] rfl
    rw [served?_serving] at hreports
    have hlost : ((Scrape.received? lostMessages).any fun stats =>
        stats.thresholds.any fun t => !t.met) := by decide +kernel
    obtain ⟨stats, hstats, hunmet⟩ := (Option.any_eq_true _ _).1 hlost
    obtain ⟨t, ht, hmet⟩ := List.any_eq_true.1 hunmet
    exact ⟨c, hc, (hreports.status_iff stats hstats).2 ⟨t, ht, by simpa using hmet⟩⟩

end Statistics

end EdgeHealth
