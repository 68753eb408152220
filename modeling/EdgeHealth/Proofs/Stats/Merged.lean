import EdgeHealth.Proofs.Data.Grown
import EdgeHealth.Proofs.Text.Lines
import EdgeHealth.Stats.Metrics

/-!
# Measurements put together, metric by metric

The measurements of many metrics come in one list and are put together one after another. What a
metric comes to is made by its own measurements alone, in their order: the first one is the value to
begin with, and each of the others changes it. No law of arithmetic is used for this. So
measurements of other metrics may come and go, and lines that are no measurements may too.

## Main definitions

* `Reducer.total?` : what the values of a metric come to.
* `Threshold.isAbout` : whether a threshold is one of a metric.
* `Sample.SameMeasurements` : lines that differ in what is no measurement.

## Main results

* `BrokerStats.keys_merge`, `BrokerStats.get?_merge` : the metrics, and what each of them comes to.
* `BrokerStats.filter_isAbout_thresholds` : a threshold hangs on its metric alone.
* `Sample.ofText_eq_filterMap` : the measurements of a text, line by line.
* `BrokerStats.merge_is_per_metric` : all of this together.
-/

namespace EdgeHealth

open Text

/-! ### One metric among others -/

/-- What the values of a metric come to: the first one, changed by each of the others. -/
def Reducer.total? (r : Reducer) : List Binary64 → Option Binary64
  | [] => none
  | first :: rest => some (rest.foldl r.apply first)

namespace BrokerStats

/-- What a value comes to with one more measurement of its metric. -/
private def step (s : Sample) (acc : Option Binary64) : Binary64 :=
  match acc with
  | none => s.value
  | some acc => (Reducer.ofMetric s.name).apply acc s.value

private theorem merge_eq (samples : List Sample) :
    merge samples = samples.foldl (fun t s => t.alter s.name (step s)) Table.empty := rfl

/-- The metrics stand in the order in which they come first. -/
theorem keys_merge (samples : List Sample) :
    (merge samples).keys = (samples.map Sample.name).eraseDups := by
  rw [merge_eq, Table.keys_foldl_alter_empty]

/-- The measurements of one metric change its value one after another. -/
private theorem foldl_step {metric : String} (acc : Binary64) : (samples : List Sample) →
    (∀ s ∈ samples, s.name = metric) →
    samples.foldl (fun old s => some (step s old)) (some acc) =
      some ((samples.map Sample.value).foldl (Reducer.ofMetric metric).apply acc)
  | [], _ => rfl
  | s :: samples, h => by
    rw [List.foldl_cons, foldl_step _ samples fun s hs => h s (List.mem_cons_of_mem _ hs), step,
      h s List.mem_cons_self]
    rfl

/-- What a metric comes to is made by its own measurements, in order. -/
theorem get?_merge (samples : List Sample) (metric : String) :
    (merge samples).get? metric = (Reducer.ofMetric metric).total?
      ((samples.filter fun s => s.name = metric).map Sample.value) := by
  rw [merge_eq, Table.get?_foldl_alter]
  have hname : ∀ s ∈ samples.filter (fun s => s.name = metric), s.name = metric :=
    fun s hs => of_decide_eq_true (List.mem_filter.1 hs).2
  cases hown : samples.filter (fun s => s.name = metric) with
  | nil => rfl
  | cons first rest =>
    rw [hown] at hname
    exact foldl_step first.value rest fun s hs => hname s (List.mem_cons_of_mem _ hs)

/-- What a metric comes to does not change with the measurements of others. -/
theorem get?_merge_congr {metric : String} {samples others : List Sample}
    (h : samples.filter (fun s => s.name = metric) = others.filter fun s => s.name = metric) :
    (merge samples).get? metric = (merge others).get? metric := by
  rw [get?_merge, get?_merge, h]

end BrokerStats

/-! ### Thresholds -/

/-- Whether a threshold is one of a metric. -/
def Threshold.isAbout (metric : String) (t : Threshold) : Bool :=
  t.condition == metric ++ "==1" || t.condition == metric ++ "==0"

namespace BrokerStats

/-- A condition tells its metric. -/
private theorem append_ne_append (s t : String) : s ++ "==1" ≠ t ++ "==0" := by
  intro h
  have hlast := congrArg (fun u => u.toList.getLast?) h
  simp at hlast

private theorem isAbout_one (metric m : String) (v : Binary64) (met : Bool) :
    Threshold.isAbout metric ⟨m ++ "==1", v, met⟩ ↔ m = metric := by
  rw [Threshold.isAbout, beq_eq_false_iff_ne.2 (append_ne_append m metric), Bool.or_false,
    beq_iff_eq, String.append_left_inj]

private theorem isAbout_zero (metric m : String) (v : Binary64) (met : Bool) :
    Threshold.isAbout metric ⟨m ++ "==0", v, met⟩ ↔ m = metric := by
  rw [Threshold.isAbout, beq_eq_false_iff_ne.2 (append_ne_append metric m).symm, Bool.false_or,
    beq_iff_eq, String.append_left_inj]

/-- A threshold of some metric is one of a given metric only if that is the metric. -/
private theorem filter_toList {metric m : String} {s : BrokerStats} {f : Binary64 → Threshold}
    (h : ∀ v, Threshold.isAbout metric (f v) ↔ m = metric) :
    ((s.get? m).map f).toList.filter (Threshold.isAbout metric) =
      if m = metric then ((s.get? metric).map f).toList else [] := by
  split
  · next heq =>
    subst heq
    refine List.filter_eq_self.2 fun t ht => ?_
    obtain ⟨v, -, rfl⟩ := Option.map_eq_some_iff.1 (Option.mem_toList.1 ht)
    exact (h v).2 rfl
  · next hne =>
    refine List.filter_eq_nil_iff.2 fun t ht => ?_
    obtain ⟨v, -, rfl⟩ := Option.map_eq_some_iff.1 (Option.mem_toList.1 ht)
    exact fun habout => hne ((h v).1 habout)

/-- The thresholds of a metric hang on its value alone. -/
theorem filter_isAbout_thresholds {metric : String} {s t : BrokerStats}
    (h : s.get? metric = t.get? metric) :
    s.thresholds.filter (Threshold.isAbout metric) =
      t.thresholds.filter (Threshold.isAbout metric) := by
  simp only [thresholds, List.filter_append, filter_toList fun _ => isAbout_one .., h,
    filter_toList fun _ => isAbout_zero ..]

end BrokerStats

/-! ### Lines that are no measurements -/

namespace Sample

/-- The carriage return at the end of a line is passed over. -/
theorem ofLine?_dropReturn (line : List Char) : ofLine? (dropReturn line) = ofLine? line := by
  rw [ofLine?, ofLine?, trimBlank_dropReturn]

/-- The measurements of a text are those of the pieces between its line feeds. -/
theorem ofText_eq_filterMap (text : List Char) :
    ofText text = (splitOn '\n' text).filterMap ofLine? := by
  rw [ofText, lines]
  induction splitOn '\n' text with
  | nil => rfl
  | cons piece pieces ih =>
    cases pieces with
    | nil =>
      rw [lines.go]
      split
      · next hempty => rw [List.isEmpty_iff.1 hempty]; rfl
      · rfl
    | cons next rest =>
      rw [lines.go, List.filterMap_cons, ofLine?_dropReturn, ih]
      rfl

/-- Lines of which some were put in or taken out that are no measurements. -/
inductive SameMeasurements : List (List Char) → List (List Char) → Prop
  /-- No lines. -/
  | nil : SameMeasurements [] []
  /-- A line of both. -/
  | both (line : List Char) {ls ls' : List (List Char)} (rest : SameMeasurements ls ls') :
    SameMeasurements (line :: ls) (line :: ls')
  /-- A line that is put in. -/
  | putIn {line : List Char} {ls ls' : List (List Char)} (silent : ofLine? line = none)
    (rest : SameMeasurements ls ls') : SameMeasurements ls (line :: ls')
  /-- A line that is taken out. -/
  | takenOut {line : List Char} {ls ls' : List (List Char)} (silent : ofLine? line = none)
    (rest : SameMeasurements ls ls') : SameMeasurements (line :: ls) ls'

theorem SameMeasurements.filterMap_eq {ls ls' : List (List Char)} (h : SameMeasurements ls ls') :
    ls.filterMap ofLine? = ls'.filterMap ofLine? := by
  induction h with
  | nil => rfl
  | both line rest ih => rw [List.filterMap_cons, List.filterMap_cons, ih]
  | putIn silent rest ih => rw [List.filterMap_cons_none silent, ih]
  | takenOut silent rest ih => rw [List.filterMap_cons_none silent, ih]

/-- Lines that are no measurements do not change the measurements of a text. -/
theorem SameMeasurements.ofText_eq {text text' : List Char}
    (h : SameMeasurements (splitOn '\n' text) (splitOn '\n' text')) :
    ofText text = ofText text' := by
  rw [ofText_eq_filterMap, ofText_eq_filterMap, h.filterMap_eq]

end Sample

/-! ### Both together -/

/-- **Measurements are put together metric by metric.** The metrics of a list of measurements stand
in the order in which they come first, and each comes to its own first value, changed by each of its
further values in their order. So with measurements of other metrics put in, taken out or moved, it
comes to the same and has the same thresholds; and with lines put in or taken out of a text that are
no measurements, all metrics do. -/
theorem BrokerStats.merge_is_per_metric :
    (∀ samples : List Sample,
      (merge samples).keys = (samples.map Sample.name).eraseDups ∧
      ∀ metric, (merge samples).get? metric = (Reducer.ofMetric metric).total?
        ((samples.filter fun s => s.name = metric).map Sample.value)) ∧
    (∀ (metric : String) (samples others : List Sample),
      samples.filter (fun s => s.name = metric) = others.filter (fun s => s.name = metric) →
        (merge samples).get? metric = (merge others).get? metric ∧
        (BrokerStats.mk (merge samples)).thresholds.filter (Threshold.isAbout metric) =
          (BrokerStats.mk (merge others)).thresholds.filter (Threshold.isAbout metric)) ∧
    ∀ text text' : List Char,
      Sample.SameMeasurements (splitOn '\n' text) (splitOn '\n' text') →
        ofText text = ofText text' := by
  refine ⟨fun samples => ⟨keys_merge samples, get?_merge samples⟩,
    fun metric samples others h => ?_, fun text text' h => ?_⟩
  · have hvalue : (merge samples).get? metric = (merge others).get? metric := get?_merge_congr h
    exact ⟨hvalue, filter_isAbout_thresholds hvalue⟩
  · rw [ofText, ofText, h.ofText_eq]

/-- A measurement without labels. -/
private def unlabelled (metric : String) (value : Nat) : Sample :=
  ⟨metric, Table.empty, .ofNat value⟩

/-- Three lost messages are counted, whatever else is measured and written in between. -/
theorem BrokerStats.merge_is_per_metric_lost :
    let lost := unlabelled Reducer.messagesLost
    let sent := unlabelled "aio_mq_publishes_sent"
    (merge [lost 1, sent 4, lost 2]).get? Reducer.messagesLost =
        (merge [sent 7, sent 9, lost 1, lost 2]).get? Reducer.messagesLost ∧
      (merge [lost 1, sent 4, lost 2]).get? Reducer.messagesLost = some (.ofNat 3) ∧
      ofText "# HELP lost\r\nlost 3\n".toList = ofText "lost 3\n\nno measurement".toList := by
  intro lost sent
  have hsame := (merge_is_per_metric.2.1 Reducer.messagesLost [lost 1, sent 4, lost 2]
    [sent 7, sent 9, lost 1, lost 2] (by decide +kernel)).1
  have htext := merge_is_per_metric.2.2 "# HELP lost\r\nlost 3\n".toList
    "lost 3\n\nno measurement".toList
    (.takenOut (by decide +kernel) (.both _ (.both _ (.putIn (by decide +kernel) .nil))))
  refine ⟨hsame, ?_, htext⟩
  rw [(merge_is_per_metric.1 [lost 1, sent 4, lost 2]).2 Reducer.messagesLost]
  decide +kernel

end EdgeHealth
