import EdgeHealth.Stats.Exposition

/-!
# Statistics of the broker

All measurements of one metric put together into one value, and the values that are compared with a
threshold.

## Main definitions

* `Reducer` : how two measurements of a metric become one.
* `Reducer.ofMetric` : the reducer of each metric.
* `BrokerStats` : the value of each metric.
* `Threshold` : a value compared with what it has to be.
-/

namespace EdgeHealth

/-- How two measurements of a metric become one. -/
inductive Reducer where
  /-- They are added. -/
  | sum
  /-- They are multiplied. -/
  | product
  /-- The greater one is kept. -/
  | max
  /-- The later one is kept. -/
  | last
  deriving DecidableEq, Repr

namespace Reducer

/-- A value with one more measurement. -/
def apply (r : Reducer) (acc sample : Binary64) : Binary64 :=
  match r with
  | .sum => acc.add sample
  | .product => acc.mul sample
  | .max => Binary64.max acc sample
  | .last => sample

/-- The word for a reducer. -/
def word : Reducer → String
  | .sum => "sum"
  | .product => "product"
  | .max => "max"
  | .last => "last"

/-- The metric that says whether messages are replicated correctly. -/
def replicationCorrectness : String := "aio_mq_replication_correctness"

/-- The metric that counts lost messages. -/
def messagesLost : String := "aio_mq_payload_check_total_messages_lost"

/-- The metrics whose reducer is known. -/
def known : List (String × Reducer) :=
  [("aio_mq_publishes_received", .sum),
    ("aio_mq_publishes_sent", .sum),
    ("aio_mq_connected_sessions", .sum),
    ("aio_mq_total_subscriptions", .sum),
    ("aio_mq_store_retained_messages", .sum),
    (messagesLost, .sum),
    ("aio_mq_payload_check_total_messages_received", .sum),
    (replicationCorrectness, .product),
    ("aio_mq_payload_check_latency_last_value", .last)]

/-- The reducer of a metric. Of a metric that is not known the last measurement is kept. -/
def ofMetric (metric : String) : Reducer := (known.lookup metric).getD .last

end Reducer

/-- A value compared with what it has to be. -/
structure Threshold where
  /-- What the value has to be. -/
  condition : String
  /-- The value. -/
  value : Binary64
  /-- Whether it is so. -/
  met : Bool
  deriving DecidableEq, Repr

/-- The value of each metric, in the order in which the metrics come first. -/
structure BrokerStats where
  /-- The values. -/
  values : Table Binary64
  deriving DecidableEq, Repr

namespace BrokerStats

/-- The values of the metrics of a list of measurements. -/
def merge (samples : List Sample) : Table Binary64 :=
  samples.foldl
    (fun values s => values.alter s.name fun acc =>
      match acc with
      | none => s.value
      | some acc => (Reducer.ofMetric s.name).apply acc s.value)
    Table.empty

/-- The statistics of a text in the exposition format. -/
def ofText (text : List Char) : BrokerStats := ⟨merge (Sample.ofText text)⟩

/-- The value of a metric. -/
def get? (s : BrokerStats) (metric : String) : Option Binary64 := s.values.get? metric

/-- The values that are compared with a threshold. A metric that is missing gives none. -/
def thresholds (s : BrokerStats) : List Threshold :=
  let correctness := (s.get? Reducer.replicationCorrectness).map fun v =>
    ⟨Reducer.replicationCorrectness ++ "==1", v, (Binary64.ofNat 1).le v⟩
  let lost := (s.get? Reducer.messagesLost).map fun v =>
    ⟨Reducer.messagesLost ++ "==0", v, v.le (.zero false)⟩
  correctness.toList ++ lost.toList

end BrokerStats

end EdgeHealth
