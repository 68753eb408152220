import EdgeHealth.Cluster.Session
import EdgeHealth.Stats.Metrics
import EdgeHealth.Text.Utf8

/-!
# Fetching the statistics of the broker

The statistics are served over HTTP by a pod. This module writes the request, splits the response,
and puts both into a session with the cluster.

## Main definitions

* `Scrape.request` : the request.
* `Scrape.body` : the body of a response.
* `Scrape.fetch` : the statistics that a pod serves.
-/

namespace EdgeHealth.Scrape

open EdgeHealth.Text

/-- The request for the statistics. -/
def request (port : Nat) : String :=
  s!"GET /metrics HTTP/1.0\r\nHost: localhost:{port}\r\nAccept: text/plain\r\n\r\n"

/-- The head and the body of a response, which an empty line separates. Lines that end with a
carriage return and a line feed are looked for first. -/
def split? (response : List Char) : Option (List Char × List Char) :=
  (cutAt? ['\r', '\n', '\r', '\n'] response).or (cutAt? ['\n', '\n'] response)

/-- The body of a response whose status is 200. -/
def body (response : List Char) : Except ClusterError (List Char) :=
  match split? response with
  | none => .error (.decode "malformed metrics response")
  | some (head, body) =>
    let statusLine := (lines head).headD []
    let code := (words statusLine)[1]?.getD []
    if code = "200".toList then .ok body
    else
      .error (.api ((Number.natural? Number.maxUInt16 code).getD 0)
        s!"metrics endpoint returned '{String.ofList statusLine}'")

/-- The statistics in the bytes of a response. -/
def readResponse (bytes : List Nat) : Except ClusterError BrokerStats :=
  (body (Utf8.decodeLossy bytes)).map BrokerStats.ofText

/-- The statistics that come over a connection. -/
def exchange (port : Nat) : Connection → Attempt BrokerStats
  | .failsWriting reason =>
    .fail (.connectivity s!"port-forward write failed: {reason}")
  | .failsSending reason =>
    .fail (.connectivity s!"port-forward flush failed: {reason}")
  | .failsReading reason => do
    Attempt.lift (Session.trace (.sent (request port)))
    Attempt.fail (.connectivity s!"port-forward read failed: {reason}")
  | .stalls => do
    Attempt.lift (Session.trace (.sent (request port)))
    Attempt.lift Session.never
  | .responds bytes => do
    Attempt.lift (Session.trace (.sent (request port)))
    ExceptT.mk (Session.pure (readResponse bytes))

/-- The statistics that a pod serves at a port. -/
def fetch (ns pod : String) (port : Nat) : Attempt BrokerStats := do
  let connection ← Attempt.ask (.forwardPort ns pod port)
  exchange port connection

end EdgeHealth.Scrape
