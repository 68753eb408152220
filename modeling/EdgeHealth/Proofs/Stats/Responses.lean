import Mathlib.Data.List.Basic
import EdgeHealth.Proofs.Cluster.Plain
import EdgeHealth.Proofs.Text.Lines
import EdgeHealth.Proofs.Text.Utf8
import EdgeHealth.Stats.Scrape

/-!
# The head and the body of a response

A response is a head, an empty line, and a body. The head is a status line with further lines
behind it, of which none is empty, and all its lines end in the same way, as does the empty line.
Where they end with a carriage return and a line feed, the body is read whole, whatever it holds.
Where they end with a line feed alone, the response is still cut first at an empty line of the
other kind, and the body may hold one: then only what follows that line is read. In all other cases
the body is read whole too.

## Main definitions

* `Scrape.LineEnd` : how the lines of a head end.
* `Scrape.Head`, `Scrape.Head.write` : heads, and responses that are made of them.
* `Scrape.LineEnd.received` : what is read of a body.

## Main results

* `Scrape.split?_returned`, `Scrape.split?_plain` : where a response is cut.
* `Scrape.body_write` : what is read of a response.
* `Scrape.received_eq_self_iff` : the bodies that are read whole.
* `Scrape.fetch_reads_response` : the statistics that come of a response.
-/

namespace EdgeHealth.Scrape

open Text

/-! ### Responses -/

/-- How the lines of a head end. -/
inductive LineEnd where
  /-- With a carriage return and a line feed. -/
  | returned
  /-- With a line feed. -/
  | plain
  deriving DecidableEq, Repr

/-- The characters at the end of a line. -/
def LineEnd.chars : LineEnd → List Char
  | .returned => ['\r', '\n']
  | .plain => ['\n']

/-- Whether a text is free of the characters that end lines. -/
def IsLine (cs : List Char) : Prop := '\r' ∉ cs ∧ '\n' ∉ cs

instance (cs : List Char) : Decidable (IsLine cs) :=
  inferInstanceAs (Decidable ('\r' ∉ cs ∧ '\n' ∉ cs))

/-- The head of a response. -/
structure Head where
  /-- The status line. -/
  statusLine : List Char
  /-- The lines behind it. -/
  others : List (List Char)
  /-- The status line is a line. -/
  isLine_statusLine : IsLine statusLine
  /-- The others are lines, and none of them is empty. -/
  isLine_others : ∀ line ∈ others, IsLine line ∧ line ≠ []

namespace Head

/-- The lines of a head without the end of the last one. -/
def text (head : Head) (e : LineEnd) : List Char :=
  head.statusLine ++ head.others.flatMap fun line => e.chars ++ line

/-- A response: a head, an empty line, and a body. -/
def write (head : Head) (e : LineEnd) (body : List Char) : List Char :=
  ((head.statusLine :: head.others).flatMap fun line => line ++ e.chars) ++ (e.chars ++ body)

/-- The second word of the status line; it is empty if there is none. -/
def code (head : Head) : List Char := (words head.statusLine)[1]?.getD []

/-- The failure that a status line tells. A word that is no number of 16 bits is told as zero. -/
def failure (head : Head) : ClusterError :=
  .api ((Number.natural? Number.maxUInt16 head.code).getD 0)
    s!"metrics endpoint returned '{String.ofList head.statusLine}'"

end Head

/-- What is read of a body behind a head whose lines end in some way. -/
def LineEnd.received (body : List Char) : LineEnd → List Char
  | .returned => body
  | .plain => ((cutAt? ['\r', '\n', '\r', '\n'] body).map Prod.snd).getD body

/-! ### Where a response is cut -/

/-- The end of a line that has a nonempty line behind it is no empty line. -/
private theorem cutAt?_chars_append (e : LineEnd) {line : List Char} (h : IsLine line)
    (hne : line ≠ []) (rest : List Char) :
    cutAt? (e.chars ++ e.chars) (e.chars ++ (line ++ rest)) =
      (cutAt? (e.chars ++ e.chars) (line ++ rest)).map fun cut => (e.chars ++ cut.1, cut.2) := by
  obtain ⟨c, cs, rfl⟩ := List.exists_cons_of_ne_nil hne
  have hreturn : '\r' ≠ c := fun heq => h.1 (heq ▸ List.mem_cons_self)
  have hfeed : '\n' ≠ c := fun heq => h.2 (heq ▸ List.mem_cons_self)
  cases e with
  | returned =>
    simp [LineEnd.chars, cutAt?, stripStart?, hreturn, Option.map_map, Function.comp_def]
  | plain => simp [LineEnd.chars, cutAt?, stripStart?, hfeed]

/-- A line goes to the part before the cut. -/
private theorem cutAt?_line_append (e : LineEnd) {line : List Char} (h : IsLine line)
    (rest : List Char) :
    cutAt? (e.chars ++ e.chars) (line ++ rest) =
      (cutAt? (e.chars ++ e.chars) rest).map fun cut => (line ++ cut.1, cut.2) := by
  cases e with
  | returned => exact cutAt?_append_of_notMem h.1 rest
  | plain => exact cutAt?_append_of_notMem h.2 rest

/-- Of the empty lines that end as the lines of a head do, the first is the one behind the head. -/
private theorem cutAt?_lines (e : LineEnd) (body : List Char) :
    {line : List Char} → {others : List (List Char)} → IsLine line →
    (∀ other ∈ others, IsLine other ∧ other ≠ []) →
    cutAt? (e.chars ++ e.chars)
        (((line :: others).flatMap fun line => line ++ e.chars) ++ (e.chars ++ body)) =
      some (line ++ others.flatMap fun line => e.chars ++ line, body)
  | line, [], hline, _ => by
    rw [List.flatMap_singleton, List.append_assoc, cutAt?_line_append e hline,
      ← List.append_assoc, cutAt?_pattern_append, Option.map_some, List.flatMap_nil]
  | line, other :: others, hline, hothers => by
    obtain ⟨hother, hne⟩ := hothers other List.mem_cons_self
    have ih := cutAt?_lines e body hother fun l hl => hothers l (List.mem_cons_of_mem _ hl)
    rw [List.flatMap_cons, List.append_assoc, List.append_assoc, cutAt?_line_append e hline]
    rw [List.flatMap_cons, List.append_assoc, List.append_assoc] at ih ⊢
    rw [cutAt?_chars_append e hother hne, ih, Option.map_some, Option.map_some, List.flatMap_cons,
      List.append_assoc]

theorem cutAt?_write (head : Head) (e : LineEnd) (body : List Char) :
    cutAt? (e.chars ++ e.chars) (head.write e body) = some (head.text e, body) :=
  cutAt?_lines e body head.isLine_statusLine head.isLine_others

/-- A response whose lines end with a carriage return and a line feed is cut behind its head. -/
theorem split?_returned (head : Head) (body : List Char) :
    split? (head.write .returned body) = some (head.text .returned, body) := by
  have hcut := cutAt?_write head .returned body
  rw [split?]
  exact congrArg (Option.or · _) hcut

/-- A response whose lines end with a line feed is cut at the first empty line of the other kind in
its body, and behind its head if there is none. -/
theorem split?_plain (head : Head) (body : List Char) :
    split? (head.write .plain body) =
      match cutAt? ['\r', '\n', '\r', '\n'] body with
      | some (before, after) => some (head.write .plain before, after)
      | none => some (head.text .plain, body) := by
  have hfront : '\r' ∉
      ((head.statusLine :: head.others).flatMap fun line => line ++ ['\n']) ++ ['\n'] := by
    simp only [List.mem_append, List.mem_flatMap, List.mem_cons, List.not_mem_nil, or_false]
    rintro (⟨line, hline, hmem | hmem⟩ | hmem)
    · rcases hline with rfl | hline
      · exact head.isLine_statusLine.1 hmem
      · exact (head.isLine_others line hline).1.1 hmem
    · exact absurd hmem (by decide)
    · exact absurd hmem (by decide)
  have hother : cutAt? ['\r', '\n', '\r', '\n'] (head.write .plain body) =
      (cutAt? ['\r', '\n', '\r', '\n'] body).map fun cut =>
        (head.write .plain cut.1, cut.2) := by
    simp only [Head.write, LineEnd.chars, ← List.append_assoc]
    exact cutAt?_append_of_notMem hfront body
  rw [split?, hother]
  cases cutAt? ['\r', '\n', '\r', '\n'] body with
  | none => exact cutAt?_write head .plain body
  | some cut => rfl

/-! ### What is read -/

/-- The first line of a text that starts with a line and then ends or has the end of a line. -/
private theorem headD_lines {line : List Char} (h : IsLine line) (e : LineEnd)
    {rest : List Char} (hrest : rest = [] ∨ ∃ more, rest = e.chars ++ more) :
    (lines (line ++ rest)).headD [] = line := by
  have hkept : dropReturn line = line :=
    dropReturn_eq_self fun c hc heq => h.1 (heq ▸ List.mem_of_mem_getLast? hc)
  rcases hrest with rfl | ⟨more, rfl⟩
  · rw [List.append_nil, lines, splitOn_eq_singleton h.2, lines.go]
    split
    · next hempty => rw [List.isEmpty_iff.1 hempty]; rfl
    · rfl
  · cases e with
    | returned =>
      have hfeed : '\n' ∉ line ++ ['\r'] := by simp [h.2]
      have hsplit : line ++ (LineEnd.returned.chars ++ more) =
          (line ++ ['\r']) ++ '\n' :: more := by
        simp [LineEnd.chars]
      rw [hsplit, lines_append_cons, splitOn_eq_singleton hfeed, List.map_singleton, dropReturn,
        stripEnd?_append]
      rfl
    | plain =>
      have hsplit : line ++ (LineEnd.plain.chars ++ more) = line ++ '\n' :: more := rfl
      rw [hsplit, lines_append_cons, splitOn_eq_singleton h.2, List.map_singleton, hkept]
      rfl

theorem headD_lines_text (head : Head) (e : LineEnd) :
    (lines (head.text e)).headD [] = head.statusLine := by
  refine headD_lines head.isLine_statusLine e ?_
  cases head.others with
  | nil => exact .inl rfl
  | cons line others => exact .inr ⟨_, List.append_assoc ..⟩

theorem headD_lines_write (head : Head) (e : LineEnd) (body : List Char) :
    (lines (head.write e body)).headD [] = head.statusLine := by
  have hwrite : head.write e body = head.statusLine ++ (e.chars ++
      ((head.others.flatMap fun line => line ++ e.chars) ++ (e.chars ++ body))) := by
    rw [Head.write, List.flatMap_cons, List.append_assoc, List.append_assoc]
  rw [hwrite]
  exact headD_lines head.isLine_statusLine e (.inr ⟨_, rfl⟩)

private theorem body_of_split? {response text rest : List Char} {head : Head}
    (hsplit : split? response = some (text, rest))
    (hline : (lines text).headD [] = head.statusLine) :
    body response = if head.code = "200".toList then .ok rest else .error head.failure := by
  simp only [body, hsplit, hline]
  rfl

/-- What is read of a response, or the failure that it tells. -/
theorem body_write (head : Head) (e : LineEnd) (rest : List Char) :
    body (head.write e rest) =
      if head.code = "200".toList then .ok (e.received rest) else .error head.failure := by
  cases e with
  | returned => exact body_of_split? (split?_returned head rest) (headD_lines_text head .returned)
  | plain =>
    have hsplit := split?_plain head rest
    rw [LineEnd.received]
    cases hcut : cutAt? ['\r', '\n', '\r', '\n'] rest with
    | none =>
      rw [hcut] at hsplit
      exact body_of_split? hsplit (headD_lines_text head .plain)
    | some cut =>
      rw [hcut] at hsplit
      exact body_of_split? hsplit (headD_lines_write head .plain cut.1)

/-- A body is read whole unless the lines of the head end with a line feed alone and an empty line
of the other kind is in the body. -/
theorem received_eq_self_iff (e : LineEnd) (rest : List Char) :
    e.received rest = rest ↔ e = .returned ∨ ¬ ['\r', '\n', '\r', '\n'] <:+: rest := by
  rw [← cutAt?_eq_none_iff]
  cases e with
  | returned => exact iff_of_true rfl (.inl rfl)
  | plain =>
    rw [LineEnd.received]
    cases hcut : cutAt? ['\r', '\n', '\r', '\n'] rest with
    | none => exact iff_of_true rfl (.inr rfl)
    | some cut =>
      refine iff_of_false (fun heq => ?_) (by simp)
      have hlength := congrArg List.length (eq_append_of_cutAt? hcut)
      have hafter := congrArg List.length heq
      simp only [Option.map_some, Option.getD_some, List.length_append, List.length_cons] at *
      omega

/-- The failure of a response that is not cut. -/
def malformed : ClusterError := .decode "malformed metrics response"

/-- A response is malformed if it has no line ends that enclose an empty line. -/
theorem body_eq_malformed_iff (response : List Char) :
    body response = .error malformed ↔
      ¬ ['\r', '\n', '\r', '\n'] <:+: response ∧ ¬ ['\n', '\n'] <:+: response := by
  rw [← cutAt?_eq_none_iff, ← cutAt?_eq_none_iff, ← Option.or_eq_none_iff]
  change _ ↔ split? response = none
  rw [body]
  cases split? response with
  | none => exact iff_of_true rfl rfl
  | some cut =>
    refine iff_of_false ?_ nofun
    dsimp only
    split
    · exact nofun
    · exact nofun

/-- A response without an empty line is malformed. -/
theorem body_of_nil_notMem {response : List Char} (h : [] ∉ lines response) :
    body response = .error malformed := by
  rw [body_eq_malformed_iff]
  constructor
  · rintro ⟨before, after, rfl⟩
    rw [List.append_assoc] at h
    exact h (nil_mem_lines_returned before after)
  · rintro ⟨before, after, rfl⟩
    rw [List.append_assoc] at h
    exact h (nil_mem_lines_plain before after)

/-! ### The statistics -/

section

variable {ns pod : String} {port : Nat} {responder : Responder} {past : Trace}
  {limit : Option Nat} {now : Nat}

/-- What comes of a connection over which bytes are sent, if it is there in time. -/
theorem result_fetch_of_responds {bytes : List Nat}
    (hanswer : (responder.reply past now (.forwardPort ns pod port)).answer = .ok (.responds bytes))
    (hlimit : ∀ moment ∈ limit,
      now + (responder.reply past now (.forwardPort ns pod port)).delay ≤ moment) :
    ((fetch ns pod port).run responder past limit now).result = .ok (readResponse bytes) := by
  have hask : ((Attempt.ask (.forwardPort ns pod port)).run responder past limit now).result =
      .ok (.ok (.responds bytes)) := by
    cases limit with
    | none => exact congrArg Except.ok hanswer
    | some moment =>
      simp [Attempt.ask, Session.ask, ExceptT.run, ExceptT.mk, Nat.not_lt.2 (hlimit moment rfl),
        hanswer]
  rw [fetch, Session.run_bind, Session.bind_of_ok hask]
  rfl

/-- **The statistics that come of a response.** Let a response be sent as bytes and be there in
time. Where it is made of a head, an empty line and a body, and the second word of the status line
is 200, what comes of it are the statistics of what is read of the body; with any other word it is
the failure with that word as its code, or with zero if the word is no number of 16 bits. The body
is read whole, unless the lines of the head end with a line feed alone and the body has, between two
of its lines, an empty line of the other kind. A response is malformed exactly if no empty line of
either kind follows a line, in particular if it has no empty line at all. -/
theorem fetch_reads_response {response : List Char}
    (hanswer : (responder.reply past now (.forwardPort ns pod port)).answer =
      .ok (.responds (Utf8.encode response)))
    (hlimit : ∀ moment ∈ limit,
      now + (responder.reply past now (.forwardPort ns pod port)).delay ≤ moment) :
    let result := ((fetch ns pod port).run responder past limit now).result
    (∀ (head : Head) (e : LineEnd) (rest : List Char), response = head.write e rest →
      (head.code = "200".toList → result = .ok (.ok (BrokerStats.ofText (e.received rest)))) ∧
      (head.code ≠ "200".toList → result = .ok (.error head.failure)) ∧
      (e.received rest = rest ↔ e = .returned ∨ ¬ ['\r', '\n', '\r', '\n'] <:+: rest)) ∧
    (result = .ok (.error malformed) ↔
      ¬ ['\r', '\n', '\r', '\n'] <:+: response ∧ ¬ ['\n', '\n'] <:+: response) ∧
    ([] ∉ lines response → result = .ok (.error malformed)) := by
  intro result
  have hresult : result = .ok ((body response).map BrokerStats.ofText) := by
    rw [← Utf8.decodeLossy_encode response]
    exact result_fetch_of_responds hanswer hlimit
  have hmalformed : result = .ok (.error malformed) ↔ body response = .error malformed := by
    rw [hresult, Except.ok.injEq]
    cases body response <;> simp [Except.map]
  refine ⟨?_, ?_, fun hnil => hmalformed.2 (body_of_nil_notMem hnil)⟩
  · rintro head e rest rfl
    rw [hresult, body_write]
    refine ⟨fun hcode => ?_, fun hcode => ?_, received_eq_self_iff e rest⟩
    · rw [if_pos hcode]
      rfl
    · rw [if_neg hcode]
      rfl
  · rw [hmalformed, body_eq_malformed_iff]

end

/-- A cluster whose pods send a response. -/
private def sending (response : List Char) : Cluster where
  reply
    | .forwardPort .. => ⟨7, .ok (.responds (Utf8.encode response))⟩
    | _ => ⟨3, .error (.api 503 "unavailable")⟩

/-- The head of a response that is a success. -/
private def success : Head where
  statusLine := "HTTP/1.1 200 OK".toList
  others := ["Content-Type: text/plain".toList]
  isLine_statusLine := by decide
  isLine_others := by decide

/-- The head of a response that is none. -/
private def unavailable : Head where
  statusLine := "HTTP/1.1 503 Service Unavailable".toList
  others := []
  isLine_statusLine := by decide
  isLine_others := by decide

/-- A body that tells of lost messages in front of an empty line. -/
private def lostMessages : List Char :=
  "aio_mq_payload_check_total_messages_lost 3\r\n\r\naio_mq_publishes_sent 5\n".toList

/-- A body that is read whole, and a refusal with its code. -/
theorem fetch_reads_response_lost :
    ((fetch "edge" "stats" 9600).run.run (sending (success.write .returned lostMessages))).result =
        .ok (.ok (BrokerStats.ofText lostMessages)) ∧
      ∃ message,
        ((fetch "edge" "stats" 9600).run.run (sending (unavailable.write .plain []))).result =
          .ok (.error (.api 503 message)) := by
  have hanswer (response : List Char) :
      ((sending response).responder.reply [] 0 (.forwardPort "edge" "stats" 9600)).answer =
        .ok (.responds (Utf8.encode response)) := rfl
  have hlimit (response : List Char) : ∀ moment ∈ (none : Option Nat),
      0 + ((sending response).responder.reply [] 0 (.forwardPort "edge" "stats" 9600)).delay ≤
        moment := nofun
  obtain ⟨hread, -, -⟩ := fetch_reads_response (hanswer _) (hlimit _)
  obtain ⟨hrefused, -, -⟩ := fetch_reads_response (hanswer _) (hlimit _)
  exact ⟨(hread success .returned lostMessages rfl).1 (by decide),
    _, (hrefused unavailable .plain [] rfl).2.1 (by decide)⟩

/-- Lost messages can be passed over. Here the lines of the head end with a line feed, and what the
body tells in front of an empty line of the other kind is not read. -/
theorem fetch_passes_over_lost :
    success.code = "200".toList ∧
      ((fetch "edge" "stats" 9600).run.run (sending (success.write .plain lostMessages))).result ≠
        .ok (.ok (BrokerStats.ofText lostMessages)) ∧
      (BrokerStats.ofText lostMessages).thresholds.any (fun t => !t.met) ∧
      ∃ stats,
        ((fetch "edge" "stats" 9600).run.run (sending (success.write .plain lostMessages))).result =
          .ok (.ok stats) ∧ stats.thresholds = [] := by
  have hread : readResponse (Utf8.encode (success.write .plain lostMessages)) =
      .ok (BrokerStats.ofText "aio_mq_publishes_sent 5\n".toList) := by decide +kernel
  have hresult :
      ((fetch "edge" "stats" 9600).run.run (sending (success.write .plain lostMessages))).result =
        .ok (.ok (BrokerStats.ofText "aio_mq_publishes_sent 5\n".toList)) := by
    rw [← hread]
    exact result_fetch_of_responds rfl nofun
  refine ⟨by decide, ?_, by decide +kernel, _, hresult, by decide +kernel⟩
  rw [hresult]
  decide +kernel

end EdgeHealth.Scrape
