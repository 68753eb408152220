import EdgeHealth.Check.Record
import EdgeHealth.Json.Reader
import EdgeHealth.Proofs.Data.Grown
import EdgeHealth.Proofs.Run.Stripped

/-!
# Reports written and read again

A report that was written as JSON is read as the same report. Members that hold nothing are left out
of a record, and what stands in their place when it is read is what they held: no value, no name, no
kind, no description, no heading and no lines. Targets and namespaces keep their order, since the
keys of a table are distinct.

An indentation is read as a number of 64 bits, so it has to be one. The form for other programs has
no lines, and nothing has to be known of the report.

## Main definitions

* `Report.FitsMachine` : a report whose indentations are numbers of 64 bits.
* `Check.IsRecordOf` : a check that holds what another one holds, without the lines.

## Main results

* `Json.list?_array_map`, `Json.table?_ofTable` : lists and tables.
* `Check.ofJson?_toJson`, `Report.ofJson?_toJson` : checks and reports.
* `Report.records_round_trip` : a report, and its form for other programs.
-/

namespace EdgeHealth

/-! ### Lists and tables -/

namespace Json

/-- Things that are each read as what was written make a list that is. -/
theorem readAll?_map {α β : Type} {encode : α → β} {decode : β → Option α} : {l : List α} →
    (∀ a ∈ l, decode (encode a) = some a) → readAll? decode (l.map encode) = some l
  | [], _ => rfl
  | a :: l, h => by
    obtain ⟨ha, hl⟩ := List.forall_mem_cons.1 h
    rw [List.map_cons, readAll?, ha, readAll?_map hl]
    rfl

theorem list?_array_map {α : Type} {encode : α → Json} {decode : Json → Option α} {l : List α}
    (h : ∀ a ∈ l, decode (encode a) = some a) :
    list? decode (.array (l.map encode)) = some l :=
  readAll?_map h

theorem list?_ofTexts (texts : List String) : list? text? (ofTexts texts) = some texts :=
  list?_array_map fun _ _ => rfl

/-- The member of a name behind one that may be left out. -/
@[simp] theorem findMember?_optionalMember_append (key name : String) (value : Option Json)
    (rest : List (String × Json)) :
    findMember? key (optionalMember name value ++ rest) =
      if name = key then value.or (findMember? key rest) else findMember? key rest := by
  cases value <;> simp [optionalMember, findMember?]

@[simp] theorem findMember?_optionalMember (key name : String) (value : Option Json) :
    findMember? key (optionalMember name value) = if name = key then value else none := by
  cases value <;> simp [optionalMember, findMember?]

/-- A text that is left out when there is none. -/
theorem fieldOr?_of_field?_eq_text {v : Json} {place : Nat} {name : String} {text : Option String}
    (h : v.field? place name = text.map .string) :
    v.fieldOr? place name none (optional? text?) = some text := by
  rw [fieldOr?, h]
  cases text <;> rfl

/-- A table whose values are read as what was written is read as what it was. -/
theorem table?_ofTable {α : Type} {encode : α → Json} {decode : Json → Option α} {t : Table α}
    (h : ∀ pair ∈ t.toList, decode (encode pair.2) = some pair.2) :
    table? decode (ofTable encode t) = some t := by
  have hpairs : readAll? (fun pair => (decode pair.2).map fun a => (pair.1, a))
      (t.toList.map fun pair => (pair.1, encode pair.2)) = some t.toList :=
    readAll?_map fun pair hpair => by rw [h pair hpair]; rfl
  rw [ofTable, table?, hpairs, Option.map_some, Table.ofList_toList]

end Json

open Json

/-! ### Statuses and lines -/

theorem Status.ofJson?_toJson (s : Status) : ofJson? s.toJson = some s := by
  cases s <;> decide +kernel

theorem Tone.ofJson?_toJson : (t : Tone) → ofJson? t.toJson = some t
  | .status s => congrArg (Option.map Tone.status) s.ofJson?_toJson
  | .plain | .header | .label | .value | .muted => by decide +kernel

theorem Span.ofJson?_toJson (s : Span) : ofJson? s.toJson = some s := by
  simp [toJson, ofJson?, isRecord, fieldOf?, field?, findMember?, text?, s.tone.ofJson?_toJson]

/-- A line whose indentation is a number of 64 bits. -/
theorem Display.ofJson?_toJson {d : Display} (h : d.indent ≤ Number.maxUInt64) :
    ofJson? d.toJson = some d := by
  have hspans : list? Span.ofJson? (.array (d.spans.map Span.toJson)) = some d.spans :=
    list?_array_map fun s _ => s.ofJson?_toJson
  have hindent : natUpTo? Number.maxUInt64 (ofNat d.indent) = some d.indent := by
    simp [natUpTo?, ofNat, h]
  simp [toJson, ofJson?, isRecord, fieldOf?, field?, findMember?, hspans, hindent]

/-! ### Checks -/

theorem Evaluation.ofJson?_toJson (e : Evaluation) : ofJson? e.toJson = some e := by
  have hstatus : e.toJson.field? 0 "status" = some e.status.toJson := by
    simp [toJson, field?, findMember?]
  have hvalue : e.toJson.field? 1 "value" = if e.value.isNull then none else some e.value := by
    simp [toJson, field?, findMember?]
  have hname : e.toJson.field? 2 "name" = e.name.map .string := by
    simp [toJson, field?, findMember?]
  have hkind : e.toJson.field? 3 "kind" = e.kind.map .string := by
    simp [toJson, field?, findMember?]
  -- The value is left out where it is `null`, and `null` stands for a missing one.
  have hnull : e.toJson.fieldOr? 1 "value" .null some = some e.value := by
    rw [fieldOr?, hvalue]
    cases e.value <;> rfl
  have hrecord : e.toJson.isRecord 4 = true := rfl
  simp [ofJson?, hrecord, fieldOf?, hstatus, e.status.ofJson?_toJson, hnull,
    fieldOr?_of_field?_eq_text hname, fieldOr?_of_field?_eq_text hkind]

/-- An entry whose lines have indentations of 64 bits. -/
theorem Entry.ofJson?_toJson {e : Entry}
    (h : ∀ d ∈ e.displays, d.indent ≤ Number.maxUInt64) : ofJson? e.toJson = some e := by
  have hconditions : e.toJson.field? 0 "conditions" = some (ofTexts e.conditions) := by
    simp [toJson, field?, findMember?]
  have hevaluations : e.toJson.field? 1 "evaluations" =
      some (.array (e.evaluations.map Evaluation.toJson)) := by
    simp [toJson, field?, findMember?]
  have hstatus : e.toJson.field? 2 "status" = some e.status.toJson := by
    simp [toJson, field?, findMember?]
  have hdisplays : e.toJson.field? 3 "displays" =
      if e.displays.isEmpty then none else some (.array (e.displays.map Display.toJson)) := by
    simp [toJson, field?, findMember?]
  have hdescription : e.toJson.field? 4 "description" = e.description.map .string := by
    simp [toJson, field?, findMember?]
  have hlines : e.toJson.fieldOr? 3 "displays" [] (list? Display.ofJson?) = some e.displays := by
    rw [fieldOr?, hdisplays]
    cases hempty : e.displays.isEmpty with
    | true => exact congrArg some (List.isEmpty_iff.1 hempty).symm
    | false => exact list?_array_map fun d hd => Display.ofJson?_toJson (h d hd)
  have hrecord : e.toJson.isRecord 5 = true := rfl
  simp [ofJson?, hrecord, fieldOf?, hconditions, list?_ofTexts, hevaluations,
    list?_array_map fun x _ => Evaluation.ofJson?_toJson x, hstatus, e.status.ofJson?_toJson,
    hlines, fieldOr?_of_field?_eq_text hdescription]

/-- A check whose lines have indentations of 64 bits. -/
theorem Check.ofJson?_toJson {c : Check}
    (h : ∀ entry ∈ c.entries, ∀ d ∈ entry.2.2.displays, d.indent ≤ Number.maxUInt64) :
    ofJson? c.toJson = some c := by
  have htargets : table? (table? Entry.ofJson?) (Targets.toJson c.targets) = some c.targets := by
    refine table?_ofTable fun target htarget => table?_ofTable fun pair hpair => ?_
    refine Entry.ofJson?_toJson (h (target.1, pair.1, pair.2) ?_)
    exact List.mem_flatMap.2 ⟨target, htarget, List.mem_map_of_mem hpair⟩
  simp [toJson, ofJson?, isRecord, fieldOf?, field?, findMember?, text?, htargets,
    c.status.ofJson?_toJson]

/-- A check that holds what another one holds, without the lines. -/
structure Check.IsRecordOf (record c : Check) : Prop where
  /-- The name is the same. -/
  name_eq : record.name = c.name
  /-- What the check does is the same. -/
  description_eq : record.description = c.description
  /-- The status is the same. -/
  status_eq : record.status = c.status
  /-- The entries are the same and in the same places, save for their lines. -/
  entries_eq : record.entries =
    c.entries.map fun (target, ns, e) => (target, ns, { e with displays := [] })

theorem Check.isRecordOf_asRecord (c : Check) : (c.asRecord false).IsRecordOf c :=
  ⟨rfl, rfl, rfl, c.entries_withoutDisplays⟩

/-! ### Reports -/

namespace Report

/-- A report whose indentations are numbers of 64 bits. -/
def FitsMachine (r : Report) : Prop :=
  ∀ c ∈ r.checks, ∀ entry ∈ c.entries, ∀ d ∈ entry.2.2.displays, d.indent ≤ Number.maxUInt64

instance (r : Report) : Decidable r.FitsMachine :=
  inferInstanceAs (Decidable (∀ c ∈ r.checks, ∀ entry ∈ c.entries, ∀ d ∈ entry.2.2.displays,
    d.indent ≤ Number.maxUInt64))

/-- A report is read as what was written. -/
theorem ofJson?_toJson {r : Report} (h : r.FitsMachine) : ofJson? r.toJson = some r := by
  have hchecks {checks : List Check} (hsub : checks ⊆ r.checks) :
      list? Check.ofJson? (.array (checks.map Check.toJson)) = some checks :=
    list?_array_map fun c hc => Check.ofJson?_toJson (h c (hsub hc))
  have htitle : r.toJson.field? 0 "title" = r.title.map .string := by
    simp [toJson, field?, findMember?]
  have hpre : r.toJson.field? 1 "preDeployment" =
      some (.array (r.preDeployment.map Check.toJson)) := by
    simp [toJson, field?, findMember?]
  have hpost : r.toJson.field? 2 "postDeployment" =
      some (.array (r.postDeployment.map Check.toJson)) := by
    simp [toJson, field?, findMember?]
  have hrecord : r.toJson.isRecord 3 = true := rfl
  simp [ofJson?, hrecord, fieldOf?, fieldOr?_of_field?_eq_text htitle, hpre, hpost,
    hchecks (List.subset_append_left r.preDeployment r.postDeployment),
    hchecks (List.subset_append_right r.preDeployment r.postDeployment)]

/-- The checks of a report without its lines. -/
theorem checks_asRecord (withDisplays : Bool) (r : Report) :
    (r.asRecord withDisplays).checks = r.checks.map (Check.asRecord withDisplays) :=
  List.map_append.symm

/-- Without lines there is no indentation. -/
theorem fitsMachine_asRecord_false (r : Report) : (r.asRecord false).FitsMachine := by
  intro c hc entry hentry d hd
  rw [checks_asRecord] at hc
  obtain ⟨c, -, rfl⟩ := List.mem_map.1 hc
  rw [Check.asRecord, if_neg Bool.false_ne_true, Check.entries_withoutDisplays] at hentry
  obtain ⟨entry, -, rfl⟩ := List.mem_map.1 hentry
  cases hd

/-- **Reports are read as what was written.** A report whose indentations are numbers of 64 bits is
read from its JSON form as the same report, with targets and namespaces in their order. The text for
other programs is read as the report without its lines, provided that the text is read as the JSON
form that it was written from. Without lines a report has the same checks in the same order, with
the same statuses, conditions and observations; and it has no lines to leave out. -/
theorem records_round_trip (r : Report) :
    let record := r.asRecord false
    (r.FitsMachine → ofJson? r.toJson = some r) ∧
    (Json.read record.toJson.pretty = .ok record.toJson →
      (Json.read r.machineText).toOption.bind ofJson? = some record) ∧
    record.title = r.title ∧
    List.Forall₂ Check.IsRecordOf record.preDeployment r.preDeployment ∧
    List.Forall₂ Check.IsRecordOf record.postDeployment r.postDeployment ∧
    record.status = r.status ∧
    record.asRecord false = record := by
  intro record
  refine ⟨ofJson?_toJson, fun htext => ?_, rfl, ?_, ?_, ?_, asRecord_false_asRecord_false r⟩
  · rw [machineText, htext]
    exact ofJson?_toJson r.fitsMachine_asRecord_false
  · exact List.forall₂_map_left_iff.2 (List.forall₂_same.2 fun c _ => c.isRecordOf_asRecord)
  · exact List.forall₂_map_left_iff.2 (List.forall₂_same.2 fun c _ => c.isRecordOf_asRecord)
  · rw [status, checks_asRecord, List.map_map]
    rfl

/-- A report with a heading, an entry of two observations, and a line. -/
private def heldReport : Report where
  title := some "edge"
  preDeployment :=
    [.ofNotes "evalBrokers" "Evaluate brokers"
      [⟨"brokers", "edge", .declare [] (some "all brokers")⟩,
        .observe "brokers" "edge" "len" (.of .success (.object [("count", .int 1)])),
        .observe "brokers" "edge" "status" ⟨.warning, .null, some "b", some "broker"⟩,
        .display "brokers" "edge" [((Display.blank 2).label "Status").status "unknown" .warning]]]
  postDeployment := []

/-- The JSON form of this report without its line. -/
private def heldRecord : Json :=
  .object
    [("title", .string "edge"),
      ("preDeployment", .array [.object
        [("name", .string "evalBrokers"), ("description", .string "Evaluate brokers"),
          ("targets", .object [("brokers", .object [("edge", .object
            [("conditions", ofTexts ["len", "status"]),
              ("evaluations", .array
                [.object [("status", .string "success"), ("value", .object [("count", .int 1)])],
                  .object [("status", .string "warning"), ("name", .string "b"),
                    ("kind", .string "broker")]]),
              ("status", .string "warning"), ("description", .string "all brokers")])])]),
          ("status", .string "warning")]]),
      ("postDeployment", .array [])]

private theorem toJson_heldReport : (heldReport.asRecord false).toJson = heldRecord := by
  decide +kernel

/-- The text is taken apart into its pieces first, since it takes long to put it together. -/
private theorem read_heldRecord : Json.read heldRecord.pretty = .ok heldRecord := by
  have hwhole : whole (anyFrom depthLimit) heldRecord.pretty.toList = .ok heldRecord := by
    simp only [heldRecord, ofTexts, List.map_cons, List.map_nil, pretty, prettyAt, prettyList,
      prettyMembers, compact, quoted, lineAt, Text.joinWith, Text.repeated, String.toList_append,
      String.toList_ofList]
    decide +kernel
  rw [Json.read, readBy, hwhole]
  rfl

/-- A report with a line, and its text for other programs. -/
theorem records_round_trip_brokers :
    heldReport.FitsMachine ∧ ofJson? heldReport.toJson = some heldReport ∧
    Json.read (heldReport.asRecord false).toJson.pretty = .ok (heldReport.asRecord false).toJson ∧
    (Json.read heldReport.machineText).toOption.bind ofJson? =
      some (heldReport.asRecord false) := by
  have hfits : heldReport.FitsMachine := by decide +kernel
  have htext : Json.read (heldReport.asRecord false).toJson.pretty =
      .ok (heldReport.asRecord false).toJson := by
    rw [toJson_heldReport, read_heldRecord]
  obtain ⟨hreport, hrecord, -⟩ := records_round_trip heldReport
  exact ⟨hfits, hreport hfits, htext, hrecord htext⟩

end Report

end EdgeHealth
