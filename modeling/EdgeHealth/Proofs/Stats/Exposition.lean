import Mathlib.Data.List.ReduceOption
import EdgeHealth.Proofs.Number.Decimals
import EdgeHealth.Proofs.Stats.Labels
import EdgeHealth.Stats.Metrics

/-!
# Measurements that are written and read

A measurement is written on a line: its name, its labels between braces, and its value. What was
written is read back unless the value of a label holds a character that means something to the
reader: a closing brace ends the labels, a comma ends a label, and escapes are not undone. Where no
value holds a closing brace, names and values are read back at least, and with them the statistics
of the broker.

## Main definitions

* `Measurement` : a measurement that can be written.
* `Measurement.Writes` : the lines of a text, with or without a measurement.

## Main results

* `Measurement.ofLine?_of_writes` : the measurement on a line.
* `Measurement.ofLine?_eq_some_iff` : the lines that are read as what was written.
* `Measurement.ofText_writes` : the texts that are read as what was written.
-/

namespace EdgeHealth

open Text Number Label

/-! ### The format -/

/-- A measurement that can be written. -/
structure Measurement where
  /-- The name of the metric. -/
  name : String
  /-- The labels. -/
  labels : Table String
  /-- The value. -/
  value : Nat
  /-- The name has the characters of a name. -/
  isName_name : isName name.toList
  /-- The names of the labels have the characters of a name. -/
  isName_label : ∀ label ∈ labels.toList, isName label.1.toList
  /-- The value is one that the format of numbers holds. -/
  lt : value < 2 ^ 53

namespace Measurement

/-- What is to be read. -/
def sample (m : Measurement) : Sample := ⟨m.name, m.labels, .ofNat m.value⟩

/-- The value of a measurement behind a blank. -/
def writeValue (m : Measurement) : List Char := ' ' :: (Nat.repr m.value).toList

/-- A measurement without its labels. -/
def writeBare (m : Measurement) : List Char := m.name.toList ++ m.writeValue

/-- A measurement with its labels between braces. -/
def writeBraced (m : Measurement) : List Char :=
  m.name.toList ++ '\x7b' :: (writeLabels m.labels.toList ++ '\x7d' :: m.writeValue)

/-- A line that writes a measurement or none. -/
inductive Writes : Option Measurement → List Char → Prop
  /-- A line of blanks, or a comment. -/
  | silent {line : List Char} (comment : ∀ c ∈ (line.dropWhile isBlank).head?, c = '#')
      (notMem : '\n' ∉ line) : Writes none line
  /-- A measurement without labels can do without braces. -/
  | bare {m : Measurement} (noLabels : m.labels = Table.empty) : Writes (some m) m.writeBare
  /-- A measurement with its labels. -/
  | braced (m : Measurement) : Writes (some m) m.writeBraced

/-! ### Lines -/

section

variable {m : Measurement} {line : List Char}

/-- A line that starts with a name and ends with a digit is read by its parts. -/
theorem ofLine?_of_ends (hne : line ≠ []) (hfirst : ∀ c ∈ line.head?, isNameChar c)
    (hlast : ∀ c ∈ line.getLast?, c.isDigit) :
    Sample.ofLine? line =
      (Sample.parts? line).bind fun (name, inner, rest) =>
        ((words rest).head?.bind Number.float?).map fun value =>
          ⟨String.ofList name, (inner.map Sample.readLabels).getD Table.empty, value⟩ := by
  have htrim : trimBlank line = line :=
    trimBlank_eq_self (fun c hc => (isNameChar_ne (hfirst c hc)).1)
      fun c hc => isBlank_of_isDigit (hlast c hc)
  rw [Sample.ofLine?, htrim]
  split
  · exact absurd rfl hne
  · exact absurd (hfirst '#' rfl) (by decide)
  · rfl

/-- A written value is read back. -/
theorem value_of_words (m : Measurement) :
    (words m.writeValue).head?.bind Number.float? = some (.ofNat m.value) := by
  rw [writeValue, words_cons (by rfl) (fun c hc => isBlank_of_isDigit (isDigit_of_mem_repr hc))
    (toList_repr_ne_nil _)]
  exact float?_repr m.lt

/-- A written measurement starts with a character of a name. -/
theorem isNameChar_of_mem_head? (m : Measurement) (rest : List Char) :
    ∀ c ∈ (m.name.toList ++ rest).head?, isNameChar c := by
  intro c hc
  cases hname : m.name.toList with
  | nil =>
    have h := m.isName_name
    rw [hname] at h
    exact Bool.noConfusion h
  | cons first rest =>
    rw [hname] at hc
    refine isNameChar_of_mem m.isName_name ?_
    rw [hname, ← Option.some.inj hc]
    exact List.mem_cons_self

/-- A written measurement ends with a digit. -/
theorem isDigit_of_mem_getLast? (m : Measurement) (front : List Char) :
    ∀ c ∈ (front ++ m.writeValue).getLast?, c.isDigit := by
  intro c hc
  rw [writeValue, List.append_cons, List.getLast?_append_of_ne_nil _ (toList_repr_ne_nil _)] at hc
  exact isDigit_of_mem_repr (List.mem_of_mem_getLast? hc)

theorem writeBraced_eq (m : Measurement) :
    m.writeBraced =
      (m.name.toList ++ '\x7b' :: (writeLabels m.labels.toList ++ ['\x7d'])) ++ m.writeValue := by
  simp [writeBraced]

/-- A character of a written value is a blank or a digit. -/
theorem eq_or_isDigit_of_mem_writeValue {c : Char} (h : c ∈ m.writeValue) : c = ' ' ∨ c.isDigit :=
  (List.mem_cons.1 h).imp_right isDigit_of_mem_repr

/-- A line without braces is read back. -/
theorem ofLine?_writeBare (m : Measurement) :
    Sample.ofLine? m.writeBare = some ⟨m.name, Table.empty, .ofNat m.value⟩ := by
  have hname : ∀ c ∈ m.name.toList, (!isBlank c) = true := fun c hc => by
    rw [(isNameChar_ne (isNameChar_of_mem m.isName_name hc)).1, Bool.not_false]
  have hbrace : '\x7b' ∉ m.writeBare := fun hmem =>
    (List.mem_append.1 hmem).elim
      (fun hmem => absurd (isNameChar_of_mem m.isName_name hmem) (by decide))
      (fun hmem => absurd (eq_or_isDigit_of_mem_writeValue hmem) (by decide))
  have hparts : Sample.parts? m.writeBare = some (m.name.toList, none, m.writeValue) := by
    rw [Sample.parts?, cutAt?_eq_none hbrace]
    simp only [writeBare, writeValue, List.dropWhile_append_of_pos hname,
      List.takeWhile_append_of_pos hname]
    rw [List.dropWhile_cons_of_neg (by decide), List.takeWhile_cons_of_neg (by decide),
      List.append_nil]
  have hne : m.writeBare ≠ [] := List.append_ne_nil_of_right_ne_nil _ (List.cons_ne_nil _ _)
  rw [ofLine?_of_ends hne (isNameChar_of_mem_head? m _) (isDigit_of_mem_getLast? m _), hparts,
    Option.bind_some]
  simp only [value_of_words, Option.map_some, String.ofList_toList, Option.map_none,
    Option.getD_none]

/-- The parts of a line with braces. -/
theorem ofLine?_writeBraced (m : Measurement) :
    Sample.ofLine? m.writeBraced =
      (cutAt? ['\x7d'] (writeLabels m.labels.toList ++ '\x7d' :: m.writeValue)).bind
        fun (inner, rest) => ((words rest).head?.bind Number.float?).map fun value =>
          ⟨m.name, Sample.readLabels inner, value⟩ := by
  have hbrace : '\x7b' ∉ m.name.toList := fun hmem =>
    absurd (isNameChar_of_mem m.isName_name hmem) (by decide)
  have hlast : ∀ c ∈ m.writeBraced.getLast?, c.isDigit := by
    rw [writeBraced_eq]
    exact isDigit_of_mem_getLast? m _
  have hne : m.writeBraced ≠ [] := List.append_ne_nil_of_right_ne_nil _ (List.cons_ne_nil _ _)
  rw [ofLine?_of_ends hne (isNameChar_of_mem_head? m _) hlast, Sample.parts?, writeBraced,
    cutAt?_append hbrace]
  simp only [Option.bind_map, Function.comp_def, String.ofList_toList, Option.map_some,
    Option.getD_some]

/-- Without closing braces in the values of labels, only the labels may be misread. -/
theorem ofLine?_writeBraced_of_notMem (m : Measurement)
    (h : ∀ label ∈ m.labels.toList, '\x7d' ∉ label.2.toList) :
    Sample.ofLine? m.writeBraced =
      some ⟨m.name, Sample.readLabels (writeLabels m.labels.toList), .ofNat m.value⟩ := by
  have hbrace : '\x7d' ∉ writeLabels m.labels.toList :=
    notMem_writeLabels (by decide) fun label hlabel =>
      notMem_writeLabel (m.isName_label label hlabel) (by decide) (by decide) (by decide)
        (by decide) (.inl (h label hlabel))
  rw [ofLine?_writeBraced, cutAt?_append hbrace, Option.bind_some]
  simp only [value_of_words, Option.map_some]

/-- **The measurement on a line.** The name and the value are read back if the values of labels hold
no closing brace. -/
theorem ofLine?_of_writes (h : Writes (some m) line)
    (hbrace : ∀ label ∈ m.labels.toList, '\x7d' ∉ label.2.toList) :
    ∃ labels, Sample.ofLine? line = some ⟨m.name, labels, .ofNat m.value⟩ := by
  cases h with
  | bare hlabels => exact ⟨_, ofLine?_writeBare m⟩
  | braced => exact ⟨_, ofLine?_writeBraced_of_notMem m hbrace⟩

/-- Where a line is read as what was written, the values of labels hold neither closing braces nor
commas: what is read has none. -/
theorem ne_of_ofLine?_writeBraced (h : Sample.ofLine? m.writeBraced = some m.sample)
    {label : String × String} (hlabel : label ∈ m.labels.toList) {c : Char}
    (hc : c ∈ label.2.toList) : c ≠ '\x7d' ∧ c ≠ ',' := by
  rw [ofLine?_writeBraced] at h
  obtain ⟨⟨inner, rest⟩, hcut, hvalue⟩ := Option.bind_eq_some_iff.1 h
  obtain ⟨value, -, hsample⟩ := Option.map_eq_some_iff.1 hvalue
  have hlabels : Sample.readLabels inner = m.labels := congrArg Sample.labels hsample
  obtain ⟨hinner, hcomma⟩ := mem_of_mem_readLabels (hlabels ▸ hlabel) hc
  exact ⟨fun heq => (notMem_of_cutAt? hcut).1 (heq ▸ hinner), hcomma⟩

/-- **The lines that are read as what was written.** -/
theorem ofLine?_eq_some_iff (h : Writes (some m) line) :
    Sample.ofLine? line = some m.sample ↔ ∀ label ∈ m.labels.toList, IsPlain label.2 := by
  cases h with
  | bare hlabels =>
    rw [ofLine?_writeBare, sample, hlabels]
    exact iff_of_true rfl fun label hlabel => absurd hlabel List.not_mem_nil
  | braced =>
    constructor
    · intro hread
      have hbrace : ∀ label ∈ m.labels.toList, '\x7d' ∉ label.2.toList :=
        fun label hlabel hc => (ne_of_ofLine?_writeBraced hread hlabel hc).1 rfl
      have hcomma : ∀ label ∈ m.labels.toList, ',' ∉ label.2.toList :=
        fun label hlabel hc => (ne_of_ofLine?_writeBraced hread hlabel hc).2 rfl
      -- so the labels are read one by one
      have hlabels : Sample.readLabels (writeLabels m.labels.toList) = m.labels := by
        rw [ofLine?_writeBraced_of_notMem m hbrace, Option.some.injEq] at hread
        exact congrArg Sample.labels hread
      have hkept := (readLabels_writeLabels_eq_iff m.isName_label hcomma).1 hlabels
      intro label hlabel c hc
      obtain ⟨hb, hco⟩ := ne_of_ofLine?_writeBraced hread hlabel hc
      exact ⟨hb, hco, (readBack_eq_iff label.2).1 (hkept label hlabel) c hc⟩
    · intro hplain
      have hbrace : ∀ label ∈ m.labels.toList, '\x7d' ∉ label.2.toList :=
        fun label hlabel hc => (hplain label hlabel _ hc).1 rfl
      have hcomma : ∀ label ∈ m.labels.toList, ',' ∉ label.2.toList :=
        fun label hlabel hc => (hplain label hlabel _ hc).2.1 rfl
      have hkept : ∀ label ∈ m.labels.toList, readBack label.2 = label.2 := fun label hlabel =>
        (readBack_eq_iff label.2).2 fun c hc => (hplain label hlabel c hc).2.2
      rw [ofLine?_writeBraced_of_notMem m hbrace, sample,
        (readLabels_writeLabels_eq_iff m.isName_label hcomma).2 hkept]

/-- A line without the carriage return that may be before its end is read. -/
def readLine (line : List Char) : Option Sample := Sample.ofLine? (dropReturn line)

/-- A line with a measurement has no carriage return at its end. -/
theorem readLine_of_writes (h : Writes (some m) line) : readLine line = Sample.ofLine? line := by
  rw [readLine, dropReturn_eq_self]
  have hdigit : ∀ c ∈ line.getLast?, c.isDigit := by
    cases h with
    | bare hlabels => exact isDigit_of_mem_getLast? m _
    | braced =>
      rw [writeBraced_eq]
      exact isDigit_of_mem_getLast? m _
  rintro c hc rfl
  exact absurd (hdigit _ hc) (by decide)

/-- A line of blanks and a comment are passed over. -/
theorem readLine_of_silent (h : Writes none line) : readLine line = none := by
  cases h with
  | silent hcomment hmem =>
    have hfirst : ∀ c ∈ ((dropReturn line).dropWhile isBlank).head?, c = '#' := by
      rcases dropReturn_eq_or line with heq | heq
      · rwa [heq]
      · intro c hc
        refine hcomment c ?_
        rw [heq, List.dropWhile_append]
        cases hrest : (dropReturn line).dropWhile isBlank with
        | nil =>
          rw [hrest] at hc
          exact absurd hc (Option.not_mem_none c)
        | cons d ds =>
          rw [hrest] at hc
          exact hc
    rw [readLine, Sample.ofLine?, trimBlank]
    cases hrest : (dropReturn line).dropWhile isBlank with
    | nil => rfl
    | cons c rest =>
      have hhash : c = '#' := hfirst c (by rw [hrest]; rfl)
      subst hhash
      rw [dropBlankEnd_cons (by rfl)]
      rfl

/-- No line holds a line feed. -/
theorem notMem_of_writes {item : Option Measurement} (h : Writes item line) : '\n' ∉ line := by
  cases h with
  | silent hcomment hmem => exact hmem
  | @bare m hlabels =>
    rw [writeBare, List.mem_append]
    rintro (hmem | hmem)
    · exact absurd (isNameChar_of_mem m.isName_name hmem) (by decide)
    · exact absurd (eq_or_isDigit_of_mem_writeValue hmem) (by decide)
  | braced m =>
    have hlabels : '\n' ∉ writeLabels m.labels.toList :=
      notMem_writeLabels (by decide) fun label hlabel =>
        notMem_writeLabel (m.isName_label label hlabel) (by decide) (by decide) (by decide)
          (by decide) (.inr rfl)
    simp only [writeBraced, List.mem_append, List.mem_cons]
    rintro (hmem | hmem | hmem | hmem | hmem)
    · exact absurd (isNameChar_of_mem m.isName_name hmem) (by decide)
    · exact absurd hmem (by decide)
    · exact hlabels hmem
    · exact absurd hmem (by decide)
    · exact absurd (eq_or_isDigit_of_mem_writeValue hmem) (by decide)

end

/-! ### Texts -/

section

variable {items : List (Option Measurement)} {ls : List (List Char)}

/-- The measurements of a text are those of its lines. -/
theorem ofText_eq (h : List.Forall₂ Writes items ls) :
    Sample.ofText (ls.flatMap fun line => line ++ ['\n']) = ls.filterMap readLine := by
  have hlines : ∀ line ∈ ls, '\n' ∉ line := by
    induction h with
    | nil => exact fun line hline => absurd hline List.not_mem_nil
    | cons hwrites hrest ih => exact List.forall_mem_cons.2 ⟨notMem_of_writes hwrites, ih⟩
  rw [Sample.ofText, lines_flatMap hlines, List.filterMap_map]
  rfl

/-- No line gives more than one measurement. -/
theorem length_filterMap_le (h : List.Forall₂ Writes items ls) :
    (ls.filterMap readLine).length ≤ items.reduceOption.length := by
  induction h with
  | nil => exact le_rfl
  | @cons item line items ls hwrites hrest ih =>
    cases item with
    | none =>
      rwa [List.filterMap_cons_none (readLine_of_silent hwrites), List.reduceOption_cons_of_none]
    | some m =>
      rw [List.reduceOption_cons_of_some, List.length_cons]
      cases hread : readLine line with
      | none => rw [List.filterMap_cons_none hread]; omega
      | some s => rw [List.filterMap_cons_some hread, List.length_cons]; omega

/-- Names and values are read back where the values of labels hold no closing brace. -/
theorem map_filterMap_readLine (h : List.Forall₂ Writes items ls)
    (hbrace : ∀ m ∈ items.reduceOption, ∀ label ∈ m.labels.toList, '\x7d' ∉ label.2.toList) :
    (ls.filterMap readLine).map (fun s => (s.name, s.value)) =
      items.reduceOption.map fun m => (m.name, .ofNat m.value) := by
  induction h with
  | nil => rfl
  | @cons item line items ls hwrites hrest ih =>
    cases item with
    | none =>
      rw [List.reduceOption_cons_of_none] at hbrace ⊢
      rw [List.filterMap_cons_none (readLine_of_silent hwrites), ih hbrace]
    | some m =>
      rw [List.reduceOption_cons_of_some, List.forall_mem_cons] at hbrace
      obtain ⟨labels, hread⟩ := ofLine?_of_writes hwrites hbrace.1
      rw [← readLine_of_writes hwrites] at hread
      rw [List.reduceOption_cons_of_some, List.filterMap_cons_some hread, List.map_cons,
        List.map_cons, ih hbrace.2]

/-- The measurements are read back where all lines with a measurement are. -/
theorem filterMap_readLine_eq_iff (h : List.Forall₂ Writes items ls) :
    ls.filterMap readLine = items.reduceOption.map sample ↔
      ∀ m ∈ items.reduceOption, ∀ label ∈ m.labels.toList, IsPlain label.2 := by
  induction h with
  | nil => exact iff_of_true rfl fun m hm => absurd hm List.not_mem_nil
  | @cons item line items ls hwrites hrest ih =>
    cases item with
    | none =>
      rw [List.filterMap_cons_none (readLine_of_silent hwrites), List.reduceOption_cons_of_none]
      exact ih
    | some m =>
      rw [List.reduceOption_cons_of_some, List.forall_mem_cons, List.map_cons, ← ih,
        ← ofLine?_eq_some_iff hwrites, ← readLine_of_writes hwrites]
      cases hread : readLine line with
      | none =>
        -- with one measurement less, the others cannot make up for it
        refine iff_of_false (fun heq => ?_) (fun heq => nomatch heq.1)
        have hlength := congrArg List.length heq
        have hle := length_filterMap_le hrest
        rw [List.filterMap_cons_none hread, List.length_cons, List.length_map] at hlength
        omega
      | some s => rw [List.filterMap_cons_some hread, List.cons.injEq, Option.some.injEq]

end

/-- The statistics depend on the names and the values of measurements only. -/
theorem merge_congr {samples samples' : List Sample}
    (h : samples.map (fun s => (s.name, s.value)) = samples'.map fun s => (s.name, s.value)) :
    BrokerStats.merge samples = BrokerStats.merge samples' := by
  have hbare : ∀ l : List Sample, BrokerStats.merge l =
      BrokerStats.merge (l.map fun s => ⟨s.name, Table.empty, s.value⟩) := fun l => by
    rw [BrokerStats.merge, BrokerStats.merge, List.foldl_map]
  have hmap := congrArg
    (List.map fun pair : String × Binary64 => (⟨pair.1, Table.empty, pair.2⟩ : Sample)) h
  rw [List.map_map, List.map_map] at hmap
  rw [hbare samples, hbare samples']
  exact congrArg BrokerStats.merge hmap

/-- **The texts that are read as what was written.** A text of written measurements, comments and
lines of blanks is read as these measurements if and only if the values of all labels are plain.
Names, values and the statistics of the broker do not depend on that; for them, no value of a label
may hold a closing brace. All values are exact. -/
theorem ofText_writes {items : List (Option Measurement)} {ls : List (List Char)}
    (h : List.Forall₂ Writes items ls) :
    (Sample.ofText (ls.flatMap fun line => line ++ ['\n']) = items.reduceOption.map sample ↔
      ∀ m ∈ items.reduceOption, ∀ label ∈ m.labels.toList, IsPlain label.2) ∧
    ((∀ m ∈ items.reduceOption, ∀ label ∈ m.labels.toList, '\x7d' ∉ label.2.toList) →
      (Sample.ofText (ls.flatMap fun line => line ++ ['\n'])).map (fun s => (s.name, s.value)) =
          items.reduceOption.map (fun m => (m.name, .ofNat m.value)) ∧
        BrokerStats.ofText (ls.flatMap fun line => line ++ ['\n']) =
          ⟨BrokerStats.merge (items.reduceOption.map sample)⟩) ∧
    ∀ m ∈ items.reduceOption, (Binary64.ofNat m.value).HasValue m.value := by
  rw [BrokerStats.ofText, ofText_eq h]
  refine ⟨filterMap_readLine_eq_iff h, fun hbrace => ?_, fun m _ => ?_⟩
  · have hread := map_filterMap_readLine h hbrace
    refine ⟨hread, congrArg BrokerStats.mk (merge_congr ?_)⟩
    rw [hread, List.map_map]
    rfl
  · exact Binary64.hasValue_ofNat (Binary64.holds_natCast m.lt.le) (m.lt.trans (by decide))

/-- A count of messages by client. -/
private def published : Measurement where
  name := "aio_mq_publishes_sent"
  labels := .ofList [("client", "press #1 \x7ba=b"), ("role", "")]
  value := 12
  isName_name := by decide
  isName_label := by decide
  lt := by decide

/-- A count of sessions. -/
private def sessions : Measurement where
  name := "aio_mq_connected_sessions"
  labels := .empty
  value := 7
  isName_name := by decide
  isName_label := by decide
  lt := by decide

/-- Two measurements after a comment and a line of blanks. -/
private def report : List (List Char) :=
  ["# TYPE aio_mq_publishes_sent counter".toList, published.writeBraced, "  ".toList,
    sessions.writeBare]

/-- The report is read as the two measurements. -/
theorem ofText_writes_report :
    List.Forall₂ Writes [none, some published, none, some sessions] report ∧
      Sample.ofText (report.flatMap fun line => line ++ ['\n']) =
        [published.sample, sessions.sample] ∧
      BrokerStats.ofText (report.flatMap fun line => line ++ ['\n']) =
        ⟨BrokerStats.merge [published.sample, sessions.sample]⟩ := by
  have hcomment : ∀ c ∈ ("# TYPE aio_mq_publishes_sent counter".toList.dropWhile isBlank).head?,
      c = '#' := fun c hc => (Option.some.inj hc).symm
  have hblanks : ∀ c ∈ ("  ".toList.dropWhile isBlank).head?, c = '#' := fun c hc => nomatch hc
  have hwrites : List.Forall₂ Writes [none, some published, none, some sessions] report :=
    .cons (.silent hcomment (by decide)) (.cons (.braced published)
      (.cons (.silent hblanks (by decide)) (.cons (.bare rfl) .nil)))
  have hplain : ∀ m ∈ [published, sessions], ∀ label ∈ m.labels.toList, IsPlain label.2 := by
    decide
  obtain ⟨hread, hstats, -⟩ := ofText_writes hwrites
  exact ⟨hwrites, hread.2 hplain,
    (hstats fun m hm label hlabel hc => (hplain m hm label hlabel _ hc).1 rfl).2⟩

/-- A count of lost messages, with a closing brace in the value of a label. -/
private def lost : Measurement where
  name := Reducer.messagesLost
  labels := .ofList [("cause", "\x7d")]
  value := 3
  isName_name := by decide
  isName_label := by decide
  lt := by decide

/-- A closing brace in the value of a label takes the measurement away, and with it the threshold
that it does not meet. -/
theorem ofText_writeBraced_lost :
    List.Forall₂ Writes [some lost] [lost.writeBraced] ∧
      Sample.ofText (lost.writeBraced ++ ['\n']) ≠ [lost.sample] ∧
      (BrokerStats.ofText (lost.writeBraced ++ ['\n'])).thresholds = [] ∧
      (BrokerStats.thresholds ⟨BrokerStats.merge [lost.sample]⟩).map Threshold.met = [false] :=
  ⟨.cons (.braced lost) .nil, by decide, by decide, by decide⟩

end Measurement

end EdgeHealth
