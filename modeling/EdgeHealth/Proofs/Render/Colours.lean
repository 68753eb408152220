import Mathlib.Data.List.Forall2
import EdgeHealth.Proofs.Render.Clean
import EdgeHealth.Render.Terminal

/-!
# Colours as decoration

A report in colours is the report without colours in which sequences have been put that set and
reset a style. Whoever takes these sequences out of the one has the other before them. This holds
of every report whose own texts start no sequence, since only painted text brings sequences in.

Where sequences stand is a matter of the whole text: a sequence that begins in one piece could end
in the next. So a piece decorates another one if it comes to it *in front of any text*, and pieces
of which this holds can be put together.

## Main definitions

* `Text.withoutSequences` : a text with its sequences taken out.
* `Text.Decorates` : a text in colours beside the same text without colours.
* `Report.texts` : the texts in a report.

## Main results

* `Text.decorates_painted` : painting a text decorates it.
* `View.decorates_checkLines` : the lines of a check in colours and without colours.
* `View.withoutSequences_report` : the text of a report in colours and without colours.
-/

namespace EdgeHealth

namespace Text

/-! ### Sequences -/

/-- A character that stands among the numbers of a sequence. -/
def isParameter (c : Char) : Bool := c.isDigit || c == ';' || c == ':'

/-- What follows the sequence at the head of a text, if one stands there: an escape character, a
bracket, numbers and the letter that tells that they are about style. -/
def afterSequence? : List Char → Option (List Char)
  | '\x1b' :: '[' :: rest =>
    match rest.dropWhile isParameter with
    | 'm' :: rest => some rest
    | _ => none
  | _ => none

theorem length_lt_of_afterSequence? {cs rest : List Char} (h : afterSequence? cs = some rest) :
    rest.length < cs.length := by
  unfold afterSequence? at h
  split at h
  · next numbers =>
    split at h
    · next after heq =>
      have hle : ('m' :: after).length ≤ numbers.length :=
        heq ▸ (List.dropWhile_suffix isParameter).length_le
      obtain rfl : after = rest := Option.some.inj h
      simp only [List.length_cons] at hle ⊢
      omega
    · cases h
  · cases h

/-- A text with the sequences taken out that set and reset a style. -/
def withoutSequences : List Char → List Char
  | [] => []
  | c :: cs =>
    match _h : afterSequence? (c :: cs) with
    | some rest => withoutSequences rest
    | none => c :: withoutSequences cs
termination_by cs => cs.length
decreasing_by
  · exact length_lt_of_afterSequence? _h
  · exact Nat.lt_succ_self _

theorem withoutSequences_nil : withoutSequences [] = [] := by
  rw [withoutSequences]

theorem withoutSequences_of_afterSequence? {cs rest : List Char}
    (h : afterSequence? cs = some rest) : withoutSequences cs = withoutSequences rest := by
  cases cs with
  | nil => cases h
  | cons c cs =>
    rw [withoutSequences]
    split
    · next rest' h' => rw [Option.some.inj (h'.symm.trans h)]
    · next h' => cases h'.symm.trans h

/-- A character that is no escape character stays. -/
theorem withoutSequences_cons {c : Char} (hc : c ≠ '\x1b') (cs : List Char) :
    withoutSequences (c :: cs) = c :: withoutSequences cs := by
  have hnone : afterSequence? (c :: cs) = none := by
    rw [afterSequence?]
    rintro rest ⟨rfl, -⟩
    exact hc rfl
  rw [withoutSequences]
  split
  · next rest h => cases hnone.symm.trans h
  · rfl

/-- Text without an escape character stays, whatever follows it. -/
theorem withoutSequences_append : {cs : List Char} → '\x1b' ∉ cs → (rest : List Char) →
    withoutSequences (cs ++ rest) = cs ++ withoutSequences rest
  | [], _, _ => rfl
  | c :: cs, h, rest => by
    rw [List.mem_cons, not_or] at h
    rw [List.cons_append, withoutSequences_cons (Ne.symm h.1), withoutSequences_append h.2 rest]
    rfl

/-- A sequence goes, whatever follows it. -/
theorem withoutSequences_sequence (n : Nat) (rest : List Char) :
    withoutSequences ((Paint.sequence n).toList ++ rest) = withoutSequences rest := by
  have hdigits : ∀ c ∈ Nat.toDigits 10 n, isParameter c := by
    intro c hc
    rw [isParameter, Nat.isDigit_of_mem_toDigits (by decide) (by decide) hc]
    rfl
  have htext : (Paint.sequence n).toList ++ rest =
      '\x1b' :: '[' :: (Nat.toDigits 10 n ++ 'm' :: rest) := by
    change ("\x1b[" ++ Nat.repr n ++ "m").toList ++ rest = _
    simp [String.toList_append, Nat.toList_repr]
  refine withoutSequences_of_afterSequence? ?_
  rw [htext, afterSequence?, List.dropWhile_append_of_pos hdigits]
  rfl

/-! ### Decorated texts -/

/-- A text in colours beside the same text without colours. Taking the sequences out leads from the
one to the other, whatever follows, and there is none in the other. -/
structure Decorates (colored plain : String) : Prop where
  /-- Without its sequences the one is the other. -/
  withoutSequences_append : ∀ rest : List Char,
    withoutSequences (colored.toList ++ rest) = plain.toList ++ withoutSequences rest
  /-- The other has no escape character. -/
  isClean : IsClean plain

theorem Decorates.withoutSequences {colored plain : String} (h : Decorates colored plain) :
    withoutSequences colored.toList = plain.toList := by
  simpa only [List.append_nil, withoutSequences_nil] using h.withoutSequences_append []

/-- Text without an escape character has no decoration. -/
theorem IsClean.decorates {s : String} (h : IsClean s) : Decorates s s :=
  ⟨withoutSequences_append h, h⟩

theorem Decorates.append {s t s' t' : String} (h : Decorates s t) (h' : Decorates s' t') :
    Decorates (s ++ s') (t ++ t') where
  withoutSequences_append rest := by
    simp only [String.toList_append, List.append_assoc]
    rw [h.withoutSequences_append, h'.withoutSequences_append]
  isClean := isClean_append.2 ⟨h.isClean, h'.isClean⟩

theorem decorates_join {l l' : List String} (h : List.Forall₂ Decorates l l') :
    Decorates (String.join l) (String.join l') := by
  induction h with
  | nil => exact IsClean.decorates (by decide)
  | cons hhead _ ih =>
    rw [String.join_cons, String.join_cons]
    exact hhead.append ih

theorem decorates_joinWith {sep : String} (hsep : IsClean sep) {l l' : List String}
    (h : List.Forall₂ Decorates l l') : Decorates (joinWith sep l) (joinWith sep l') := by
  induction h with
  | nil => exact IsClean.decorates List.not_mem_nil
  | cons hhead htail ih =>
    cases htail with
    | nil => exact hhead
    | cons _ _ => exact (hhead.append hsep.decorates).append ih

/-- Lines made of parts that decorate each other. -/
theorem forall₂_flatMap {α : Type} {f g : α → List String} {l : List α}
    (h : ∀ a ∈ l, List.Forall₂ Decorates (f a) (g a)) :
    List.Forall₂ Decorates (l.flatMap f) (l.flatMap g) :=
  List.rel_flatten (List.forall₂_map_left_iff.2 (List.forall₂_map_right_iff.2
    (List.forall₂_same.2 h)))

theorem forall₂_map {α : Type} {f g : α → String} {l : List α}
    (h : ∀ a ∈ l, Decorates (f a) (g a)) : List.Forall₂ Decorates (l.map f) (l.map g) :=
  List.forall₂_map_left_iff.2 (List.forall₂_map_right_iff.2 (List.forall₂_same.2 h))

/-- **Painting a text decorates it.** -/
theorem decorates_painted (tone : Tone) {s : String} (h : IsClean s) :
    Decorates (tone.painted true s) (tone.painted false s) := by
  rw [Tone.painted, Tone.painted]
  split
  · next paint _ =>
    refine ⟨fun rest => ?_, h⟩
    change Text.withoutSequences ((Paint.sequence paint.on ++ s ++
      Paint.sequence paint.off).toList ++ rest) = s.toList ++ Text.withoutSequences rest
    simp only [String.toList_append, List.append_assoc]
    rw [withoutSequences_sequence, withoutSequences_append h, withoutSequences_sequence]
  · exact h.decorates

end Text

open Text

/-! ### The texts in a report -/

/-- The texts in an observation. -/
def Evaluation.texts (e : Evaluation) : List String :=
  e.value.texts ++ e.name.toList ++ e.kind.toList

/-- The texts in a line for human readers. -/
def Display.texts (d : Display) : List String := d.spans.map Span.text

/-- The texts in an entry. -/
def Entry.texts (e : Entry) : List String :=
  e.conditions ++ e.evaluations.flatMap Evaluation.texts ++ e.displays.flatMap Display.texts ++
    e.description.toList

/-- The texts in a check: what it says of itself, its targets and namespaces, and what is in its
entries. -/
def Check.texts (c : Check) : List String :=
  c.name :: c.description :: c.targets.toList.flatMap fun (target, namespaces) =>
    target :: namespaces.toList.flatMap fun (ns, entry) => ns :: entry.texts

/-- The texts in a report. -/
def Report.texts (r : Report) : List String := r.title.toList ++ r.checks.flatMap Check.texts

namespace Check

variable {c : Check}

/-- What stands in an entry, and beside it, stands in the check. -/
theorem mem_texts_of_mem_entries {target ns : String} {entry : Entry}
    (h : (target, ns, entry) ∈ c.entries) {s : String} (hs : s ∈ target :: ns :: entry.texts) :
    s ∈ c.texts := by
  obtain ⟨⟨target', namespaces⟩, htargets, h⟩ := List.mem_flatMap.1 h
  obtain ⟨⟨ns', entry'⟩, hnamespaces, heq⟩ := List.mem_map.1 h
  obtain ⟨rfl, rfl, rfl⟩ : target' = target ∧ ns' = ns ∧ entry' = entry := by
    simpa only [Prod.mk.injEq] using heq
  refine List.mem_cons_of_mem _ (List.mem_cons_of_mem _ (List.mem_flatMap.2 ⟨_, htargets, ?_⟩))
  rcases List.mem_cons.1 hs with rfl | hs
  · exact List.mem_cons_self
  · exact List.mem_cons_of_mem _ (List.mem_flatMap.2 ⟨_, hnamespaces, hs⟩)

end Check

/-! ### Lines -/

namespace View

variable (level : DetailLevel)

theorem decorates_ended {s t : String} (h : Decorates s t) : Decorates (ended s) (ended t) :=
  h.append (IsClean.decorates (by decide))

theorem decorates_display (indent : Nat) {d : Display} (h : ∀ s ∈ d.texts, IsClean s) :
    Decorates (display true indent d) (display false indent d) := by
  refine (IsClean.decorates (isClean_repeated (by decide) _)).append
    (decorates_join (forall₂_map fun span hspan => ?_))
  exact decorates_painted span.tone (h _ (List.mem_map_of_mem hspan))

theorem isClean_valueText {v : Json} (h : ∀ s ∈ v.texts, IsClean s) : IsClean (valueText v) := by
  rw [valueText]
  split
  · exact Json.isClean_compact v h
  · exact Json.isClean_scalarText h

/-- The line of an observation in colours and without colours. -/
theorem decorates_observation {target condition : String} {e : Evaluation}
    (htarget : IsClean target) (hcondition : IsClean condition) (h : ∀ s ∈ e.texts, IsClean s) :
    Decorates (observation true target condition e) (observation false target condition e) := by
  rw [Evaluation.texts, List.forall_mem_append, List.forall_mem_append] at h
  obtain ⟨⟨hvalue, hname⟩, -⟩ := h
  have hglyph : IsClean e.status.glyph := by cases e.status <;> decide
  have hspace : Decorates " " " " := IsClean.decorates (by decide)
  have hcolon : Decorates ": " ": " := IsClean.decorates (by decide)
  refine ((((((decorates_painted _ hglyph).append hspace).append ?subject).append hcolon).append
    hcondition.decorates).append hspace).append (decorates_painted _ (isClean_valueText hvalue))
  case subject =>
    refine decorates_painted _ ?_
    split
    · next name heq =>
      have hname : IsClean name := hname name (heq ▸ List.mem_singleton_self name)
      change IsClean (target ++ " [" ++ name ++ "]")
      simp only [isClean_append]
      exact ⟨⟨⟨htarget, by decide⟩, hname⟩, by decide⟩
    · exact htarget

/-- The lines of a structured value in colours and without colours. -/
theorem decorates_document {v : Json} (h : ∀ s ∈ v.texts, IsClean s) :
    List.Forall₂ Decorates (document true v) (document false v) :=
  forall₂_map fun line hline => (IsClean.decorates (by decide)).append
    (decorates_painted _ (isClean_of_mem_lines (Yaml.isClean_document h) hline))

theorem decorates_observationLines {target condition : String} {e : Evaluation}
    (htarget : IsClean target) (hcondition : IsClean condition) (h : ∀ s ∈ e.texts, IsClean s) :
    List.Forall₂ Decorates (observationLines ⟨level, true⟩ target condition e)
      (observationLines ⟨level, false⟩ target condition e) := by
  have hvalue : ∀ s ∈ e.value.texts, IsClean s := fun s hs =>
    h s (List.mem_append_left _ (List.mem_append_left _ hs))
  refine .cons ((IsClean.decorates (by decide)).append
    (decorates_observation htarget hcondition h)) ?_
  split
  · exact decorates_document hvalue
  · exact .nil

theorem decorates_observations {target : String} {e : Entry} (htarget : IsClean target)
    (h : ∀ s ∈ e.texts, IsClean s) :
    List.Forall₂ Decorates (observations ⟨level, true⟩ target e)
      (observations ⟨level, false⟩ target e) := by
  simp only [Entry.texts, List.forall_mem_append] at h
  obtain ⟨⟨⟨hconditions, hevaluations⟩, -⟩, -⟩ := h
  refine forall₂_flatMap fun pair hpair => ?_
  obtain ⟨hcondition, hevaluation⟩ := List.of_mem_zip hpair
  exact decorates_observationLines level htarget (hconditions _ hcondition) fun s hs =>
    hevaluations s (List.mem_flatMap.2 ⟨_, hevaluation, hs⟩)

theorem decorates_namespaceLines {ns : String} (h : IsClean ns) :
    List.Forall₂ Decorates (namespaceLines ⟨level, true⟩ ns)
      (namespaceLines ⟨level, false⟩ ns) := by
  rw [namespaceLines, namespaceLines]
  split
  · exact .nil
  · have hblanks : Decorates "  " "  " := IsClean.decorates (by decide)
    have hspace : Decorates " " " " := IsClean.decorates (by decide)
    exact .cons (((hblanks.append (decorates_painted _ (by decide))).append hspace).append
      (decorates_painted _ h)) .nil

/-- The lines of an entry in colours and without colours. -/
theorem decorates_entryLines {target ns : String} {e : Entry}
    (h : ∀ s ∈ target :: ns :: e.texts, IsClean s) :
    List.Forall₂ Decorates (entryLines ⟨level, true⟩ target ns e)
      (entryLines ⟨level, false⟩ target ns e) := by
  obtain ⟨htarget, hns, htexts⟩ : IsClean target ∧ IsClean ns ∧ ∀ s ∈ e.texts, IsClean s := by
    simpa only [List.forall_mem_cons] using h
  have hdisplays : List.Forall₂ Decorates (e.displays.map (display true 4))
      (e.displays.map (display false 4)) := by
    refine forall₂_map fun d hd => decorates_display 4 fun s hs => htexts s ?_
    exact List.mem_append_left _ (List.mem_append_right _ (List.mem_flatMap.2 ⟨d, hd, hs⟩))
  refine List.rel_append (List.rel_append (decorates_namespaceLines level hns) hdisplays) ?_
  split
  · exact decorates_observations level htarget htexts
  · exact .nil

theorem decorates_headLine {c : Check} (h : IsClean c.description) :
    Decorates (headLine ⟨level, true⟩ c) (headLine ⟨level, false⟩ c) := by
  refine decorates_painted _ ?_
  have hglyph : IsClean c.status.glyph := by cases c.status <;> decide
  change IsClean (c.status.glyph ++ " " ++ c.description)
  simp only [isClean_append]
  exact ⟨⟨hglyph, by decide⟩, h⟩

/-- The lines of a check in colours and without colours. -/
theorem decorates_checkLines {c : Check} (h : ∀ s ∈ c.texts, IsClean s) :
    List.Forall₂ Decorates (checkLines ⟨level, true⟩ c) (checkLines ⟨level, false⟩ c) := by
  have hdescription : IsClean c.description :=
    h _ (List.mem_cons_of_mem _ List.mem_cons_self)
  refine .cons (decorates_headLine level hdescription) ?_
  split
  · refine forall₂_flatMap fun ⟨target, ns, entry⟩ hentry => ?_
    exact decorates_entryLines level fun s hs => h s (Check.mem_texts_of_mem_entries hentry hs)
  · exact .nil

theorem decorates_sectionLines {heading : String} (hheading : IsClean heading)
    {checks : List Check} (h : ∀ c ∈ checks, ∀ s ∈ c.texts, IsClean s) :
    List.Forall₂ Decorates (sectionLines ⟨level, true⟩ heading checks)
      (sectionLines ⟨level, false⟩ heading checks) := by
  rw [sectionLines, sectionLines]
  split
  · exact .nil
  · have hrule : IsClean (Text.repeated '-' 60) := isClean_repeated (by decide) 60
    exact List.rel_append
      (.cons (decorates_painted _ hheading)
        (forall₂_flatMap fun c hc => decorates_checkLines level (h c hc)))
      (.cons hrule.decorates .nil)

theorem decorates_counts (r : Report) :
    Decorates (counts ⟨level, true⟩ r) (counts ⟨level, false⟩ r) := by
  refine (IsClean.decorates (by decide)).append
    (decorates_joinWith (by decide) (forall₂_map fun s _ => decorates_painted _ ?_))
  have hglyph : IsClean s.glyph := by cases s <;> decide
  have hword : IsClean s.word := by cases s <;> decide
  change IsClean (s.glyph ++ " " ++ Nat.repr (r.count s) ++ " " ++ s.word)
  simp only [isClean_append]
  exact ⟨⟨⟨⟨hglyph, by decide⟩, isClean_repr _⟩, by decide⟩, hword⟩

/-- The lines of a report in colours and without colours. -/
theorem decorates_reportLines {r : Report} (h : ∀ s ∈ r.texts, IsClean s) :
    List.Forall₂ Decorates (reportLines ⟨level, true⟩ r) (reportLines ⟨level, false⟩ r) := by
  rw [Report.texts, List.forall_mem_append] at h
  obtain ⟨htitle, hchecks⟩ := h
  have hcheck : ∀ c ∈ r.checks, ∀ s ∈ c.texts, IsClean s := fun c hc s hs =>
    hchecks s (List.mem_flatMap.2 ⟨c, hc, hs⟩)
  rw [reportLines, reportLines]
  refine List.rel_append (List.rel_append (List.rel_append ?title ?before) ?after) ?summary
  case title =>
    split
    · next title heq =>
      have hclean : IsClean title := htitle title (heq ▸ List.mem_singleton_self title)
      exact .cons (decorates_painted _ hclean) (.cons (IsClean.decorates (by decide)) .nil)
    · exact .nil
  case before =>
    exact decorates_sectionLines level (by decide) fun c hc =>
      hcheck c (List.mem_append_left _ hc)
  case after =>
    exact decorates_sectionLines level (by decide) fun c hc =>
      hcheck c (List.mem_append_right _ hc)
  case summary =>
    exact .cons (decorates_painted _ (by decide)) (.cons (decorates_counts level r) .nil)

theorem decorates_report {r : Report} (h : ∀ s ∈ r.texts, IsClean s) :
    Decorates (report ⟨level, true⟩ r) (report ⟨level, false⟩ r) := by
  rw [report, report]
  refine decorates_join (List.forall₂_map_left_iff.2 (List.forall₂_map_right_iff.2 ?_))
  exact (decorates_reportLines level h).imp fun _ _ => decorates_ended

/-- **Colours are decoration.** If no text in a report has an escape character, then, at every level
of detail, the text of the report in colours is the text without colours once its sequences are
taken out, and the text without colours has no escape character. -/
theorem withoutSequences_report {r : Report} (h : ∀ s ∈ r.texts, IsClean s) :
    withoutSequences (report ⟨level, true⟩ r).toList = (report ⟨level, false⟩ r).toList ∧
      '\x1b' ∉ (report ⟨level, false⟩ r).toList :=
  ⟨(decorates_report level h).withoutSequences, (decorates_report level h).isClean⟩

/-- A report with a heading, a line for human readers and a structured value. -/
private def sample : Report where
  title := some "Site"
  preDeployment := []
  postDeployment := [⟨"evalBrokers", "Evaluate brokers",
    ⟨[("brokers", ⟨[("plant", {
        conditions := ["status"]
        evaluations := [⟨.warning, .object [("frontend", .array [.int 1, .bool true])],
          some "broker", none⟩]
        status := .warning
        displays := [Display.field 0 "Broker" "broker"]
        description := none })], by decide⟩)], by decide⟩, .warning⟩]

theorem withoutSequences_report_sample :
    (∀ s ∈ sample.texts, IsClean s) ∧
      withoutSequences (report ⟨.verbose, true⟩ sample).toList =
        (report ⟨.verbose, false⟩ sample).toList ∧
      '\x1b' ∉ (report ⟨.verbose, false⟩ sample).toList := by
  have h : ∀ s ∈ sample.texts, IsClean s := by decide
  exact ⟨h, withoutSequences_report .verbose h⟩

end View

end EdgeHealth
