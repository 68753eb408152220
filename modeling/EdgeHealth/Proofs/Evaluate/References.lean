import EdgeHealth.Evaluate.Finding
import EdgeHealth.Proofs.Cluster.Performs

/-!
# References to other resources

A resource refers to others by their names. Each name is looked up in the namespace of the resource,
one after another, and the finding says whether all of them are there. A lookup that does not reach
the cluster ends this: there is no finding then, and the failure is that of the lookup. Any other
failure counts as absence.

A list of names may hold what is no text. Such an item is passed over: beside texts it is neither
looked up nor reported.

## Main definitions

* `Cluster.lookup`, `Cluster.holds`, `Cluster.loss?` : what comes of the lookup of a name.
* `Cluster.LooksUp` : an attempt that looks names up and does nothing else.
* `Cluster.ResolvesAll`, `Cluster.PassesOver` : lists of names that lead to resources.
* `Finding.Validates` : a finding about the names at a path.

## Main results

* `Cluster.LooksUp.bind` : names that are looked up after others.
* `Finding.looksUp_reference`, `Finding.looksUp_references` : the findings about references.
* `Finding.references_decide` : when these findings are good ones.
-/

namespace EdgeHealth

open Json

variable {α β : Type}

namespace Cluster

variable (cluster : Cluster) (ns : String) (referent : Kind)

/-! ### Lookups -/

/-- What a cluster answers to the question for a resource of a kind. -/
def lookup (name : String) : Except ClusterError Resource :=
  (cluster.reply (.getObject referent.api ns referent.plural name)).answer

/-- Whether a cluster holds a resource of a kind. -/
def holds (name : String) : Bool := (cluster.lookup ns referent name).isOk

/-- The failure to reach the cluster with the question for a resource, if there is one. -/
def loss? (name : String) : Option ClusterError :=
  match cluster.lookup ns referent name with
  | .ok _ => none
  | .error e => if e.isConnectivity then some e else none

/-- The question for a resource, as something that was done. -/
def lookedUp (name : String) : Event := .asked (.getObject referent.api ns referent.plural name)

/-- An attempt that looks names up, one after another, and does nothing else. Where each lookup
reaches the cluster, it comes to a result. Else it fails with the first lookup that does not, as
that does, and looks nothing up after it. -/
structure LooksUp (names : List String) (attempt : Attempt α) (a : α) : Prop where
  /-- Where each lookup reaches the cluster, the attempt comes to a result. -/
  settled : (∀ name ∈ names, cluster.loss? ns referent name = none) →
    attempt.run.Performs cluster (names.map (lookedUp ns referent)) (.ok (.ok a))
  /-- The first lookup that does not reach the cluster is the last one. -/
  lost : ∀ before name after e, names = before ++ name :: after →
    (∀ other ∈ before, cluster.loss? ns referent other = none) →
    cluster.loss? ns referent name = some e →
    attempt.run.Performs cluster ((before ++ [name]).map (lookedUp ns referent))
      (.ok (.error e))

variable {cluster ns referent}

theorem looksUp_pure (a : α) : cluster.LooksUp ns referent [] (pure a : Attempt α) a where
  settled _ := Session.performs_pure (Except.ok a)
  lost before _ _ _ h := by simp at h

/-- Names that are looked up after others. -/
theorem LooksUp.bind {names names' : List String} {x : Attempt α} {f : α → Attempt β} {a : α}
    {b : β} (hx : cluster.LooksUp ns referent names x a)
    (hf : cluster.LooksUp ns referent names' (f a) b) :
    cluster.LooksUp ns referent (names ++ names') (x >>= f) b where
  settled h := by
    obtain ⟨hnames, hnames'⟩ := List.forall_mem_append.1 h
    rw [List.map_append]
    exact Session.performs_run_bind (hx.settled hnames) (hf.settled hnames')
  lost before name after e hsplit hbefore hloss := by
    rcases List.append_eq_append_iff.1 hsplit with ⟨between, rfl, hnames'⟩ | ⟨between, rfl, hrest⟩
    · -- the lookup is one of the further ones
      obtain ⟨hnames, hbetween⟩ := List.forall_mem_append.1 hbefore
      rw [List.append_assoc, List.map_append]
      exact Session.performs_run_bind (hx.settled hnames)
        (hf.lost between name after e hnames' hbetween hloss)
    · cases between with
      | nil =>
        -- the lookup is the first one of the further ones
        rw [List.append_nil] at hx
        rw [List.map_append]
        exact Session.performs_run_bind (hx.settled hbefore)
          (hf.lost [] name after e hrest.symm (List.forall_mem_nil _) hloss)
      | cons head rest =>
        obtain ⟨rfl, -⟩ := List.cons.inj hrest
        exact Session.performs_run_bind_error (hx.lost before name rest e rfl hbefore hloss)

theorem LooksUp.bind_pure {names : List String} {x : Attempt α} {a : α}
    (hx : cluster.LooksUp ns referent names x a) (g : α → β) :
    cluster.LooksUp ns referent names (x >>= fun a => pure (g a)) (g a) := by
  rw [← List.append_nil names]
  exact hx.bind (looksUp_pure (g a))

/-! ### Lists of names that lead to resources -/

variable (cluster ns referent)

/-- The value at a path is a text that leads to a resource, or a list of such texts that is not
empty. -/
def ResolvesAll (path : String) (r : Resource) : Prop :=
  (∃ name, r.lookup? path = some (.string name) ∧ cluster.holds ns referent name) ∨
    ∃ items, r.lookup? path = some (.array items) ∧ items ≠ [] ∧
      ∀ v ∈ items, ∃ name, v = .string name ∧ cluster.holds ns referent name

/-- The value at a path is a list of texts that lead to resources, with something between them that
is no text. -/
def PassesOver (path : String) (r : Resource) : Prop :=
  ∃ items, r.lookup? path = some (.array items) ∧ (∃ v ∈ items, v.text? = none) ∧
    (∃ v ∈ items, v.text? ≠ none) ∧ ∀ name, .string name ∈ items → cluster.holds ns referent name

end Cluster

namespace Finding

/-- A finding is the only observation about the names at a path, and a good one or an error. -/
structure Validates (path : String) (f : Finding) : Prop where
  /-- The notes of the finding hold one observation. -/
  observes : ∀ target ns name kind,
    (f.notes target ns name kind).filter (fun n => !n.isDisplay) =
      [.observe target ns s!"valid({path})" ⟨f.status, f.value, some name, some kind⟩]
  /-- There is no warning. -/
  decides : f.status = .success ∨ f.status = .error

/-! ### The names that are looked up -/

section

variable (cluster : Cluster) (ns : String) (referent : Kind)

theorem looksUp_exists? (name : String) :
    cluster.LooksUp ns referent [name] (exists? ns referent name)
      (cluster.holds ns referent name) := by
  have hasked : (Attempt.askFor (.getObject referent.api ns referent.plural name)).run.Performs
      cluster [Cluster.lookedUp ns referent name] (.ok (.ok (cluster.lookup ns referent name))) :=
    (Session.performs_ask _).bind_pure Except.ok
  constructor
  · intro h
    have hloss := h name List.mem_cons_self
    rw [← List.append_nil (List.map _ _)]
    refine Session.performs_run_bind hasked ?_
    rw [Cluster.loss?] at hloss
    rw [Cluster.holds]
    cases hlookup : cluster.lookup ns referent name with
    | ok r => exact Session.performs_pure (Except.ok true)
    | error e =>
      rw [hlookup] at hloss
      have he : e.isConnectivity = false := by simpa using hloss
      simp only [he]
      exact Session.performs_pure (Except.ok false)
  · intro before other after e hsplit hbefore hloss
    obtain ⟨rfl, rfl, rfl⟩ : before = [] ∧ name = other ∧ after = [] := by
      cases before with
      | nil => simpa using hsplit
      | cons => simp at hsplit
    rw [← List.append_nil (List.map _ _)]
    refine Session.performs_run_bind hasked ?_
    rw [Cluster.loss?] at hloss
    cases hlookup : cluster.lookup ns referent name with
    | ok r =>
      rw [hlookup] at hloss
      cases hloss
    | error e' =>
      rw [hlookup] at hloss
      obtain ⟨he, rfl⟩ : e'.isConnectivity = true ∧ e' = e := by simpa using hloss
      simp only [he]
      exact Session.performs_pure (Except.error e')

theorem looksUp_missingOf : (names : List String) →
    cluster.LooksUp ns referent names (missingOf ns referent names)
      (names.filter fun name => !cluster.holds ns referent name)
  | [] => Cluster.looksUp_pure []
  | name :: rest => by
    have hmissing : (name :: rest).filter (fun name => !cluster.holds ns referent name) =
        if cluster.holds ns referent name then
          rest.filter fun name => !cluster.holds ns referent name
        else name :: rest.filter fun name => !cluster.holds ns referent name := by
      cases h : cluster.holds ns referent name <;> simp [h]
    rw [hmissing]
    exact (looksUp_exists? cluster ns referent name).bind
      ((looksUp_missingOf rest).bind_pure _)

variable (path : String) (r : Resource)

/-- The finding about a reference, which looks up the name at the path, unless that is empty. -/
theorem looksUp_reference :
    cluster.LooksUp ns referent ((r.textAt? path).filter fun name => !name.isEmpty).toList
      (reference ns path referent r)
      (match (r.textAt? path).filter fun name => !name.isEmpty with
      | none => unset path
      | some name => ofReference path referent name (cluster.holds ns referent name)) := by
  rw [reference]
  cases (r.textAt? path).filter fun name => !name.isEmpty with
  | none => exact Cluster.looksUp_pure (unset path)
  | some name => exact (looksUp_exists? cluster ns referent name).bind_pure _

/-- The finding about references, which looks up the names at the path. -/
theorem looksUp_references :
    cluster.LooksUp ns referent (namesAt path r) (references ns path referent r)
      (match namesAt path r with
      | [] => unset path
      | names => ofReferences path referent names
          (names.filter fun name => !cluster.holds ns referent name)) := by
  rw [references]
  cases namesAt path r with
  | nil => exact Cluster.looksUp_pure (unset path)
  | cons name rest => exact (looksUp_missingOf cluster ns referent (name :: rest)).bind_pure _

end

/-! ### When the findings are good ones -/

section

variable {path : String}

theorem Validates.of_eq {f : Finding} (hcondition : f.condition = s!"valid({path})")
    (hdecides : f.status = .success ∨ f.status = .error) : f.Validates path where
  observes target ns name kind := by
    rw [notes, hcondition]
    rfl
  decides := hdecides

theorem Validates.condition_eq {f : Finding} (h : f.Validates path) :
    f.condition = s!"valid({path})" := by
  have hnotes := List.head_eq_of_cons_eq (h.observes "" "" "" "")
  simp only [Note.observe, Note.mk.injEq, Change.observe.injEq] at hnotes
  exact hnotes.2.2.1

theorem validates_unset (path : String) : (unset path).Validates path :=
  .of_eq rfl (.inr rfl)

theorem validates_ofReference (path : String) (referent : Kind) (name : String) (found : Bool) :
    (ofReference path referent name found).Validates path := by
  cases found with
  | false => exact .of_eq rfl (.inr rfl)
  | true => exact .of_eq rfl (.inl rfl)

theorem validates_ofReferences (path : String) (referent : Kind) (names : List String)
    (missing : List String) : (ofReferences path referent names missing).Validates path := by
  cases missing with
  | nil => exact .of_eq rfl (.inl rfl)
  | cons => exact .of_eq rfl (.inr rfl)

theorem status_ofReference_iff {referent : Kind} {name : String} {found : Bool} :
    (ofReference path referent name found).status = .success ↔ found := by
  cases found <;> simp [ofReference]

theorem status_ofReferences_iff {referent : Kind} {names missing : List String} :
    (ofReferences path referent names missing).status = .success ↔ missing = [] := by
  cases missing <;> simp [ofReferences]

theorem findMember?_setMember (name : String) (v : Json) : (members : List (String × Json)) →
    findMember? name (setMember name v members) = some v
  | [] => if_pos rfl
  | (key, old) :: rest => by
    rw [setMember]
    split
    · next h => exact if_pos h
    · next h =>
      rw [findMember?, if_neg h]
      exact findMember?_setMember name v rest

/-- A finding about references that is not a good one says which names are missing. -/
theorem missing_of_ofReferences {referent : Kind} {names missing : List String}
    (h : missing ≠ []) :
    (ofReferences path referent names missing).value.get? "missing" = some (ofTexts missing) := by
  rw [ofReferences, if_neg (by simpa using h)]
  exact findMember?_setMember "missing" (ofTexts missing) _

end

theorem text?_eq_some_iff {v : Json} {s : String} : v.text? = some s ↔ v = .string s := by
  cases v <;> simp [text?]

/-- The texts of a list, of which there are some, all have a property: either the list holds nothing
else, or it holds what is passed over. -/
theorem forall_mem_texts_iff {P : String → Prop} {items : List Json} :
    (items.filterMap text? ≠ [] ∧ ∀ name ∈ items.filterMap text?, P name) ↔
      (items ≠ [] ∧ ∀ v ∈ items, ∃ name, v = .string name ∧ P name) ∨
        ((∃ v ∈ items, v.text? = none) ∧ (∃ v ∈ items, v.text? ≠ none) ∧
          ∀ name, .string name ∈ items → P name) := by
  have hmem (name : String) : name ∈ items.filterMap text? ↔ .string name ∈ items := by
    simp [text?_eq_some_iff]
  have hsome : items.filterMap text? ≠ [] ↔ ∃ v ∈ items, v.text? ≠ none := by simp
  simp only [hsome, hmem]
  constructor
  · rintro ⟨htext, hall⟩
    by_cases hnone : ∃ v ∈ items, v.text? = none
    · exact .inr ⟨hnone, htext, hall⟩
    · obtain ⟨w, hw, -⟩ := htext
      refine .inl ⟨List.ne_nil_of_mem hw, fun v hv => ?_⟩
      obtain ⟨name, hname⟩ := Option.ne_none_iff_exists'.1 fun h => hnone ⟨v, hv, h⟩
      obtain rfl : v = .string name := text?_eq_some_iff.1 hname
      exact ⟨name, rfl, hall name hv⟩
  · rintro (⟨hne, hall⟩ | ⟨-, htext, hall⟩)
    · obtain ⟨v, hv⟩ := List.exists_mem_of_ne_nil items hne
      obtain ⟨name, rfl, -⟩ := hall v hv
      refine ⟨⟨_, hv, nofun⟩, fun other hother => ?_⟩
      obtain ⟨_, ⟨⟩, hP⟩ := hall _ hother
      exact hP
    · exact ⟨htext, hall⟩

/-- The names at a path, of which there are some, all lead to resources. -/
theorem forall_mem_namesAt_iff {cluster : Cluster} {ns path : String} {referent : Kind}
    {r : Resource} :
    (namesAt path r ≠ [] ∧ ∀ name ∈ namesAt path r, cluster.holds ns referent name) ↔
      cluster.ResolvesAll ns referent path r ∨ cluster.PassesOver ns referent path r := by
  rw [Cluster.ResolvesAll, Cluster.PassesOver, namesAt]
  cases r.lookup? path with
  | none => simp
  | some v =>
    cases v with
    | string name => simp
    | array items => simpa using forall_mem_texts_iff
    | _ => simp

/-- **References are decided.** A reference and a list of references each come to one observation,
after every name at the path was looked up in the namespace of the resource, in order. It is a good
one exactly if there is a name and every name leads to a resource, and an error else, which says
which names do not; where something in a list is no text, this is passed over. When a lookup does
not reach the cluster there is no observation, and its failure is that of the whole. -/
theorem references_decide (cluster : Cluster) (ns path : String) (referent : Kind) (r : Resource) :
    (∃ f, cluster.LooksUp ns referent ((r.textAt? path).filter fun name => !name.isEmpty).toList
        (reference ns path referent r) f ∧
      f.Validates path ∧
      (f.status = .success ↔
        ∃ name, r.lookup? path = some (.string name) ∧ name ≠ "" ∧
          cluster.holds ns referent name)) ∧
    ∃ f, cluster.LooksUp ns referent (namesAt path r) (references ns path referent r) f ∧
      f.Validates path ∧
      (f.status = .success ↔
        cluster.ResolvesAll ns referent path r ∨ cluster.PassesOver ns referent path r) ∧
      (namesAt path r = [] → f.value = .string s!"{path} is not set") ∧
      (namesAt path r ≠ [] → f.status = .error →
        f.value.get? "missing" =
          some (ofTexts ((namesAt path r).filter fun name => !cluster.holds ns referent name))) := by
  refine ⟨⟨_, looksUp_reference cluster ns referent path r, ?_⟩,
    ⟨_, looksUp_references cluster ns referent path r, ?_⟩⟩
  · have hname (name : String) : ((r.textAt? path).filter fun name => !name.isEmpty) = some name ↔
        r.lookup? path = some (.string name) ∧ name ≠ "" := by
      simp [textAt?, Option.bind_eq_some_iff, text?_eq_some_iff]
    simp only [← and_assoc, ← hname]
    cases (r.textAt? path).filter fun name => !name.isEmpty with
    | none => exact ⟨validates_unset path, by simp [unset]⟩
    | some name => exact ⟨validates_ofReference .., by simp [status_ofReference_iff]⟩
  · rw [← forall_mem_namesAt_iff]
    cases namesAt path r with
    | nil => exact ⟨validates_unset path, by simp [unset], fun _ => rfl, fun h => absurd rfl h⟩
    | cons name rest =>
      refine ⟨validates_ofReferences .., ?_, nofun, fun _ herror =>
        missing_of_ofReferences fun hnil => ?_⟩
      · rw [status_ofReferences_iff]
        simp
      · rw [status_ofReferences_iff.2 hnil] at herror
        cases herror

/-- An authentication that refers to some listeners. -/
private def authenticationFor (listeners : List Json) : Resource :=
  .object [("spec", .object [("listenerRef", .array listeners)])]

/-- A cluster that holds the listener `plain`, is slow to answer about `slow`, and knows no other
one. -/
private def plainListener : Cluster where
  reply
    | .getObject _ _ _ "plain" => ⟨3, .ok (.object [])⟩
    | .getObject _ _ _ "slow" => ⟨10000, .error (.timeout "get_object" 10000)⟩
    | _ => ⟨3, .error (.notFound "brokerlistener" "")⟩

/-- A missing listener is named, and a lookup that takes too long is the last one. -/
theorem references_decide_listeners :
    (∃ f, ((references "edge" "spec.listenerRef" .brokerListener
          (authenticationFor [.string "plain", .string "gone"])).run.run plainListener).result =
        .ok (.ok f) ∧
      f.status = .error ∧ f.value.get? "missing" = some (ofTexts ["gone"])) ∧
    ((references "edge" "spec.listenerRef" .brokerListener
        (authenticationFor [.string "slow", .string "plain"])).run.run plainListener).result =
      .ok (.error (.timeout "get_object" 10000)) := by
  constructor
  · obtain ⟨f, hlooks, hvalidates, hstatus, -, hmissing⟩ := (references_decide plainListener "edge"
      "spec.listenerRef" .brokerListener (authenticationFor [.string "plain", .string "gone"])).2
    have hnames : namesAt "spec.listenerRef"
        (authenticationFor [.string "plain", .string "gone"]) = ["plain", "gone"] := by
      decide +kernel
    rw [← forall_mem_namesAt_iff] at hstatus
    rw [hnames] at hlooks hstatus hmissing
    have hgone : plainListener.holds "edge" .brokerListener "gone" = false := rfl
    have herror : f.status = .error := hvalidates.decides.resolve_left fun hsuccess =>
      Bool.false_ne_true (hgone ▸ (hstatus.1 hsuccess).2 "gone" (by simp))
    refine ⟨f, (hlooks.settled ?_).run.1, herror, hmissing (List.cons_ne_nil _ _) herror⟩
    exact List.forall_mem_cons.2 ⟨rfl, List.forall_mem_singleton.2 rfl⟩
  · obtain ⟨f, hlooks, -⟩ := (references_decide plainListener "edge" "spec.listenerRef"
      .brokerListener (authenticationFor [.string "slow", .string "plain"])).2
    exact (hlooks.lost [] "slow" ["plain"] _ (by decide +kernel) (List.forall_mem_nil _) rfl).run.1

/-- A number in a list of references is passed over, although it leads to no listener. -/
theorem references_pass_over_number :
    ((references "edge" "spec.listenerRef" .brokerListener
        (authenticationFor [.string "plain", .int 5])).run.run plainListener).result =
      .ok (.ok (ofReferences "spec.listenerRef" .brokerListener ["plain"] [])) ∧
    (ofReferences "spec.listenerRef" .brokerListener ["plain"] []).status = .success ∧
    ¬ plainListener.ResolvesAll "edge" .brokerListener "spec.listenerRef"
        (authenticationFor [.string "plain", .int 5]) := by
  have hlookup : (authenticationFor [.string "plain", .int 5]).lookup? "spec.listenerRef" =
      some (.array [.string "plain", .int 5]) := by decide +kernel
  refine ⟨by rfl, rfl, ?_⟩
  rw [Cluster.ResolvesAll, hlookup]
  simp

end Finding

end EdgeHealth
