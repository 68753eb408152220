import Mathlib.Data.List.Induction
import Mathlib.Data.List.Nodup

/-!
# Lists without repeats

The repeats of a list are left out: each member stands at the place at which it comes first. So a
member that has come before adds nothing. A list that is put together along distinct members has no
repeats either, if each part has none and tells the member to which it belongs.

## Main results

* `eraseDups_concat_of_mem`, `eraseDups_concat_of_notMem` : one more member.
* `nodup_eraseDups`, `eraseDups_map_eraseDups` : no repeats are left, and it may be done again.
* `pairwise_idxOf_eraseDups` : the members that are left stand in the order of their first places.
* `eraseDups_append_of_subset` : members that have come before.
* `flatMap_eq_of_nodup`, `nodup_flatMap_of_tag` : lists put together along distinct members.
-/

namespace EdgeHealth

variable {α β : Type}

section

variable [BEq α] [LawfulBEq α]

/-- Members that have all come before add nothing. -/
theorem eraseDups_append_of_subset {l l' : List α} (h : l' ⊆ l) :
    (l ++ l').eraseDups = l.eraseDups := by
  have hnone : l'.removeAll l = [] :=
    List.filter_eq_nil_iff.2 fun a ha => by simpa using List.elem_eq_true_of_mem (h ha)
  rw [List.eraseDups_append, hnone]
  exact List.append_nil _

/-- A member that has come before adds nothing. -/
theorem eraseDups_concat_of_mem {l : List α} {a : α} (h : a ∈ l) :
    (l ++ [a]).eraseDups = l.eraseDups :=
  eraseDups_append_of_subset (List.cons_subset.2 ⟨h, List.nil_subset l⟩)

/-- A member that has not come before is added at the end. -/
theorem eraseDups_concat_of_notMem {l : List α} {a : α} (h : a ∉ l) :
    (l ++ [a]).eraseDups = l.eraseDups ++ [a] := by
  have hnew : [a].removeAll l = [a] := List.filter_eq_self.2 fun b hb => by
    cases List.mem_singleton.1 hb
    simpa using h
  rw [List.eraseDups_append, hnew]
  rfl

/-- No repeats are left. -/
theorem nodup_eraseDups (l : List α) : l.eraseDups.Nodup := by
  induction l using List.reverseRecOn with
  | nil => exact List.nodup_nil
  | append_singleton l a ih =>
    by_cases ha : a ∈ l
    · rw [eraseDups_concat_of_mem ha]
      exact ih
    · rw [eraseDups_concat_of_notMem ha, ← List.concat_eq_append]
      exact ih.concat fun hmem => ha (List.mem_eraseDups.1 hmem)

/-- The members that are left stand in the order in which they come first. -/
theorem pairwise_idxOf_eraseDups (l : List α) :
    l.eraseDups.Pairwise fun a b => l.idxOf a < l.idxOf b := by
  induction l using List.reverseRecOn with
  | nil => exact List.Pairwise.nil
  | append_singleton l c ih =>
    -- One more member at the end leaves the first places of those before it where they are.
    have hold : l.eraseDups.Pairwise fun a b => (l ++ [c]).idxOf a < (l ++ [c]).idxOf b := by
      refine ih.imp_of_mem fun {a b} ha hb hlt => ?_
      rwa [List.idxOf_append_of_mem (List.mem_eraseDups.1 ha),
        List.idxOf_append_of_mem (List.mem_eraseDups.1 hb)]
    by_cases hc : c ∈ l
    · rwa [eraseDups_concat_of_mem hc]
    · rw [eraseDups_concat_of_notMem hc]
      refine List.pairwise_append.2 ⟨hold, List.pairwise_singleton _ c, fun a ha b hb => ?_⟩
      have ha : a ∈ l := List.mem_eraseDups.1 ha
      rw [List.mem_singleton.1 hb, List.idxOf_append_of_mem ha, List.idxOf_append_of_notMem hc]
      exact Nat.lt_of_lt_of_le (List.idxOf_lt_length_of_mem ha) (Nat.le_add_right _ _)

/-- Where repeats are left out in the end, they may be left out before as well. -/
theorem eraseDups_map_eraseDups [BEq β] [LawfulBEq β] (f : β → α) (l : List β) :
    (l.eraseDups.map f).eraseDups = (l.map f).eraseDups := by
  induction l using List.reverseRecOn with
  | nil => rfl
  | append_singleton l b ih =>
    rw [List.map_append, List.map_singleton]
    by_cases hb : b ∈ l
    · rw [eraseDups_concat_of_mem hb, ih, eraseDups_concat_of_mem (List.mem_map_of_mem hb)]
    · rw [eraseDups_concat_of_notMem hb, List.map_append, List.eraseDups_append, ih,
        List.eraseDups_append]
      congr 2
      exact List.filter_congr fun a _ => by simp

/-- Members that all have one key have a single key. -/
theorem eraseDups_map_of_forall_eq {f : β → α} {key : α} {l : List β} (hne : l ≠ [])
    (h : ∀ b ∈ l, f b = key) : (l.map f).eraseDups = [key] := by
  obtain ⟨b, rest, rfl⟩ := List.exists_cons_of_ne_nil hne
  obtain ⟨rfl, hrest⟩ := List.forall_mem_cons.1 h
  have hnone : (rest.map f).filter (fun other => !other == f b) = [] := by
    refine List.filter_eq_nil_iff.2 fun other hother => ?_
    obtain ⟨c, hc, rfl⟩ := List.mem_map.1 hother
    simp [hrest c hc]
  rw [List.map_cons, List.eraseDups_cons, hnone]
  rfl

/-- Distinct members each of which is put down one or more times, with the repeats left out. -/
theorem eraseDups_flatMap_of_nodup {f : α → List α} : {l : List α} → l.Nodup →
    (∀ a ∈ l, f a ≠ [] ∧ ∀ b ∈ f a, b = a) → (l.flatMap f).eraseDups = l
  | [], _, _ => rfl
  | a :: l, hnodup, hf => by
    obtain ⟨ha, hl⟩ := List.nodup_cons.1 hnodup
    obtain ⟨hne, hfa⟩ := hf a List.mem_cons_self
    have hfl := fun b hb => hf b (List.mem_cons_of_mem a hb)
    obtain ⟨b, rest, hrest⟩ := List.exists_cons_of_ne_nil hne
    rw [hrest, List.forall_mem_cons] at hfa
    obtain ⟨rfl, hfa⟩ := hfa
    have hnone : rest.filter (fun c => !c == b) = [] :=
      List.filter_eq_nil_iff.2 fun c hc => by simp [hfa c hc]
    have hall : (l.flatMap f).filter (fun c => !c == b) = l.flatMap f := by
      refine List.filter_eq_self.2 fun c hc => ?_
      obtain ⟨d, hd, hc⟩ := List.mem_flatMap.1 hc
      have hcb : c ≠ b := fun heq => ha (((hfl d hd).2 c hc).symm.trans heq ▸ hd)
      simpa using hcb
    rw [List.flatMap_cons, hrest, List.cons_append, List.eraseDups_cons, List.filter_append, hnone,
      hall, List.nil_append, eraseDups_flatMap_of_nodup hl hfl]

end

/-! ### Lists put together along distinct members -/

/-- Of a list that is put together along distinct members only the part of one member is left, if
the parts of the others are empty. -/
theorem flatMap_eq_of_nodup {f : α → List β} {a : α} : {l : List α} → l.Nodup → a ∈ l →
    (∀ b ∈ l, b ≠ a → f b = []) → l.flatMap f = f a
  | b :: l, hnodup, ha, hf => by
    obtain ⟨hb, hl⟩ := List.nodup_cons.1 hnodup
    rcases List.mem_cons.1 ha with rfl | ha
    · have hrest : l.flatMap f = [] := List.flatMap_eq_nil_iff.2 fun c hc =>
        hf c (List.mem_cons_of_mem a hc) fun heq => hb (heq ▸ hc)
      rw [List.flatMap_cons, hrest, List.append_nil]
    · have hne : b ≠ a := fun heq => hb (heq ▸ ha)
      rw [List.flatMap_cons, hf b List.mem_cons_self hne, List.nil_append]
      exact flatMap_eq_of_nodup hl ha fun c hc => hf c (List.mem_cons_of_mem b hc)

/-- A list that is put together along distinct members has no repeats if each part has none and
tells the member to which it belongs. -/
theorem nodup_flatMap_of_tag (tag : β → Option α) {f : α → List β} {l : List α} (hl : l.Nodup)
    (htag : ∀ a ∈ l, ∀ b ∈ f a, tag b = some a) (hf : ∀ a ∈ l, (f a).Nodup) :
    (l.flatMap f).Nodup := by
  refine List.nodup_flatMap.2 ⟨hf, hl.imp_of_mem fun {a a'} ha ha' hne b hb hb' => hne ?_⟩
  exact Option.some.inj ((htag a ha b hb).symm.trans (htag a' ha' b hb'))

end EdgeHealth
