import Guise.Proofs.Answers
import Mathlib.Data.List.Induction
import Mathlib.Data.Set.Card

/-!
# Sets that are built up

A set of authorities is built up by changes that put a new set in its place (`Edit.replaces`) and others
that add to it. `Supplied` reads off such a history which names it leaves: those that were supplied by the
last replacement or later (`contains_after_iff`). As a set is its ascending list of names, it does not show
how it came about: sets with the same members are equal, and their names stand in the order of their bytes.
In a run on sets under names, each set is built up by the changes made under its own name
(`Slots.get_after`, `getElem?_runSteps`).
-/

namespace Guise.Authorities
variable {s t : Authorities} {e : Edit} {history : List Edit} {l l' : List String} {n x : String}

/-! ### Single sets -/

theorem contains_insert : (s.insert n).contains x = true ↔ x = n ∨ s.contains x = true := by
  rw [contains_iff, contains_iff]
  exact Text.mem_place

theorem nodup_names (s : Authorities) : s.names.Nodup := by
  refine s.ascending.imp ?_
  rintro a _ h rfl
  exact String.lt_irrefl a h

theorem eq_iff_names : s = t ↔ s.names = t.names := by
  refine ⟨fun h => h ▸ rfl, fun h => eq_of_mem_iff fun n => ?_⟩
  rw [h]

theorem isEmpty_iff : s.isEmpty = true ↔ ∀ n, s.contains n = false := by
  simp only [isEmpty, List.isEmpty_iff, List.eq_nil_iff_forall_not_mem, ← contains_iff, Bool.not_eq_true]

/-- A set has as many names as there are texts that it contains. -/
theorem size_eq_ncard (s : Authorities) : s.size = {n | s.contains n = true}.ncard := by
  have hset : {n | s.contains n = true} = (s.names.toFinset : Set String) := by
    ext n
    simp [contains_iff]
  rw [hset, Set.ncard_coe_finset, List.toFinset_card_of_nodup s.nodup_names, size]

theorem size_insert (s : Authorities) (n : String) :
    (s.insert n).size = if s.contains n = true then s.size else s.size + 1 := by
  have hinsert : {x | (s.insert n).contains x = true} =
      Insert.insert n {x | s.contains x = true} := by
    ext x
    exact contains_insert
  have hfinite : {x | s.contains x = true}.Finite := by
    refine s.names.toFinset.finite_toSet.subset fun x hx => ?_
    simpa [contains_iff] using hx
  rw [size_eq_ncard, size_eq_ncard, hinsert, Set.ncard_insert_eq_ite hfinite]
  rfl

/-! ### Histories -/

/-- The names that the texts of a document list, if it is an array of texts. -/
def listed? (document : String) : Option (List String) := (Json.read document).bind Json.strings?

theorem ofDocument?_eq (document : String) : ofDocument? document = (listed? document).map ofList := by
  unfold ofDocument? ofJson? listed?
  cases Json.read document <;> rfl

namespace Edit

/-- The names that a change supplies. A document that is refused supplies none. -/
def names : Edit → List String
  | clear => []
  | collect names => names
  | single name | insert name => [name]
  | read document => (listed? document).getD []

/-- Whether a change puts a new set in the place of the old one. A document that is refused does not. -/
def replaces : Edit → Bool
  | clear | collect _ | single _ => true
  | insert _ => false
  | read document => (listed? document).isSome

theorem apply_read_ok (s : Authorities) {document : String} (h : listed? document = some l) :
    (read document).apply s = (ofList l, .nothing) := by
  rw [apply, ofDocument?_eq, h]
  rfl

theorem apply_read_refused (s : Authorities) {document : String} (h : listed? document = none) :
    (read document).apply s = (s, .refused) := by
  rw [apply, ofDocument?_eq, h]
  rfl

/-- A change leaves what it supplies, and unless it replaces the set also what was there. -/
theorem mem_apply : n ∈ (e.apply s).1.names ↔ n ∈ e.names ∨ e.replaces = false ∧ n ∈ s.names := by
  cases e with
  | clear => simp [apply, names, replaces, empty]
  | collect l => simp [apply, names, replaces, mem_ofList]
  | single name =>
    refine (Text.mem_place (l := [])).trans ?_
    simp [names, replaces]
  | insert name =>
    refine Text.mem_place.trans ?_
    simp [names, replaces]
  | read document =>
    cases h : listed? document with
    | none => simp [apply_read_refused s h, names, replaces, h]
    | some l => simp [apply_read_ok s h, names, replaces, h, mem_ofList]

end Edit

/-- The set after a history of changes. -/
def after (s : Authorities) (history : List Edit) : Authorities := history.foldl (fun s e => (e.apply s).1) s

/-- A change of the history supplied the name, and none since has replaced the set. -/
def Supplied (history : List Edit) (n : String) : Prop :=
  ∃ before e after, history = before ++ e :: after ∧ n ∈ e.names ∧ ∀ e' ∈ after, e'.replaces = false

theorem after_append (s : Authorities) (history later : List Edit) :
    s.after (history ++ later) = (s.after history).after later := List.foldl_append

theorem supplied_append : Supplied (history ++ [e]) n ↔
    n ∈ e.names ∨ e.replaces = false ∧ Supplied history n := by
  constructor
  · rintro ⟨before, e', after, hsplit, hn, hafter⟩
    rcases List.eq_nil_or_concat' after with rfl | ⟨after, last, rfl⟩
    · obtain ⟨-, hlast⟩ := List.append_inj' hsplit rfl
      exact .inl (List.singleton_inj.1 hlast ▸ hn)
    · rw [← List.cons_append, ← List.append_assoc] at hsplit
      obtain ⟨rfl, hlast⟩ := List.append_inj' hsplit rfl
      rw [List.singleton_inj.1 hlast]
      rw [List.forall_mem_append, List.forall_mem_singleton] at hafter
      exact .inr ⟨hafter.2, before, e', after, rfl, hn, hafter.1⟩
  · rintro (hn | ⟨he, before, e', after, rfl, hn, hafter⟩)
    · exact ⟨history, e, [], rfl, hn, nofun⟩
    · refine ⟨before, e', after ++ [e], by simp, hn, ?_⟩
      rw [List.forall_mem_append, List.forall_mem_singleton]
      exact ⟨hafter, he⟩

theorem contains_after_iff : (empty.after history).contains n = true ↔ Supplied history n := by
  rw [contains_iff]
  induction history using List.reverseRecOn with
  | nil =>
    refine iff_of_false List.not_mem_nil ?_
    rintro ⟨before, e, after, hsplit, -⟩
    simp at hsplit
  | append_singleton history e ih =>
    rw [after_append, supplied_append, ← ih]
    exact Edit.mem_apply

/-- Every set is what some history leaves. -/
theorem eq_after_collect (s : Authorities) : s = empty.after [.collect s.names] := s.ofList_names.symm

theorem after_inserts (s : Authorities) (l : List String) : s.after (l.map .insert) = l.foldl insert s := by
  rw [after, List.foldl_map]
  rfl

/-- Collecting names is inserting them one by one into a new set, in any order and any number of times. -/
theorem collect_eq_inserts (history : List Edit) (h : ∀ n, n ∈ l ↔ n ∈ l') :
    empty.after (history ++ [.collect l]) = empty.after (history ++ .clear :: l'.map .insert) := by
  have hclear : empty.after (history ++ .clear :: l'.map .insert) = ofList l' := by
    rw [← List.singleton_append, ← List.append_assoc, after_append, after_append]
    exact after_inserts empty l'
  rw [hclear, after_append]
  exact ofList_eq_iff.2 h

/-! ### Sets under names -/

def Step.edit? : Step → Option Edit
  | edit e => some e
  | contains _ | equals _ => none

/-- The changes of the set under one name, among steps on all of them. -/
def editsOf (slot : String) (steps : List (String × Step)) : List Edit :=
  steps.filterMap fun s => if s.1 = slot then s.2.edit? else none

/-- What a step reports about the set under its name, given all sets. -/
def Step.report (sets : String → Authorities) (slot : String) : Step → Report
  | edit e => (e.apply (sets slot)).2
  | contains name => .flag ((sets slot).contains name)
  | equals other => .flag (sets slot == sets other)

theorem Slots.get_put (t : Slots) (slot slot' : String) (s : Authorities) :
    Slots.get (t.put slot s) slot' = if slot = slot' then s else t.get slot' := by
  unfold Slots.get
  rw [Table.find?_put]
  split <;> rfl

/-- A step changes the set under its own name, if it is a change. -/
theorem Slots.get_apply (t : Slots) (slot slot' : String) (step : Step) :
    Slots.get (step.apply t slot).1 slot' = (t.get slot').after (editsOf slot' [(slot, step)]) := by
  cases step with
  | edit e =>
    refine (Slots.get_put ..).trans ?_
    by_cases h : slot = slot'
    · subst h
      simp [editsOf, Step.edit?, after]
    · simp [editsOf, h, after]
  | contains | equals => simp [editsOf, Step.edit?, after, Step.apply]

/-- The sets under all names after steps. -/
def Slots.after (t : Slots) (steps : List (String × Step)) : Slots :=
  steps.foldl (fun t s => (s.2.apply t s.1).1) t

/-- Each set is built up by the changes under its own name, and nothing else. -/
theorem Slots.get_after (t : Slots) (steps : List (String × Step)) (slot : String) :
    Slots.get (t.after steps) slot = (t.get slot).after (editsOf slot steps) := by
  induction steps generalizing t with
  | nil => rfl
  | cons s steps ih =>
    have hedits : editsOf slot (s :: steps) = editsOf slot [s] ++ editsOf slot steps := by
      rw [← List.singleton_append, editsOf, List.filterMap_append]
      rfl
    rw [hedits, after_append, ← get_apply]
    exact ih _

theorem Step.apply_snd (t : Slots) (slot : String) (step : Step) :
    (step.apply t slot).2 = step.report t.get slot := by
  cases step <;> rfl

theorem getElem?_runSteps (t : Slots) (before : List (String × Step)) (slot : String) (step : Step)
    (rest : List (String × Step)) : (runSteps t (before ++ (slot, step) :: rest))[before.length]? =
      some (step.report (t.after before).get slot,
        Slots.get (t.after (before ++ [(slot, step)])) slot) := by
  induction before generalizing t with
  | nil =>
    show some ((step.apply t slot).2, _) = _
    rw [Step.apply_snd]
    rfl
  | cons s before ih => exact ih _

/-- Sets of authorities are canonical. Whatever built a set up, its names ascend strictly by their bytes in
UTF-8, its size is their number, and it contains just the names that were supplied by the last change that
replaced it or have been inserted since. Inserting a name reports whether it was new, and makes no
difference to any other. Sets are equal exactly when they contain the same names, and when they list the
same. To collect names is to insert them into a new set, in any order and any number of times. And of sets
under names each is built up by the changes under its own. -/
theorem sets_canonical :
    (∀ history, let s := empty.after history
      (s.names.Pairwise fun a b => Text.bytes a < Text.bytes b) ∧ s.names.Nodup ∧
      s.size = s.names.length ∧ s.size = {n | s.contains n = true}.ncard ∧
      (s.isEmpty = true ↔ ∀ n, s.contains n = false) ∧
      (∀ n, s.contains n = true ↔ Supplied history n) ∧
      ∀ n, let r := (Edit.insert n).apply s
        (r.2 = .flag true ↔ s.contains n = false) ∧ (r.2 = .flag false ↔ s.contains n = true) ∧
        (∀ x, r.1.contains x = true ↔ x = n ∨ s.contains x = true) ∧
        r.1.size = if s.contains n = true then s.size else s.size + 1) ∧
    (∀ s t : Authorities, (s = t ↔ ∀ n, s.contains n = t.contains n) ∧ (s = t ↔ s.names = t.names) ∧
      ∃ history, s = empty.after history) ∧
    (∀ history l l', (∀ n, n ∈ l ↔ n ∈ l') →
      empty.after (history ++ [.collect l]) = empty.after (history ++ [.collect l']) ∧
      empty.after (history ++ [.collect l]) = empty.after (history ++ .clear :: l'.map .insert)) ∧
    ∀ before slot step rest,
      let sets (before : List (String × Step)) (slot : String) := empty.after (editsOf slot before)
      (runSteps [] (before ++ (slot, step) :: rest))[before.length]? =
        some (step.report (sets before) slot, sets (before ++ [(slot, step)]) slot) := by
  refine ⟨fun history => ?_, fun s t => ⟨eq_iff_contains, eq_iff_names, _, s.eq_after_collect⟩,
    fun history l l' h => ⟨?_, collect_eq_inserts history h⟩, fun before slot step rest => ?_⟩
  · intro s
    refine ⟨s.pairwise_bytes, s.nodup_names, rfl, s.size_eq_ncard, isEmpty_iff,
      fun n => contains_after_iff, fun n => ?_⟩
    refine ⟨?_, ?_, fun x => contains_insert, s.size_insert n⟩
    · simp [Edit.apply]
    · simp [Edit.apply]
  · rw [collect_eq_inserts history h, collect_eq_inserts history fun _ => Iff.rfl]
  · have hsets (steps : List (String × Step)) :
        Slots.get (Slots.after [] steps) = fun slot => empty.after (editsOf slot steps) :=
      funext fun slot => Slots.get_after [] steps slot
    intro sets
    rw [getElem?_runSteps, hsets, hsets]

/-- A set that is collected, read from two documents (the second lists no texts) and inserted into, with two
names whose order in UTF-16 is the other way round; and two sets side by side. -/
theorem sets_canonical_refilled :
    let document : Edit := .read "[\"z\",\"A\"]"
    let later : List Edit := [.insert "😀", .insert "\uffff", .read "[1]"]
    let history : List Edit := [.collect ["é", "z", "é"], .insert "q"] ++ document :: later
    let s := empty.after history
    s.names = ["A", "z", "\uffff", "😀"] ∧ s.contains "A" = true ∧
      ((Edit.insert "A").apply s).2 = .flag false ∧
      empty.after (history ++ [.collect ["b", "a", "b"]]) =
        empty.after (history ++ [.clear, .insert "a", .insert "b"]) ∧
      (runSteps [] ([("a", .edit (.single "x")), ("b", .edit (.insert "x"))] ++ ("a", .equals "b") :: []))[2]? =
        some (.flag true, single "x") := by
  intro document later history s
  obtain ⟨hsets, -, hcollect, hruns⟩ := sets_canonical
  obtain ⟨-, -, -, -, -, hsupplied, hinsert⟩ := hsets history
  have hread : listed? "[\"z\",\"A\"]" = some ["z", "A"] := by decide +kernel
  have hrefused : listed? "[1]" = none := by decide +kernel
  have hA : s.contains "A" = true := by
    refine (hsupplied "A").2 ⟨_, document, later, rfl, ?_, ?_⟩
    · simp [document, Edit.names, hread]
    · simp [later, Edit.replaces, hrefused]
  refine ⟨by decide +kernel, hA, (hinsert "A").2.1.2 hA, (hcollect history _ ["a", "b"] ?_).2,
    (hruns _ "a" (.equals "b") []).trans ?_⟩
  · simp [or_comm]
  · decide +kernel

end Guise.Authorities
