import Guise.Settings.Basic

/-!
# Layers of layers

A stack of layers may have stacks among its layers, to any depth. Its answers are those of the sources at
the leaves, from left to right: the first that defines a path decides (`Settings.get?_eq_findSome?`).
`Rearranged` has the ways to change a tree that make no difference to a path: to take a stack out of its
stack or to put layers into one, to share a source, and to put any layers below one that defines the path.
Trees with the same leaves in the same order are always rearranged (`Rearranged.of_leaves`).
-/

namespace Guise.Settings
variable {s t : Settings} {path text : String}

/-! ### Leaves -/

mutual

/-- The sources at the leaves of a tree of layers, from left to right. -/
def leaves : Settings → List (String → Option String)
  | source find => [find]
  | layers sources => leavesOf sources

def leavesOf : List Settings → List (String → Option String)
  | [] => []
  | s :: r => leaves s ++ leavesOf r

end

/-- One stack of sources. -/
def stack (finds : List (String → Option String)) : Settings := layers (finds.map source)

theorem leaves_stack (finds : List (String → Option String)) : (stack finds).leaves = finds := by
  show leavesOf (finds.map source) = finds
  induction finds with
  | nil => rfl
  | cons find finds ih => rw [List.map_cons, leavesOf, ih, leaves, List.singleton_append]

mutual

/-- The first leaf that defines a path answers. -/
theorem get?_eq_findSome? : ∀ (s : Settings) (path : String), s.get? path = s.leaves.findSome? (· path)
  | source _, _ => by rw [get?, leaves, List.findSome?_singleton]
  | layers sources, path => firstOf_eq_leavesOf sources path

theorem firstOf_eq_leavesOf : ∀ (sources : List Settings) (path : String),
    firstOf sources path = (leavesOf sources).findSome? (· path)
  | [], _ => rfl
  | s :: r, path => by
    rw [firstOf, get?_eq_findSome? s, firstOf_eq_leavesOf r, leavesOf, List.findSome?_append]

end

theorem get?_congr (h : s.leaves = t.leaves) (path : String) : s.get? path = t.get? path := by
  rw [get?_eq_findSome?, h, get?_eq_findSome?]

theorem get?_eq_some_iff : s.get? path = some text ↔ ∃ above find below,
    s.leaves = above ++ find :: below ∧ find path = some text ∧ ∀ find ∈ above, find path = none := by
  rw [get?_eq_findSome?, List.findSome?_eq_some_iff]

theorem get?_eq_none_iff : s.get? path = none ↔ ∀ find ∈ s.leaves, find path = none := by
  rw [get?_eq_findSome?, List.findSome?_eq_none_iff]

/-! ### Rearranging -/

/-- A source behind a reference that others hold too: it passes questions on. -/
def shared (s : Settings) : Settings := source s.get?

/-- One tree comes from another by changes that make no difference to a path. -/
inductive Rearranged (path : String) : Settings → Settings → Prop
  /-- A stack among layers gives way to its own layers; an empty one just goes. -/
  | splice (above inner below : List Settings) :
      Rearranged path (layers (above ++ layers inner :: below)) (layers (above ++ inner ++ below))
  | single (s : Settings) : Rearranged path (layers [s]) s
  | share (s : Settings) : Rearranged path (shared s) s
  /-- Below a layer that defines the path there may be any layers. -/
  | hidden (above : List Settings) (s : Settings) (below below' : List Settings) : s.get? path ≠ none →
      Rearranged path (layers (above ++ s :: below)) (layers (above ++ s :: below'))
  /-- A change may be made in any layer. -/
  | inside (above below : List Settings) {s t : Settings} : Rearranged path s t →
      Rearranged path (layers (above ++ s :: below)) (layers (above ++ t :: below))
  | refl (s : Settings) : Rearranged path s s
  | symm {s t : Settings} : Rearranged path s t → Rearranged path t s
  | trans {s t u : Settings} : Rearranged path s t → Rearranged path t u → Rearranged path s u

theorem firstOf_append (above below : List Settings) (path : String) :
    firstOf (above ++ below) path = (firstOf above path).or (firstOf below path) := by
  rw [firstOf_eq_findSome?, firstOf_eq_findSome?, firstOf_eq_findSome?, List.findSome?_append]

theorem get?_layers_append (above below : List Settings) (path : String) :
    (layers (above ++ below)).get? path = ((layers above).get? path).or ((layers below).get? path) :=
  firstOf_append above below path

theorem get?_layers_cons (s : Settings) (below : List Settings) (path : String) :
    (layers (s :: below)).get? path = (s.get? path).or ((layers below).get? path) := rfl

namespace Rearranged

theorem get?_eq (h : Rearranged path s t) : s.get? path = t.get? path := by
  induction h with
  | splice above inner below =>
    rw [List.append_assoc, get?_layers_append, get?_layers_append, get?_layers_append, get?_layers_cons]
  | single s => exact Option.or_none
  | share s => rfl
  | hidden above s below below' hs =>
    obtain ⟨text, htext⟩ := Option.ne_none_iff_exists'.1 hs
    rw [get?_layers_append, get?_layers_append, get?_layers_cons, get?_layers_cons, htext]
    rfl
  | inside above below _ ih =>
    rw [get?_layers_append, get?_layers_append, get?_layers_cons, get?_layers_cons, ih]
  | refl s => rfl
  | symm _ ih => exact ih.symm
  | trans _ _ ih ih' => exact ih.trans ih'

mutual

/-- Every tree is its leaves in one stack, rearranged. -/
theorem stack_leaves (path : String) : ∀ s : Settings, Rearranged path s (stack s.leaves)
  | source find => .symm (.single (source find))
  | layers sources => layers_leavesOf path [] sources

/-- The layers of a stack that are no leaves yet are spliced from the left. -/
theorem layers_leavesOf (path : String) : ∀ above sources : List Settings,
    Rearranged path (layers (above ++ sources)) (layers (above ++ (leavesOf sources).map source))
  | _, [] => .refl _
  | above, s :: r => by
    have hs := Rearranged.inside above r (stack_leaves path s)
    have hsplice : Rearranged path (layers (above ++ stack s.leaves :: r)) _ := .splice above _ r
    have hrest := layers_leavesOf path (above ++ s.leaves.map source) r
    rw [leavesOf, List.map_append, ← List.append_assoc]
    exact hs.trans (hsplice.trans hrest)

end

theorem of_leaves (h : s.leaves = t.leaves) : Rearranged path s t := by
  have ht := stack_leaves path t
  rw [← h] at ht
  exact (stack_leaves path s).trans ht.symm

/-- The leaves after one that defines the path might as well be others. -/
theorem of_defined {first rest rest' : List (String → Option String)} (hs : s.leaves = first ++ rest)
    (ht : t.leaves = first ++ rest') (h : ∃ find ∈ first, find path ≠ none) : Rearranged path s t := by
  obtain ⟨find, hfind, hdefined⟩ := h
  obtain ⟨above, later, rfl⟩ := List.append_of_mem hfind
  have hstack (rest : List (String → Option String)) : stack (above ++ find :: later ++ rest) =
      layers (above.map source ++ source find :: (later ++ rest).map source) := by
    simp [stack]
  have hhidden := Rearranged.hidden (above.map source) (source find) ((later ++ rest).map source)
    ((later ++ rest').map source) hdefined
  have hs' := stack_leaves path s
  have ht' := stack_leaves path t
  rw [hs, hstack] at hs'
  rw [ht, hstack] at ht'
  exact hs'.trans (hhidden.trans ht'.symm)

end Rearranged

/-- A tree of layers answers every path as the flat stack of its leaves does: with the text of the first
leaf that defines the path, be it blank, and with none (so by the default of the question) exactly when no
leaf defines it. So it makes no difference to answers, with a default or without, how layers are grouped,
whether a source is shared or alone in its stack, where there are empty stacks, and what is below a layer
that defines the path. -/
theorem layers_answer_first :
    (∀ (s : Settings) path, s.get? path = (stack s.leaves).get? path ∧
      (∀ text, s.get? path = some text ↔ ∃ above find below, s.leaves = above ++ find :: below ∧
        find path = some text ∧ ∀ find ∈ above, find path = none) ∧
      (s.get? path = none ↔ ∀ find ∈ s.leaves, find path = none) ∧
      ∀ default, (∀ text, s.get? path = some text → s.getD path default = text) ∧
        (s.get? path = none → s.getD path default = default)) ∧
    (∀ s t path, Rearranged path s t →
      s.get? path = t.get? path ∧ ∀ default, s.getD path default = t.getD path default) ∧
    (∀ s t : Settings, s.leaves = t.leaves → ∀ path, Rearranged path s t) ∧
    ∀ (s t : Settings) path first rest rest', s.leaves = first ++ rest → t.leaves = first ++ rest' →
      (∃ find ∈ first, find path ≠ none) → Rearranged path s t := by
  refine ⟨fun s path => ⟨?_, fun text => get?_eq_some_iff, get?_eq_none_iff, fun default => ⟨?_, ?_⟩⟩,
    fun s t path h => ⟨h.get?_eq, fun default => ?_⟩, fun s t h path => .of_leaves h,
    fun s t path first rest rest' hs ht => .of_defined hs ht⟩
  · exact get?_congr (leaves_stack s.leaves).symm path
  · intro text htext
    rw [getD, htext, Option.getD_some]
  · intro hnone
    rw [getD, hnone, Option.getD_none]
  · rw [getD, getD, h.get?_eq]

/-- An empty stack above a shared table with a blank text, over two more levels of layers. -/
theorem layers_answer_first_nested :
    let blank := table [("role", " ")]
    let low := layers [table [("role", "Guest")], layers [table [("user", "ann")], empty]]
    let s := layers [layers [], shared blank, low]
    Rearranged "role" s blank ∧ s.get? "role" = some " " ∧ s.getD "role" "Nobody" = " " ∧
      s.get? "user" = (layers [layers [shared blank, table [("role", "Guest")]], table [("user", "ann")],
        layers [empty]]).get? "user" ∧
      s.getD "tenant" "none" = "none" := by
  intro blank low s
  obtain ⟨hfirst, hrearranged, hleaves, -⟩ := layers_answer_first
  have hempty : Rearranged "role" s (layers [shared blank, low]) := .splice [] [] [shared blank, low]
  have hbelow : Rearranged "role" (layers [shared blank, low]) (layers [shared blank]) :=
    .hidden [] (shared blank) [low] [] (by decide)
  have hblank : Rearranged "role" (layers [shared blank]) blank :=
    (Rearranged.single _).trans (.share blank)
  have hs := hempty.trans (hbelow.trans hblank)
  obtain ⟨hget, hgetD⟩ := hrearranged s blank "role" hs
  refine ⟨hs, hget.trans (by decide), (hgetD "Nobody").trans (by decide), ?_, ?_⟩
  · exact (hrearranged _ _ "user" (hleaves _ _ rfl "user")).1
  · obtain ⟨-, -, hnone, hdefault⟩ := hfirst s "tenant"
    refine (hdefault "none").2 (hnone.2 ?_)
    simp [s, blank, low, leaves, leavesOf, shared, table, empty, get?, lookupLast]

end Guise.Settings
