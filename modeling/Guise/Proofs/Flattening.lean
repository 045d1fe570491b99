import Guise.Settings.Document
import Mathlib.Data.List.Nodup

/-!
# Documents are tables

`Json.flat` lists what a document holds as a table would have it: for every text, number and truth value
that is reached through the keys of objects, the keys joined by slashes and the text of the value
(`Json.mem_leaves_iff`). Keys that are empty or have a slash in them lead nowhere, since no path has such a
part (`Path.isSegment_of_mem`), and all other keys can be read back from the joined ones
(`Path.segments_join`), so the table has no key twice. A path is looked up in it with single slashes
between its parts, and the answer is that of the document.
-/

namespace Guise

namespace Path
variable {k path : String} {ks : List String}

/-- What can stand between two slashes of a path and counts. -/
def IsSegment (k : String) : Prop := k ≠ "" ∧ '/' ∉ k.toList

instance : DecidablePred IsSegment := fun k => inferInstanceAs (Decidable (k ≠ "" ∧ '/' ∉ k.toList))

/-- Parts with single slashes between them. -/
def join (ks : List String) : String := "/".intercalate ks

theorem cut_eq_splitOn (s : List Char) : cut s = s.splitOn '/' := by
  induction s with
  | nil => rfl
  | cons c r ih =>
    obtain ⟨s, ss, hr⟩ := List.exists_cons_of_ne_nil (List.splitOn_ne_nil '/' r)
    rw [cut, ih, List.splitOn_cons_eq_if_modifyHead, hr]
    simp

theorem not_mem_of_mem_cut {s part : List Char} (h : part ∈ cut s) : '/' ∉ part := by
  induction s generalizing part with
  | nil =>
    rw [List.mem_singleton.1 h]
    exact List.not_mem_nil
  | cons c r ih =>
    rw [cut] at h
    split at h
    · rcases List.mem_cons.1 h with rfl | h
      · exact List.not_mem_nil
      · exact ih h
    · rename_i hc
      split at h
      · rw [List.mem_singleton.1 h, List.mem_singleton]
        exact fun he => hc he.symm
      · rename_i s ss hr
        rw [hr] at ih
        rcases List.mem_cons.1 h with rfl | h
        · rw [List.mem_cons, not_or]
          exact ⟨fun he => hc he.symm, ih (List.mem_cons_self ..)⟩
        · exact ih (List.mem_cons_of_mem _ h)

theorem isSegment_of_mem (h : k ∈ segments path) : IsSegment k := by
  obtain ⟨part, hpart, rfl⟩ := List.mem_map.1 h
  obtain ⟨hcut, hne⟩ := List.mem_filter.1 hpart
  refine ⟨fun he => ?_, ?_⟩
  · have hnil : part = [] := String.ofList_eq_empty_iff.1 he
    simp [hnil] at hne
  · rw [String.toList_ofList]
    exact not_mem_of_mem_cut hcut

theorem segments_empty : segments "" = [] := rfl

theorem segments_eq (path : String) : segments path =
    ((path.toList.splitOn '/').filter fun part => !part.isEmpty).map String.ofList := by
  rw [segments, cut_eq_splitOn]

theorem segments_append (p q : String) : segments (p ++ "/" ++ q) = segments p ++ segments q := by
  have hslash : (p ++ "/" ++ q).toList = p.toList ++ '/' :: q.toList := by simp
  simp only [segments_eq, hslash, List.splitOn_append_cons_self, List.filter_append, List.map_append]

theorem segments_join (h : ∀ k ∈ ks, IsSegment k) : segments (join ks) = ks := by
  cases hks : ks with
  | nil => rfl
  | cons k r =>
    rw [← hks]
    have hsplit : (join ks).toList.splitOn '/' = ks.map String.toList := by
      rw [join, String.toList_intercalate]
      refine List.splitOn_intercalate '/' (fun part hpart => ?_) (by simp [hks])
      obtain ⟨k, hk, rfl⟩ := List.mem_map.1 hpart
      exact (h k hk).2
    have hall : (ks.map String.toList).filter (fun s => !s.isEmpty) = ks.map String.toList := by
      refine List.filter_eq_self.2 fun part hpart => ?_
      obtain ⟨k, hk, rfl⟩ := List.mem_map.1 hpart
      simpa using (h k hk).1
    rw [segments_eq, hsplit, hall, List.map_map]
    simp [Function.comp_def]

/-- Different parts are joined to different texts. -/
theorem join_inj {ks' : List String} (h : ∀ k ∈ ks, IsSegment k) (h' : ∀ k ∈ ks', IsSegment k) :
    join ks = join ks' ↔ ks = ks' := by
  refine ⟨fun he => ?_, fun he => he ▸ rfl⟩
  rw [← segments_join h, he, segments_join h']

end Path

namespace Json
variable {j leaf : Json} {members : List (String × Json)} {k text : String} {ks ks' : List String}

/-! ### What keys lead to -/

/-- A value is reached from another through the keys of objects; of repeated keys the last leads on. -/
inductive Reaches : Json → List String → Json → Prop
  | here (j : Json) : Reaches j [] j
  | member (before : List (String × Json)) (k : String) {j leaf : Json} (after : List (String × Json))
      {ks : List String} : (∀ m ∈ after, m.1 ≠ k) → Reaches j ks leaf →
      Reaches (object (before ++ (k, j) :: after)) (k :: ks) leaf

/-- The text that a value has as a setting. -/
inductive Scalar : Json → String → Prop
  | string (s : String) : Scalar (string s) s
  | number (n : Number) : Scalar (number n) n.text
  | true : Scalar (bool true) "true"
  | false : Scalar (bool false) "false"

theorem leaf?_eq_some_iff : j.leaf? = some text ↔ j.Scalar text := by
  constructor
  · intro h
    cases j with
    | string s => exact Option.some.inj h ▸ .string s
    | number n => exact Option.some.inj h ▸ .number n
    | bool b =>
      cases b
      · exact Option.some.inj h ▸ .false
      · exact Option.some.inj h ▸ .true
    | null | array | object | malformed => cases h
  · rintro (_ | _ | _ | _) <;> rfl

theorem find_eq_none_iff : find k members = none ↔ ∀ m ∈ members, m.1 ≠ k := by
  induction members with
  | nil => exact iff_of_true rfl nofun
  | cons m r ih =>
    rw [find, Option.or_eq_none_iff, ih, List.forall_mem_cons, and_comm]
    simp

theorem find_eq_some_iff : find k members = some j ↔
    ∃ before after, members = before ++ (k, j) :: after ∧ ∀ m ∈ after, m.1 ≠ k := by
  induction members with
  | nil => simp [find]
  | cons m r ih =>
    rw [find, Option.or_eq_some_iff, ih, find_eq_none_iff]
    constructor
    · rintro (⟨before, after, rfl, hafter⟩ | ⟨hr, hm⟩)
      · exact ⟨m :: before, after, rfl, hafter⟩
      · obtain ⟨rfl, hj⟩ : m.1 = k ∧ m.2 = j := by simpa using hm
        exact ⟨[], r, hj ▸ rfl, hr⟩
    · rintro ⟨_ | ⟨m', before⟩, after, hmembers, hafter⟩
      · obtain ⟨rfl, rfl⟩ := List.cons.inj hmembers
        exact .inr ⟨hafter, if_pos rfl⟩
      · obtain ⟨rfl, rfl⟩ := List.cons.inj hmembers
        exact .inl ⟨before, after, rfl, hafter⟩

theorem reaches_cons_iff : j.Reaches (k :: ks) leaf ↔
    ∃ inner, j.member? k = some inner ∧ inner.Reaches ks leaf := by
  constructor
  · rintro (_ | ⟨before, _, after, hafter, h⟩)
    exact ⟨_, find_eq_some_iff.2 ⟨before, after, rfl, hafter⟩, h⟩
  · rintro ⟨inner, hinner, h⟩
    cases j with
    | object members =>
      obtain ⟨before, after, rfl, hafter⟩ := find_eq_some_iff.1 hinner
      exact .member before k after hafter h
    | _ => cases hinner

theorem walk_eq_some_iff : walk ks j = some leaf ↔ j.Reaches ks leaf := by
  induction ks generalizing j with
  | nil =>
    refine ⟨fun h => Option.some.inj h ▸ .here j, fun h => ?_⟩
    cases h
    rfl
  | cons k ks ih =>
    rw [walk, Option.bind_eq_some_iff, reaches_cons_iff]
    simp only [ih]

theorem Reaches.unique {leaf' : Json} (h : j.Reaches ks leaf) (h' : j.Reaches ks leaf') : leaf = leaf' := by
  rw [← walk_eq_some_iff] at h h'
  exact Option.some.inj (h.symm.trans h')

theorem reaches_append_iff : j.Reaches (ks ++ ks') leaf ↔
    ∃ inner, j.Reaches ks inner ∧ inner.Reaches ks' leaf := by
  induction ks generalizing j with
  | nil =>
    refine ⟨fun h => ⟨j, .here j, h⟩, ?_⟩
    rintro ⟨_, ⟨⟩, h⟩
    exact h
  | cons k ks ih =>
    simp only [List.cons_append, reaches_cons_iff, ih]
    constructor
    · rintro ⟨i, hi, inner, hinner, h⟩
      exact ⟨inner, ⟨i, hi, hinner⟩, h⟩
    · rintro ⟨inner, ⟨i, hi, hinner⟩, h⟩
      exact ⟨i, hi, inner, hinner, h⟩

/-- Keys lead on from objects only. -/
theorem Reaches.eq_nil (hj : j.isObject = false) (h : j.Reaches ks leaf) : ks = [] := by
  cases h with
  | here => rfl
  | member => cases hj

/-! ### The table of a document -/

mutual

/-- The texts of the leaves of a value, with the keys that lead to each; keys that no path has as its parts
lead nowhere, and of repeated keys the last leads on. -/
def leaves : Json → List (List String × String)
  | object members => memberLeaves members
  | j => j.leaf?.toList.map ([], ·)

def memberLeaves : List (String × Json) → List (List String × String)
  | [] => []
  | (k, j) :: r =>
    (if Path.IsSegment k ∧ find k r = none then (leaves j).map fun e => (k :: e.1, e.2) else []) ++
      memberLeaves r

end

/-- The leaves of a document as the entries of a table. -/
def flat (root : Json) : List (String × String) := root.leaves.map fun e => (Path.join e.1, e.2)

theorem nil_not_mem_memberLeaves : ([], text) ∉ memberLeaves members := by
  induction members with
  | nil => exact List.not_mem_nil
  | cons m r ih =>
    rw [memberLeaves, List.mem_append, not_or]
    refine ⟨?_, ih⟩
    split <;> simp

theorem cons_mem_memberLeaves : (k :: ks, text) ∈ memberLeaves members ↔
    Path.IsSegment k ∧ ∃ j, find k members = some j ∧ (ks, text) ∈ j.leaves := by
  induction members with
  | nil => simp [memberLeaves, find]
  | cons m r ih =>
    obtain ⟨k', j⟩ := m
    rw [memberLeaves, List.mem_append, ih, find]
    by_cases hk : k' = k
    · subst hk
      cases hr : find k' r with
      | none => split <;> simp_all
      | some j' => simp
    · have hout : (k :: ks, text) ∉ (j.leaves.map fun e => (k' :: e.1, e.2)) := by
        simp [hk]
      have hnot : (k :: ks, text) ∉ if Path.IsSegment k' ∧ find k' r = none then
          j.leaves.map fun e => (k' :: e.1, e.2) else [] := by
        split
        · exact hout
        · exact List.not_mem_nil
      rw [if_neg hk, Option.or_none]
      exact or_iff_right hnot

theorem mem_leaves_iff : (ks, text) ∈ j.leaves ↔
    (∀ k ∈ ks, Path.IsSegment k) ∧ ∃ leaf, j.Reaches ks leaf ∧ leaf.Scalar text := by
  induction ks generalizing j with
  | nil =>
    have hnil : ([], text) ∈ j.leaves ↔ j.leaf? = some text := by
      cases j with
      | object members => exact iff_of_false nil_not_mem_memberLeaves nofun
      | _ => simp [leaves, leaf?, eq_comm]
    rw [hnil, leaf?_eq_some_iff]
    refine ⟨fun h => ⟨nofun, j, .here j, h⟩, ?_⟩
    rintro ⟨-, leaf, ⟨⟩, h⟩
    exact h
  | cons k ks ih =>
    have hcons : (k :: ks, text) ∈ j.leaves ↔
        Path.IsSegment k ∧ ∃ inner, j.member? k = some inner ∧ (ks, text) ∈ inner.leaves := by
      cases j with
      | object members => exact cons_mem_memberLeaves
      | _ => simp [leaves, member?]
    simp only [hcons, ih, reaches_cons_iff, List.forall_mem_cons]
    constructor
    · rintro ⟨hk, inner, hinner, hks, leaf, hleaf, htext⟩
      exact ⟨⟨hk, hks⟩, leaf, ⟨inner, hinner, hleaf⟩, htext⟩
    · rintro ⟨⟨hk, hks⟩, leaf, ⟨inner, hinner, hleaf⟩, htext⟩
      exact ⟨hk, inner, hinner, hks, leaf, hleaf, htext⟩

mutual

theorem nodup_leaves : ∀ j : Json, (j.leaves.map Prod.fst).Nodup
  | object members => nodup_memberLeaves members
  | string _ | number _ | bool _ => List.nodup_singleton _
  | null | array _ | malformed => List.nodup_nil

theorem nodup_memberLeaves : ∀ members, ((memberLeaves members).map Prod.fst).Nodup
  | [] => List.nodup_nil
  | (k, j) :: r => by
    rw [memberLeaves, List.map_append]
    split
    · rename_i hk
      have hinner : (((leaves j).map fun e => (k :: e.1, e.2)).map Prod.fst).Nodup := by
        have hmap := (nodup_leaves j).map (List.cons_injective (a := k))
        rwa [List.map_map] at hmap ⊢
      refine List.nodup_append.2 ⟨hinner, nodup_memberLeaves r, ?_⟩
      intro ks hks ks' hks' he
      subst he
      -- the last value of `k` is the one in front, so no leaf of the rest is reached through `k`
      obtain ⟨e, he, rfl⟩ := List.mem_map.1 hks'
      obtain ⟨ks, text⟩ := e
      rw [List.map_map] at hks
      obtain ⟨e', -, rfl⟩ := List.mem_map.1 hks
      obtain ⟨-, j', hj', -⟩ := cons_mem_memberLeaves.1 he
      rw [hk.2] at hj'
      cases hj'
    · exact nodup_memberLeaves r

end

theorem isSegment_of_mem_leaves {e : List String × String} (h : e ∈ j.leaves) :
    ∀ k ∈ e.1, Path.IsSegment k := (mem_leaves_iff.1 h).1

/-- No key stands twice in the table of a document. -/
theorem nodup_flat (root : Json) : (root.flat.map Prod.fst).Nodup := by
  have hkeys : root.flat.map Prod.fst = (root.leaves.map Prod.fst).map Path.join := by
    simp [flat]
  rw [hkeys]
  refine List.Nodup.map_on (fun ks hks ks' hks' he => ?_) root.nodup_leaves
  obtain ⟨e, he', rfl⟩ := List.mem_map.1 hks
  obtain ⟨e', he'', rfl⟩ := List.mem_map.1 hks'
  exact (Path.join_inj (isSegment_of_mem_leaves he') (isSegment_of_mem_leaves he'')).1 he

theorem mem_flat_iff {root : Json} {key : String} : (key, text) ∈ root.flat ↔
    ∃ ks leaf, (∀ k ∈ ks, Path.IsSegment k) ∧ root.Reaches ks leaf ∧ leaf.Scalar text ∧
      key = Path.join ks := by
  constructor
  · intro h
    obtain ⟨⟨ks, text⟩, he, heq⟩ := List.mem_map.1 h
    cases heq
    obtain ⟨hks, leaf, hleaf, htext⟩ := mem_leaves_iff.1 he
    exact ⟨ks, leaf, hks, hleaf, htext, rfl⟩
  · rintro ⟨ks, leaf, hks, hleaf, htext, rfl⟩
    exact List.mem_map.2 ⟨(ks, text), mem_leaves_iff.2 ⟨hks, leaf, hleaf, htext⟩, rfl⟩

end Json

namespace Settings
variable {root : Json} {path text : String}

/-- Among entries with different keys the last with a key is the only one. -/
theorem lookupLast_eq_some_iff {l : List (String × String)} (h : (l.map Prod.fst).Nodup) {key : String} :
    lookupLast key l = some text ↔ (key, text) ∈ l := by
  induction l with
  | nil => simp [lookupLast]
  | cons e l ih =>
    obtain ⟨hout, hl⟩ := List.nodup_cons.1 h
    rw [lookupLast, Option.or_eq_some_iff, ih hl, List.mem_cons, or_comm]
    by_cases hkey : e.1 = key
    · have hnone : lookupLast key l = none :=
        lookupLast_eq_none fun e' he' hek => hout (List.mem_map.2 ⟨e', he', hek.trans hkey.symm⟩)
      simp [hnone, hkey, Prod.ext_iff, eq_comm]
    · simp [hkey, Prod.ext_iff, Ne.symm hkey]

/-- The answer of a document is the text of the scalar that the parts of the path reach. -/
theorem document_get?_eq_some_iff : (document root).get? path = some text ↔
    ∃ leaf, root.Reaches (Path.segments path) leaf ∧ leaf.Scalar text := by
  show (root.walk (Path.segments path)).bind Json.leaf? = some text ↔ _
  simp only [Option.bind_eq_some_iff, Json.walk_eq_some_iff, Json.leaf?_eq_some_iff]

theorem document_get?_eq_table (root : Json) (path : String) : (document root).get? path =
    (table root.flat).get? (Path.join (Path.segments path)) := by
  refine Option.ext fun text => ?_
  have hsegments : ∀ k ∈ Path.segments path, Path.IsSegment k := fun k => Path.isSegment_of_mem
  rw [document_get?_eq_some_iff]
  refine Iff.trans ?_ (lookupLast_eq_some_iff root.nodup_flat).symm
  rw [Json.mem_flat_iff]
  constructor
  · rintro ⟨leaf, hleaf, htext⟩
    exact ⟨_, leaf, hsegments, hleaf, htext, rfl⟩
  · rintro ⟨ks, leaf, hks, hleaf, htext, he⟩
    rw [(Path.join_inj hsegments hks).1 he]
    exact ⟨leaf, hleaf, htext⟩

/-- Only a scalar that the parts of the path reach is an answer. -/
theorem document_get?_eq_none {j : Json} (h : root.Reaches (Path.segments path) j)
    (hj : ∀ text, ¬ j.Scalar text) : (document root).get? path = none := by
  refine Option.eq_none_iff_forall_ne_some.2 fun text htext => ?_
  obtain ⟨leaf, hleaf, hscalar⟩ := document_get?_eq_some_iff.1 htext
  rw [Json.Reaches.unique hleaf h] at hscalar
  exact hj text hscalar

/-- What is no object ends every way: no longer path is defined. -/
theorem document_get?_beyond {j : Json} {longer : String} (h : root.Reaches (Path.segments path) j)
    (hj : j.isObject = false) (hlonger : Path.segments longer ≠ []) :
    (document root).get? (path ++ "/" ++ longer) = none := by
  refine Option.eq_none_iff_forall_ne_some.2 fun text htext => hlonger ?_
  obtain ⟨leaf, hleaf, -⟩ := document_get?_eq_some_iff.1 htext
  rw [Path.segments_append, Json.reaches_append_iff] at hleaf
  obtain ⟨inner, hinner, hrest⟩ := hleaf
  rw [hinner.unique h] at hrest
  exact hrest.eq_nil hj

theorem document_get?_congr {path' : String} (h : Path.segments path = Path.segments path') :
    (document root).get? path = (document root).get? path' := by
  rw [document_get?_eq_table, h, document_get?_eq_table]

theorem ofJson_eq_ok_iff {j : Json} {S : Settings} :
    ofJson j = .ok S ↔ ∃ members, j = .object members ∧ S = document j := by
  unfold ofJson
  cases j <;> simp [Json.isObject, eq_comm]

theorem ofText_eq_ok_iff {text : String} {S : Settings} : ofText text = .ok S ↔
    ∃ members, Json.readDocument text = some (.object members) ∧ S = document (.object members) := by
  unfold ofText
  cases hread : Json.readDocument text with
  | none => simp
  | some j =>
    refine ofJson_eq_ok_iff.trans (exists_congr fun members => ?_)
    rw [Option.some_inj]
    exact and_congr_right fun hj => hj ▸ Iff.rfl

/-- Settings in JSON come from documents that are objects, and are those of the table that a document
flattens to: its entries are the scalars that are reached through keys which are not empty and have no
slash, under these keys joined by slashes, and no two entries have one key. A path is answered as the table
answers its parts joined by single slashes, the parts being what is left of it when it is split at slashes
and empty parts are dropped; so slashes at the ends and repeated ones make no difference.
Whatever else the parts lead to (null, an array, an object, the root) is no answer, and beyond what is no
object, be it a scalar or an array, nothing is defined. -/
theorem document_flattens :
    (∀ j S, ofJson j = .ok S ↔ ∃ members, j = .object members ∧ S = document j) ∧
    (∀ d S, ofText d = .ok S ↔
      ∃ members, Json.readDocument d = some (.object members) ∧ S = document (.object members)) ∧
    (∀ path, Path.segments path =
      ((path.toList.splitOn '/').filter fun part => !part.isEmpty).map String.ofList) ∧
    ∀ members, let root := Json.object members
      (∀ key text, (key, text) ∈ root.flat ↔ ∃ ks leaf, (∀ k ∈ ks, k ≠ "" ∧ '/' ∉ k.toList) ∧
        root.Reaches ks leaf ∧ leaf.Scalar text ∧ key = "/".intercalate ks) ∧
      (root.flat.map Prod.fst).Nodup ∧
      (∀ path, (document root).get? path =
        (table root.flat).get? ("/".intercalate (Path.segments path))) ∧
      (∀ p, (document root).get? ("/" ++ p) = (document root).get? p ∧
        (document root).get? (p ++ "/") = (document root).get? p ∧
        ∀ q, (document root).get? (p ++ "//" ++ q) = (document root).get? (p ++ "/" ++ q)) ∧
      (∀ path text, (document root).get? path = some text ↔
        ∃ leaf, root.Reaches (Path.segments path) leaf ∧ leaf.Scalar text) ∧
      (∀ path j, root.Reaches (Path.segments path) j → (∀ text, ¬ j.Scalar text) →
        (document root).get? path = none) ∧
      (∀ path, Path.segments path = [] → (document root).get? path = none) ∧
      ∀ path j longer, root.Reaches (Path.segments path) j → j.isObject = false →
        Path.segments longer ≠ [] → (document root).get? (path ++ "/" ++ longer) = none := by
  refine ⟨fun j S => ofJson_eq_ok_iff, fun d S => ofText_eq_ok_iff, Path.segments_eq, fun members => ?_⟩
  intro root
  refine ⟨fun key text => Json.mem_flat_iff, root.nodup_flat, document_get?_eq_table root, fun p => ?_,
    fun path text => document_get?_eq_some_iff, fun path j => document_get?_eq_none, fun path hpath => ?_,
    fun path j longer => document_get?_beyond⟩
  · have hfront (p : String) : Path.segments ("/" ++ p) = Path.segments p := by
      simpa [Path.segments_empty] using Path.segments_append "" p
    refine ⟨document_get?_congr (hfront p), document_get?_congr ?_, fun q => document_get?_congr ?_⟩
    · simpa [Path.segments_empty] using Path.segments_append p ""
    · have hdouble : p ++ "//" ++ q = p ++ "/" ++ ("/" ++ q) := by
        rw [show "//" = "/" ++ "/" from rfl, ← String.append_assoc, String.append_assoc]
      rw [hdouble, Path.segments_append, Path.segments_append, hfront]
  · have hroot : ∀ text, ¬ (Json.object members).Scalar text := nofun
    refine document_get?_eq_none ?_ hroot
    rw [hpath]
    exact .here root

/-- A document with a key that is repeated, an empty one, one with a slash, and an array. -/
theorem document_flattens_repeated :
    let inner : List (String × Json) := [("b", .number (.integer 3)), ("", .bool true),
      ("c/d", .string "x"), ("e", .array [.string "y"])]
    let members : List (String × Json) := [("a", .object [("b", .string "old"), ("f", .bool true)]),
      ("a", .object inner), ("t", .bool false)]
    (Json.object members).flat = [("a/b", "3"), ("t", "false")] ∧
      (document (.object members)).get? "//a//b/" = some "3" ∧
      (document (.object members)).get? "/a/e/" = none ∧
      (document (.object members)).get? "a/e/0" = none ∧
      (document (.object members)).get? "t/a//b" = none := by
  intro inner members
  obtain ⟨-, -, -, h⟩ := document_flattens
  obtain ⟨-, -, htable, -, -, hnone, -, hbeyond⟩ := h members
  have hinner : (Json.object members).Reaches ["a", "e"] (.array [.string "y"]) :=
    .member [_] "a" [_] (by decide) (.member [_, _, _] "e" [] nofun (.here _))
  have hscalar : (Json.object members).Reaches ["t"] (.bool false) := .member [_, _] "t" [] nofun (.here _)
  refine ⟨by decide +kernel, ?_, ?_, ?_, ?_⟩
  · rw [htable]
    decide +kernel
  · exact hnone _ _ hinner nofun
  · exact hbeyond "a/e" _ "0" hinner rfl (by decide)
  · exact hbeyond "t" _ "a//b" hscalar rfl (by decide)

end Settings
end Guise
