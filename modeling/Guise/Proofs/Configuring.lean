import Guise.Config
import Guise.Settings.Source
import Guise.Proofs.Naming

/-!
# Sources that configure alike

A configuration reads five paths and nothing else (`Config.ofSettings_congr`), so sources that answer
these alike configure alike. `Assignment.Holds` says, for each kind of source by what is written in it,
that it holds an assignment of texts to the five: under the paths in a table, under their variables in an
environment, in nested objects in a document, and spread over layers. Each kind finds what was written
because no two settings share a path, a variable or a place in a document (`Setting.envName_injective`).
-/

namespace Guise

/-! ### The five settings -/

/-- What a configuration reads. -/
inductive Setting where
  | anonymousUser
  | anonymousRole
  | systemKey
  | adminRole
  | defaultTenant
  deriving DecidableEq

namespace Setting

def all : List Setting := [anonymousUser, anonymousRole, systemKey, adminRole, defaultTenant]

theorem mem_all (k : Setting) : k ∈ all := by
  cases k <;> decide

def path : Setting → String
  | anonymousUser => Config.anonymousUserPath
  | anonymousRole => Config.anonymousRolePath
  | systemKey => Config.systemKeyPath
  | adminRole => Config.adminRolePath
  | defaultTenant => Config.defaultTenantPath

/-- The first part of the path. -/
def group : Setting → String
  | anonymousUser | anonymousRole => "anonymous-authentication"
  | systemKey | defaultTenant => "security"
  | adminRole => "acl-voter"

/-- The second part of the path. -/
def name : Setting → String
  | anonymousUser => "anonymous-user"
  | anonymousRole => "anonymous-role"
  | systemKey => "admin-user-name-key"
  | adminRole => "admin-role"
  | defaultTenant => "default-tenant"

/-- The variable under a stem. -/
def envName (stem : String) (k : Setting) : String := Settings.variableName stem k.path

theorem segments_path (k : Setting) : Path.segments k.path = [k.group, k.name] := by
  cases k <;> decide

theorem eq_of_nodup {f : Setting → String} (hf : (all.map f).Nodup) {k k' : Setting}
    (h : f k = f k') : k = k' :=
  List.inj_on_of_nodup_map hf k.mem_all k'.mem_all h

theorem path_injective {k k' : Setting} (h : k.path = k'.path) : k = k' :=
  eq_of_nodup (f := path) (by decide) h

theorem name_injective {k k' : Setting} (h : k.name = k'.name) : k = k' :=
  eq_of_nodup (f := name) (by decide) h

theorem bareVariable_injective {k k' : Setting}
    (h : Settings.bareVariable k.path = Settings.bareVariable k'.path) : k = k' :=
  eq_of_nodup (f := fun k => Settings.bareVariable k.path) (by decide +kernel) h

theorem envName_injective (stem : String) {k k' : Setting} (h : k.envName stem = k'.envName stem) :
    k = k' := by
  exact bareVariable_injective ((Settings.variableName_inj stem).1 h)

theorem envName_plain {stem : String} (hs : '=' ∉ stem.toList) (k : Setting) :
    '=' ∉ (k.envName stem).toList := by
  have hbare : '=' ∉ (Settings.bareVariable k.path).toList := by
    cases k <;> decide
  have hline : '=' ∉ "_".toList := by decide
  unfold envName Settings.variableName
  split
  · exact hbare
  · rw [String.toList_append, String.toList_append, List.mem_append, List.mem_append]
    rintro ((h | h) | h)
    · exact hs h
    · exact hline h
    · exact hbare h

end Setting

theorem Config.ofSettings_congr {S S' : Settings} (h : ∀ k : Setting, S.get? k.path = S'.get? k.path) :
    ofSettings S = ofSettings S' := by
  have hrequired : ∀ (k : Setting) fallback, required S k.path fallback = required S' k.path fallback := by
    intro k fallback
    unfold required Settings.getD
    rw [h k]
  have htenant : tenantSetting S = tenantSetting S' := by
    unfold tenantSetting
    rw [show S.get? defaultTenantPath = _ from h .defaultTenant]
    rfl
  unfold ofSettings
  rw [htenant, show required S anonymousUserPath _ = _ from hrequired .anonymousUser _,
    show required S anonymousRolePath _ = _ from hrequired .anonymousRole _,
    show required S systemKeyPath _ = _ from hrequired .systemKey _,
    show required S adminRolePath _ = _ from hrequired .adminRole _]
  rfl

/-! ### Assignments -/

/-- Texts for some of the settings. -/
abbrev Assignment := Setting → Option String

/-- An assignment is written in a list of pairs under names of the settings: the last pair under the name
of an assigned setting has its text, and every pair stands under such a name, or under no setting's. -/
structure Assignment.Written (name : Setting → String) (a : Assignment) (pairs : List (String × String)) :
    Prop where
  last : ∀ k text, a k = some text → ∃ before after,
    pairs = before ++ (name k, text) :: after ∧ ∀ e ∈ after, e.1 ≠ name k
  only : ∀ e ∈ pairs, (∃ k text, a k = some text ∧ e.1 = name k) ∨ ∀ k, e.1 ≠ name k

/-- An assignment is written in a document: the text of an assigned setting stands under the parts of its
path, and no leaf stands there for any other setting. -/
structure Assignment.Nested (a : Assignment) (members : List (String × Json)) : Prop where
  text : ∀ k text, a k = some text → ∃ inner, Json.find k.group members = some (.object inner) ∧
    Json.find k.name inner = some (.string text)
  absent : ∀ k inner j, a k = none → Json.find k.group members = some (.object inner) →
    Json.find k.name inner = some j → j.leaf? = none

/-- A source holds an assignment. Layers hold it if each holds one of its own, and the first of these
that has a text for a setting decides. -/
inductive Assignment.Holds : Assignment → Settings → Prop
  | table {a : Assignment} {entries : List (String × String)} :
      a.Written Setting.path entries → Holds a (.table entries)
  | environment {a : Assignment} {vars : List (String × String)} (stem : String) :
      a.Written (Setting.envName stem) vars →
      Holds a (.environment stem fun name => Settings.lookupLast name vars)
  /-- The environment of a process has no variable with this sign in its name. -/
  | process {a : Assignment} {vars : List (String × String)} {stem : String} : '=' ∉ stem.toList →
      a.Written (Setting.envName stem) vars →
      Holds a (.environment stem (Settings.processVariable vars))
  | document {a : Assignment} {members : List (String × Json)} :
      a.Nested members → Holds a (.document (.object members))
  | layers {a : Assignment} (l : List (Assignment × Settings)) : (∀ e ∈ l, Holds e.1 e.2) →
      (∀ k, a k = l.findSome? (·.1 k)) → Holds a (.layers (l.map (·.2)))

namespace Assignment
variable {a : Assignment}

theorem Written.lookupLast {name : Setting → String} {pairs : List (String × String)}
    (h : a.Written name pairs) (hname : ∀ {k k' : Setting}, name k = name k' → k = k') (k : Setting) :
    Settings.lookupLast (name k) pairs = a k := by
  cases hk : a k with
  | some text =>
    obtain ⟨before, after, rfl, hafter⟩ := h.last k text hk
    rw [Settings.lookupLast_append, Settings.lookupLast, Settings.lookupLast_eq_none hafter, if_pos rfl]
    rfl
  | none =>
    refine Settings.lookupLast_eq_none fun e he hek => ?_
    rcases h.only e he with ⟨k', text, hk', hek'⟩ | hnot
    · rw [hname (hek.symm.trans hek'), hk'] at hk
      cases hk
    · exact hnot k hek

theorem processVariable_plain {name : String} (h : '=' ∉ name.toList) (vars : List (String × String)) :
    Settings.processVariable vars name = Settings.lookupLast name vars := by
  have hall : name.toList.dropWhile (· != '=') = [] := by
    refine (Text.dropWhile_eq_nil_iff ..).2 fun c hc => ?_
    have hne : c ≠ '=' := fun he => h (he ▸ hc)
    simpa using hne
  unfold Settings.processVariable
  dsimp only
  rw [hall]

theorem Nested.get? {members : List (String × Json)} (h : a.Nested members) (k : Setting) :
    (Settings.document (.object members)).get? k.path = a k := by
  show ((Json.object members).walk (Path.segments k.path)).bind Json.leaf? = a k
  rw [k.segments_path]
  show ((Json.find k.group members).bind fun j => (j.member? k.name).bind (Json.walk [])).bind Json.leaf? = a k
  cases hk : a k with
  | some text =>
    obtain ⟨inner, hgroup, hname⟩ := h.text k text hk
    rw [hgroup]
    show ((Json.find k.name inner).bind (Json.walk [])).bind Json.leaf? = _
    rw [hname]
    rfl
  | none =>
    cases hgroup : Json.find k.group members with
    | none => rfl
    | some j =>
      cases j with
      | object inner =>
        show ((Json.find k.name inner).bind (Json.walk [])).bind Json.leaf? = _
        cases hname : Json.find k.name inner with
        | none => rfl
        | some j => exact h.absent k inner j hk hgroup hname
      | _ => rfl

/-- A source that holds an assignment answers the five paths with its texts. -/
theorem Holds.get? {S : Settings} (h : a.Holds S) (k : Setting) : S.get? k.path = a k := by
  induction h with
  | table h => exact h.lookupLast Setting.path_injective k
  | environment stem h => exact h.lookupLast (Setting.envName_injective stem) k
  | process hs h =>
    exact (processVariable_plain (Setting.envName_plain hs k) _).trans
      (h.lookupLast (Setting.envName_injective _) k)
  | document h => exact h.get? k
  | layers l hl ha ih =>
    rw [ha k]
    show Settings.firstOf (l.map (·.2)) k.path = _
    rw [Settings.firstOf_eq_findSome?, List.findSome?_map]
    clear hl ha
    induction l with
    | nil => rfl
    | cons e l ihl =>
      rw [List.findSome?_cons, List.findSome?_cons, ihl fun e he => ih e (List.mem_cons_of_mem _ he)]
      rw [Function.comp_apply, ih e (List.mem_cons_self ..)]

/-! ### A source of each kind -/

/-- The texts of an assignment under names of the settings. -/
def pairs (a : Assignment) (name : Setting → String) : List (String × String) :=
  Setting.all.filterMap fun k => (a k).map (name k, ·)

/-- The texts of some settings under the last parts of their paths. -/
def inner (a : Assignment) (ks : List Setting) : List (String × Json) :=
  ks.filterMap fun k => (a k).map fun text => (k.name, .string text)

/-- The texts of an assignment in an object for each first part of a path. -/
def members (a : Assignment) : List (String × Json) :=
  ["anonymous-authentication", "security", "acl-voter"].map fun group =>
    (group, .object (a.inner (Setting.all.filter (·.group = group))))

theorem written_pairs (a : Assignment) {name : Setting → String}
    (hname : ∀ {k k' : Setting}, name k = name k' → k = k') : a.Written name (a.pairs name) := by
  refine ⟨fun k text hk => ?_, fun e he => ?_⟩
  · obtain ⟨before, after, hall⟩ := List.append_of_mem k.mem_all
    have hnodup : Setting.all.Nodup := by decide
    rw [hall] at hnodup
    have hout : k ∉ after := (List.nodup_cons.1 (List.nodup_append.1 hnodup).2.1).1
    have hsplit : a.pairs name = before.filterMap (fun k => (a k).map (name k, ·)) ++
        (name k, text) :: after.filterMap (fun k => (a k).map (name k, ·)) := by
      unfold pairs
      rw [hall, List.filterMap_append, List.filterMap_cons_some (by rw [hk]; rfl)]
    refine ⟨_, _, hsplit, fun e he hek => ?_⟩
    · obtain ⟨k', hk', he⟩ := List.mem_filterMap.1 he
      obtain ⟨text', -, rfl⟩ := Option.map_eq_some_iff.1 he
      exact hout (hname hek ▸ hk')
  · obtain ⟨k, -, he⟩ := List.mem_filterMap.1 he
    obtain ⟨text, hk, rfl⟩ := Option.map_eq_some_iff.1 he
    exact .inl ⟨k, text, hk, rfl⟩

theorem find_inner (a : Assignment) (ks : List Setting) (k : Setting) :
    Json.find k.name (a.inner ks) = if k ∈ ks then (a k).map .string else none := by
  unfold inner
  induction ks with
  | nil => rfl
  | cons k' ks ih =>
    by_cases hk : k' = k
    · subst hk
      rw [if_pos (List.mem_cons_self ..)]
      cases ha : a k' with
      | none =>
        rw [List.filterMap_cons_none (by rw [ha]; rfl), ih, ha]
        exact ite_self _
      | some text =>
        rw [List.filterMap_cons_some (by rw [ha]; rfl), Json.find, ih, ha, if_pos rfl]
        split <;> rfl
    · have hname : k'.name ≠ k.name := fun h => hk (Setting.name_injective h)
      have hmem : k ∈ k' :: ks ↔ k ∈ ks := by
        rw [List.mem_cons]
        exact or_iff_right fun h => hk h.symm
      simp only [hmem, ← ih]
      cases ha : a k' with
      | none => rw [List.filterMap_cons_none (by rw [ha]; rfl)]
      | some text =>
        rw [List.filterMap_cons_some (by rw [ha]; rfl), Json.find, if_neg hname, Option.or_none]

theorem nested_members (a : Assignment) : a.Nested a.members := by
  have hgroup : ∀ k : Setting, Json.find k.group a.members =
      some (.object (a.inner (Setting.all.filter (·.group = k.group)))) := by
    intro k
    cases k <;> rfl
  have hfind : ∀ k : Setting, Json.find k.name (a.inner (Setting.all.filter (·.group = k.group))) =
      (a k).map .string := by
    intro k
    rw [find_inner, if_pos (List.mem_filter.2 ⟨k.mem_all, decide_eq_true rfl⟩)]
  refine ⟨fun k text hk => ⟨_, hgroup k, ?_⟩, fun k inner j hk hinner hj => ?_⟩
  · rw [hfind, hk]
    rfl
  · rw [hgroup] at hinner
    cases hinner
    rw [hfind, hk] at hj
    cases hj

/-- Sources that hold one assignment configure alike, to the same configuration or the same error, be
they tables, environments with any stem, documents, or layers of such sources, nested in any way. And
for every assignment there are sources of each kind that hold it. -/
theorem sources_configure_alike (a : Assignment) :
    (∀ S S', a.Holds S → a.Holds S' → Config.ofSettings S = Config.ofSettings S') ∧
    a.Holds (.table (a.pairs Setting.path)) ∧
    (∀ stem, a.Holds (.environment stem fun name =>
      Settings.lookupLast name (a.pairs (Setting.envName stem)))) ∧
    (∀ stem, '=' ∉ stem.toList → a.Holds (.environment stem
      (Settings.processVariable (a.pairs (Setting.envName stem))))) ∧
    a.Holds (.document (.object a.members)) := by
  refine ⟨fun S S' h h' => ?_, ?_, fun stem => ?_, fun stem hs => ?_, .document a.nested_members⟩
  · refine Config.ofSettings_congr fun k => ?_
    rw [h.get?, h'.get?]
  · exact .table (a.written_pairs Setting.path_injective)
  · exact .environment stem (a.written_pairs (Setting.envName_injective stem))
  · exact .process hs (a.written_pairs (Setting.envName_injective stem))

/-- An administrator's role from the environment, over a document with a tenant and a table with another
role. -/
theorem sources_configure_alike_overridden :
    let role : String → Assignment := fun text k => if k = .adminRole then some text else none
    let tenant : Assignment := fun k => if k = .defaultTenant then some "acme" else none
    let a : Assignment := fun k => (role "Boss" k).or (tenant k)
    let S := Settings.layers [
      .environment "RUNAS" fun name =>
        Settings.lookupLast name [("RUNAS_ACL_VOTER_ADMIN_ROLE", "Boss")],
      .layers [.document (.object (members tenant)), .table [(Config.adminRolePath, "Other")]]]
    a.Holds S ∧ Config.ofSettings S = Config.ofSettings (.table (a.pairs Setting.path)) ∧
      Config.ofSettings S =
        .ok { Config.default with adminRole := "Boss", defaultTenant := some ⟨"acme", by decide⟩ } := by
  intro role tenant a S
  obtain ⟨-, -, henv, -⟩ := sources_configure_alike (role "Boss")
  obtain ⟨-, -, -, -, hdocument⟩ := sources_configure_alike tenant
  obtain ⟨-, hother, -⟩ := sources_configure_alike (role "Other")
  obtain ⟨halike, htable, -⟩ := sources_configure_alike a
  have hlower : Holds (fun k => (tenant k).or (role "Other" k))
      (.layers [.document (.object (members tenant)), .table [(Config.adminRolePath, "Other")]]) := by
    refine .layers [(tenant, _), (role "Other", _)] (fun e he => ?_) fun k => by cases k <;> rfl
    rcases List.mem_cons.1 he with rfl | he
    · exact hdocument
    · obtain rfl := List.mem_singleton.1 he
      exact hother
  have hS : a.Holds S := by
    refine .layers [(role "Boss", _), (fun k => (tenant k).or (role "Other" k), _)] (fun e he => ?_)
      fun k => by cases k <;> rfl
    rcases List.mem_cons.1 he with rfl | he
    · exact henv "RUNAS"
    · obtain rfl := List.mem_singleton.1 he
      exact hlower
  exact ⟨hS, halike S _ hS htable, by decide⟩

end Assignment
end Guise
