import Guise.Proofs.Answers
import Guise.Proofs.Configuring
import Guise.Proofs.Granting
import Mathlib.Order.WellFounded

/-!
# What is checked of a configuration

Settings are read in one order (`Setting.order`), and the first with a blank text is the error, whatever
comes after it (`Config.ofSettings_error`); without one, every text is taken as it is and the defaults
stand for what is not defined (`Config.ofSettings_ok`). The executor asks under the tenant among these
texts wherever a question names none (`Machine.asks_tenant`), and what other tenants have makes no
difference to its calls (`World.resolveCall_alike`). Of a configuration in a document only the tenant is
checked (`Config.exists_ofJson?_iff`); the names in it may be blank, and are not taken as settings then.
-/

namespace Guise

theorem Text.not_blank_iff {s : String} : ¬ Blank s ↔ ∃ c ∈ s.toList, c.toNat ∉ whiteSpace := by
  simp [Blank]

namespace Setting

/-- The order in which the settings are read. -/
def order : List Setting := [defaultTenant, anonymousUser, anonymousRole, systemKey, adminRole]

/-- Why a blank text is refused. -/
def complaint : Setting → String
  | defaultTenant => "invalid identifier: TenantId: must not be blank"
  | anonymousUser | anonymousRole | systemKey | adminRole => "must not be blank"

end Setting

/-- The text that a configuration has for a setting. -/
def Config.text? (c : Config) : Setting → Option String
  | .anonymousUser => some c.anonymousUser
  | .anonymousRole => some c.anonymousRole
  | .systemKey => some c.systemKey
  | .adminRole => some c.adminRole
  | .defaultTenant => c.defaultTenant.map Tenant.text

theorem Config.eq_iff_text? {c c' : Config} : c = c' ↔ ∀ k, c.text? k = c'.text? k := by
  refine ⟨fun h _ => h ▸ rfl, fun h => ?_⟩
  have htenant : c.defaultTenant = c'.defaultTenant := by
    refine Option.map_injective (fun t t' ht => ?_) (h .defaultTenant)
    exact Tenant.eq_iff_text.2 ht
  cases c
  cases c'
  cases htenant
  cases h .anonymousUser
  cases h .anonymousRole
  cases h .systemKey
  cases h .adminRole
  rfl

namespace Settings

/-- The text of a setting is blank. A setting that is not defined has none. -/
def Offends (s : Settings) (k : Setting) : Prop := ∃ text, s.get? k.path = some text ∧ Text.Blank text

instance (s : Settings) (k : Setting) : Decidable (s.Offends k) :=
  decidable_of_iff ((s.get? k.path).any Text.isBlank = true) <| by
    simp only [Offends, Option.any_eq_true, Text.isBlank_iff_blank]

/-- The setting is the first to be read of those with a blank text. -/
structure FirstOffends (s : Settings) (k : Setting) : Prop where
  blank : s.Offends k
  first : ∀ k', Setting.order.idxOf k' < Setting.order.idxOf k → ¬ s.Offends k'

variable {s : Settings} {k : Setting}

theorem exists_firstOffends (h : s.Offends k) : ∃ k, s.FirstOffends k := by
  -- the blank setting with the least place in the order
  obtain ⟨k, hk, hfirst⟩ :=
    (measure fun k => Setting.order.idxOf k).wf.has_min {k | s.Offends k} ⟨k, h⟩
  exact ⟨k, hk, fun k' hlt h' => hfirst k' h' hlt⟩

end Settings

namespace Config
variable {s : Settings} {k : Setting}

/-! ### One setting -/

theorem required_ok {fallback : String} (h : ¬ s.Offends k) (hfallback : ¬ Text.Blank fallback) :
    required s k.path fallback = .ok (s.getD k.path fallback) := by
  refine if_neg fun hblank => ?_
  rw [Text.isBlank_iff_blank] at hblank
  unfold Settings.getD at hblank
  cases htext : s.get? k.path with
  | none => exact hfallback (by simpa [htext] using hblank)
  | some text => exact h ⟨text, htext, by simpa [htext] using hblank⟩

theorem required_error (fallback : String) (h : s.Offends k) :
    required s k.path fallback = .error (.badSetting k.path "must not be blank") := by
  obtain ⟨text, htext, hblank⟩ := h
  refine if_pos ?_
  rw [Settings.getD, htext]
  exact Text.isBlank_iff_blank.2 hblank

theorem tenantSetting_ok (h : ¬ s.Offends .defaultTenant) :
    ∃ t, tenantSetting s = .ok t ∧ t.map Tenant.text = s.get? defaultTenantPath := by
  unfold tenantSetting
  cases htext : s.get? defaultTenantPath with
  | none => exact ⟨none, rfl, rfl⟩
  | some text =>
    have hblank : Text.isBlank text = false :=
      Bool.eq_false_iff.2 fun hb => h ⟨text, htext, Text.isBlank_iff_blank.1 hb⟩
    refine ⟨some ⟨text, hblank⟩, ?_, rfl⟩
    dsimp only
    rw [Tenant.ofText, dif_pos hblank]

theorem tenantSetting_error (h : s.Offends .defaultTenant) :
    tenantSetting s = .error (.badSetting defaultTenantPath (Setting.complaint .defaultTenant)) := by
  obtain ⟨text, htext, hblank⟩ := h
  have hrefused : ¬ Text.isBlank text = false := by
    rw [Text.isBlank_iff_blank.2 hblank]
    decide
  unfold tenantSetting
  rw [show s.get? defaultTenantPath = _ from htext]
  dsimp only
  rw [Tenant.ofText, dif_neg hrefused]
  rfl

/-! ### All of them -/

theorem ofSettings_eq (s : Settings) : ofSettings s = (do
    let defaultTenant ← tenantSetting s
    let anonymousUser ← required s (Setting.path .anonymousUser) default.anonymousUser
    let anonymousRole ← required s (Setting.path .anonymousRole) default.anonymousRole
    let systemKey ← required s (Setting.path .systemKey) default.systemKey
    let adminRole ← required s (Setting.path .adminRole) default.adminRole
    pure ⟨anonymousUser, anonymousRole, systemKey, adminRole, defaultTenant⟩) := rfl

theorem ofSettings_ok (h : ∀ k, ¬ s.Offends k) :
    ∃ c, ofSettings s = .ok c ∧ ∀ k, c.text? k = (s.get? k.path).or (default.text? k) := by
  obtain ⟨t, ht, htext⟩ := tenantSetting_ok (h .defaultTenant)
  have hrequired : ∀ (k : Setting) fallback, ¬ Text.Blank fallback →
      required s k.path fallback = .ok (s.getD k.path fallback) := fun k _ => required_ok (h k)
  let c : Config :=
    { anonymousUser := s.getD (Setting.path .anonymousUser) default.anonymousUser
      anonymousRole := s.getD (Setting.path .anonymousRole) default.anonymousRole
      systemKey := s.getD (Setting.path .systemKey) default.systemKey
      adminRole := s.getD (Setting.path .adminRole) default.adminRole
      defaultTenant := t }
  refine ⟨c, ?_, fun k => ?_⟩
  · rw [ofSettings_eq, ht, hrequired .anonymousUser _ (by decide),
      hrequired .anonymousRole _ (by decide), hrequired .systemKey _ (by decide),
      hrequired .adminRole _ (by decide)]
    rfl
  · cases k with
    | defaultTenant => exact htext.trans (Option.or_none ..).symm
    | anonymousUser | anonymousRole | systemKey | adminRole => exact Option.or_some.symm

theorem ofSettings_error (h : s.FirstOffends k) :
    ofSettings s = .error (.badSetting k.path k.complaint) := by
  obtain ⟨hk, hfirst⟩ := h
  rw [ofSettings_eq]
  -- the checks before that of `k` pass, and those after it are never made
  cases k with
  | defaultTenant =>
    rw [tenantSetting_error hk]
    rfl
  | anonymousUser =>
    obtain ⟨t, ht, -⟩ := tenantSetting_ok (hfirst .defaultTenant (by decide))
    rw [ht, required_error _ hk]
    rfl
  | anonymousRole =>
    obtain ⟨t, ht, -⟩ := tenantSetting_ok (hfirst .defaultTenant (by decide))
    rw [ht, required_ok (hfirst .anonymousUser (by decide)) (by decide), required_error _ hk]
    rfl
  | systemKey =>
    obtain ⟨t, ht, -⟩ := tenantSetting_ok (hfirst .defaultTenant (by decide))
    rw [ht, required_ok (hfirst .anonymousUser (by decide)) (by decide),
      required_ok (hfirst .anonymousRole (by decide)) (by decide), required_error _ hk]
    rfl
  | adminRole =>
    obtain ⟨t, ht, -⟩ := tenantSetting_ok (hfirst .defaultTenant (by decide))
    rw [ht, required_ok (hfirst .anonymousUser (by decide)) (by decide),
      required_ok (hfirst .anonymousRole (by decide)) (by decide),
      required_ok (hfirst .systemKey (by decide)) (by decide), required_error _ hk]
    rfl

theorem ofSettings_eq_ok_iff {c : Config} : ofSettings s = .ok c ↔
    (∀ k, ¬ s.Offends k) ∧ ∀ k, c.text? k = (s.get? k.path).or (default.text? k) := by
  constructor
  · intro hc
    have hnone : ∀ k, ¬ s.Offends k := fun k hk => by
      obtain ⟨k, hfirst⟩ := Settings.exists_firstOffends hk
      cases hc.symm.trans (ofSettings_error hfirst)
    obtain ⟨c', hc', htext⟩ := ofSettings_ok hnone
    cases hc.symm.trans hc'
    exact ⟨hnone, htext⟩
  · rintro ⟨hnone, htext⟩
    obtain ⟨c', hc', htext'⟩ := ofSettings_ok hnone
    have hsame : c' = c := eq_iff_text?.2 fun k => (htext' k).trans (htext k).symm
    exact hsame ▸ hc'

theorem ofSettings_eq_error_iff {e : SetupError} : ofSettings s = .error e ↔
    ∃ k, s.FirstOffends k ∧ e = .badSetting k.path k.complaint := by
  constructor
  · intro he
    by_cases hnone : ∀ k, ¬ s.Offends k
    · obtain ⟨c, hc, -⟩ := ofSettings_ok hnone
      cases he.symm.trans hc
    · obtain ⟨k, hk⟩ := not_forall_not.1 hnone
      obtain ⟨k, hfirst⟩ := Settings.exists_firstOffends hk
      cases he.symm.trans (ofSettings_error hfirst)
      exact ⟨k, hfirst, rfl⟩
  · rintro ⟨k, hfirst, rfl⟩
    exact ofSettings_error hfirst

end Config

/-! ### The tenant of a question -/

theorem Executor.ofSettings_eq (s : Settings) :
    ofSettings s = (Config.ofSettings s).map ofConfig := by
  unfold ofSettings
  cases Config.ofSettings s <;> rfl

/-- The collaborators answer alike under one tenant. -/
structure Lookups.Alike (l l' : Lookups) (t : Option Tenant) : Prop where
  roles : ∀ p, l.roles t p = l'.roles t p
  name : ∀ key, l.name key = l'.name key

namespace Executor
variable {x : Executor} {l l' : Lookups}

end Executor

/-- The tenant that an operation names. -/
def Op.tenant? : Op → Option Tenant
  | .resolve (.identity tenant _) | .resolve (.authorities tenant _) => tenant
  | _ => none

def Machine.tenant? (m : Machine) : Option Tenant :=
  match m.work with
  | .act op _ => op.tenant?
  | _ => none

section Asking
variable {x : Executor} {l : Lookups} {tenant t : Option Tenant} {p q : String}

theorem Executor.asksAbout_tenant (h : .roles t p ∈ x.asksAbout tenant q) :
    t = tenant.or x.defaultTenant := by
  unfold asksAbout at h
  split at h
  · cases h
  · cases List.mem_singleton.1 h
    rfl

theorem Executor.asksSystem_tenant (h : .roles t p ∈ x.asksSystem l) : t = x.defaultTenant := by
  unfold asksSystem at h
  rcases List.mem_cons.1 h with h | h
  · cases h
  · split at h
    · cases List.mem_singleton.1 h
      rfl
    · cases h

theorem Query.asks_tenant {query : Query} (h : .roles t p ∈ query.asks x l) :
    t = (Op.resolve query).tenant?.or x.defaultTenant := by
  cases query with
  | identity tenant q => exact Executor.asksAbout_tenant h
  | authorities tenant q =>
    cases List.mem_singleton.1 h
    rfl
  | systemPrincipal => cases List.mem_singleton.1 h
  | systemIdentity => exact Executor.asksSystem_tenant h

theorem Op.asks_tenant {op : Op} (h : .roles t p ∈ op.asks x l) : t = op.tenant?.or x.defaultTenant := by
  cases op with
  | become c q => exact Executor.asksAbout_tenant h
  | resolve query => exact Query.asks_tenant h
  | _ => cases h

/-- A step asks for roles under the tenant that it names, or the default one. -/
theorem Machine.asks_tenant {m : Machine} (h : .roles t p ∈ m.asks x) :
    t = m.tenant?.or x.defaultTenant := by
  unfold asks at h
  unfold tenant?
  cases hm : m.work with
  | act op next =>
    rw [hm] at h
    exact Op.asks_tenant h
  | call mode c body next =>
    rw [hm] at h
    unfold Executor.asksFor at h
    dsimp only at h
    split at h
    · exact Executor.asksSystem_tenant h
    · exact Executor.asksAbout_tenant h
    · cases h
    · cases h
  | _ =>
    rw [hm] at h
    cases h

end Asking

namespace Config

/-- What a configuration has for the settings, as settings. -/
def table (c : Config) : Settings := .table (Assignment.pairs c.text? Setting.path)

theorem get?_table (c : Config) (k : Setting) : c.table.get? k.path = c.text? k := by
  have hholds : Assignment.Holds c.text? c.table :=
    .table (Assignment.written_pairs c.text? Setting.path_injective)
  exact hholds.get? k

theorem offends_table {c : Config} {k : Setting} :
    c.table.Offends k ↔ ∃ text, c.text? k = some text ∧ Text.Blank text := by
  rw [Settings.Offends, get?_table]

theorem tenant_not_blank (c : Config) : ¬ c.table.Offends .defaultTenant := by
  rw [offends_table]
  rintro ⟨text, htext, hblank⟩
  obtain ⟨t, -, rfl⟩ := Option.map_eq_some_iff.1 htext
  rw [← Text.isBlank_iff_blank, t.not_blank] at hblank
  cases hblank

/-- Nothing that a configuration has is taken for a default. -/
theorem text?_or_default (c : Config) (k : Setting) :
    (c.text? k).or (default.text? k) = c.text? k := by
  cases k with
  | defaultTenant => exact Option.or_none ..
  | anonymousUser | anonymousRole | systemKey | adminRole => rfl

/-- The names of a configuration, with a text for the tenant. -/
def withTenant (c : Config) (tenant : String) : Json :=
  .object [("anonymous_user", .string c.anonymousUser), ("anonymous_role", .string c.anonymousRole),
    ("admin_user_name_key", .string c.systemKey), ("admin_role", .string c.adminRole),
    ("default_tenant", .string tenant)]

theorem ofJson?_withTenant (c : Config) (tenant : String) : ofJson? (c.withTenant tenant) =
    (Tenant.ofText? tenant).map fun t => { c with defaultTenant := some t } := by
  show ((Tenant.ofText? tenant).map some).bind (fun t => some { c with defaultTenant := t }) = _
  cases Tenant.ofText? tenant <;> rfl

theorem exists_ofJson?_iff {c : Config} {tenant : String} :
    (∃ c', ofJson? (c.withTenant tenant) = some c') ↔ ¬ Text.Blank tenant := by
  rw [ofJson?_withTenant, ← Text.isBlank_iff_blank, Bool.not_eq_true]
  unfold Tenant.ofText? Tenant.ofText
  split <;> rename_i hblank
  · exact iff_of_true ⟨_, rfl⟩ hblank
  · exact iff_of_false (fun ⟨_, h⟩ => nomatch h) hblank

/-- Of a configuration in a document only the tenant is checked: with any names the document is read exactly
when the tenant is not blank, so every configuration is read from some document. What it has makes settings
of that configuration exactly when none of its names is blank; else the first of these that is blank is the
error. The executor of a configuration grants its role to callers nobody has authenticated, be it blank or
not. -/
theorem document_checked_for_tenant (c : Config) (tenant : String) :
    ((∃ c', (Json.readDocument (c.withTenant tenant).text).bind ofJson? = some c') ↔
      ¬ Text.Blank tenant) ∧
    (∃ d, (Json.readDocument d).bind ofJson? = some c) ∧
    ¬ c.table.Offends .defaultTenant ∧
    (∀ c', ofSettings c.table = .ok c' ↔ c' = c ∧ ∀ k, ¬ c.table.Offends k) ∧
    (∀ e, ofSettings c.table = .error e ↔
      ∃ k, c.table.FirstOffends k ∧ k ≠ .defaultTenant ∧ e = .badSetting k.path "must not be blank") ∧
    ∀ n, (Executor.ofConfig c).anonymous.has n = true ↔ n = c.anonymousRole := by
  refine ⟨?_, ⟨_, mirrors.readDocument c⟩, c.tenant_not_blank, fun c' => ?_, fun e => ?_, fun n => ?_⟩
  · have hplain : (c.withTenant tenant).isPlain = true := rfl
    have hdepth : (c.withTenant tenant).depth ≤ Json.deepest := (by decide : 1 ≤ Json.deepest)
    rw [Json.readDocument_text hplain hdepth]
    exact exists_ofJson?_iff
  · rw [ofSettings_eq_ok_iff, and_comm, eq_iff_text?]
    simp only [get?_table, text?_or_default]
  · rw [ofSettings_eq_error_iff]
    refine exists_congr fun k => and_congr_right fun hfirst => ?_
    have hname : k ≠ .defaultTenant := fun hk => c.tenant_not_blank (hk ▸ hfirst.blank)
    cases k with
    | defaultTenant => exact absurd rfl hname
    | anonymousUser | anonymousRole | systemKey | adminRole => exact (and_iff_right hname).symm
  · exact Authorities.contains_iff.trans (Authorities.mem_ofList.trans List.mem_singleton)

/-- A document may give callers nobody has authenticated a blank role, which no settings do. -/
theorem names_unchecked : ¬ ∀ d c, (Json.readDocument d).bind ofJson? = some c →
    (∀ k, ¬ c.table.Offends k) ∧ ofSettings c.table = .ok c := by
  intro h
  let j : Json := .object [("anonymous_user", .string "anonymousUser"), ("anonymous_role", .string " "),
    ("admin_user_name_key", .string "singleTenantAdminUserName"), ("admin_role", .string "Administrator")]
  have hread : (Json.readDocument j.text).bind ofJson? = some { default with anonymousRole := " " } := by
    rw [Json.readDocument_text rfl (by decide)]
    rfl
  obtain ⟨hnone, -⟩ := h _ _ hread
  exact hnone .anonymousRole (offends_table.2 ⟨" ", rfl, by decide⟩)

end Config
end Guise
