import Guise.Proofs.Checking
import Guise.Session.Run

/-!
# How texts become tenants

A text can become a tenant in several ways: by itself, out of a document, out of a configuration in a
document, as the setting of the default tenant, and as the default tenant of a session. `Tenant.Offered` has
them all, and they give one answer (`Tenant.Offered.eq`): the tenant of just this text, unless every
character of it is white space. So no tenant that a session ever works with is blank.
-/

namespace Guise

namespace Tenant
variable {s : String} {t : Tenant} {o : Option Tenant}

/-- What comes of a text that is offered as a tenant. -/
inductive Offered (s : String) : Option Tenant → Prop
  | text : Offered s (ofText s).toOption
  | value : Offered s (ofJson? (.string s))
  /-- A document may spell the text with any escapes. -/
  | document (d : String) : Json.read d = some (.string s) → Offered s (ofDocument? d)
  | configuration (j : Json) (user role key admin : String) :
      j.fields? ["anonymous_user", "anonymous_role", "admin_user_name_key", "admin_role", "default_tenant"] =
        some [some (.string user), some (.string role), some (.string key), some (.string admin),
          some (.string s)] → Offered s ((Config.ofJson? j).bind (·.defaultTenant))
  | setting (S : Settings) : S.get? Config.defaultTenantPath = some s →
      Offered s (Config.tenantSetting S).toOption.join
  | session (j : Json) (c : Config) : Config.ofJson? j = some c →
      Offered s ((Session.Setup.config j (some s)).executor.1.toOption.bind (·.defaultTenant))

theorem ofText_eq_ok_iff : ofText s = .ok t ↔ t.text = s := by
  constructor
  · intro h
    unfold ofText at h
    split at h
    · cases h
      rfl
    · cases h
  · rintro rfl
    exact dif_pos t.not_blank

theorem ofText_eq_error_iff {e : SetupError} :
    ofText s = .error e ↔ e = .badId "TenantId: must not be blank" ∧ Text.Blank s := by
  rw [← Text.isBlank_iff_blank]
  unfold ofText
  split <;> rename_i h
  · simp [h]
  · simp [Bool.not_eq_false _ ▸ h, eq_comm]

/-- Every way gives the answer of the text by itself. -/
theorem Offered.eq (h : Offered s o) : o = ofText? s := by
  cases h with
  | text | value => rfl
  | document d hd =>
    rw [ofDocument?, hd]
    rfl
  | configuration j user role key admin hj =>
    unfold Config.ofJson?
    rw [hj]
    show (((ofText? s).map some).bind fun o => some (Config.mk user role key admin o)).bind
      Config.defaultTenant = _
    cases ofText? s <;> rfl
  | setting S hS =>
    unfold Config.tenantSetting ofText?
    rw [hS]
    dsimp only
    cases ofText s <;> rfl
  | session j c hj =>
    unfold Session.Setup.executor ofText?
    dsimp only
    rw [hj]
    dsimp only [Option.map_some]
    cases ofText s <;> rfl

theorem ofText?_eq_some_iff : ofText? s = some t ↔ t.text = s := by
  rw [← ofText_eq_ok_iff, ofText?]
  cases ofText s <;> simp [Except.toOption]

theorem not_blank_text (t : Tenant) : ∃ c ∈ t.text.toList, c.toNat ∉ Text.whiteSpace := by
  rw [← Text.not_blank_iff, ← Text.isBlank_iff_blank, t.not_blank]
  decide

theorem isSome_ofText?_iff : (ofText? s).isSome = true ↔ ∃ c ∈ s.toList, c.toNat ∉ Text.whiteSpace := by
  constructor
  · intro h
    obtain ⟨t, ht⟩ := Option.isSome_iff_exists.1 h
    exact ofText?_eq_some_iff.1 ht ▸ t.not_blank_text
  · intro h
    rw [← Text.not_blank_iff, ← Text.isBlank_iff_blank, Bool.not_eq_true] at h
    exact Option.isSome_iff_exists.2 ⟨⟨s, h⟩, ofText?_eq_some_iff.2 rfl⟩

end Tenant

theorem Text.trim_eq_nil_iff_blank {s : String} : trim s.toList = [] ↔ Blank s := by
  rw [trim_eq_nil_iff]
  simp only [isWhite_iff, Blank]

/-! ### Tenants of a session -/

/-- A tenant occurs in a machine of an executor: in the configuration, as the default of resolution, in the
key of an entry of the directory, or in a question that was put to it. -/
inductive Machine.Occurs (x : Executor) (m : Machine) (t : Tenant) : Prop
  | config : x.config.defaultTenant = some t → Occurs x m t
  | default : x.defaultTenant = some t → Occurs x m t
  | key (user : String) (roles : List String) :
      m.world.lookups.directory.entry? (some t) user = some roles → Occurs x m t
  | question (user : String) : .roles (some t) user ∈ m.world.questions → Occurs x m t

/-- A text becomes a tenant in every way or in none: by itself, out of any document that spells it, in a
configuration, as a setting, and as the default of a session. It does exactly when some character of it is
no white space, which is when trimming both ends leaves something; else the error says that it is blank. The
tenant is named by just this text, and its document is read as the text and as the tenant again. So of the
tenants that occur at any moment of any session, in its directory, configuration, default or questions,
none is blank. -/
theorem tenants_admitted_alike :
    (∀ s,
      (∀ o o', Tenant.Offered s o → Tenant.Offered s o' → o = o') ∧
      Tenant.Offered s (Tenant.ofDocument? (Json.text (.string s))) ∧
      (∀ o, Tenant.Offered s o → (o.isSome = true ↔ ∃ c ∈ s.toList, c.toNat ∉ Text.whiteSpace)) ∧
      ((∃ c ∈ s.toList, c.toNat ∉ Text.whiteSpace) ↔ Text.trim s.toList ≠ []) ∧
      (∀ e, Tenant.ofText s = .error e ↔
        e = .badId "TenantId: must not be blank" ∧ Text.trim s.toList = []) ∧
      ∀ t, Tenant.Offered s (some t) → t.text = s ∧ Json.read t.toJson.text = some (.string s) ∧
        t.toJson.text = String.ofList (Json.writeText s) ∧
        Tenant.ofDocument? t.toJson.text = some t) ∧
    ∀ (session : Session) x spansOn n t, session.setup.executor.1 = .ok x →
      Machine.Occurs x ((session.machine x (session.world spansOn)).run x n) t →
      ∃ c ∈ t.text.toList, c.toNat ∉ Text.whiteSpace := by
  refine ⟨fun s => ⟨fun o o' h h' => h.eq.trans h'.eq.symm, .document _ (Json.read_text rfl),
    fun o h => ?_, ?_, fun e => ?_, fun t h => ?_⟩,
    fun session x spansOn n t _ _ => t.not_blank_text⟩
  · rw [h.eq]
    exact Tenant.isSome_ofText?_iff
  · rw [Ne, Text.trim_eq_nil_iff_blank, Text.not_blank_iff]
  · rw [Tenant.ofText_eq_error_iff, Text.trim_eq_nil_iff_blank]
  · obtain rfl : t.text = s := Tenant.ofText?_eq_some_iff.1 h.eq.symm
    exact ⟨rfl, Json.read_text rfl, rfl, Tenant.mirrors.read t⟩

/-- A name between white space, in a document that spells it with escapes and as the default of a session;
and a text of two kinds of white space. -/
theorem tenants_admitted_alike_spaced :
    let s := " acme\u3000"
    let t : Tenant := ⟨s, by decide⟩
    let x : Executor := ⟨Config.default, some t⟩
    let session : Session :=
      ⟨[(some t, "ann", ["Reader"])], [], .config Config.default.toJson (some s), none, []⟩
    Tenant.ofDocument? "\"\\u0020acme\\u3000\"" = some t ∧ t.toJson.text = "\" acme\u3000\"" ∧
      Tenant.ofDocument? (Json.text (.string "\u0085\u2003")) = none ∧
      session.setup.executor.1 = .ok x ∧ ∃ c ∈ t.text.toList, c.toNat ∉ Text.whiteSpace := by
  intro s t x session
  obtain ⟨hall, hsessions⟩ := tenants_admitted_alike
  obtain ⟨hone, -, -, -, -, htext⟩ := hall s
  obtain ⟨-, hwritten, hsome, -⟩ := hall "\u0085\u2003"
  have hok : Tenant.ofText s = .ok t := Tenant.ofText_eq_ok_iff.2 rfl
  have hdoor : Tenant.Offered s (Tenant.ofText s).toOption := .text
  rw [hok] at hdoor
  have hspelt : Json.read "\"\\u0020acme\\u3000\"" = some (.string s) := by rfl
  have hx : session.setup.executor.1 = .ok x := by
    simp [session, x, Session.Setup.executor, Config.mirrors.back, hok]
  have hkey : Machine.Occurs x ((session.machine x (session.world true)).run x 0) t :=
    .key "ann" ["Reader"] (by decide)
  refine ⟨hone _ _ (.document _ hspelt) hdoor, (htext t hdoor).2.2.1.trans (by decide), ?_, hx,
    hsessions session x true 0 t hx hkey⟩
  refine Option.not_isSome_iff_eq_none.1 fun h => ?_
  exact Text.not_blank_iff.2 ((hsome _ hwritten).1 h) (by decide)

end Guise
