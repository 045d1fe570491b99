import Guise.Proofs.Bytes
import Guise.Proofs.Resolving
import Guise.Proofs.RoundTrip

/-!
# What a directory answers, and what is resolved

`Lookups.Listed` and `Lookups.Refused` divide the answers of a directory: those that list the roles of a
principal, where an unknown principal has none, and those that make no set of authorities. A resolution
ends by the one or the other (`Executor.resolve_ok_iff`, `Executor.resolve_error_iff`), unless the directory
panics. Blankness is decided character by character over the white space of Unicode
(`Text.isBlank_iff_blank`), and the order of a set is that of the bytes of its names
(`Authorities.pairwise_bytes`).
-/

namespace Guise

namespace Text
variable {s : String} {c : Char}

/-- The code points with the Unicode property `White_Space`. -/
def whiteSpace : List Nat :=
  [0x9, 0xA, 0xB, 0xC, 0xD, 0x20, 0x85, 0xA0, 0x1680, 0x2000, 0x2001, 0x2002, 0x2003, 0x2004, 0x2005,
   0x2006, 0x2007, 0x2008, 0x2009, 0x200A, 0x2028, 0x2029, 0x202F, 0x205F, 0x3000]

/-- Every character of the text is white space. -/
def Blank (s : String) : Prop := ∀ c ∈ s.toList, c.toNat ∈ whiteSpace

instance (s : String) : Decidable (Blank s) :=
  List.decidableBAll (fun c : Char => c.toNat ∈ whiteSpace) s.toList

theorem isWhite_iff : isWhite c = true ↔ c.toNat ∈ whiteSpace := by
  simp only [isWhite, whiteRanges, whiteSpace, List.any_cons, List.any_nil, List.mem_cons,
    List.not_mem_nil, Bool.or_eq_true, Bool.and_eq_true, decide_eq_true_eq, Bool.false_eq_true,
    or_false]
  omega

theorem isBlank_iff_blank : isBlank s = true ↔ Blank s := by
  simp only [isBlank_iff, isWhite_iff, Blank]

theorem any_isBlank_iff {l : List String} : l.any isBlank = true ↔ ∃ n ∈ l, Blank n := by
  simp only [List.any_eq_true, isBlank_iff_blank]

end Text

theorem Authorities.pairwise_bytes (s : Authorities) :
    s.names.Pairwise fun a b => Text.bytes a < Text.bytes b :=
  s.ascending.imp Text.lt_iff_bytes_lt.1

/-- The roles that a directory's answer gives a principal; an unknown principal has none. -/
inductive Lookups.Listed (l : Lookups) (tenant : Option Tenant) (p : String) : List String → Prop
  | known (roles : List String) : l.roles tenant p = .ok roles → (∀ r ∈ roles, ¬ Text.Blank r) →
      Listed l tenant p roles
  | unknown (user : String) : l.roles tenant p = .error (.unknownUser user) → Listed l tenant p []

namespace Executor
variable {x x' : Executor} {l l' : Lookups} {tenant tenant' : Option Tenant} {p : String}

theorem resolve_ok_iff {s : Authorities} : (x.resolve l tenant p).value = .ok s ↔
    ∃ roles, l.Listed (tenant.or x.defaultTenant) p roles ∧ s = .ofList roles := by
  constructor
  · intro h
    simp only [resolve] at h
    split at h <;> rename_i hroles
    · split at h <;> rename_i hblank <;> cases h
      exact ⟨_, .known _ hroles fun r hr hb => hblank (Text.any_isBlank_iff.2 ⟨r, hr, hb⟩), rfl⟩
    · cases h
      exact ⟨[], .unknown _ hroles, rfl⟩
    · cases h
    · cases h
    · cases h
  · rintro ⟨roles, h, rfl⟩
    cases h with
    | known _ hroles hblank =>
      have hany : ¬ roles.any Text.isBlank = true := by
        rw [Text.any_isBlank_iff]
        rintro ⟨r, hr, hb⟩
        exact hblank r hr hb
      simp [resolve, hroles, hany]
    | unknown user hroles =>
      simp only [resolve, hroles]
      rfl

/-- A set that is resolved has the names of the answer and no other. -/
theorem mem_of_resolve_ok {s : Authorities} (h : (x.resolve l tenant p).value = .ok s) (n : String) :
    n ∈ s.names ↔ ∃ roles, l.roles (tenant.or x.defaultTenant) p = .ok roles ∧ n ∈ roles := by
  obtain ⟨roles, hlisted, rfl⟩ := resolve_ok_iff.1 h
  rw [Authorities.mem_ofList]
  cases hlisted with
  | known _ hroles _ => simp [hroles]
  | unknown user hroles => simp [hroles]

/-- Answers with the same names, in any order and with any repetitions, are resolved alike. -/
theorem resolve_congr {roles roles' : List String}
    (h : l.roles (tenant.or x.defaultTenant) p = .ok roles)
    (h' : l'.roles (tenant'.or x'.defaultTenant) p = .ok roles') (hsame : ∀ n, n ∈ roles ↔ n ∈ roles') :
    (x.resolve l tenant p).value = (x'.resolve l' tenant' p).value := by
  have hany : roles.any Text.isBlank = roles'.any Text.isBlank := by
    rw [Bool.eq_iff_iff, Text.any_isBlank_iff, Text.any_isBlank_iff]
    simp only [hsame]
  have hset : Authorities.ofList roles = .ofList roles' := Authorities.ofList_eq_iff.2 hsame
  simp only [resolve, h, h', hany, hset]
  split <;> rfl

/-- A resolution succeeds exactly when the directory does not know the principal or lists only names that
are not blank; the set then has the listed names and no other, ascending by their bytes. A blank name
anywhere in the list discards the whole of it. Every error names the principal, and says that the roles are
unavailable exactly when the directory did, for its reason. -/
theorem resolution_exact (x : Executor) (l : Lookups) (tenant : Option Tenant) (p : String) :
    let answer := l.roles (tenant.or x.defaultTenant) p
    let result := (x.resolve l tenant p).value
    ((∃ s, result = .ok s) ↔ (∃ user, answer = .error (.unknownUser user)) ∨
      ∃ roles, answer = .ok roles ∧ ∀ n ∈ roles, ¬ Text.Blank n) ∧
    (∀ s, result = .ok s → (s.names.Pairwise fun a b => Text.bytes a < Text.bytes b) ∧
      ∀ n, n ∈ s.names ↔ ∃ roles, answer = .ok roles ∧ n ∈ roles) ∧
    (∀ (x' : Executor) (l' : Lookups) tenant' roles roles', answer = .ok roles →
      l'.roles (tenant'.or x'.defaultTenant) p = .ok roles' → (∀ n, n ∈ roles ↔ n ∈ roles') →
      (x'.resolve l' tenant' p).value = result) ∧
    (∀ p' reason, result = .error (.unavailable p' reason) ↔
      p' = p ∧ answer = .error (.unavailable reason)) ∧
    (∀ p' reason, result = .error (.malformed p' reason) ↔ p' = p ∧
      (answer = .error (.malformed reason) ∨
        reason = "blank role name" ∧ ∃ roles, answer = .ok roles ∧ ∃ n ∈ roles, Text.Blank n)) ∧
    (∀ key, result ≠ .error (.noSystemPrincipal key)) ∧
    (∀ text, result = .panic text ↔ answer = .panic text) ∧
    (∀ before n after, answer = .ok (before ++ n :: after) → Text.Blank n →
      result = .error (.malformed p "blank role name")) := by
  intro answer result
  refine ⟨?_, fun s hs => ⟨s.pairwise_bytes, mem_of_resolve_ok hs⟩,
    fun x' l' tenant' roles roles' h h' hsame => (resolve_congr h h' hsame).symm, ?_, ?_, ?_,
    fun _ => resolve_panic_iff, ?_⟩
  · constructor
    · rintro ⟨s, hs⟩
      obtain ⟨roles, hlisted, -⟩ := resolve_ok_iff.1 hs
      cases hlisted with
      | known _ hroles hblank => exact .inr ⟨roles, hroles, hblank⟩
      | unknown user hroles => exact .inl ⟨user, hroles⟩
    · rintro (⟨user, h⟩ | ⟨roles, h, hblank⟩)
      · exact ⟨_, resolve_ok_iff.2 ⟨_, .unknown user h, rfl⟩⟩
      · exact ⟨_, resolve_ok_iff.2 ⟨_, .known roles h hblank, rfl⟩⟩
  · intro p' reason
    refine resolve_error_iff.trans ⟨fun h => ?_, ?_⟩
    · cases h with
      | unavailable _ h => exact ⟨rfl, h⟩
    · rintro ⟨rfl, h⟩
      exact .unavailable reason h
  · intro p' reason
    refine resolve_error_iff.trans ⟨fun h => ?_, ?_⟩
    · cases h with
      | malformed _ h => exact ⟨rfl, .inl h⟩
      | blank roles r h hr hb => exact ⟨rfl, .inr ⟨rfl, roles, h, r, hr, Text.isBlank_iff_blank.1 hb⟩⟩
    · rintro ⟨rfl, h | ⟨rfl, roles, h, r, hr, hb⟩⟩
      · exact .malformed reason h
      · exact .blank roles r h hr (Text.isBlank_iff_blank.2 hb)
  · intro key h
    cases resolve_error_iff.1 h
  · intro before n after h hb
    exact resolve_error_iff.2 (.blank _ n h (by simp) (Text.isBlank_iff_blank.2 hb))

/-- A directory that lists one role twice to `"ann"`, and an ideographic space last to everybody else. -/
def spacious : Lookups :=
  { Lookups.ofStores .empty .empty with
    disturbedRoles := fun _ user =>
      some (.ok (if user = "ann" then ["é", "z", "é"] else ["editor", "\u3000"])) }

theorem resolution_exact_spacious :
    let x := ofConfig .default
    (∃ s, (x.resolve spacious none "ann").value = .ok s ∧
      (s.names.Pairwise fun a b => Text.bytes a < Text.bytes b) ∧
      (∀ n, n ∈ s.names ↔ n = "é" ∨ n = "z") ∧
      ∀ l' : Lookups, l'.roles x.defaultTenant "ann" = .ok ["z", "é"] →
        (x.resolve l' none "ann").value = .ok s) ∧
    (x.resolve spacious none "bob").value = .error (.malformed "bob" "blank role name") := by
  intro x
  obtain ⟨hok, hset, hsame, -⟩ := resolution_exact x spacious none "ann"
  obtain ⟨-, -, -, -, -, -, -, hblank⟩ := resolution_exact x spacious none "bob"
  obtain ⟨s, hs⟩ := hok.2 (.inr ⟨_, rfl, by decide⟩)
  have hlist : spacious.roles x.defaultTenant "ann" = .ok ["é", "z", "é"] := rfl
  refine ⟨⟨s, hs, (hset s hs).1, fun n => ?_, fun l' h => ?_⟩,
    hblank ["editor"] "\u3000" [] rfl (by decide)⟩
  · refine ((hset s hs).2 n).trans ⟨?_, fun h => ⟨_, hlist, by grind⟩⟩
    rintro ⟨roles, h, hn⟩
    cases hlist.symm.trans h
    grind
  · rw [← hs]
    exact hsame x l' none _ _ hlist h fun n => by grind

end Executor
end Guise
