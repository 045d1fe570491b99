import Guise.Settings.Variable
import Mathlib.Data.List.Forall2
import Mathlib.Data.List.Nodup

/-!
# Paths that share a variable

A variable's name has one character for each of its path, after a stem that is the same for all paths. Of a
character it forgets only the case of an ASCII letter and which separator it was (`variableChar_eq_iff`), so
two paths share their variable exactly when they agree up to this at every place (`variableName_eq_iff`), and
an environment with a single variable tells any other two paths apart. Under a stem all names begin with the
stem and `_`, and variables with other names might as well not be there. In the environment of a process a
name that holds the sign `=` looks at the variable before this sign, which has the stem in its name as long
as the sign is not in the stem (`processVariable_filter`).
-/

namespace Guise.Settings
variable {stem path name : String} {c d e : Char}

/-! ### Characters -/

/-- The ASCII letters, each in upper and in lower case. -/
def letters : List (Char × Char) :=
  "ABCDEFGHIJKLMNOPQRSTUVWXYZ".toList.zip "abcdefghijklmnopqrstuvwxyz".toList

/-- What may stand between the parts of a path, and the sign that stands for it in a variable's name. -/
def separators : List Char := ['/', '-', '.', '_']

theorem mem_separators : c ∈ separators ↔ c = '/' ∨ c = '-' ∨ c = '.' ∨ c = '_' := by
  simp [separators]

/-- Characters of a path that a variable's name does not tell apart: equal ones, a letter in either case,
and separators. -/
inductive Interchangeable : Char → Char → Prop
  | same (c : Char) : Interchangeable c c
  | letter {l : Char × Char} {c d : Char} : l ∈ letters → c ∈ [l.1, l.2] → d ∈ [l.1, l.2] →
      Interchangeable c d
  | separator {c d : Char} : c ∈ separators → d ∈ separators → Interchangeable c d

theorem variableChar_letter {l : Char × Char} (h : l ∈ letters) (hc : c ∈ [l.1, l.2]) :
    variableChar c = l.1 := by
  have hall : ∀ l ∈ letters, variableChar l.1 = l.1 ∧ variableChar l.2 = l.1 := by decide
  rcases List.mem_pair.1 hc with rfl | rfl
  · exact (hall l h).1
  · exact (hall l h).2

theorem variableChar_separator (h : c ∈ separators) : variableChar c = '_' := by
  rcases mem_separators.1 h with rfl | rfl | rfl | rfl <;> rfl

/-- A character is a case of one letter only. -/
theorem letter_unique {l l' : Char × Char} (h : l ∈ letters) (h' : l' ∈ letters) (hc : c ∈ [l.1, l.2])
    (hc' : c ∈ [l'.1, l'.2]) : l = l' := by
  have hnodup : (letters.map Prod.fst).Nodup := by decide
  refine List.inj_on_of_nodup_map hnodup h h' ?_
  rw [← variableChar_letter h hc, variableChar_letter h' hc']

theorem letter_not_separator {l : Char × Char} (h : l ∈ letters) (hc : c ∈ [l.1, l.2]) :
    c ∉ separators := by
  have hall : ∀ l ∈ letters, l.1 ≠ '_' := by decide
  intro hsep
  exact hall l h ((variableChar_letter h hc).symm.trans (variableChar_separator hsep))

theorem lower_letter (h : 'a' ≤ c ∧ c ≤ 'z') : (upperAscii c, c) ∈ letters := by
  have hall : ∀ i < 26, (Char.ofNat (65 + i), Char.ofNat (97 + i)) ∈ letters := by decide
  -- `i` is the place of the letter in the alphabet
  have hlow : 97 ≤ c.toNat := h.1
  have hhigh : c.toNat ≤ 122 := h.2
  have hc : Char.ofNat (97 + (c.toNat - 97)) = c := by
    rw [Nat.add_sub_cancel' hlow, Char.ofNat_toNat]
  have hupper : upperAscii c = Char.ofNat (65 + (c.toNat - 97)) := by
    rw [upperAscii, if_pos h]
    congr 1
    omega
  have hi := hall (c.toNat - 97) (by omega)
  rwa [hc, ← hupper] at hi

namespace Interchangeable

theorem symm (h : Interchangeable c d) : Interchangeable d c := by
  cases h with
  | same => exact .same c
  | letter hl hc hd => exact .letter hl hd hc
  | separator hc hd => exact .separator hd hc

theorem trans (h : Interchangeable c d) (h' : Interchangeable d e) : Interchangeable c e := by
  cases h with
  | same => exact h'
  | letter hl hc hd =>
    cases h' with
    | same => exact .letter hl hc hd
    | letter hl' hd' he => exact .letter hl hc (letter_unique hl hl' hd hd' ▸ he)
    | separator hd' => exact absurd hd' (letter_not_separator hl hd)
  | separator hc hd =>
    cases h' with
    | same => exact .separator hc hd
    | letter hl hd' => exact absurd hd (letter_not_separator hl hd')
    | separator _ he => exact .separator hc he

end Interchangeable

theorem interchangeable_variableChar (c : Char) : Interchangeable c (variableChar c) := by
  unfold variableChar
  split
  · rename_i hc
    refine .separator (mem_separators.2 ?_) (by simp [separators])
    rcases hc with rfl | rfl | rfl <;> simp
  · by_cases hc : 'a' ≤ c ∧ c ≤ 'z'
    · exact .letter (lower_letter hc) (by simp) (by simp)
    · rw [upperAscii, if_neg hc]
      exact .same c

theorem variableChar_eq_iff : variableChar c = variableChar d ↔ Interchangeable c d := by
  constructor
  · intro h
    have hd := (interchangeable_variableChar d).symm
    rw [← h] at hd
    exact (interchangeable_variableChar c).trans hd
  · intro h
    cases h with
    | same => rfl
    | letter hl hc hd => rw [variableChar_letter hl hc, variableChar_letter hl hd]
    | separator hc hd => rw [variableChar_separator hc, variableChar_separator hd]

theorem variableChar_variableChar (c : Char) : variableChar (variableChar c) = variableChar c :=
  variableChar_eq_iff.2 (interchangeable_variableChar c).symm

/-- Beyond ASCII a character is interchangeable with itself only. -/
theorem Interchangeable.eq_of_not_ascii (h : Interchangeable d c) (hc : 128 ≤ c.toNat) : d = c := by
  cases h with
  | same => rfl
  | @letter l _ _ hl _ hmem =>
    have hall : ∀ l ∈ letters, l.1.toNat < 128 ∧ l.2.toNat < 128 := by decide
    obtain ⟨hupper, hlower⟩ := hall l hl
    rcases List.mem_pair.1 hmem with rfl | rfl
    · exact absurd hupper (Nat.not_lt.2 hc)
    · exact absurd hlower (Nat.not_lt.2 hc)
  | separator _ hmem =>
    have hascii : c.toNat < 128 := by
      rcases mem_separators.1 hmem with rfl | rfl | rfl | rfl <;> decide
    exact absurd hascii (Nat.not_lt.2 hc)

theorem variableChar_eq_iff_of_not_ascii (hc : 128 ≤ c.toNat) : variableChar d = c ↔ d = c := by
  have hself : variableChar c = c := (interchangeable_variableChar c).symm.eq_of_not_ascii hc
  constructor
  · intro h
    exact (variableChar_eq_iff.1 (h.trans hself.symm)).eq_of_not_ascii hc
  · rintro rfl
    exact hself

/-! ### Names -/

theorem toList_bareVariable (path : String) :
    (bareVariable path).toList = path.toList.map variableChar := String.toList_ofList

theorem bareVariable_eq_iff {p q : String} :
    bareVariable p = bareVariable q ↔ List.Forall₂ Interchangeable p.toList q.toList := by
  rw [← String.toList_inj, toList_bareVariable, toList_bareVariable, ← List.forall₂_eq_eq_eq,
    List.forall₂_map_left_iff, List.forall₂_map_right_iff]
  simp only [variableChar_eq_iff]

theorem bareVariable_bareVariable (path : String) : bareVariable (bareVariable path) = bareVariable path := by
  rw [← String.toList_inj, toList_bareVariable, toList_bareVariable, List.map_map]
  exact List.map_congr_left fun c _ => variableChar_variableChar c

theorem bareVariable_append (p q : String) : bareVariable (p ++ q) = bareVariable p ++ bareVariable q := by
  rw [← String.toList_inj, String.toList_append, toList_bareVariable, toList_bareVariable,
    toList_bareVariable, String.toList_append, List.map_append]

theorem variableName_empty (path : String) : variableName "" path = bareVariable path := if_pos rfl

theorem variableName_stem (h : stem ≠ "") (path : String) :
    variableName stem path = stem ++ "_" ++ bareVariable path := if_neg h

theorem variableName_inj (stem : String) {p q : String} :
    variableName stem p = variableName stem q ↔ bareVariable p = bareVariable q := by
  by_cases h : stem = ""
  · rw [h, variableName_empty, variableName_empty]
  · rw [variableName_stem h, variableName_stem h, String.append_right_inj]

theorem variableName_eq_iff (stem : String) {p q : String} : variableName stem p = variableName stem q ↔
    List.Forall₂ Interchangeable p.toList q.toList :=
  (variableName_inj stem).trans bareVariable_eq_iff

/-! ### Environments -/

/-- The variable of one of two paths tells the paths apart, if they do not share it. -/
theorem variableName_eq_of_get? {p q : String}
    (h : (environment stem fun name => lookupLast name [(variableName stem p, "")]).get? p =
      (environment stem fun name => lookupLast name [(variableName stem p, "")]).get? q) :
    variableName stem p = variableName stem q := by
  have hp : lookupLast (variableName stem p) [(variableName stem p, "")] = some "" := by
    rw [lookupLast, if_pos rfl]
    rfl
  change lookupLast (variableName stem p) _ = lookupLast (variableName stem q) _ at h
  rw [hp] at h
  by_contra hne
  rw [lookupLast, if_neg hne] at h
  cases h

/-- A name begins with a stem and the sign after it. -/
def Under (stem name : String) : Prop := (stem ++ "_").toList <+: name.toList

instance (stem name : String) : Decidable (Under stem name) := inferInstanceAs (Decidable (_ <+: _))

theorem under_variableName (h : stem ≠ "") (path : String) : Under stem (variableName stem path) := by
  rw [Under, variableName_stem h, String.toList_append (s := stem ++ "_")]
  exact List.prefix_append ..

/-- What a process answers for a name under a stem depends on no variable with another name. -/
theorem processVariable_filter (hs : '=' ∉ stem.toList) (hn : Under stem name)
    (vars : List (String × String)) :
    processVariable (vars.filter (Under stem ·.1)) name = processVariable vars name := by
  -- a name that holds the sign looks at the variable before it, which is under the stem too
  have hbefore : Under stem (String.ofList (name.toList.takeWhile (· != '='))) := by
    obtain ⟨rest, hrest⟩ := hn
    have hplain : ∀ c ∈ (stem ++ "_").toList, (c != '=') = true := by
      intro c hc
      rw [String.toList_append, List.mem_append] at hc
      rcases hc with hc | hc
      · exact bne_iff_ne.2 fun he => hs (he ▸ hc)
      · rw [List.mem_singleton.1 hc]
        rfl
    rw [Under, String.toList_ofList, ← hrest, List.takeWhile_append_of_pos hplain]
    exact List.prefix_append ..
  unfold processVariable
  dsimp only
  split
  · exact lookupLast_filter (fun e he => decide_eq_true (he ▸ hn)) vars
  · rw [lookupLast_filter fun e he => decide_eq_true (he ▸ hbefore)]

/-- Two paths share their variable exactly when they have the same number of characters, and at every place
the same character, a letter in either case, or separators; and exactly then every environment gives them the
same answer, as does every table of variables. Without a stem a name is its own name, a path in two parts has
the names of the parts one after another, and characters beyond ASCII stand where they stood and nowhere else.
A stem comes before that, with the sign `_`, so under it nothing depends on a variable whose name does not
begin so. -/
theorem variables_shared (stem : String) :
    (∀ p q, (variableName stem p = variableName stem q ↔
        List.Forall₂ Interchangeable p.toList q.toList) ∧
      ((∀ read, (environment stem read).get? p = (environment stem read).get? q) ↔
        List.Forall₂ Interchangeable p.toList q.toList) ∧
      ((∀ vars, (environment stem fun name => lookupLast name vars).get? p =
          (environment stem fun name => lookupLast name vars).get? q) ↔
        List.Forall₂ Interchangeable p.toList q.toList)) ∧
    (∀ p, variableName "" (variableName "" p) = variableName "" p) ∧
    (∀ p q, variableName "" (p ++ q) = variableName "" p ++ variableName "" q) ∧
    (∀ p (i : Nat) (c : Char), 128 ≤ c.toNat →
      ((variableName "" p).toList[i]? = some c ↔ p.toList[i]? = some c)) ∧
    (stem ≠ "" → ∀ p, variableName stem p = stem ++ "_" ++ variableName "" p ∧
      Under stem (variableName stem p) ∧
      (∀ read read', (∀ name, Under stem name → read name = read' name) →
        (environment stem read).get? p = (environment stem read').get? p) ∧
      ('=' ∉ stem.toList → ∀ vars, (environment stem (processVariable vars)).get? p =
        (environment stem (processVariable (vars.filter (Under stem ·.1)))).get? p)) := by
  refine ⟨fun p q => ?_, ?_, ?_, ?_, fun hstem p => ⟨?_, ?_, ?_, ?_⟩⟩
  · have hname : variableName stem p = variableName stem q ↔ _ := variableName_eq_iff stem
    refine ⟨hname, ⟨fun h => ?_, fun h read => ?_⟩, ⟨fun h => ?_, fun h vars => ?_⟩⟩
    · exact hname.1 (variableName_eq_of_get? (h _))
    · exact congrArg read (hname.2 h)
    · exact hname.1 (variableName_eq_of_get? (h _))
    · exact congrArg (lookupLast · vars) (hname.2 h)
  · intro p
    simp only [variableName_empty]
    exact bareVariable_bareVariable p
  · intro p q
    simp only [variableName_empty]
    exact bareVariable_append p q
  · intro p i c hc
    rw [variableName_empty, toList_bareVariable, List.getElem?_map, Option.map_eq_some_iff]
    simp only [variableChar_eq_iff_of_not_ascii hc, exists_eq_right]
  · rw [variableName_empty]
    exact variableName_stem hstem p
  · exact under_variableName hstem p
  · exact fun read read' h => h _ (under_variableName hstem p)
  · exact fun hs vars => (processVariable_filter hs (under_variableName hstem p) vars).symm

/-- Two spellings of a path with a letter beyond ASCII, and a third that has this letter in the other case. -/
theorem variables_shared_accented :
    let p := "voter/admin-rôle"
    let q := "Voter.ADMIN_RôLE"
    let r := "voter/admin-rÔle"
    variableName "RUNAS" p = "RUNAS_VOTER_ADMIN_RôLE" ∧
      (∀ read, (environment "RUNAS" read).get? p = (environment "RUNAS" read).get? q) ∧
      ¬ (∀ read, (environment "RUNAS" read).get? p = (environment "RUNAS" read).get? r) ∧
      (variableName "" p).toList[13]? = some 'ô' ∧
      ∀ vars, (environment "RUNAS" (processVariable vars)).get? p =
        (environment "RUNAS" (processVariable (vars.filter (Under "RUNAS" ·.1)))).get? p := by
  intro p q r
  obtain ⟨hshared, -, -, hkept, hstem⟩ := variables_shared "RUNAS"
  obtain ⟨-, -, -, hprocess⟩ := hstem (by decide) p
  obtain ⟨hnames, hreads, -⟩ := hshared p q
  obtain ⟨hnames', hreads', -⟩ := hshared p r
  refine ⟨by decide, hreads.2 (hnames.1 (by decide)), fun h => ?_, ?_, hprocess (by decide)⟩
  · exact absurd (hnames'.2 (hreads'.1 h)) (by decide)
  · exact (hkept p 13 'ô' (by decide)).2 (by decide)

end Guise.Settings
