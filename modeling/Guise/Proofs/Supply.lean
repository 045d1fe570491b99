import Guise.Json.Reader

/-!
# The supply of steps of a reader

Every reader takes characters off the front: what follows is a suffix of what it was given
(`readValue_suffix`). A value hands all its steps but one to its items or members, which stand after a
bracket or brace; items and members hand theirs to a value and, after a comma, to the rest. So two steps
for each character are enough, and with more of them nothing else is read (`readValue_of_le`,
`read_eq_some_iff`).
-/

namespace Guise.Json
variable {s r : List Char} {fuel : Nat}

/-! ### What follows -/

theorem skipBlanks_suffix (s : List Char) : skipBlanks s <:+ s := List.dropWhile_suffix _

theorem suffix_of_skipBlanks (l : List Char) (h : skipBlanks s = l ++ r) : r <:+ s :=
  (List.suffix_append l r).trans (h ▸ skipBlanks_suffix s)

theorem digits_suffix (s : List Char) : (digits s).2 <:+ s := by
  induction s with
  | nil => exact List.suffix_rfl
  | cons c r ih =>
    rw [digits]
    split
    · exact ih.trans (List.suffix_cons c r)
    · exact List.suffix_rfl

theorem pieces_suffix {ps : List Piece} (h : pieces s = some (ps, r)) : r <:+ s := by
  fun_induction pieces s generalizing ps r with
  | case1 | case4 | case6 | case7 | case9 => cases h
  | case2 t =>
    cases h
    exact List.suffix_cons _ _
  | case3 a b c d t n ps' t' hps hn ih =>
    cases h
    exact (ih hps).trans ⟨['\\', 'u', a, b, c, d], rfl⟩
  | case5 e t _ c ps' t' hps he ih =>
    cases h
    exact (ih hps).trans ⟨['\\', e], rfl⟩
  | case8 c t _ _ _ _ ps' t' hps ih =>
    cases h
    exact (ih hps).trans (List.suffix_cons c t)

theorem readText_suffix {t : Option String} (h : readText s = some (t, r)) : r <:+ s := by
  obtain ⟨⟨ps, r'⟩, hps, he⟩ := Option.map_eq_some_iff.1 h
  cases he
  exact pieces_suffix hps

theorem readExponent_suffix {e : Option Int} (h : readExponent s = some (e, r)) : r <:+ s := by
  unfold readExponent at h
  split at h
  · rename_i c t
    split at h
    · split at h
      rename_i negative u hsign
      -- the sign is one character or none
      have hu : u <:+ t := by
        split at hsign <;> cases hsign
        · exact List.suffix_cons _ _
        · exact List.suffix_cons _ _
        · exact List.suffix_rfl
      have hd := digits_suffix u
      split at h
      · cases h
      · rename_i ds v _ heq
        cases h
        rw [heq] at hd
        exact (hd.trans hu).trans (List.suffix_cons c t)
    · cases h
      exact List.suffix_rfl
  · cases h
    exact List.suffix_rfl

theorem readFraction_suffix {f : Option (List Nat)} (h : readFraction s = some (f, r)) : r <:+ s := by
  unfold readFraction at h
  split at h
  · rename_i t
    have hd := digits_suffix t
    split at h
    · cases h
    · rename_i ds t' heq
      cases h
      rw [heq] at hd
      exact hd.trans (List.suffix_cons _ _)
  · cases h
    exact List.suffix_rfl

theorem readUnsigned_suffix {negative : Bool} {j : Json} (h : readUnsigned negative s = some (j, r)) :
    r <:+ s := by
  have hd := digits_suffix s
  unfold readUnsigned at h
  split at h
  · cases h
  · cases h
  · rename_i whole t _ heq
    rw [heq] at hd
    obtain ⟨⟨f, t'⟩, hf, h⟩ := Option.bind_eq_some_iff.1 h
    obtain ⟨⟨e, t''⟩, he, h⟩ := Option.bind_eq_some_iff.1 h
    cases h
    exact ((readExponent_suffix he).trans (readFraction_suffix hf)).trans hd

theorem readNumber_suffix {j : Json} (h : readNumber s = some (j, r)) : r <:+ s := by
  unfold readNumber at h
  split at h
  · exact (readUnsigned_suffix h).trans (List.suffix_cons _ _)
  · exact readUnsigned_suffix h

/-- What follows anything that is read with so many steps. -/
structure Follows (fuel : Nat) : Prop where
  value : ∀ {s j r}, readValue fuel s = some (j, r) → r <:+ s
  items : ∀ {s l r}, readItems fuel s = some (l, r) → r <:+ s
  members : ∀ {s l r}, readMembers fuel s = some (l, r) → r <:+ s

namespace Follows

theorem value_succ (h : Follows fuel) {j : Json} (hr : readValue (fuel + 1) s = some (j, r)) :
    r <:+ s := by
  simp only [readValue] at hr
  split at hr <;> rename_i heq
  · cases hr
    exact suffix_of_skipBlanks ['n', 'u', 'l', 'l'] heq
  · cases hr
    exact suffix_of_skipBlanks ['t', 'r', 'u', 'e'] heq
  · cases hr
    exact suffix_of_skipBlanks ['f', 'a', 'l', 's', 'e'] heq
  · obtain ⟨⟨t, r'⟩, ht, he⟩ := Option.map_eq_some_iff.1 hr
    cases he
    exact (readText_suffix ht).trans (suffix_of_skipBlanks [_] heq)
  · split at hr
    · rename_i hend
      cases hr
      exact (suffix_of_skipBlanks [_] hend).trans (suffix_of_skipBlanks [_] heq)
    · obtain ⟨⟨l, r'⟩, hl, he⟩ := Option.map_eq_some_iff.1 hr
      cases he
      exact ((h.items hl).trans (skipBlanks_suffix _)).trans (suffix_of_skipBlanks [_] heq)
  · split at hr
    · rename_i hend
      cases hr
      exact (suffix_of_skipBlanks [_] hend).trans (suffix_of_skipBlanks [_] heq)
    · obtain ⟨⟨l, r'⟩, hl, he⟩ := Option.map_eq_some_iff.1 hr
      cases he
      exact ((h.members hl).trans (skipBlanks_suffix _)).trans (suffix_of_skipBlanks [_] heq)
  · exact (readNumber_suffix hr).trans (skipBlanks_suffix s)

theorem items_succ (h : Follows fuel) {l : List Json} (hr : readItems (fuel + 1) s = some (l, r)) :
    r <:+ s := by
  simp only [readItems] at hr
  split at hr
  · cases hr
  · rename_i j t hj
    have ht := h.value hj
    split at hr
    · rename_i hend
      cases hr
      exact (suffix_of_skipBlanks [_] hend).trans ht
    · rename_i hcomma
      obtain ⟨⟨l, r'⟩, hl, he⟩ := Option.map_eq_some_iff.1 hr
      cases he
      exact ((h.items hl).trans (suffix_of_skipBlanks [_] hcomma)).trans ht
    · cases hr

theorem members_succ (h : Follows fuel) {l : List (Option String × Json)}
    (hr : readMembers (fuel + 1) s = some (l, r)) : r <:+ s := by
  simp only [readMembers] at hr
  split at hr <;> try cases hr
  rename_i hquote
  split at hr <;> try cases hr
  rename_i k t hk
  split at hr <;> try cases hr
  rename_i hcolon
  split at hr <;> try cases hr
  rename_i j u hj
  have hu : u <:+ s := ((h.value hj).trans (suffix_of_skipBlanks [_] hcolon)).trans
    ((readText_suffix hk).trans (suffix_of_skipBlanks [_] hquote))
  split at hr
  · rename_i hend
    cases hr
    exact (suffix_of_skipBlanks [_] hend).trans hu
  · rename_i hcomma
    obtain ⟨⟨l, r'⟩, hl, he⟩ := Option.map_eq_some_iff.1 hr
    cases he
    exact ((h.members hl).trans (suffix_of_skipBlanks [_] hcomma)).trans hu
  · cases hr

end Follows

theorem follows (fuel : Nat) : Follows fuel := by
  induction fuel with
  | zero =>
    constructor
    all_goals
      intro s l r h
      cases h
  | succ fuel ih => exact ⟨ih.value_succ, ih.items_succ, ih.members_succ⟩

theorem readValue_suffix {j : Json} (h : readValue fuel s = some (j, r)) : r <:+ s := (follows fuel).value h

/-! ### Enough steps -/

theorem length_lt_of_skipBlanks {c : Char} (h : skipBlanks s = c :: r) : r.length < s.length :=
  (h ▸ skipBlanks_suffix s).length_le

section Congr
variable {f g : Nat}

/-- What is read of a value depends on the steps only through the items or members in it. -/
theorem readValue_congr (hitems : ∀ r, r.length < s.length → readItems f r = readItems g r)
    (hmembers : ∀ r, r.length < s.length → readMembers f r = readMembers g r) :
    readValue (f + 1) s = readValue (g + 1) s := by
  have hlen {c : Char} {r : List Char} (h : skipBlanks s = c :: r) : (skipBlanks r).length < s.length :=
    Nat.lt_of_le_of_lt (skipBlanks_suffix r).length_le (length_lt_of_skipBlanks h)
  simp only [readValue]
  split <;> rename_i heq
  · rfl
  · rfl
  · rfl
  · rfl
  · split
    · rfl
    · rw [hitems _ (hlen heq)]
  · split
    · rfl
    · rw [hmembers _ (hlen heq)]
  · rfl

theorem readItems_congr (hvalue : readValue f s = readValue g s)
    (hitems : ∀ r, r.length < s.length → readItems f r = readItems g r) :
    readItems (f + 1) s = readItems (g + 1) s := by
  simp only [readItems, hvalue]
  split
  · rfl
  · rename_i j t hj
    split
    · rfl
    · rename_i r hcomma
      have hlt : r.length < s.length :=
        Nat.lt_of_lt_of_le (length_lt_of_skipBlanks hcomma) (readValue_suffix hj).length_le
      rw [hitems r hlt]
    · rfl

theorem readMembers_congr (hvalue : ∀ r, r.length < s.length → readValue f r = readValue g r)
    (hmembers : ∀ r, r.length < s.length → readMembers f r = readMembers g r) :
    readMembers (f + 1) s = readMembers (g + 1) s := by
  simp only [readMembers]
  split
  · rename_i t hquote
    split
    · rfl
    · rename_i k u hk
      split
      · rename_i v hcolon
        have hlt : v.length < s.length := calc
          v.length < u.length := length_lt_of_skipBlanks hcolon
          _ ≤ t.length := (readText_suffix hk).length_le
          _ ≤ s.length := Nat.le_of_lt (length_lt_of_skipBlanks hquote)
        rw [hvalue v hlt]
        split
        · rfl
        · rename_i j w hj
          split
          · rfl
          · rename_i r hcomma
            have hlt : r.length < s.length := calc
              r.length < w.length := length_lt_of_skipBlanks hcomma
              _ ≤ v.length := (readValue_suffix hj).length_le
              _ ≤ s.length := Nat.le_of_lt hlt
            rw [hmembers r hlt]
          · rfl
      · rfl
  · rfl

end Congr

/-- One step more reads the same, once there are two for each character. -/
structure Enough (fuel : Nat) : Prop where
  value : ∀ s, 2 * s.length + 1 ≤ fuel → readValue (fuel + 1) s = readValue fuel s
  items : ∀ s, 2 * s.length + 2 ≤ fuel → readItems (fuel + 1) s = readItems fuel s
  members : ∀ s, 2 * s.length + 2 ≤ fuel → readMembers (fuel + 1) s = readMembers fuel s

theorem enough (fuel : Nat) : Enough fuel := by
  induction fuel with
  | zero => exact ⟨fun s h => by omega, fun s h => by omega, fun s h => by omega⟩
  | succ fuel ih =>
    constructor
    · intro s h
      exact readValue_congr (fun r hr => ih.items r (by omega)) fun r hr => ih.members r (by omega)
    · intro s h
      exact readItems_congr (ih.value s (by omega)) fun r hr => ih.items r (by omega)
    · intro s h
      exact readMembers_congr (fun r hr => ih.value r (by omega)) fun r hr => ih.members r (by omega)

theorem readValue_of_le (h : 2 * s.length + 1 ≤ fuel) :
    readValue fuel s = readValue (2 * s.length + 1) s := by
  obtain ⟨k, rfl⟩ := Nat.exists_eq_add_of_le h
  induction k with
  | zero => rfl
  | succ k ih => exact ((enough _).value s (Nat.le_add_right ..)).trans (ih (Nat.le_add_right ..))

/-- The value of a text is the one that is read before nothing but blanks, with any number of steps that is
enough. -/
theorem read_eq_some_iff {t : String} {j : Json} (h : 2 * t.toList.length + 1 ≤ fuel) :
    read t = some j ↔ ∃ r, readValue fuel t.toList = some (j, r) ∧ skipBlanks r = [] := by
  have hfuel : readValue (2 * t.toList.length + 2) t.toList = readValue fuel t.toList :=
    (readValue_of_le (Nat.le_succ _)).trans (readValue_of_le h).symm
  simp only [read, hfuel]
  split
  · rename_i j' r hr
    rw [hr, Option.ite_none_right_eq_some, List.isEmpty_iff]
    constructor
    · rintro ⟨hblank, he⟩
      cases he
      exact ⟨r, rfl, hblank⟩
    · rintro ⟨r', he, hblank⟩
      cases he
      exact ⟨hblank, rfl⟩
  · rename_i hr
    simp [hr]

end Guise.Json
