import Guise.Json.Reader
import Guise.Json.Writer
import Mathlib.Tactic.SplitIfs

/-!
# Reading what was written

The reader takes back what the writer gives, for every value without numbers: `read_text`. A text
comes back part by part, since each character stands in it as one part (`pieces_escape`), and no part
is half of a surrogate pair. A value is read up to the character after it and no further, whatever
follows, so items and members come back one after the other (`Reads`). The supply of steps
suffices because no value takes more steps than it has characters.
-/

namespace Guise.Json

/-! ### Texts -/

theorem hexDigit?_hexDigit (n : Nat) : hexDigit? (hexDigit n) = some (n % 16) := by
  have hall : ∀ k < 16, hexDigit? (Nat.digitChar k) = some k := by decide
  exact hall (n % 16) (Nat.mod_lt n (by decide))

/-- The escape of a control is of its own number, and that is of no half of a pair. -/
theorem ofUnit_control {c : Char} (h : c.toNat < 0x20) :
    (unit? '0' '0' (hexDigit (c.toNat / 16)) (hexDigit c.toNat)).map Piece.ofUnit = some (.char c) := by
  have hunit : unit? '0' '0' (hexDigit (c.toNat / 16)) (hexDigit c.toNat) = some c.toNat := by
    have hzero : hexDigit? '0' = some 0 := rfl
    have hvalue : ((0 * 16 + 0) * 16 + c.toNat / 16 % 16) * 16 + c.toNat % 16 = c.toNat := by omega
    simp only [unit?, hzero, hexDigit?_hexDigit, Option.bind_eq_bind, Option.bind_some, hvalue]
    rfl
  have hhigh : ¬ (0xD800 ≤ c.toNat ∧ c.toNat < 0xDC00) := by omega
  have hlow : ¬ (0xDC00 ≤ c.toNat ∧ c.toNat < 0xE000) := by omega
  rw [hunit, Option.map_some, Piece.ofUnit, if_neg hhigh, if_neg hlow, Char.ofNat_toNat]

/-- The parts of a text after a character. -/
def afterChar (c : Char) (s : List Char) : Option (List Piece × List Char) :=
  (pieces s).map fun t => (.char c :: t.1, t.2)

theorem pieces_letter {e c : Char} (hu : e ≠ 'u') (h : escaped? e = some c) (s : List Char) :
    pieces ('\\' :: e :: s) = afterChar c s := by
  unfold afterChar
  rw [pieces.eq_4 _ _ (by simp_all), h]
  cases pieces s <;> rfl

theorem pieces_control {c : Char} (h : c.toNat < 0x20) (s : List Char) :
    pieces ('\\' :: 'u' :: '0' :: '0' :: hexDigit (c.toNat / 16) :: hexDigit c.toNat :: s) =
      afterChar c s := by
  have hunit := ofUnit_control h
  obtain ⟨n, hn, hc⟩ := Option.map_eq_some_iff.1 hunit
  rw [pieces, afterChar, hn, ← hc]
  cases pieces s <;> rfl

theorem pieces_plain {c : Char} (hq : c ≠ '"') (hb : c ≠ '\\') (h : ¬ c.toNat < 0x20)
    (s : List Char) : pieces (c :: s) = afterChar c s := by
  unfold afterChar
  rw [pieces.eq_5 _ _ (by simp_all) (by simp_all) (by simp_all), if_neg h]
  cases pieces s <;> rfl

/-- Each character stands in a text as one part. -/
theorem pieces_escape (c : Char) (s : List Char) : pieces (escape c ++ s) = afterChar c s := by
  unfold escape
  split_ifs with hquote hback hbs htab hlf hff hcr hcontrol
  · subst hquote
    exact pieces_letter (by decide) rfl s
  · subst hback
    exact pieces_letter (by decide) rfl s
  · subst hbs
    exact pieces_letter (by decide) rfl s
  · subst htab
    exact pieces_letter (by decide) rfl s
  · subst hlf
    exact pieces_letter (by decide) rfl s
  · subst hff
    exact pieces_letter (by decide) rfl s
  · subst hcr
    exact pieces_letter (by decide) rfl s
  · exact pieces_control hcontrol s
  · exact pieces_plain hquote hback hcontrol s

theorem pieces_write (cs s : List Char) :
    pieces (cs.flatMap escape ++ '"' :: s) = some (cs.map .char, s) := by
  induction cs with
  | nil => rfl
  | cons c cs ih =>
    rw [List.flatMap_cons, List.append_assoc, pieces_escape, afterChar, ih]
    rfl

theorem join_chars (cs : List Char) : join (cs.map .char) = some cs := by
  induction cs with
  | nil => rfl
  | cons c cs ih =>
    rw [List.map_cons, join, ih]
    rfl

theorem readText_write (s : String) (r : List Char) :
    readText (s.toList.flatMap escape ++ '"' :: r) = some (some s, r) := by
  rw [readText, pieces_write, Option.map_some, join_chars, Option.map_some, String.ofList_toList]

theorem writeText_append (s : String) (r : List Char) :
    writeText s ++ r = '"' :: (s.toList.flatMap escape ++ '"' :: r) := by
  simp [writeText]

/-! ### Values -/

mutual

/-- Whether a value has no numbers, and nothing that is malformed. -/
def isPlain : Json → Bool
  | null | bool _ | string _ => true
  | number _ | malformed => false
  | array items => itemsPlain items
  | object members => membersPlain members

def itemsPlain : List Json → Bool
  | [] => true
  | j :: r => isPlain j && itemsPlain r

def membersPlain : List (String × Json) → Bool
  | [] => true
  | (_, j) :: r => isPlain j && membersPlain r

end

theorem skipBlanks_cons {c : Char} (h : isBlank c = false) (s : List Char) :
    skipBlanks (c :: s) = c :: s := by
  rw [skipBlanks, List.dropWhile_cons, h]
  rfl

/-- A value begins with no blank, and not as an array ends. -/
theorem write_cons {j : Json} (h : j.isPlain = true) :
    ∃ c s, write j = c :: s ∧ isBlank c = false ∧ c ≠ ']' := by
  cases j with
  | null => exact ⟨_, _, rfl, by decide, by decide⟩
  | bool b => cases b <;> exact ⟨_, _, rfl, by decide, by decide⟩
  | string s => exact ⟨_, _, rfl, by decide, by decide⟩
  | array items => exact ⟨_, _, rfl, by decide, by decide⟩
  | object members => exact ⟨_, _, rfl, by decide, by decide⟩
  | number | malformed => cases h

theorem writeItems_cons {j : Json} (h : j.isPlain = true) (items : List Json) :
    ∃ c s, writeItems (j :: items) = c :: s ∧ isBlank c = false ∧ c ≠ ']' := by
  obtain ⟨c, s, hj, hblank, hc⟩ := write_cons h
  cases items with
  | nil => exact ⟨c, s, hj, hblank, hc⟩
  | cons k items => exact ⟨c, s ++ ',' :: writeItems (k :: items), by simp [writeItems, hj], hblank, hc⟩

theorem writeMembers_append (k : String) (j : Json) (members : List (String × Json)) (r : List Char) :
    ∃ s, writeMembers ((k, j) :: members) ++ r = '"' :: s := by
  cases members with
  | nil => exact ⟨_, rfl⟩
  | cons m members => exact ⟨_, rfl⟩

theorem readValue_items {c : Char} {s : List Char} (hblank : isBlank c = false) (hc : c ≠ ']')
    (fuel : Nat) : readValue (fuel + 1) ('[' :: c :: s) =
      (readItems fuel (c :: s)).map fun t => (array t.1, t.2) := by
  simp only [readValue, skipBlanks_cons (c := '[') rfl, skipBlanks_cons hblank]
  split
  · rename_i heq
    exact absurd (List.cons.inj heq).1 hc
  · rfl

theorem readValue_members (s : List Char) (fuel : Nat) : readValue (fuel + 1) ('{' :: '"' :: s) =
    (readMembers fuel ('"' :: s)).map fun t => (ofMembers t.1, t.2) := by
  simp only [readValue, skipBlanks_cons (c := '{') rfl, skipBlanks_cons (c := '"') rfl]
  rfl

theorem mapM_map_some {α β : Type} {f : α → β} {g : β → Option α} (h : ∀ a, g (f a) = some a)
    (l : List α) : (l.map f).mapM g = some l := by
  induction l with
  | nil => rfl
  | cons a l ih =>
    rw [List.map_cons, List.mapM_cons, h, ih]
    rfl

theorem ofMembers_texts (members : List (String × Json)) :
    ofMembers (members.map fun m => (some m.1, m.2)) = object members := by
  have hall := mapM_map_some (f := fun m : String × Json => (some m.1, m.2))
    (g := fun m => m.1.map (·, m.2)) (fun _ => rfl) members
  rw [ofMembers, hall]

/-- So many steps read whatever is written with as many characters, up to what follows it. -/
structure Reads (fuel : Nat) : Prop where
  value : ∀ j r, isPlain j = true → (write j).length ≤ fuel →
    readValue fuel (write j ++ r) = some (j, r)
  items : ∀ j items r, itemsPlain (j :: items) = true →
    (writeItems (j :: items)).length + 1 ≤ fuel →
      readItems fuel (writeItems (j :: items) ++ ']' :: r) = some (j :: items, r)
  members : ∀ k j members r, membersPlain ((k, j) :: members) = true →
    (writeMembers ((k, j) :: members)).length + 1 ≤ fuel →
      readMembers fuel (writeMembers ((k, j) :: members) ++ '}' :: r) =
        some (((k, j) :: members).map fun m => (some m.1, m.2), r)

namespace Reads
variable {fuel : Nat}

theorem value_succ (h : Reads fuel) (j : Json) (r : List Char) (hj : j.isPlain = true)
    (hf : (write j).length ≤ fuel + 1) : readValue (fuel + 1) (write j ++ r) = some (j, r) := by
  cases j with
  | null => rfl
  | bool b => cases b <;> rfl
  | number | malformed => cases hj
  | string s =>
    rw [write, writeText_append]
    simp only [readValue, skipBlanks_cons (c := '"') rfl, readText_write]
    rfl
  | array items =>
    cases items with
    | nil => rfl
    | cons j items =>
      have hplain : j.isPlain = true := (Bool.and_eq_true _ _ ▸ hj).1
      obtain ⟨c, s, hw, hblank, hc⟩ := writeItems_cons hplain items
      simp only [write, List.length_cons, List.length_append, List.length_nil] at hf
      have hitems := h.items j items r hj (by omega)
      have htext : write (array (j :: items)) ++ r = '[' :: (writeItems (j :: items) ++ ']' :: r) := by
        simp [write]
      rw [htext]
      rw [hw, List.cons_append] at hitems ⊢
      rw [readValue_items hblank hc, hitems]
      rfl
  | object members =>
    cases members with
    | nil => rfl
    | cons m members =>
      obtain ⟨k, j⟩ := m
      simp only [write, List.length_cons, List.length_append, List.length_nil] at hf
      have hmembers := h.members k j members r hj (by omega)
      have htext : write (object ((k, j) :: members)) ++ r =
          '{' :: (writeMembers ((k, j) :: members) ++ '}' :: r) := by simp [write]
      obtain ⟨s, hs⟩ := writeMembers_append k j members ('}' :: r)
      rw [htext]
      rw [hs] at hmembers ⊢
      rw [readValue_members, hmembers, Option.map_some, ofMembers_texts]

theorem items_succ (h : Reads fuel) (j : Json) (items : List Json) (r : List Char)
    (hp : itemsPlain (j :: items) = true) (hf : (writeItems (j :: items)).length + 1 ≤ fuel + 1) :
    readItems (fuel + 1) (writeItems (j :: items) ++ ']' :: r) = some (j :: items, r) := by
  obtain ⟨hj, hitems⟩ := Bool.and_eq_true _ _ ▸ hp
  cases items with
  | nil =>
    have hread := h.value j (']' :: r) hj (Nat.le_of_succ_le_succ hf)
    simp only [writeItems, readItems, hread, skipBlanks_cons (c := ']') rfl]
  | cons k items =>
    simp only [writeItems, List.length_append, List.length_cons] at hf
    have hread := h.value j (',' :: (writeItems (k :: items) ++ ']' :: r)) hj (by omega)
    have hrest := h.items k items r hitems (by omega)
    simp only [writeItems, List.append_assoc, List.cons_append, readItems, hread,
      skipBlanks_cons (c := ',') rfl, hrest, Option.map_some]

theorem members_succ (h : Reads fuel) (k : String) (j : Json) (members : List (String × Json))
    (r : List Char) (hp : membersPlain ((k, j) :: members) = true)
    (hf : (writeMembers ((k, j) :: members)).length + 1 ≤ fuel + 1) :
    readMembers (fuel + 1) (writeMembers ((k, j) :: members) ++ '}' :: r) =
      some (((k, j) :: members).map fun m => (some m.1, m.2), r) := by
  obtain ⟨hj, hmembers⟩ := Bool.and_eq_true _ _ ▸ hp
  cases members with
  | nil =>
    simp only [writeMembers, List.length_append, List.length_cons] at hf
    have hread := h.value j ('}' :: r) hj (by omega)
    simp only [writeMembers, List.append_assoc, List.cons_append, writeText_append, readMembers,
      skipBlanks_cons (c := '"') rfl, readText_write, skipBlanks_cons (c := ':') rfl, hread,
      skipBlanks_cons (c := '}') rfl]
    rfl
  | cons m members =>
    obtain ⟨k', j'⟩ := m
    simp only [writeMembers, List.length_append, List.length_cons] at hf
    have hread := h.value j (',' :: (writeMembers ((k', j') :: members) ++ '}' :: r)) hj (by omega)
    have hrest := h.members k' j' members r hmembers (by omega)
    simp only [writeMembers, List.append_assoc, List.cons_append, writeText_append, readMembers,
      skipBlanks_cons (c := '"') rfl, readText_write, skipBlanks_cons (c := ':') rfl, hread,
      skipBlanks_cons (c := ',') rfl, hrest, Option.map_some]
    rfl

end Reads

theorem reads (fuel : Nat) : Reads fuel := by
  induction fuel with
  | zero =>
    refine ⟨fun j r hj hf => ?_, fun j items r _ hf => ?_, fun k j members r _ hf => ?_⟩
    · obtain ⟨c, s, hw, -⟩ := write_cons hj
      rw [hw] at hf
      cases hf
    · cases hf
    · cases hf
  | succ fuel ih => exact ⟨ih.value_succ, ih.items_succ, ih.members_succ⟩

mutual

theorem isSound_of_isPlain : ∀ {j : Json}, j.isPlain = true → j.isSound = true
  | null, _ | bool _, _ | string _, _ => rfl
  | number _, h | malformed, h => by cases h
  | array _, h => itemsSound_of_itemsPlain h
  | object _, h => membersSound_of_membersPlain h

theorem itemsSound_of_itemsPlain : ∀ {items : List Json}, itemsPlain items = true →
    itemsSound items = true
  | [], _ => rfl
  | _ :: _, h => by
    obtain ⟨hj, hitems⟩ := Bool.and_eq_true _ _ ▸ h
    exact Bool.and_eq_true _ _ ▸ ⟨isSound_of_isPlain hj, itemsSound_of_itemsPlain hitems⟩

theorem membersSound_of_membersPlain : ∀ {members : List (String × Json)},
    membersPlain members = true → membersSound members = true
  | [], _ => rfl
  | _ :: _, h => by
    obtain ⟨hj, hmembers⟩ := Bool.and_eq_true _ _ ▸ h
    exact Bool.and_eq_true _ _ ▸ ⟨isSound_of_isPlain hj, membersSound_of_membersPlain hmembers⟩

end

/-- What is written is read back. -/
theorem read_text {j : Json} (h : j.isPlain = true) : read j.text = some j := by
  have hchars : (text j).toList = write j := String.toList_ofList
  have hread := (reads (2 * (write j).length + 2)).value j [] h (by omega)
  rw [List.append_nil] at hread
  simp only [read, hchars, hread]
  rfl

theorem readDocument_text {j : Json} (h : j.isPlain = true) (hd : j.depth ≤ deepest) :
    readDocument j.text = some j := by
  rw [readDocument, read_text h, Option.filter_some, isSound_of_isPlain h]
  simp [hd]

end Guise.Json
