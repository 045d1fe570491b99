import Guise.Config
import Guise.Identity
import Guise.Proofs.Reading
import Mathlib.Data.List.Sort

/-!
# Documents of the data model

A set of authorities is one ascending list, however it came about (`Authorities.eq_of_mem_iff`), so its
document has the names in one order, each once, and reading the names back gives the list again
(`Authorities.ofList_names`). `Mirrors`: a type whose documents are plain and shallow, and are read as the
values that they were written from; its texts are read back, and no two values have one text.
-/

namespace Guise

/-- What is written of a type is plain and shallow, and is read as what it was written from. -/
structure Mirrors {α : Type} (toJson : α → Json) (ofJson? : Json → Option α) : Prop where
  plain : ∀ a, (toJson a).isPlain = true
  shallow : ∀ a, (toJson a).depth ≤ 2
  back : ∀ a, ofJson? (toJson a) = some a

namespace Mirrors
variable {α : Type} {toJson : α → Json} {ofJson? : Json → Option α}

theorem read (h : Mirrors toJson ofJson?) (a : α) :
    (Json.read (toJson a).text).bind ofJson? = some a := by
  rw [Json.read_text (h.plain a), Option.bind_some, h.back]

theorem readDocument (h : Mirrors toJson ofJson?) (a : α) :
    (Json.readDocument (toJson a).text).bind ofJson? = some a := by
  have hdepth : (toJson a).depth ≤ Json.deepest := Nat.le_trans (h.shallow a) (by decide)
  rw [Json.readDocument_text (h.plain a) hdepth, Option.bind_some, h.back]

theorem text_inj (h : Mirrors toJson ofJson?) {a b : α} :
    (toJson a).text = (toJson b).text ↔ a = b := by
  refine ⟨fun heq => ?_, fun heq => heq ▸ rfl⟩
  have hread := h.read a
  rw [heq, h.read b] at hread
  exact (Option.some.inj hread).symm

end Mirrors

namespace Json

theorem strings?_array (l : List String) : (array (l.map .string)).strings? = some l :=
  mapM_map_some (f := string) (g := string?) (fun _ => rfl) l

theorem itemsPlain_strings (l : List String) : itemsPlain (l.map .string) = true := by
  induction l with
  | nil => rfl
  | cons s l ih => exact ih

theorem itemsDepth_strings (l : List String) : itemsDepth (l.map .string) = 0 := by
  induction l with
  | nil => rfl
  | cons s l ih => exact (Nat.zero_max _).trans ih

theorem writeItems_strings (l : List String) :
    writeItems (l.map .string) = [','].intercalate (l.map writeText) := by
  induction l with
  | nil => rfl
  | cons s l ih =>
    cases l with
    | nil => simp [writeItems, write]
    | cons t l =>
      simp only [List.map_cons, writeItems, write] at ih ⊢
      rw [ih, List.intercalate_cons_cons]
      simp

end Json

/-! ### Sets of authorities -/

namespace Authorities
variable {s t : Authorities} {l l' : List String}

theorem eq_of_mem_iff (h : ∀ n, n ∈ s.names ↔ n ∈ t.names) : s = t := by
  obtain ⟨names, hs⟩ := s
  obtain ⟨names', ht⟩ := t
  have hsame : names = names' := hs.eq_of_mem_iff ht h
  subst hsame
  rfl

theorem eq_iff_contains : s = t ↔ ∀ n, s.contains n = t.contains n := by
  refine ⟨fun h n => h ▸ rfl, fun h => eq_of_mem_iff fun n => ?_⟩
  rw [← contains_iff, ← contains_iff, h]

theorem ofList_names (s : Authorities) : ofList s.names = s := eq_of_mem_iff fun _ => mem_ofList

/-- Neither order nor repetition matters to a set. -/
theorem ofList_eq_iff : ofList l = ofList l' ↔ ∀ n, n ∈ l ↔ n ∈ l' := by
  constructor
  · intro h n
    rw [← mem_ofList, h, mem_ofList]
  · intro h
    refine eq_of_mem_iff fun n => ?_
    rw [mem_ofList, mem_ofList]
    exact h n

theorem mirrors : Mirrors toJson ofJson? := by
  refine ⟨fun s => Json.itemsPlain_strings s.names, fun s => ?_, fun s => ?_⟩
  · rw [toJson, Json.depth, Json.itemsDepth_strings]
    decide
  · rw [ofJson?, toJson, Json.strings?_array, Option.map_some, ofList_names]

/-- The text of a set: its names in order, quoted and with nothing else between them. -/
theorem write_toJson (s : Authorities) :
    s.toJson.write = '[' :: ([','].intercalate (s.names.map Json.writeText) ++ [']']) := by
  rw [toJson, Json.write, Json.writeItems_strings]

theorem ofDocument?_eq_some {d : String} (h : ofDocument? d = some s) :
    ∃ l, (Json.read d).bind Json.strings? = some l ∧ s = ofList l := by
  unfold ofDocument? ofJson? at h
  obtain ⟨j, hj, hs⟩ := Option.bind_eq_some_iff.1 h
  obtain ⟨l, hl, rfl⟩ := Option.map_eq_some_iff.1 hs
  exact ⟨l, Option.bind_eq_some_iff.2 ⟨j, hj, hl⟩, rfl⟩

end Authorities

/-! ### Tenants, configurations and identities -/

theorem Tenant.mirrors : Mirrors toJson ofJson? := by
  refine ⟨fun t => rfl, fun t => Nat.zero_le _, fun t => ?_⟩
  have hok : ofText t.text = .ok t := dif_pos t.not_blank
  show (ofText t.text).toOption = some t
  rw [hok]
  rfl

theorem Tenant.eq_iff_text {t t' : Tenant} : t = t' ↔ t.text = t'.text := by
  refine ⟨fun h => h ▸ rfl, fun h => ?_⟩
  cases t
  cases h
  rfl

theorem Config.mirrors : Mirrors toJson ofJson? := by
  refine ⟨fun c => ?_, fun c => ?_, fun c => ?_⟩
  · obtain ⟨user, role, key, admin, _ | t⟩ := c <;> rfl
  · obtain ⟨user, role, key, admin, _ | t⟩ := c <;> exact Nat.le_succ 1
  · obtain ⟨user, role, key, admin, _ | t⟩ := c
    · rfl
    · show ((Tenant.ofJson? t.toJson).map some).bind
        (fun d => some (⟨user, role, key, admin, d⟩ : Config)) = _
      rw [Tenant.mirrors.back]
      rfl

namespace Identity
variable {i i' : Identity}

theorem mirrors : Mirrors toJson ofJson? := by
  refine ⟨fun i => ?_, fun i => ?_, fun i => ?_⟩
  · have hnames := Json.itemsPlain_strings i.authorities.names
    show (true && (Json.itemsPlain (i.authorities.names.map .string) && true)) = true
    rw [hnames]
    rfl
  · have hnames := Json.itemsDepth_strings i.authorities.names
    show max 0 (max (Json.itemsDepth (i.authorities.names.map .string) + 1) 0) + 1 ≤ 2
    rw [hnames]
    decide
  · show (Authorities.ofJson? i.authorities.toJson).bind (fun a =>
      (Kind.ofJson? (.string i.kind.text)).bind fun k => some (⟨i.principal, a, k⟩ : Identity)) = some i
    rw [Authorities.mirrors.back]
    obtain ⟨principal, authorities, kind⟩ := i
    cases kind <;> rfl

theorem eq_iff_has :
    i = i' ↔ i.principal = i'.principal ∧ i.kind = i'.kind ∧ ∀ n, i.has n = i'.has n := by
  constructor
  · rintro rfl
    exact ⟨rfl, rfl, fun _ => rfl⟩
  · rintro ⟨hp, hk, h⟩
    have hs : i.authorities = i'.authorities := Authorities.eq_iff_contains.2 h
    cases i
    cases hp
    cases hk
    cases hs
    rfl

/-- The text of an identity: three members, with the authorities as a set has them. -/
theorem write_toJson (i : Identity) : i.toJson.write =
    '{' :: (Json.writeText "principal" ++ ':' :: (Json.writeText i.principal ++
      ',' :: (Json.writeText "authorities" ++ ':' :: (i.authorities.toJson.write ++
        ',' :: (Json.writeText "kind" ++ ':' :: Json.writeText i.kind.text))))) ++ ['}'] := rfl

/-- An identity that is read has the authorities that the document lists. -/
theorem ofJson?_eq_some {j : Json} (h : ofJson? j = some i) :
    ∃ p a k l, j.fields? ["principal", "authorities", "kind"] = some [some p, some a, some k] ∧
      p.string? = some i.principal ∧ a.strings? = some l ∧ i.authorities = .ofList l ∧
      Kind.ofJson? k = some i.kind := by
  unfold ofJson? at h
  obtain ⟨fields, hfields, h⟩ := Option.bind_eq_some_iff.1 h
  split at h
  · rename_i p a k
    obtain ⟨principal, hprincipal, h⟩ := Option.bind_eq_some_iff.1 h
    obtain ⟨authorities, hauthorities, h⟩ := Option.bind_eq_some_iff.1 h
    obtain ⟨kind, hkind, h⟩ := Option.bind_eq_some_iff.1 h
    obtain ⟨l, hl, rfl⟩ := Option.map_eq_some_iff.1 hauthorities
    cases h
    exact ⟨p, a, k, l, hfields, hprincipal, hl, rfl, hkind⟩
  · cases h

end Identity

/-- Identities, sets of authorities, tenants and configurations are read back from their texts, whatever
characters are in them, those with members even where whole documents are read. Two sets have one text
exactly when they have the same members, and two identities when they agree also on the principal and
the kind. A document in which authorities stand in any order, any number of times, is read as the set of
them, whose text lists them in ascending order, each once, and is read as the same value. -/
theorem documents_round_trip :
    (∀ i : Identity, (Json.readDocument i.toJson.text).bind Identity.ofJson? = some i) ∧
    (∀ s : Authorities, Authorities.ofDocument? s.toJson.text = some s) ∧
    (∀ t : Tenant, Tenant.ofDocument? t.toJson.text = some t) ∧
    (∀ c : Config, (Json.readDocument c.toJson.text).bind Config.ofJson? = some c) ∧
    (∀ s s' : Authorities, s.toJson.text = s'.toJson.text ↔ ∀ n, s.contains n = s'.contains n) ∧
    (∀ l l' : List String, (Authorities.ofList l).toJson.text = (Authorities.ofList l').toJson.text ↔
      ∀ n, n ∈ l ↔ n ∈ l') ∧
    (∀ i i' : Identity, i.toJson.text = i'.toJson.text ↔
      i.principal = i'.principal ∧ i.kind = i'.kind ∧ ∀ n, i.has n = i'.has n) ∧
    (∀ t t' : Tenant, t.toJson.text = t'.toJson.text ↔ t.text = t'.text) ∧
    (∀ c c' : Config, c.toJson.text = c'.toJson.text ↔ c = c') ∧
    (∀ d s, Authorities.ofDocument? d = some s →
      ∃ l, (Json.read d).bind Json.strings? = some l ∧ (∀ n, n ∈ s.names ↔ n ∈ l) ∧
        Text.Ascending s.names ∧
        s.toJson.text = String.ofList
          ('[' :: ([','].intercalate (s.names.map Json.writeText) ++ [']'])) ∧
        Authorities.ofDocument? s.toJson.text = some s) ∧
    (∀ d i, (Json.read d).bind Identity.ofJson? = some i →
      ∃ j p a k l, Json.read d = some j ∧
        j.fields? ["principal", "authorities", "kind"] = some [some p, some a, some k] ∧
        p.string? = some i.principal ∧ a.strings? = some l ∧ Kind.ofJson? k = some i.kind ∧
        (∀ n, n ∈ i.authorities.names ↔ n ∈ l) ∧ Text.Ascending i.authorities.names ∧
        i.toJson.text = String.ofList
          ('{' :: (Json.writeText "principal" ++ ':' :: (Json.writeText i.principal ++
            ',' :: (Json.writeText "authorities" ++ ':' ::
              ('[' :: ([','].intercalate (i.authorities.names.map Json.writeText) ++ [']']) ++
                ',' :: (Json.writeText "kind" ++ ':' :: Json.writeText i.kind.text))))) ++ ['}']) ∧
        (Json.readDocument i.toJson.text).bind Identity.ofJson? = some i) := by
  refine ⟨Identity.mirrors.readDocument, Authorities.mirrors.read, Tenant.mirrors.read,
    Config.mirrors.readDocument, fun s s' => Authorities.mirrors.text_inj.trans Authorities.eq_iff_contains,
    fun l l' => Authorities.mirrors.text_inj.trans Authorities.ofList_eq_iff,
    fun i i' => Identity.mirrors.text_inj.trans Identity.eq_iff_has,
    fun t t' => Tenant.mirrors.text_inj.trans Tenant.eq_iff_text, fun c c' => Config.mirrors.text_inj,
    fun d s h => ?_, fun d i h => ?_⟩
  · obtain ⟨l, hl, rfl⟩ := Authorities.ofDocument?_eq_some h
    refine ⟨l, hl, fun n => Authorities.mem_ofList, Authorities.ascending _, ?_,
      Authorities.mirrors.read _⟩
    rw [Json.text, Authorities.write_toJson]
  · obtain ⟨j, hj, h⟩ := Option.bind_eq_some_iff.1 h
    obtain ⟨p, a, k, l, hfields, hp, ha, hl, hk⟩ := Identity.ofJson?_eq_some h
    refine ⟨j, p, a, k, l, hj, hfields, hp, ha, hk, fun n => ?_, i.authorities.ascending, ?_,
      Identity.mirrors.readDocument i⟩
    · rw [hl]
      exact Authorities.mem_ofList
    · rw [Json.text, Identity.write_toJson, Authorities.write_toJson]

/-- An authority that stands twice, and after another one that comes before it. -/
def repeated : Json := .array [.string "é\"", .string "z", .string "é\""]

/-- An identity of these authorities, with its members in another order. -/
def shuffled : Json :=
  .object [("kind", .string "user"), ("authorities", repeated), ("principal", .string "a\n")]

theorem documents_round_trip_shuffled :
    Authorities.ofDocument? repeated.text = some (.ofList ["é\"", "z", "é\""]) ∧
    (Authorities.ofList ["é\"", "z", "é\""]).toJson.text = "[\"z\",\"é\\\"\"]" ∧
    Authorities.ofDocument? "[\"z\",\"é\\\"\"]" = some (.ofList ["é\"", "z", "é\""]) ∧
    (Json.read shuffled.text).bind Identity.ofJson? =
      some ⟨"a\n", .ofList ["é\"", "z", "é\""], .user⟩ ∧
    (Identity.mk "a\n" (.ofList ["é\"", "z", "é\""]) .user).toJson.text =
      "\x7b\"principal\":\"a\\n\",\"authorities\":[\"z\",\"é\\\"\"],\"kind\":\"user\"\x7d" := by
  obtain ⟨-, -, -, -, -, -, -, -, -, hsets, hidentities⟩ := documents_round_trip
  have hnames : (Authorities.ofList ["é\"", "z", "é\""]).names = ["z", "é\""] := by decide +kernel
  have hset : Authorities.ofDocument? repeated.text = some (.ofList ["é\"", "z", "é\""]) := by
    rw [Authorities.ofDocument?, Json.read_text rfl]
    rfl
  have hidentity : (Json.read shuffled.text).bind Identity.ofJson? =
      some ⟨"a\n", .ofList ["é\"", "z", "é\""], .user⟩ := by
    rw [Json.read_text rfl]
    rfl
  obtain ⟨l, -, -, -, htext, hback⟩ := hsets _ _ hset
  obtain ⟨j, p, a, k, l', -, -, -, -, -, -, -, htext', -⟩ := hidentities _ _ hidentity
  rw [hnames] at htext htext'
  have hcanonical : (Authorities.ofList ["é\"", "z", "é\""]).toJson.text = "[\"z\",\"é\\\"\"]" := by
    rw [htext]
    decide +kernel
  refine ⟨hset, hcanonical, ?_, hidentity, ?_⟩
  · rw [← hcanonical]
    exact hback
  · rw [htext']
    decide +kernel

end Guise
