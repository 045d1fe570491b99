import Guise.Context

/-!
# The frames of a context

`WellNumbered`: the numbers of the frames descend from the top and lie below the next one. Every
operation keeps it, so every reachable context has it, and a number then names at most one frame:
taking it away is a filter on the frames, wherever the frame stands.

`Rewritten`: two states of a context that differ at most in the slot that shows and in the number
that comes next. It is what a program can do to a context in which it pushes and pops nothing by
hand; a frame pushed before such a change is still on top after it.
-/

namespace Guise.Context

variable {y z : Context} {t : Option Token} {n : Nat}

/-- The numbers of the frames, the topmost first. -/
def numbers (y : Context) : List Nat := y.frames.map (·.number)

/-! ### Single operations -/

@[simp] theorem put_numbers (y : Context) (t : Option Token) : (y.put t).numbers = y.numbers := by
  unfold put numbers; split <;> simp_all

@[simp] theorem put_next (y : Context) (t : Option Token) : (y.put t).next = y.next := by
  unfold put; split <;> rfl

@[simp] theorem visible_put (y : Context) (t : Option Token) : (y.put t).visible = t := by
  obtain ⟨b, fs, n⟩ := y
  cases fs <;> rfl

@[simp] theorem put_visible (y : Context) : y.put y.visible = y := by
  obtain ⟨b, fs, n⟩ := y
  cases fs <;> rfl

@[simp] theorem put_put (y : Context) (t u : Option Token) : (y.put t).put u = y.put u := by
  obtain ⟨b, fs, n⟩ := y
  cases fs <;> rfl

/-- A write reaches neither the base nor a frame below the top. -/
theorem put_above {F above : List Frame} (h : y.frames = above ++ F) (ha : above ≠ []) :
    (y.put t).base = y.base ∧ ∃ above', (y.put t).frames = above' ++ F ∧
      above'.map (·.number) = above.map (·.number) := by
  obtain ⟨f, r, rfl⟩ := List.exists_cons_of_ne_nil ha
  refine ⟨by simp [put, h], { f with slot := t } :: r, by simp [put, h], by simp⟩

@[simp] theorem numbers_push (y : Context) (t : Option Token) :
    (y.push t).2.numbers = y.next :: y.numbers := rfl

@[simp] theorem numbers_ofToken (t : Option Token) : (ofToken t).numbers = [] := rfl

theorem pop_top {f : Frame} {r : List Frame} (h : y.frames = f :: r) :
    y.pop f.number = (true, { y with frames := r }) := by
  simp [pop, h]

/-! ### Numbers -/

/-- Frame numbers descend from the top and lie below the next one. -/
structure WellNumbered (y : Context) : Prop where
  descending : y.numbers.Pairwise (· > ·)
  below : ∀ n ∈ y.numbers, n < y.next

namespace WellNumbered

theorem nodup (h : y.WellNumbered) : y.numbers.Nodup :=
  h.descending.imp fun hgt => (Nat.ne_of_lt hgt).symm

theorem ofToken (t : Option Token) : (ofToken t).WellNumbered :=
  ⟨by simp, by simp⟩

theorem put (h : y.WellNumbered) (t : Option Token) : (y.put t).WellNumbered :=
  ⟨by rw [put_numbers]; exact h.descending, by rw [put_numbers, put_next]; exact h.below⟩

theorem push (h : y.WellNumbered) (t : Option Token) : (y.push t).2.WellNumbered := by
  refine ⟨?_, fun n hn => ?_⟩
  · rw [numbers_push]
    exact List.pairwise_cons.2 ⟨h.below, h.descending⟩
  · show n < y.next + 1
    rcases List.mem_cons.1 (numbers_push y t ▸ hn) with rfl | hn
    · exact Nat.lt_succ_self _
    · exact Nat.lt_succ_of_lt (h.below n hn)

/-- Among frames of different numbers, the first of a number is the only one. -/
theorem eraseP_eq_filter {fs : List Frame} (h : (fs.map (·.number)).Nodup) (n : Nat) :
    fs.eraseP (·.number == n) = fs.filter (·.number ≠ n) := by
  induction fs with
  | nil => rfl
  | cons f r ih =>
    obtain ⟨hf, hr⟩ := List.nodup_cons.1 h
    by_cases hfn : f.number = n
    · have hout : r.filter (·.number ≠ n) = r := List.filter_eq_self.2 fun g hg =>
        decide_eq_true fun hgn => hf (List.mem_map.2 ⟨g, hg, hgn.trans hfn.symm⟩)
      rw [List.eraseP_cons_of_pos (by simp [hfn]), List.filter_cons_of_neg (by simp [hfn]), hout]
    · rw [List.eraseP_cons_of_neg (by simp [hfn]), List.filter_cons_of_pos (by simp [hfn]), ih hr]

/-- Popping a number removes the frame of that number and no other. -/
theorem pop_eq (h : y.WellNumbered) (n : Nat) :
    y.pop n = (decide (n ∈ y.numbers), { y with frames := y.frames.filter (·.number ≠ n) }) := by
  unfold pop
  by_cases hn : n ∈ y.numbers
  · obtain ⟨f, hf, hfn⟩ := List.mem_map.1 hn
    have hany : y.frames.any (·.number == n) = true := List.any_eq_true.2 ⟨f, hf, by simpa using hfn⟩
    rw [if_pos hany, eraseP_eq_filter h.nodup, decide_eq_true hn]
  · have hout : ∀ f ∈ y.frames, f.number ≠ n := fun f hf hfn => hn (List.mem_map.2 ⟨f, hf, hfn⟩)
    have hany : ¬ y.frames.any (·.number == n) = true := by simpa using hout
    have hself : y.frames.filter (·.number ≠ n) = y.frames :=
      List.filter_eq_self.2 fun f hf => decide_eq_true (hout f hf)
    rw [if_neg hany, hself, decide_eq_false hn]

theorem numbers_pop (h : y.WellNumbered) (n : Nat) :
    (y.pop n).2.numbers = y.numbers.filter (· ≠ n) := by
  rw [h.pop_eq]
  simp [numbers, List.filter_map, Function.comp_def]

theorem pop (h : y.WellNumbered) (n : Nat) : (y.pop n).2.WellNumbered := by
  refine ⟨?_, fun k hk => ?_⟩
  · rw [h.numbers_pop]
    exact h.descending.filter _
  · rw [h.numbers_pop] at hk
    rw [h.pop_eq]
    exact h.below k (List.mem_filter.1 hk).1

end WellNumbered

/-- A context that operations have led to from a new one. -/
inductive Reachable : Context → Prop
  | new (t : Option Token) : Reachable (ofToken t)
  | put {y : Context} (t : Option Token) : Reachable y → Reachable (y.put t)
  | push {y : Context} (t : Option Token) : Reachable y → Reachable (y.push t).2
  | pop {y : Context} (n : Nat) : Reachable y → Reachable (y.pop n).2

theorem Reachable.wellNumbered (h : y.Reachable) : y.WellNumbered := by
  induction h with
  | new t => exact .ofToken t
  | put t _ ih => exact ih.put t
  | push t _ ih => exact ih.push t
  | pop n _ ih => exact ih.pop n

/-! ### Many pops -/

/-- Pops numbers in order. -/
def popAll (y : Context) (ns : List Nat) : Context := ns.foldl (fun y n => (y.pop n).2) y

@[simp] theorem popAll_cons (y : Context) (n : Nat) (ns : List Nat) :
    y.popAll (n :: ns) = (y.pop n).2.popAll ns := rfl

theorem popAll_append (y : Context) (ns ms : List Nat) :
    y.popAll (ns ++ ms) = (y.popAll ns).popAll ms := List.foldl_append

theorem WellNumbered.popAll (h : y.WellNumbered) (ns : List Nat) : (y.popAll ns).WellNumbered := by
  induction ns generalizing y with
  | nil => exact h
  | cons n ns ih => exact ih (h.pop n)

/-- Pops take away the frames of their numbers, in whatever order they come. -/
theorem WellNumbered.popAll_eq (h : y.WellNumbered) (ns : List Nat) :
    y.popAll ns = { y with frames := y.frames.filter (·.number ∉ ns) } := by
  induction ns generalizing y with
  | nil =>
    have hself : y.frames.filter (·.number ∉ ([] : List Nat)) = y.frames :=
      List.filter_eq_self.2 fun f _ => by simp
    rw [hself]; rfl
  | cons n ns ih =>
    rw [popAll_cons, ih (h.pop n), h.pop_eq]
    simp [List.filter_filter, Bool.and_comm]

theorem WellNumbered.numbers_popAll (h : y.WellNumbered) (ns : List Nat) :
    (y.popAll ns).numbers = y.numbers.filter (· ∉ ns) := by
  rw [h.popAll_eq]
  simp [numbers, List.filter_map, Function.comp_def]

/-! ### Changes of the slot that shows -/

/-- The second state is the first with some value in the slot that shows, and some next number. -/
def Rewritten (y z : Context) : Prop := ∃ t n, z = { y.put t with next := n }

namespace Rewritten

theorem refl (y : Context) : Rewritten y y := ⟨y.visible, y.next, by simp⟩

theorem put (y : Context) (t : Option Token) : Rewritten y (y.put t) := by
  refine ⟨t, y.next, ?_⟩
  obtain ⟨b, fs, n⟩ := y
  cases fs <;> rfl

theorem trans {x : Context} (h : Rewritten x y) (h' : Rewritten y z) : Rewritten x z := by
  obtain ⟨t, n, rfl⟩ := h
  obtain ⟨u, k, rfl⟩ := h'
  refine ⟨u, k, ?_⟩
  obtain ⟨b, fs, m⟩ := x
  cases fs <;> rfl

theorem of_next (n : Nat) : Rewritten y { y with next := n } := ⟨y.visible, n, by simp⟩

/-- A frame pushed before is on top, and popping it brings back all that was there. -/
theorem pop_push (h : Rewritten (y.push t).2 z) :
    z.pop y.next = (true, { y with next := z.next }) := by
  obtain ⟨u, k, rfl⟩ := h
  exact pop_top (f := ⟨y.next, u⟩) rfl

end Rewritten

end Guise.Context
