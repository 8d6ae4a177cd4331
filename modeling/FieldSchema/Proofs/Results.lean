import Mathlib.Tactic.Common

/-!
# Results of several steps

What is put together of several results is there if each of them is, and what it is follows from
them (`Except.exists_of_bind_eq_ok`, `Except.exists_of_mapM_eq_ok`). Where it is not, one of them is
to blame (`Except.exists_of_mapM_eq_error`).
-/

namespace FieldSchema.Except

variable {ε ε' α β : Type} {x : Except ε α} {l : List α} {b : β} {e : ε}

theorem exists_of_bind_eq_ok {f : α → Except ε β} (h : x >>= f = .ok b) :
    ∃ a, x = .ok a ∧ f a = .ok b := by
  cases x with
  | error e => cases h
  | ok a => exact ⟨a, rfl, h⟩

theorem exists_of_map_eq_ok {f : α → β} (h : f <$> x = .ok b) : ∃ a, x = .ok a ∧ f a = b := by
  cases x with
  | error e => cases h
  | ok a => exact ⟨a, rfl, Except.ok.inj h⟩

theorem mapError_eq_ok_iff {f : ε → ε'} {a : α} : x.mapError f = .ok a ↔ x = .ok a := by
  cases x <;> simp [Except.mapError]

theorem isOk_map (f : α → β) (x : Except ε α) : (f <$> x).isOk = x.isOk := by
  cases x <;> rfl

theorem isOk_bind {f : α → Except ε β} {b : Bool} (h : ∀ a, (f a).isOk = b) :
    (x >>= f).isOk = (x.isOk && b) := by
  cases x with
  | error e => rfl
  | ok a => exact (h a).trans (Bool.true_and b).symm

/-! ## Lists of results -/

section Lists

variable {f : α → Except ε β}

theorem mapM_eq_ok {g : α → β} : ∀ {l : List α}, (∀ a ∈ l, f a = .ok (g a)) →
    l.mapM f = .ok (l.map g)
  | [], _ => rfl
  | a :: l, h => by
    obtain ⟨ha, hl⟩ := List.forall_mem_cons.1 h
    rw [List.mapM_cons, ha, mapM_eq_ok hl]
    rfl

theorem exists_of_mapM_cons_eq_ok {a : α} {bs : List β} (h : (a :: l).mapM f = .ok bs) :
    ∃ b cs, f a = .ok b ∧ l.mapM f = .ok cs ∧ bs = b :: cs := by
  rw [List.mapM_cons] at h
  obtain ⟨b, hb, h⟩ := exists_of_bind_eq_ok h
  obtain ⟨cs, hcs, h⟩ := exists_of_bind_eq_ok h
  exact ⟨b, cs, hb, hcs, (Except.ok.inj h).symm⟩

theorem length_of_mapM_eq_ok : ∀ {l : List α} {bs : List β}, l.mapM f = .ok bs →
    bs.length = l.length
  | [], _, h => by
    cases h
    rfl
  | a :: l, _, h => by
    obtain ⟨b, cs, -, hcs, rfl⟩ := exists_of_mapM_cons_eq_ok h
    rw [List.length_cons, List.length_cons, length_of_mapM_eq_ok hcs]

/-- The result for each member is among the results for the list. -/
theorem exists_of_mapM_eq_ok : ∀ {l : List α} {bs : List β}, l.mapM f = .ok bs →
    ∀ a ∈ l, ∃ b ∈ bs, f a = .ok b
  | [], _, _, _, ha => absurd ha List.not_mem_nil
  | a :: l, _, h, a', ha' => by
    obtain ⟨b, cs, hb, hcs, rfl⟩ := exists_of_mapM_cons_eq_ok h
    rcases List.mem_cons.1 ha' with rfl | ha'
    · exact ⟨b, .head _, hb⟩
    · obtain ⟨b', hb', hf⟩ := exists_of_mapM_eq_ok hcs a' ha'
      exact ⟨b', .tail _ hb', hf⟩

/-- Each of the results for a list is that of a member. -/
theorem exists_of_mem_mapM : ∀ {l : List α} {bs : List β}, l.mapM f = .ok bs → ∀ b ∈ bs,
    ∃ a ∈ l, f a = .ok b
  | [], _, h, b, hb => by
    cases h
    cases hb
  | a :: l, _, h, b', hb' => by
    obtain ⟨b, cs, hb, hcs, rfl⟩ := exists_of_mapM_cons_eq_ok h
    rcases List.mem_cons.1 hb' with rfl | hb'
    · exact ⟨a, .head _, hb⟩
    · obtain ⟨a', ha', hf⟩ := exists_of_mem_mapM hcs b' hb'
      exact ⟨a', .tail _ ha', hf⟩

theorem exists_mapM_eq_ok_iff : (∃ bs, l.mapM f = .ok bs) ↔ ∀ a ∈ l, ∃ b, f a = .ok b := by
  constructor
  · rintro ⟨bs, h⟩ a ha
    obtain ⟨b, -, hb⟩ := exists_of_mapM_eq_ok h a ha
    exact ⟨b, hb⟩
  · intro h
    induction l with
    | nil => exact ⟨[], rfl⟩
    | cons a l ih =>
      obtain ⟨⟨b, hb⟩, hl⟩ := List.forall_mem_cons.1 h
      obtain ⟨bs, hbs⟩ := ih hl
      exact ⟨b :: bs, by rw [List.mapM_cons, hb, hbs]; rfl⟩

theorem exists_of_mapM_eq_error : ∀ {l : List α}, l.mapM f = .error e → ∃ a ∈ l, f a = .error e
  | [], h => by cases h
  | a :: l, h => by
    rw [List.mapM_cons] at h
    cases hfirst : f a with
    | error e' =>
      rw [hfirst] at h
      cases h
      exact ⟨a, .head _, hfirst⟩
    | ok b =>
      cases hrest : l.mapM f with
      | error e' =>
        rw [hfirst, hrest] at h
        cases h
        obtain ⟨a', ha', h'⟩ := exists_of_mapM_eq_error hrest
        exact ⟨a', .tail _ ha', h'⟩
      | ok bs =>
        rw [hfirst, hrest] at h
        cases h

end Lists

/-- What each step of a fold keeps is kept by the fold. -/
theorem foldlM_keeps {P : β → Prop} {f : β → α → Except ε β}
    (hstep : ∀ b a c, P b → f b a = .ok c → P c) : ∀ {l : List α} {b c : β}, P b →
      l.foldlM f b = .ok c → P c
  | [], _, _, hb, h => by
    cases h
    exact hb
  | a :: l, b, c, hb, h => by
    rw [List.foldlM_cons] at h
    obtain ⟨b', hb', h⟩ := exists_of_bind_eq_ok h
    exact foldlM_keeps hstep (hstep b a b' hb hb') h

end FieldSchema.Except
