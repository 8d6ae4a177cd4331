import FieldSchema.Pattern.Matching
import Mathlib.Data.List.Infix
import Mathlib.Tactic.Common

/-!
# What patterns match

A term of a pattern takes a stretch off what is left of a text. `Term.Takes` says for the terms
without look-around, references and commitment which stretches these are, whatever is to be matched
behind them; the backtracking matcher finds a way through exactly if there is one
(`Term.run_fits`), so a pattern of such terms is found in a text exactly if they take some stretch
of it, one after another (`Compiled.search_iff`).
-/

namespace FieldSchema.Pattern

/-- As many steps of a relation, one after another. -/
def Iterated (T : List Char → List Char → Prop) : Nat → List Char → List Char → Prop
  | 0, cs, ds => cs = ds
  | n + 1, cs, ds => ∃ es, T cs es ∧ Iterated T n es ds

/-! ## Regular terms -/

mutual

/-- Whether what a term takes does not depend on what is to be matched behind it or was matched
before it. -/
def Term.isRegular : Term → Bool
  | .code _ | .any | .set .. | .anchor _ => true
  | .group _ _ _ body => isRegularBody body
  | .repeat .possessive .. => false
  | .repeat _ _ _ body => isRegularBody body
  | .branch bodies => isRegularBranch bodies
  | .atomic _ | .look .. | .reference _ | .conditional .. => false
  termination_by structural t => t

def isRegularBody : List Term → Bool
  | [] => true
  | t :: ts => t.isRegular && isRegularBody ts
  termination_by structural ts => ts

def isRegularBranch : List (List Term) → Bool
  | [] => true
  | body :: bodies => isRegularBody body && isRegularBranch bodies
  termination_by structural bodies => bodies

end

mutual

/-- That a term takes what stands before `ds` off what is left of a text, `cs`. -/
def Term.Takes (text : Array Char) (flags : List Flag) :
    Term → (cs ds : List Char) → Prop
  | .code n, cs, ds => ∃ c, cs = c :: ds ∧ (mates flags c).contains n = true
  | .any, cs, ds => ∃ c, cs = c :: ds ∧ (flags.contains .dotAll || c ≠ '\n') = true
  | .set negated items, cs, ds => ∃ c, cs = c :: ds ∧
      (items.any (·.holds flags (mates flags c) c) != negated) = true
  | .anchor a, cs, ds => cs = ds ∧ a.holds text flags (text.size - cs.length) = true
  | .group _ add remove body, cs, ds => BodyTakes text (Flag.combine flags add remove) body cs ds
  | .repeat _ least most body, cs, ds => ∃ n, (n = 0 ∨ ∀ m ∈ most, least + n ≤ m) ∧
      Iterated (BodyTakes text flags body) (least + n) cs ds
  | .branch bodies, cs, ds => BranchTakes text flags bodies cs ds
  | .atomic _, _, _ | .look .., _, _ | .reference _, _, _ | .conditional .., _, _ => False
  termination_by structural t => t

def BodyTakes (text : Array Char) (flags : List Flag) : List Term → (cs ds : List Char) → Prop
  | [], cs, ds => cs = ds
  | t :: ts, cs, ds => ∃ es, Term.Takes text flags t cs es ∧ BodyTakes text flags ts es ds
  termination_by structural ts => ts

def BranchTakes (text : Array Char) (flags : List Flag) :
    List (List Term) → (cs ds : List Char) → Prop
  | [], _, _ => False
  | body :: bodies, cs, ds =>
    BodyTakes text flags body cs ds ∨ BranchTakes text flags bodies cs ds
  termination_by structural bodies => bodies

end

variable {text : Array Char} {flags : List Flag} {groups : Nat → Nat × Nat} {spot : Spot}
  {cs ds : List Char}

/-! ## Places in a text -/

/-- That some characters are what is left of a text at a place. -/
def Spot.IsBefore (text : Array Char) (spot : Spot) (cs : List Char) : Prop :=
  ∃ before, text.toList = before ++ cs ∧ before.length = spot.position

theorem Spot.IsBefore.position_eq (h : spot.IsBefore text cs) :
    spot.position = text.size - cs.length ∧ cs.length ≤ text.size := by
  obtain ⟨before, htext, hlength⟩ := h
  have hsize := congrArg List.length htext
  rw [Array.length_toList, List.length_append] at hsize
  omega

theorem Spot.IsBefore.getElem? (h : spot.IsBefore text cs) : text[spot.position]? = cs.head? := by
  obtain ⟨before, htext, hlength⟩ := h
  rw [← Array.getElem?_toList, htext, ← hlength, List.getElem?_append_right le_rfl, Nat.sub_self,
    List.head?_eq_getElem?]

theorem Spot.IsBefore.next {c : Char} (h : spot.IsBefore text (c :: cs)) :
    Spot.IsBefore text { spot with position := spot.position + 1 } cs := by
  obtain ⟨before, htext, hlength⟩ := h
  exact ⟨before ++ [c], by simp [htext], by simp [hlength]⟩

/-- That the rest of a match succeeds, with no more than some number of characters left, exactly
where what is left of the text has some property. -/
def Fits (text : Array Char) (bound : Nat) (rest : Rest) (P : List Char → Prop) : Prop :=
  ∀ spot cs, spot.IsBefore text cs → cs.length ≤ bound → ((rest spot).isSome = true ↔ P cs)

/-- That a part of a pattern leads on exactly where the rest does after what it takes. -/
def RunFits (text : Array Char) (run : Spot → Rest → Option Spot)
    (T : List Char → List Char → Prop) : Prop :=
  ∀ bound rest P, Fits text bound rest P →
    Fits text bound (run · rest) fun cs => ∃ ds, T cs ds ∧ P ds

theorem oneChar_fits (test : Char → Bool) :
    RunFits text (oneChar text test) fun cs ds => ∃ c, cs = c :: ds ∧ test c = true := by
  intro bound rest P hrest spot cs hspot hbound
  simp only [oneChar, hspot.getElem?]
  rcases cs with _ | ⟨c, cs⟩
  · simp
  · simp only [List.head?_cons]
    by_cases hc : test c = true
    · rw [if_pos hc, hrest _ cs hspot.next (Nat.le_of_succ_le hbound)]
      constructor
      · exact fun h => ⟨cs, ⟨c, rfl, hc⟩, h⟩
      · rintro ⟨ds, ⟨_, ⟨⟩, -⟩, h⟩
        exact h
    · rw [if_neg hc]
      simp only [Option.isSome_none, Bool.false_eq_true, false_iff]
      rintro ⟨ds, ⟨_, ⟨⟩, h⟩, -⟩
      exact hc h

/-! ## Repetitions -/

section Rounds

variable {T : List Char → List Char → Prop} {body : Spot → Rest → Option Spot} {rest : Rest}
  {P : List Char → Prop} {least bound : Nat} {most : Option Nat} {eager : Bool}

/-- Rounds that take nothing are not needed. -/
theorem Iterated.pruned (hT : ∀ cs ds, T cs ds → ds <:+ cs) {n : Nat} (h : Iterated T n cs ds) :
    cs = ds ∨ ∃ m es, m < n ∧ es.length < cs.length ∧ T cs es ∧ Iterated T m es ds := by
  induction n with
  | zero => exact Or.inl h
  | succ n ih =>
    obtain ⟨es, hround, hrounds⟩ := h
    have hle := (hT cs es hround).length_le
    by_cases hlength : es.length = cs.length
    · have heq : es = cs := (hT cs es hround).eq_of_length hlength
      subst heq
      rcases ih hrounds with hnone | ⟨m, fs, hm, hfs⟩
      · exact Or.inl hnone
      · exact Or.inr ⟨m, fs, by omega, hfs⟩
    · exact Or.inr ⟨n, es, by omega, by omega, hround, hrounds⟩

theorem mayRepeat_iff {count : Nat} : mayRepeat most count = true ↔ ∀ m ∈ most, count + 1 ≤ m := by
  cases most with
  | none => simp [mayRepeat]
  | some m =>
    simp only [mayRepeat, decide_eq_true_eq, Option.mem_some_iff, forall_eq']
    exact Nat.lt_iff_add_one_le

/-- A greedy and a reluctant repetition both end here or go another round. -/
theorem rounds_isSome {fuel count : Nat} {last : Option Nat} (hleast : least ≤ count)
    (spot : Spot) :
    (rounds body eager least most rest (fuel + 1) count last spot).isSome = true ↔
      (rest spot).isSome = true ∨ (mayRepeat most count = true ∧ some spot.position ≠ last ∧
        (body spot (rounds body eager least most rest fuel (count + 1)
          (some spot.position))).isSome = true) := by
  have hdone : ¬ count < least := by omega
  simp only [rounds, if_neg hdone]
  generalize body spot (rounds body eager least most rest fuel (count + 1) (some spot.position))
    = after
  by_cases hmay : (mayRepeat most count && decide (some spot.position ≠ last)) = true
  · rw [if_pos hmay]
    rw [Bool.and_eq_true, decide_eq_true_iff] at hmay
    cases eager <;> cases rest spot <;> cases after <;> simp [hmay]
  · rw [if_neg hmay]
    rw [Bool.and_eq_true, decide_eq_true_iff, not_and] at hmay
    cases eager <;> cases rest spot <;> simp <;> exact fun h hlast => absurd hlast (hmay h)

/-- A repetition ends behind a round that has taken nothing. -/
theorem rounds_stuck {fuel count : Nat} {last : Option Nat} {spot : Spot} (hleast : least ≤ count)
    (hstuck : some spot.position = last) :
    (rounds body eager least most rest fuel count last spot).isSome = (rest spot).isSome := by
  cases fuel with
  | zero => rfl
  | succ fuel =>
    rw [Bool.eq_iff_iff, rounds_isSome hleast]
    simp [hstuck]

/-- Rounds beyond the least count: as many as are allowed, and no more behind one that has taken
nothing. -/
theorem optionalRounds_fits (hT : ∀ cs ds, T cs ds → ds <:+ cs) (hbody : RunFits text body T)
    (hrest : Fits text bound rest P) {fuel count : Nat} {last : Option Nat} {spot : Spot}
    (hleast : least ≤ count) (hspot : spot.IsBefore text cs) (hbound : cs.length ≤ bound)
    (hfuel : cs.length < fuel) (hlast : last ≠ some spot.position) :
    (rounds body eager least most rest fuel count last spot).isSome = true ↔
      ∃ n ds, (n = 0 ∨ ∀ m ∈ most, count + n ≤ m) ∧ Iterated T n cs ds ∧ P ds := by
  induction fuel generalizing count last spot cs with
  | zero => omega
  | succ fuel ih =>
    -- What the rounds after the next one come to, which depends on whether that one has moved on.
    have hnext : Fits text cs.length (rounds body eager least most rest fuel (count + 1)
        (some spot.position)) fun es => P es ∨ (es.length < cs.length ∧ ∃ n ds,
          (n = 0 ∨ ∀ m ∈ most, count + 1 + n ≤ m) ∧ Iterated T n es ds ∧ P ds) := by
      intro next es hes hle
      have hbounded : es.length ≤ bound := hle.trans hbound
      rcases hle.lt_or_eq with hless | heq
      · have hmoved : some spot.position ≠ some next.position := by
          rw [ne_eq, Option.some.injEq, hspot.position_eq.1, hes.position_eq.1]
          have := hspot.position_eq.2
          omega
        rw [ih (by omega) hes hbounded (by omega) hmoved]
        constructor
        · exact fun h => Or.inr ⟨hless, h⟩
        · rintro (hdone | ⟨-, h⟩)
          · exact ⟨0, es, Or.inl rfl, rfl, hdone⟩
          · exact h
      · have hstuck : some next.position = some spot.position := by
          rw [hspot.position_eq.1, hes.position_eq.1, heq]
        rw [rounds_stuck (by omega) hstuck, hrest next es hes hbounded]
        simp [heq]
    rw [rounds_isSome hleast, hrest spot cs hspot hbound, hbody _ _ _ hnext spot cs hspot le_rfl,
      mayRepeat_iff]
    constructor
    · rintro (hdone | ⟨hmay, -, es, hround, hdone | ⟨-, n, ds, hn, hrounds, hdone⟩⟩)
      · exact ⟨0, cs, Or.inl rfl, rfl, hdone⟩
      · exact ⟨1, es, Or.inr hmay, ⟨es, hround, rfl⟩, hdone⟩
      · refine ⟨n + 1, ds, Or.inr ?_, ⟨es, hround, hrounds⟩, hdone⟩
        rcases hn with hzero | hn
        · subst hzero
          exact hmay
        · intro m hm
          have := hn m hm
          omega
    · rintro ⟨n, ds, hn, hrounds, hdone⟩
      rcases hrounds.pruned hT with hnone | ⟨k, es, hk, hless, hround, hrounds⟩
      · subst hnone
        exact Or.inl hdone
      · have hmay : ∀ m ∈ most, count + n ≤ m := hn.resolve_left (by omega)
        refine Or.inr ⟨?_, hlast.symm, es, hround, Or.inr ⟨hless, k, ds, Or.inr ?_, hrounds, hdone⟩⟩
        · intro m hm
          have := hmay m hm
          omega
        · intro m hm
          have := hmay m hm
          omega

variable (eager most) in
/-- A repetition that has `count` rounds left to its least count. -/
theorem rounds_fits (hT : ∀ cs ds, T cs ds → ds <:+ cs) (hbody : RunFits text body T)
    (hrest : Fits text bound rest P) {count fuel : Nat} {spot : Spot}
    (hcount : count ≤ least) (hspot : spot.IsBefore text cs) (hbound : cs.length ≤ bound)
    (hfuel : cs.length + count < fuel) :
    (rounds body eager least most rest fuel (least - count) none spot).isSome = true ↔
      ∃ n ds, (n = 0 ∨ ∀ m ∈ most, least + n ≤ m) ∧ Iterated T (count + n) cs ds ∧ P ds := by
  induction count generalizing fuel spot cs with
  | zero =>
    simpa using optionalRounds_fits hT hbody hrest (Nat.le_refl least) hspot hbound
      (by omega) (by simp : none ≠ some spot.position)
  | succ count ih =>
    obtain ⟨fuel, rfl⟩ := Nat.exists_eq_succ_of_ne_zero (by omega : fuel ≠ 0)
    have hmore : least - (count + 1) < least := by omega
    have hnext : least - (count + 1) + 1 = least - count := by omega
    have hafter : Fits text cs.length (rounds body eager least most rest fuel (least - count) none)
        fun es => ∃ n ds, (n = 0 ∨ ∀ m ∈ most, least + n ≤ m) ∧ Iterated T (count + n) es ds ∧
          P ds := by
      intro next es hes hle
      exact ih (by omega) hes (hle.trans hbound) (by omega)
    simp only [rounds, if_pos hmore, hnext]
    rw [hbody _ _ _ hafter spot cs hspot le_rfl]
    constructor
    · rintro ⟨es, hround, n, ds, hn, hrounds, hdone⟩
      refine ⟨n, ds, hn, ?_, hdone⟩
      rw [Nat.add_right_comm]
      exact ⟨es, hround, hrounds⟩
    · rintro ⟨n, ds, hn, hrounds, hdone⟩
      rw [Nat.add_right_comm] at hrounds
      obtain ⟨es, hround, hrounds⟩ := hrounds
      exact ⟨es, hround, n, ds, hn, hrounds, hdone⟩

/-- The rounds that a text has room for are enough. -/
theorem repeat_fits (eager : Bool) (least : Nat) (most : Option Nat)
    (hT : ∀ cs ds, T cs ds → ds <:+ cs) (hbody : RunFits text body T) :
    RunFits text (fun spot rest => rounds body eager least most rest (least + text.size + 2) 0 none
      spot) fun cs ds =>
        ∃ n, (n = 0 ∨ ∀ m ∈ most, least + n ≤ m) ∧ Iterated T (least + n) cs ds := by
  intro bound rest P hrest spot cs hspot hbound
  have hsize := hspot.position_eq.2
  have hfuel : cs.length + least < least + text.size + 2 := by omega
  have hrounds := rounds_fits most eager hT hbody hrest (Nat.le_refl least) hspot hbound hfuel
  rw [Nat.sub_self] at hrounds
  simp only [hrounds]
  constructor
  · rintro ⟨n, ds, hn, hds, hdone⟩
    exact ⟨ds, ⟨n, hn, hds⟩, hdone⟩
  · rintro ⟨ds, ⟨n, hn, hds⟩, hdone⟩
    exact ⟨n, ds, hn, hds, hdone⟩

end Rounds

/-! ## Terms -/

theorem Iterated.isSuffix {T : List Char → List Char → Prop} (hT : ∀ cs ds, T cs ds → ds <:+ cs)
    {n : Nat} (h : Iterated T n cs ds) : ds <:+ cs := by
  induction n generalizing cs with
  | zero =>
    obtain rfl := h
    exact List.suffix_rfl
  | succ n ih =>
    obtain ⟨es, hround, hrounds⟩ := h
    exact (ih hrounds).trans (hT cs es hround)

mutual

theorem Term.Takes.isSuffix (text : Array Char) (flags : List Flag) :
    ∀ (t : Term) (cs ds : List Char), t.Takes text flags cs ds → ds <:+ cs
  | .code _, _, ds, ⟨c, hcs, _⟩ | .any, _, ds, ⟨c, hcs, _⟩ | .set .., _, ds, ⟨c, hcs, _⟩ =>
    hcs ▸ List.suffix_cons c ds
  | .anchor _, _, _, ⟨hcs, _⟩ => hcs ▸ List.suffix_rfl
  | .group _ _ _ body, cs, ds, h => BodyTakes.isSuffix text _ body cs ds h
  | .repeat _ _ _ body, _, _, ⟨_, _, h⟩ => h.isSuffix (BodyTakes.isSuffix text flags body)
  | .branch bodies, cs, ds, h => BranchTakes.isSuffix text flags bodies cs ds h
  | .atomic _, _, _, h | .look .., _, _, h | .reference _, _, _, h | .conditional .., _, _, h =>
    h.elim
  termination_by structural t => t

theorem BodyTakes.isSuffix (text : Array Char) (flags : List Flag) :
    ∀ (body : List Term) (cs ds : List Char), BodyTakes text flags body cs ds → ds <:+ cs
  | [], _, _, h => h ▸ List.suffix_rfl
  | t :: ts, cs, ds, ⟨es, hterm, hbody⟩ =>
    (BodyTakes.isSuffix text flags ts es ds hbody).trans
      (Term.Takes.isSuffix text flags t cs es hterm)
  termination_by structural body => body

theorem BranchTakes.isSuffix (text : Array Char) (flags : List Flag) :
    ∀ (bodies : List (List Term)) (cs ds : List Char),
      BranchTakes text flags bodies cs ds → ds <:+ cs
  | [], _, _, h => h.elim
  | body :: _, cs, ds, .inl h => BodyTakes.isSuffix text flags body cs ds h
  | _ :: bodies, cs, ds, .inr h => BranchTakes.isSuffix text flags bodies cs ds h
  termination_by structural bodies => bodies

end

theorem isRegularBody_of_repeat {greed : Greed} {least : Nat} {most : Option Nat}
    {body : List Term} (h : (Term.repeat greed least most body).isRegular = true) :
    isRegularBody body = true := by
  cases greed with
  | greedy | reluctant => exact h
  | possessive => exact Bool.noConfusion h

mutual

/-- A regular term leads on exactly where the rest does after a stretch that the term takes. -/
theorem Term.run_fits (text : Array Char) (groups : Nat → Nat × Nat) :
    ∀ (t : Term) (flags : List Flag), t.isRegular = true →
      RunFits text (t.run text groups flags) (t.Takes text flags)
  | .code _, _, _ | .any, _, _ | .set .., _, _ => oneChar_fits _
  | .anchor a, flags, _ => by
    intro bound rest P hrest spot cs hspot hbound
    simp only [Term.run, Term.Takes, hspot.position_eq.1]
    by_cases hholds : a.holds text flags (text.size - cs.length) = true
    · rw [if_pos hholds, hrest spot cs hspot hbound]
      simp [hholds]
    · rw [if_neg hholds]
      simp [hholds]
  | .group none add remove body, flags, h => runBody_fits text groups body _ h
  | .group (some index) add remove body, flags, h => by
    intro bound rest P hrest spot cs hspot hbound
    exact runBody_fits text groups body _ h bound
      (fun spot => rest { spot with left := (index, spot.position) :: spot.left }) P
      (fun spot cs hspot hbound => hrest _ cs hspot hbound) _ cs hspot hbound
  | .repeat greed least most body, flags, h => by
    have hbody := runBody_fits text groups body flags (isRegularBody_of_repeat h)
    have hfits := fun eager =>
      repeat_fits eager least most (BodyTakes.isSuffix text flags body) hbody
    cases greed with
    | greedy => exact hfits true
    | reluctant => exact hfits false
    | possessive => exact Bool.noConfusion h
  | .branch bodies, flags, h => runBranch_fits text groups bodies flags h
  | .atomic _, _, h | .look .., _, h | .reference _, _, h | .conditional .., _, h =>
    Bool.noConfusion h
  termination_by structural t => t

theorem runBody_fits (text : Array Char) (groups : Nat → Nat × Nat) :
    ∀ (body : List Term) (flags : List Flag), isRegularBody body = true →
      RunFits text (runBody text groups flags body) (BodyTakes text flags body)
  | [], _, _ => by
    intro bound rest P hrest spot cs hspot hbound
    simpa [runBody, BodyTakes] using hrest spot cs hspot hbound
  | t :: ts, flags, h => by
    rw [isRegularBody, Bool.and_eq_true] at h
    intro bound rest P hrest spot cs hspot hbound
    have hts := runBody_fits text groups ts flags h.2 bound rest P hrest
    have ht := Term.run_fits text groups t flags h.1 bound _ _ hts spot cs hspot hbound
    simp only [runBody, BodyTakes]
    rw [ht]
    constructor
    · rintro ⟨es, hterm, ds, hbody, hdone⟩
      exact ⟨ds, ⟨es, hterm, hbody⟩, hdone⟩
    · rintro ⟨ds, ⟨es, hterm, hbody⟩, hdone⟩
      exact ⟨es, hterm, ds, hbody, hdone⟩
  termination_by structural body => body

theorem runBranch_fits (text : Array Char) (groups : Nat → Nat × Nat) :
    ∀ (bodies : List (List Term)) (flags : List Flag), isRegularBranch bodies = true →
      RunFits text (runBranch text groups flags bodies) (BranchTakes text flags bodies)
  | [], _, _ => by
    intro bound rest P hrest spot cs hspot hbound
    simp [runBranch, BranchTakes]
  | body :: bodies, flags, h => by
    rw [isRegularBranch, Bool.and_eq_true] at h
    intro bound rest P hrest spot cs hspot hbound
    have hbody : (runBody text groups flags body spot rest).isSome = true ↔
        ∃ ds, BodyTakes text flags body cs ds ∧ P ds :=
      runBody_fits text groups body flags h.1 bound rest P hrest spot cs hspot hbound
    have hbodies : (runBranch text groups flags bodies spot rest).isSome = true ↔
        ∃ ds, BranchTakes text flags bodies cs ds ∧ P ds :=
      runBranch_fits text groups bodies flags h.2 bound rest P hrest spot cs hspot hbound
    simp only [runBranch, BranchTakes, or_and_right, exists_or]
    rw [← hbody, ← hbodies]
    cases runBody text groups flags body spot rest <;> simp
  termination_by structural bodies => bodies

end

/-- A pattern of regular terms is found in a text exactly if somewhere in it they take some
stretch. -/
theorem Compiled.search_iff (p : Compiled) (hregular : isRegularBody p.body = true)
    (text : List Char) :
    p.search text.toArray = true ↔ ∃ before cs ds, text = before ++ cs ∧
      BodyTakes text.toArray p.flags p.body cs ds := by
  have hat : ∀ before cs, text = before ++ cs → (p.matchesAt text.toArray before.length = true ↔
      ∃ ds, BodyTakes text.toArray p.flags p.body cs ds) := by
    intro before cs htext
    have hends : Fits text.toArray cs.length some fun _ => True :=
      fun _ _ _ _ => by simp
    have hruns : (runBody text.toArray p.widthOf p.flags p.body ⟨before.length, [], []⟩
        some).isSome = true ↔ _ :=
      runBody_fits text.toArray p.widthOf p.body p.flags hregular _ _ _ hends
        ⟨before.length, [], []⟩ cs ⟨before, htext, rfl⟩ le_rfl
    rw [Compiled.matchesAt, hruns]
    simp only [and_true]
  unfold Compiled.search
  rw [List.any_eq_true]
  constructor
  · rintro ⟨n, hn, hmatches⟩
    have hle : n ≤ text.length := by
      simpa [Nat.lt_succ_iff] using hn
    rw [← List.length_take_of_le hle] at hmatches
    have ⟨ds, htakes⟩ := (hat (text.take n) (text.drop n) (List.take_append_drop n text).symm).1
      hmatches
    exact ⟨text.take n, text.drop n, ds, (List.take_append_drop n text).symm, htakes⟩
  · rintro ⟨before, cs, ds, htext, htakes⟩
    refine ⟨before.length, ?_, (hat before cs htext).2 ⟨ds, htakes⟩⟩
    simp only [htext, List.mem_range, List.size_toArray, List.length_append]
    omega

theorem bodyTakes_append {ts us : List Term} : BodyTakes text flags (ts ++ us) cs ds ↔
    ∃ es, BodyTakes text flags ts cs es ∧ BodyTakes text flags us es ds := by
  induction ts generalizing cs with
  | nil => simp [BodyTakes]
  | cons t ts ih =>
    simp only [List.cons_append, BodyTakes, ih]
    constructor
    · rintro ⟨fs, ht, es, hts, hus⟩
      exact ⟨es, ⟨fs, ht, hts⟩, hus⟩
    · rintro ⟨es, ⟨fs, ht, hts⟩, hus⟩
      exact ⟨fs, ht, es, hts, hus⟩

/-- Rounds of one character each. -/
theorem iterated_oneChar_iff {test : Char → Bool} {n : Nat} :
    Iterated (fun cs ds => ∃ c, cs = c :: ds ∧ test c = true) n cs ds ↔
      ∃ w, w.length = n ∧ (∀ c ∈ w, test c = true) ∧ cs = w ++ ds := by
  induction n generalizing cs with
  | zero => simp [Iterated]
  | succ n ih =>
    simp only [Iterated, ih]
    constructor
    · rintro ⟨_, ⟨c, rfl, hc⟩, w, hlength, hw, rfl⟩
      exact ⟨c :: w, by simp [hlength], List.forall_mem_cons.2 ⟨hc, hw⟩, rfl⟩
    · rintro ⟨_ | ⟨c, w⟩, hlength, hw, rfl⟩
      · cases hlength
      · obtain ⟨hc, hw⟩ := List.forall_mem_cons.1 hw
        exact ⟨w ++ ds, ⟨c, rfl, hc⟩, w, Nat.succ.inj hlength, hw, rfl⟩

theorem bodyTakes_singleton (t : Term) : BodyTakes text flags [t] = t.Takes text flags := by
  funext cs ds
  simp [BodyTakes]

theorem takes_group (index : Option Nat) (add remove : List Flag) (body : List Term) :
    (Term.group index add remove body).Takes text flags =
      BodyTakes text (Flag.combine flags add remove) body :=
  rfl

theorem takes_branch (bodies : List (List Term)) :
    (Term.branch bodies).Takes text flags = BranchTakes text flags bodies :=
  rfl

theorem takes_code_iff {n : Nat} {c : Char} (h : c.toNat = n) :
    (Term.code n).Takes text [] cs ds ↔ cs = c :: ds := by
  have hmates : ∀ d, (mates [] d).contains n = true ↔ d = c := by
    intro d
    simp only [mates, List.contains_nil, Bool.not_false, if_true, List.contains_cons, Bool.or_false,
      beq_iff_eq, ← h, Char.toNat_inj]
    exact eq_comm
  simp only [Term.Takes, hmates, exists_eq_right]

/-- A repetition of a term that takes one character takes characters of its kind, as many as it
allows. -/
theorem takes_repeat_iff {greed : Greed} {least : Nat} {most : Option Nat} {t : Term}
    {test : Char → Bool}
    (ht : ∀ cs ds, t.Takes text flags cs ds ↔ ∃ c, cs = c :: ds ∧ test c = true)
    (hmost : ∀ m ∈ most, least ≤ m) : (Term.repeat greed least most [t]).Takes text flags cs ds ↔
      ∃ w, least ≤ w.length ∧ (∀ m ∈ most, w.length ≤ m) ∧ (∀ c ∈ w, test c = true) ∧
        cs = w ++ ds := by
  have hrounds : t.Takes text flags = fun cs ds => ∃ c, cs = c :: ds ∧ test c = true := by
    funext cs ds
    exact propext (ht cs ds)
  simp only [Term.Takes, bodyTakes_singleton, hrounds, iterated_oneChar_iff]
  constructor
  · rintro ⟨n, hn, w, hlength, hw, hcs⟩
    refine ⟨w, by omega, fun m hm => ?_, hw, hcs⟩
    rcases hn with rfl | hn
    · exact hlength ▸ hmost m hm
    · exact hlength ▸ hn m hm
  · rintro ⟨w, hleast, hbound, hw, hcs⟩
    have hlength : least + (w.length - least) = w.length := Nat.add_sub_cancel' hleast
    exact ⟨w.length - least, Or.inr (by rwa [hlength]), w, hlength.symm, hw, hcs⟩

theorem isRegularBody_append {ts us : List Term} :
    isRegularBody (ts ++ us) = (isRegularBody ts && isRegularBody us) := by
  induction ts with
  | nil => simp [isRegularBody]
  | cons t ts ih => simp [isRegularBody, ih, Bool.and_assoc]

theorem lineStart_holds_iff {whole : List Char} (h : cs <:+ whole) :
    Anchor.lineStart.holds whole.toArray [] (whole.toArray.size - cs.length) = true ↔
      cs = whole := by
  have hle := h.length_le
  simp only [Anchor.holds, List.size_toArray, List.contains_nil, Bool.false_and, Bool.or_false,
    decide_eq_true_eq]
  constructor
  · exact fun hzero => h.eq_of_length (by omega)
  · rintro rfl
    exact Nat.sub_self _

/-- Where the end is asked for, a line feed may still follow. -/
theorem lineEnd_holds_iff {whole : List Char} (h : cs <:+ whole) :
    Anchor.lineEnd.holds whole.toArray [] (whole.toArray.size - cs.length) = true ↔
      cs = [] ∨ cs = ['\n'] := by
  obtain ⟨before, rfl⟩ := h
  rcases cs with _ | ⟨c, cs⟩
  · simp [Anchor.holds]
  · have hposition : (before ++ c :: cs).length - (c :: cs).length = before.length := by simp
    simp only [Anchor.holds, List.size_toArray, hposition]
    rcases cs with _ | ⟨d, cs⟩ <;> simp

/-- A pattern between anchors for the start and the end, with no flags, is found in a text exactly
if its terms take all of it, but perhaps for a line feed at its end. -/
theorem Compiled.search_anchored_iff (p : Compiled) {terms : List Term}
    (hregular : isRegularBody terms = true) (hflags : p.flags = [])
    (hbody : p.body = .anchor .lineStart :: (terms ++ [.anchor .lineEnd])) (whole : List Char) :
    p.search whole.toArray = true ↔
      BodyTakes whole.toArray [] terms whole [] ∨
        BodyTakes whole.toArray [] terms whole ['\n'] := by
  have hall : isRegularBody p.body = true := by
    rw [hbody, isRegularBody, isRegularBody_append, hregular]
    rfl
  rw [p.search_iff hall, hflags, hbody]
  simp only [BodyTakes, bodyTakes_append, Term.Takes]
  constructor
  · rintro ⟨before, cs, ds, hwhole, _, ⟨rfl, hstart⟩, es, hterms, _, ⟨rfl, hend⟩, -⟩
    have hsuffix : cs <:+ whole := ⟨before, hwhole.symm⟩
    rw [lineStart_holds_iff hsuffix] at hstart
    subst hstart
    rw [lineEnd_holds_iff (BodyTakes.isSuffix _ _ terms _ _ hterms)] at hend
    rcases hend with rfl | rfl
    · exact Or.inl hterms
    · exact Or.inr hterms
  · intro h
    have hstart := (lineStart_holds_iff (List.suffix_refl whole)).2 rfl
    rcases h with hterms | hterms
    all_goals
      have hend := (lineEnd_holds_iff (BodyTakes.isSuffix _ _ terms _ _ hterms)).2 (by simp)
      exact ⟨[], whole, _, rfl, whole, ⟨rfl, hstart⟩, _, hterms, _, ⟨rfl, hend⟩, rfl⟩

/-! ## Equal terms -/

mutual

/-- Whether two terms are the same, both of them regular. -/
def Term.same : Term → Term → Bool
  | .code m, .code n => m == n
  | .set negated items, .set negated' items' => negated == negated' && items == items'
  | .anchor a, .anchor b => a == b
  | .group index add remove body, .group index' add' remove' body' =>
    index == index' && add == add' && remove == remove' && sameBody body body'
  | .repeat greed least most body, .repeat greed' least' most' body' =>
    greed == greed' && least == least' && most == most' && sameBody body body'
  | .branch bodies, .branch bodies' => sameBranch bodies bodies'
  | _, _ => false
  termination_by structural t => t

def sameBody : List Term → List Term → Bool
  | [], [] => true
  | t :: ts, u :: us => t.same u && sameBody ts us
  | _, _ => false
  termination_by structural ts => ts

def sameBranch : List (List Term) → List (List Term) → Bool
  | [], [] => true
  | body :: bodies, body' :: bodies' => sameBody body body' && sameBranch bodies bodies'
  | _, _ => false
  termination_by structural bodies => bodies

end

mutual

theorem Term.eq_of_same : ∀ {s t : Term}, s.same t = true → s = t
  | .code _, t, h => by
    cases t <;> first | cases h | simpa [Term.same] using h
  | .set .., t, h => by
    cases t <;> first | cases h | simpa [Term.same] using h
  | .anchor _, t, h => by
    cases t <;> first | cases h | simpa [Term.same] using h
  | .group _ _ _ body, t, h => by
    cases t <;> try cases h
    simp only [Term.same, Bool.and_eq_true, beq_iff_eq] at h
    obtain ⟨⟨⟨rfl, rfl⟩, rfl⟩, hbody⟩ := h
    rw [eq_of_sameBody hbody]
  | .repeat _ _ _ body, t, h => by
    cases t <;> try cases h
    simp only [Term.same, Bool.and_eq_true, beq_iff_eq] at h
    obtain ⟨⟨⟨rfl, rfl⟩, rfl⟩, hbody⟩ := h
    rw [eq_of_sameBody hbody]
  | .branch bodies, t, h => by
    cases t <;> try cases h
    rw [eq_of_sameBranch h]
  | .any, t, h | .atomic _, t, h | .look .., t, h | .reference _, t, h | .conditional .., t, h => by
    cases t <;> cases h
  termination_by structural s => s

theorem eq_of_sameBody : ∀ {ts us : List Term}, sameBody ts us = true → ts = us
  | [], us, h => by
    cases us with
    | nil => rfl
    | cons u us => cases h
  | t :: ts, us, h => by
    cases us with
    | nil => cases h
    | cons u us =>
      rw [sameBody, Bool.and_eq_true] at h
      rw [Term.eq_of_same h.1, eq_of_sameBody h.2]
  termination_by structural ts => ts

theorem eq_of_sameBranch : ∀ {bodies bodies' : List (List Term)},
    sameBranch bodies bodies' = true → bodies = bodies'
  | [], bodies', h => by
    cases bodies' with
    | nil => rfl
    | cons body bodies => cases h
  | body :: bodies, bodies', h => by
    cases bodies' with
    | nil => cases h
    | cons body' bodies' =>
      rw [sameBranch, Bool.and_eq_true] at h
      rw [eq_of_sameBody h.1, eq_of_sameBranch h.2]
  termination_by structural bodies => bodies

end

/-- A reading compared with a pattern that it may be. -/
def readsAs (reading : Except Fault Compiled) (p : Compiled) : Bool :=
  match reading with
  | .ok q => q.flags == p.flags && q.groups == p.groups && sameBody q.body p.body
  | .error _ => false

theorem eq_of_readsAs {reading : Except Fault Compiled} {p : Compiled}
    (h : readsAs reading p = true) : reading = .ok p := by
  cases reading with
  | error fault => cases h
  | ok q =>
    simp only [readsAs, Bool.and_eq_true, beq_iff_eq] at h
    obtain ⟨⟨hflags, hgroups⟩, hbody⟩ := h
    rcases q with ⟨flags, groups, body⟩
    rcases p with ⟨flags', groups', body'⟩
    have hbodies : body = body' := eq_of_sameBody hbody
    subst hflags hgroups hbodies
    rfl

end FieldSchema.Pattern
