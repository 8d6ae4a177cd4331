import FieldSchema.Number.Reading
import FieldSchema.Text.Blank
import FieldSchema.Text.Case
import Mathlib.Data.List.TakeDrop
import Mathlib.Data.List.TakeWhile
import Mathlib.Tactic.Common

/-!
# Runs of characters

A run of characters ends where a character fails its test (`Text.span_run`). What is left of a text
without the blanks around it starts and ends with other characters (`Text.isTrimmed_trim`). A text
of ASCII is lowered character by character (`Text.lower_ascii`).
-/

namespace FieldSchema

namespace Text

section Runs

variable {test : Char → Bool} {cs rest : List Char}

theorem takeWhile_run (h : ∀ c ∈ cs, test c = true) (hrest : ∀ c ∈ rest.head?, test c = false) :
    (cs ++ rest).takeWhile test = cs := by
  rw [List.takeWhile_append_of_pos h]
  rcases rest with _ | ⟨c, rest⟩
  · simp
  · simp [hrest c rfl]

theorem dropWhile_run (h : ∀ c ∈ cs, test c = true) (hrest : ∀ c ∈ rest.head?, test c = false) :
    (cs ++ rest).dropWhile test = rest := by
  rw [List.dropWhile_append_of_pos h]
  rcases rest with _ | ⟨c, rest⟩
  · simp
  · simp [hrest c rfl]

theorem span_run (h : ∀ c ∈ cs, test c = true) (hrest : ∀ c ∈ rest.head?, test c = false) :
    (cs ++ rest).span test = (cs, rest) := by
  rw [List.span_eq_takeWhile_dropWhile, takeWhile_run h hrest, dropWhile_run h hrest]

end Runs

/-! ## Digits -/

section Digits

variable {c d : Char}

theorem ne_of_isDigit (hc : c.isDigit = true) (hd : d.isDigit = false) : c ≠ d := by
  rintro rfl
  simp [hc] at hd

theorem bounds_of_isDigit (h : c.isDigit = true) : 48 ≤ c.toNat ∧ c.toNat ≤ 57 := by
  simpa [Char.isDigit, UInt32.le_iff_toNat_le] using h

theorem digitValue_lt_ten (h : c.isDigit = true) : digitValue c < 10 := by
  have := bounds_of_isDigit h
  rw [digitValue, if_pos h]
  show c.toNat - 48 < 10
  omega

end Digits

/-! ## Blanks -/

/-- The visible characters of ASCII are not blank. -/
theorem isBlank_eq_false {c : Char} (h : 33 ≤ c.toNat) (h' : c.toNat ≤ 126) :
    isBlank c = false := by
  simp [isBlank, inRanges, blankRanges]
  omega

/-- That a text is another one without the blanks around it. -/
def IsTrimmed (cs trimmed : List Char) : Prop :=
  ∃ before after, cs = before ++ trimmed ++ after ∧
    (∀ c ∈ before, isBlank c = true) ∧ (∀ c ∈ after, isBlank c = true) ∧
    (∀ c ∈ trimmed.head?, isBlank c = false) ∧ ∀ c ∈ trimmed.getLast?, isBlank c = false

theorem trimStart_split (cs : List Char) : ∃ before, cs = before ++ trimStart cs ∧
    (∀ c ∈ before, isBlank c = true) ∧ ∀ c ∈ (trimStart cs).head?, isBlank c = false := by
  refine ⟨cs.takeWhile isBlank, List.takeWhile_append_dropWhile.symm,
    fun c hc => List.mem_takeWhile_imp hc, fun c hc => ?_⟩
  have hhead := List.head?_dropWhile_not isBlank cs
  rw [trimStart] at hc
  rw [Option.mem_def.1 hc] at hhead
  simpa using hhead

theorem isTrimmed_trim (cs : List Char) : IsTrimmed cs (trim cs) := by
  obtain ⟨before, hbefore, hblank, hfirst⟩ := trimStart_split cs
  obtain ⟨after, hafter, hblank', hlast⟩ := trimStart_split (trimStart cs).reverse
  have hstart : trimStart cs = trim cs ++ after.reverse := by
    rw [trim, ← List.reverse_append, ← hafter, List.reverse_reverse]
  refine ⟨before, after.reverse, ?_, hblank, by simpa using hblank', ?_, ?_⟩
  · rw [List.append_assoc, ← hstart, ← hbefore]
  · intro c hc
    refine hfirst c ?_
    rw [hstart, List.head?_append, Option.mem_def.1 hc]
    rfl
  · intro c hc
    refine hlast c ?_
    rwa [trim, List.getLast?_reverse] at hc

theorem trim_eq_self {cs : List Char} (h : ∀ c ∈ cs, isBlank c = false) : trim cs = cs := by
  have hstart {ds : List Char} (hds : ∀ c ∈ ds, isBlank c = false) : trimStart ds = ds := by
    rcases ds with _ | ⟨d, ds⟩
    · rfl
    · simp [trimStart, hds d (by simp)]
  rw [trim, hstart h, hstart (by simpa using h), List.reverse_reverse]

/-! ## Lower case -/

theorem lower_ascii {cs : List Char} (h : ∀ c ∈ cs, c.toNat < 128) :
    lower cs = cs.map Char.toLower := by
  suffices ∀ before, lowerAfter before cs = cs.map Char.toLower from this []
  induction cs with
  | nil => exact fun _ => rfl
  | cons c cs ih =>
    intro before
    obtain ⟨hc, hcs⟩ := List.forall_mem_cons.1 h
    have hsigma : c ≠ '\u03a3' := by
      rintro rfl
      exact absurd hc (by decide)
    have hdotted : c ≠ '\u0130' := by
      rintro rfl
      exact absurd hc (by decide)
    simp [lowerAfter, hsigma, hdotted, lowerChar, hc, ih hcs]

end Text

end FieldSchema
