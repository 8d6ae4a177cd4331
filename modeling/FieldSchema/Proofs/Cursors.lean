import FieldSchema.Markup.Cursor
import Mathlib.Tactic.Common

/-!
# Cursors

What a cursor has in front after some steps, and how its index and its line change on the way. The
line stays the same exactly if no break is passed (`Cursor.skip_line_iff`).
-/

namespace FieldSchema.Markup.Cursor

variable {c : Cursor} {d : Char} {w rest : List Char}

theorem next_rest (c : Cursor) : c.next.rest = c.rest.tail := by
  unfold next
  split
  · simp_all
  · split <;> simp_all

theorem skip_rest (c : Cursor) (n : Nat) : (c.skip n).rest = c.rest.drop n := by
  induction n generalizing c with
  | zero => simp [skip]
  | succ n ih => rw [skip, ih, next_rest, List.drop_tail]

theorem skip_skip (c : Cursor) (m n : Nat) : (c.skip m).skip n = c.skip (m + n) := by
  induction m generalizing c with
  | zero => simp [skip]
  | succ m ih => rw [skip, ih, Nat.succ_add, skip]

theorem skip_append_rest (h : c.rest = w ++ rest) : (c.skip w.length).rest = rest := by
  rw [skip_rest, h, List.drop_left]

theorem skip_append (c : Cursor) (w rest : List Char) :
    c.skip (w ++ rest).length = (c.skip w.length).skip rest.length := by
  rw [List.length_append, skip_skip]

theorem char_cons (h : c.rest = d :: rest) : c.char = d := by
  simp [char, h]

theorem next_cons (h : c.rest = d :: rest) : c.next.rest = rest := by
  rw [next_rest, h, List.tail_cons]

theorem ahead_cons (h : c.rest = d :: rest) (n : Nat) :
    c.ahead (n + 1) = rest[n]?.getD endMark := by
  simp [ahead, h]

theorem skip_index {c : Cursor} {n : Nat} (h : n ≤ c.rest.length) :
    (c.skip n).index = c.index + n := by
  induction n generalizing c with
  | zero => rfl
  | succ n ih =>
    obtain ⟨d, rest, hrest⟩ : ∃ d rest, c.rest = d :: rest := by
      refine List.exists_cons_of_ne_nil fun hnil => ?_
      simp [hnil] at h
    have hindex : c.next.index = c.index + 1 := by
      unfold next
      rw [hrest]
      simp only
      split <;> rfl
    rw [skip, ih (by rw [next_cons hrest]; simpa [hrest] using h), hindex]
    omega

theorem next_line (h : c.rest = d :: rest) : c.next.line =
    if isBreak d && !(d = '\r' && rest.head? = some '\n') then c.line + 1 else c.line := by
  unfold next
  rw [h]
  simp only
  split <;> rfl

theorem line_le_skip (c : Cursor) (n : Nat) : c.line ≤ (c.skip n).line := by
  induction n generalizing c with
  | zero => exact Nat.le_refl _
  | succ n ih =>
    have hnext : c.line ≤ c.next.line := by
      rcases hrest : c.rest with _ | ⟨d, rest⟩
      · simp [next, hrest]
      · rw [next_line hrest]
        split <;> omega
    exact Nat.le_trans hnext (ih c.next)

/-- What is passed without a change of line has no break in it. -/
theorem skip_line_iff (hd : d ≠ '\n') (h : c.rest = w ++ d :: rest) :
    (c.skip w.length).line = c.line ↔ ∀ e ∈ w, isBreak e = false := by
  induction w generalizing c with
  | nil => simp [skip]
  | cons e w ih =>
    rw [List.cons_append] at h
    have hnext := next_cons h
    have hline := next_line h
    have hle := line_le_skip c.next w.length
    have hrest := ih hnext
    rw [List.length_cons, skip]
    by_cases he : isBreak e = true
    · -- a break behind which the line changes, or a carriage return before a line feed
      by_cases hpair : e = '\r' ∧ (w ++ d :: rest).head? = some '\n'
      · have hfeed : '\n' ∈ w := by
          rcases w with _ | ⟨a, w⟩
          · exact absurd (by simpa using hpair.2) hd
          · obtain rfl : a = '\n' := by simpa using hpair.2
            simp
        have hsame : c.next.line = c.line := by
          rw [hline]
          simp [hpair]
        rw [← hsame, hrest]
        constructor
        · intro hall
          cases hall _ hfeed
        · intro hall
          exact absurd (hall e (by simp)) (by simp [he])
      · have hmore : c.next.line = c.line + 1 := by
          have hchange : (isBreak e && !(decide (e = '\r') &&
              decide ((w ++ d :: rest).head? = some '\n'))) = true := by
            simpa [he, Classical.or_iff_not_imp_left] using hpair
          rw [hline, if_pos hchange]
        constructor
        · intro hsame
          omega
        · intro hall
          exact absurd (hall e (by simp)) (by simp [he])
    · have hsame : c.next.line = c.line := by
        rw [hline]
        simp [he]
      rw [← hsame, hrest]
      simp [he]

variable {test : Char → Bool}

theorem skipWhile_of_not (h : c.rest = d :: rest) (hd : test d = false) : c.skipWhile test = c := by
  simp [skipWhile, run, h, hd, skip]

theorem skipWhile_of (h : c.rest = d :: rest) (hd : test d = true) :
    c.skipWhile test = c.next.skipWhile test := by
  simp [skipWhile, run, h, next_cons h, hd, skip]

end FieldSchema.Markup.Cursor
