import FieldSchema.Text.Quoted
import FieldSchema.Value.Shown
import Mathlib.Algebra.Group.Nat.Defs
import Mathlib.Tactic.Common

/-!
# Quoted texts can be told apart

A quoted character is read back, whatever follows it (`Text.readCode_escapeChar`): a backslash is
followed by a letter that says how many hexadecimal digits stand for the character, or by the
character itself. So different texts are quoted differently (`Text.quoted_injective`), and so are
sequences of code points in which halves of surrogate pairs stand alone
(`Text.quotedCodes_injective`).
-/

namespace FieldSchema

namespace Text

/-- What alone in a list passes a test is found by it. -/
theorem find?_of_unique {α : Type} {l : List α} {test : α → Bool} {a : α} (ha : a ∈ l)
    (htest : test a = true) (h : ∀ b ∈ l, test b = true → b = a) : l.find? test = some a := by
  cases hfind : l.find? test with
  | none => exact absurd htest (List.find?_eq_none.1 hfind a ha)
  | some b => rw [h b (List.mem_of_find?_eq_some hfind) (List.find?_some hfind)]

/-! ## Hexadecimal numbers -/

/-- The value of a hexadecimal digit. -/
def hexValue (c : Char) : Nat := if c.isDigit then c.toNat - '0'.toNat else c.toNat - 'a'.toNat + 10

def readHex (cs : List Char) : Nat := cs.foldl (fun n c => 16 * n + hexValue c) 0

theorem hexValue_digitChar : ∀ d < 16, hexValue (Nat.digitChar d) = d := by decide

theorem readHex_toDigits (n : Nat) : readHex (Nat.toDigits 16 n) = n := by
  induction n using Nat.strongRecOn with
  | ind n ih =>
    rw [Nat.toDigits_eq_if (by decide)]
    split_ifs with hn
    · simp [readHex, hexValue_digitChar n hn]
    · have hdiv : readHex (Nat.toDigits 16 (n / 16)) = n / 16 := ih _ (by omega)
      rw [readHex] at hdiv ⊢
      rw [List.foldl_append, hdiv, List.foldl_cons, List.foldl_nil,
        hexValue_digitChar _ (Nat.mod_lt _ (by decide))]
      omega

theorem readHex_hexText (width n : Nat) : readHex (hexText width n) = n := by
  have hzeros : ∀ k, readHex (List.replicate k '0') = 0 := by
    intro k
    induction k with
    | zero => rfl
    | succ k ih => simpa [readHex, List.replicate_succ, hexValue] using ih
  have hdigits := readHex_toDigits n
  unfold readHex at hzeros hdigits ⊢
  rw [hexText, List.foldl_append, hzeros, hdigits]

theorem length_hexText {width n : Nat} (hw : 0 < width) (hn : n < 16 ^ width) :
    (hexText width n).length = width := by
  have h := (Nat.length_toDigits_le_iff (b := 16) (by decide) hw).2 hn
  simp only [hexText, List.length_append, List.length_replicate]
  omega

/-! ## Escaped characters -/

/-- The code point that a number of hexadecimal digits stand for, and what follows them. -/
def readDigits (width : Nat) (cs : List Char) : Nat × List Char :=
  (readHex (cs.take width), cs.drop width)

/-- The first code point of a quoted text, and what follows it. -/
def readCode : List Char → Option (Nat × List Char)
  | [] => none
  | '\\' :: 'n' :: cs => some ('\n'.toNat, cs)
  | '\\' :: 'r' :: cs => some ('\r'.toNat, cs)
  | '\\' :: 't' :: cs => some ('\t'.toNat, cs)
  | '\\' :: 'x' :: cs => some (readDigits 2 cs)
  | '\\' :: 'u' :: cs => some (readDigits 4 cs)
  | '\\' :: 'U' :: cs => some (readDigits 8 cs)
  | '\\' :: c :: cs => some (c.toNat, cs)
  | c :: cs => some (c.toNat, cs)

theorem readDigits_hexText {width n : Nat} (hw : 0 < width) (hn : n < 16 ^ width)
    (cs : List Char) : readDigits width (hexText width n ++ cs) = (n, cs) := by
  have hlength := length_hexText hw hn
  rw [readDigits, List.take_left' hlength, List.drop_left' hlength, readHex_hexText]

theorem readCode_of_ne {c : Char} (hc : c ≠ '\\') (cs : List Char) :
    readCode (c :: cs) = some (c.toNat, cs) := by
  unfold readCode
  split <;> simp_all

theorem isQuote_quoteFor (cs : List Char) : quoteFor cs = '\'' ∨ quoteFor cs = '"' := by
  unfold quoteFor
  split
  · exact .inr rfl
  · exact .inl rfl

section

variable {quote : Char} (hquote : quote = '\'' ∨ quote = '"')

include hquote

/-- An escaped character is read back, and nothing of what follows it. -/
theorem readCode_escapeChar (c : Char) (cs : List Char) :
    readCode (escapeChar quote c ++ cs) = some (c.toNat, cs) := by
  have hcode : c.toNat < 16 ^ 8 := c.val.toNat_lt
  unfold escapeChar
  simp only [Bool.or_eq_true, decide_eq_true_eq]
  split_ifs with hself hn hr ht hprintable hbyte hword
  · rcases hself with rfl | rfl
    · rfl
    · rcases hquote with rfl | rfl <;> rfl
  · rw [hn]
    rfl
  · rw [hr]
    rfl
  · rw [ht]
    rfl
  · exact readCode_of_ne (fun h => hself (.inl h)) cs
  · exact congrArg some (readDigits_hexText (by decide) hbyte cs)
  · exact congrArg some (readDigits_hexText (by decide) hword cs)
  · exact congrArg some (readDigits_hexText (by decide) hcode cs)

end

/-! ## Code points -/

/-- A code point in a quoted text. A half of a surrogate pair is no character and is never shown as
it is. -/
def escapeCode (quote : Char) (n : Nat) : List Char :=
  if n.isValidChar then escapeChar quote (Char.ofNat n) else '\\' :: 'u' :: hexText 4 n

/-- Quotes code points, among which halves of surrogate pairs may stand. -/
def quotedCodes (ns : List Nat) : List Char :=
  let quote := quoteFor ((ns.filter (·.isValidChar)).map Char.ofNat)
  quote :: (ns.flatMap (escapeCode quote) ++ [quote])

/-- That all are code points, halves of surrogate pairs among them. -/
def AreCodePoints (ns : List Nat) : Prop := ∀ n ∈ ns, n < 0x110000

theorem isValidChar_toNat (c : Char) : c.toNat.isValidChar := c.valid

theorem toNat_ofNat {n : Nat} (h : n.isValidChar) : (Char.ofNat n).toNat = n := by
  rw [Char.ofNat, dif_pos h]
  rfl

theorem escapeCode_toNat (quote c : Char) : escapeCode quote c.toNat = escapeChar quote c := by
  rw [escapeCode, if_pos (isValidChar_toNat c), Char.ofNat_toNat]

/-- The code points of characters are quoted as these. -/
theorem quotedCodes_toNat (cs : List Char) : quotedCodes (cs.map Char.toNat) = quoted cs := by
  have hchars : ((cs.map Char.toNat).filter (·.isValidChar)).map Char.ofNat = cs := by
    rw [List.filter_eq_self.2 fun n hn => ?_]
    · simp [Function.comp_def]
    · obtain ⟨c, -, rfl⟩ := List.mem_map.1 hn
      exact decide_eq_true (isValidChar_toNat c)
  rw [quotedCodes, hchars, List.flatMap_map]
  simp only [escapeCode_toNat]
  rfl

theorem readCode_escapeCode {quote : Char} (hquote : quote = '\'' ∨ quote = '"') {n : Nat}
    (hn : n < 0x110000) (cs : List Char) :
    readCode (escapeCode quote n ++ cs) = some (n, cs) := by
  unfold escapeCode
  split
  · rename_i hvalid
    rw [readCode_escapeChar hquote, toNat_ofNat hvalid]
  · rename_i hhalf
    have hword : n < 16 ^ 4 := by
      simp only [Nat.isValidChar, not_or, not_and, Nat.not_lt] at hhalf
      omega
    exact congrArg some (readDigits_hexText (by decide) hword cs)

theorem escapedCodes_injective {quote : Char} (hquote : quote = '\'' ∨ quote = '"') :
    ∀ {ns ms : List Nat}, AreCodePoints ns → AreCodePoints ms →
      ns.flatMap (escapeCode quote) = ms.flatMap (escapeCode quote) → ns = ms
  | [], [], _, _, _ => rfl
  | [], m :: ms, _, hms, h => by
    have hread := readCode_escapeCode hquote (hms m (.head _)) (ms.flatMap (escapeCode quote))
    rw [← List.flatMap_cons, ← h] at hread
    cases hread
  | n :: ns, [], hns, _, h => by
    have hread := readCode_escapeCode hquote (hns n (.head _)) (ns.flatMap (escapeCode quote))
    rw [← List.flatMap_cons, h] at hread
    cases hread
  | n :: ns, m :: ms, hns, hms, h => by
    obtain ⟨hn, hns⟩ := List.forall_mem_cons.1 hns
    obtain ⟨hm, hms⟩ := List.forall_mem_cons.1 hms
    have hread := readCode_escapeCode hquote hn (ns.flatMap (escapeCode quote))
    rw [← List.flatMap_cons, h, List.flatMap_cons, readCode_escapeCode hquote hm] at hread
    obtain ⟨hfirst, hrest⟩ := Prod.mk.inj (Option.some.inj hread)
    rw [hfirst, escapedCodes_injective hquote hns hms hrest.symm]

theorem quotedCodes_injective {ns ms : List Nat} (hns : AreCodePoints ns) (hms : AreCodePoints ms)
    (h : quotedCodes ns = quotedCodes ms) : ns = ms := by
  obtain ⟨hquote, hrest⟩ := List.cons.inj h
  rw [← hquote] at hrest
  exact escapedCodes_injective (isQuote_quoteFor _) hns hms (List.append_cancel_right hrest)

/-- Among quoted texts with the same words behind them each is found again. -/
theorem find?_quotedCodes {texts : List (List Nat)} (htexts : ∀ ns ∈ texts, AreCodePoints ns)
    {ns : List Nat} (hns : ns ∈ texts) (words : List Char) :
    texts.find? (fun ms => quotedCodes ns ++ words = quotedCodes ms ++ words) = some ns :=
  find?_of_unique hns (decide_eq_true rfl) fun ms hms h =>
    quotedCodes_injective (htexts ms hms) (htexts ns hns)
      (List.append_cancel_right (of_decide_eq_true h)).symm

theorem areCodePoints_toNat (cs : List Char) : AreCodePoints (cs.map Char.toNat) := by
  intro n hn
  obtain ⟨c, -, rfl⟩ := List.mem_map.1 hn
  have hvalid := isValidChar_toNat c
  simp only [Nat.isValidChar] at hvalid
  omega

theorem quoted_injective {cs ds : List Char} (h : quoted cs = quoted ds) : cs = ds := by
  rw [← quotedCodes_toNat, ← quotedCodes_toNat] at h
  have hcodes := quotedCodes_injective (areCodePoints_toNat cs) (areCodePoints_toNat ds) h
  have hback : ∀ es : List Char, (es.map Char.toNat).map Char.ofNat = es := fun es => by
    simp [Function.comp_def]
  rw [← hback cs, hcodes, hback]

end Text

namespace Value

/-- Texts that are shown alike are the same. -/
theorem eq_of_shown_text {s t : String} (h : (Value.text s).shown = (Value.text t).shown) :
    s = t :=
  String.toList_inj.1 (Text.quoted_injective (String.ofList_inj.1 h))

/-- Among texts each is found again by the form in which it is shown. -/
theorem find?_shown {l : List Value} (hl : ∀ v ∈ l, ∃ s, v = .text s) {v : Value} (hv : v ∈ l) :
    l.find? (fun w => v.shown = w.shown) = some v := by
  refine Text.find?_of_unique hv (decide_eq_true rfl) fun w hw h => ?_
  obtain ⟨s, rfl⟩ := hl v hv
  obtain ⟨t, rfl⟩ := hl w hw
  rw [eq_of_shown_text (of_decide_eq_true h)]

end Value

end FieldSchema
