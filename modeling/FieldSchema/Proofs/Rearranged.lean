import FieldSchema.Proofs.QuotedText
import FieldSchema.Proofs.Reported
import FieldSchema.Proofs.Turns
import Mathlib.Data.List.Perm.Basic

/-!
# Records in another order

Two records are the same as mappings if one has the entries of the other in another order. They
have the same under every key (`Entries.get?_perm`), so a schema complains of the same in their
fields (`Schema.recordComplaints_congr`) and describes both or neither (`Schema.admits_map_perm`),
and casting keeps them the same (`Schema.turns_perm`). The turns of fields can be taken in another
order too, as long as no field asks for another one whose turn is among them.
-/

namespace FieldSchema

/-! ## Entries -/

theorem AreKeys.sublist {keys keys' : List Value} (h : AreKeys keys) (hsub : keys'.Sublist keys) :
    AreKeys keys' :=
  ⟨fun k hk => h.isKey k (hsub.subset hk), h.distinct.sublist hsub⟩

theorem AreKeys.not_same_of_cons {k k' : Value} {keys : List Value} (h : AreKeys (k :: keys))
    (hk' : k' ∈ keys) : k.same k' = false :=
  (List.pairwise_cons.1 h.distinct).1 k' hk'

/-- No later key is the same as the first either. -/
theorem AreKeys.not_same_head {k k' : Value} {keys : List Value} (h : AreKeys (k :: keys))
    (hk' : k' ∈ keys) : k'.same k = false := by
  cases hs : k'.same k with
  | false => rfl
  | true =>
    have hsame := Value.same_symm (h.isKey k' (List.mem_cons_of_mem _ hk')) hs
    exact absurd hsame (by simp [h.not_same_of_cons hk'])

namespace Entries

variable {α : Type} {entries entries' : Entries α} {key k : Value} {a b : α}

theorem get?_eq_some_iff (h : AreKeys (entries.map (·.1))) :
    entries.get? key = some a ↔ ∃ e ∈ entries, key.same e.1 = true ∧ e.2 = a := by
  refine ⟨exists_mem_of_get?, ?_⟩
  rintro ⟨e, he, hs, rfl⟩
  cases hget : entries.get? key with
  | none => exact absurd hs (by simp [get?_eq_none_iff.1 hget e he])
  | some b =>
    obtain ⟨e', he', hs', rfl⟩ := exists_mem_of_get? hget
    rw [h.eq_of_same he he' hs hs']

theorem get?_perm (h : AreKeys (entries.map (·.1))) (hperm : entries.Perm entries')
    (key : Value) : entries.get? key = entries'.get? key := by
  ext a
  rw [get?_eq_some_iff h, get?_eq_some_iff (h.perm (hperm.map _))]
  simp only [hperm.mem_iff]

/-- Of two different keys one at most is that of an entry. -/
theorem not_same_of_same (hkey : key.isKey = true) (hne : key.same k = false) {k' : Value}
    (hs : key.same k' = true) : k.same k' = false := by
  cases hs' : k.same k' with
  | false => rfl
  | true =>
    have hk : k.isKey = true := (Value.isKey_congr hs' (.inr (Value.isKey_of_same hkey hs))).1
    have hkk := Value.same_trans hkey hs (Value.same_symm hk hs')
    exact absurd hkk (by simp [hne])

theorem put_perm (hkey : key.isKey = true) (a : α) (hperm : entries.Perm entries')
    (h : AreKeys (entries.map (·.1))) : (entries.put key a).Perm (entries'.put key a) := by
  induction hperm with
  | nil => exact .refl _
  | cons e _ ih =>
    rw [put_cons, put_cons]
    split
    · exact .cons _ ‹_›
    · exact .cons e (ih (h.sublist (List.sublist_cons_self ..)))
  | swap e e' es =>
    have hne : e'.1.same e.1 = false := h.not_same_of_cons List.mem_cons_self
    rw [put_cons, put_cons, put_cons, put_cons]
    by_cases hs : key.same e.1 = true <;> by_cases hs' : key.same e'.1 = true
    · have hkk := Value.same_trans (h.isKey e'.1 (by simp)) (Value.same_symm hkey hs') hs
      exact absurd hkk (by simp [hne])
    · simpa [hs, hs'] using .swap _ _ _
    · simpa [hs, hs'] using .swap _ _ _
    · simpa [hs, hs'] using .swap _ _ _
  | trans hperm _ ih ih' => exact (ih h).trans (ih' (h.perm (hperm.map _)))

theorem put_of_has_eq_false (a : α) : ∀ {es : Entries α}, es.has key = false →
    es.put key a = es ++ [(key, a)]
  | [], _ => rfl
  | e :: es, h => by
    have hne := not_same_of_has_eq_false h e.1 (by simp)
    have hes : has es key = false := by simpa [has, get?_cons, hne] using h
    rw [put_cons, hne, put_of_has_eq_false a hes]
    rfl

/-- Putting into entries with more behind them changes the first ones where the key is among theirs,
and the others where it is not. -/
theorem put_append (more : Entries α) (a : α) : ∀ es : Entries α, (es ++ more).put key a =
    if es.has key = true then es.put key a ++ more else es ++ more.put key a
  | [] => rfl
  | e :: es => by
    rw [List.cons_append, put_cons, put_cons, put_append more a es, has_eq_any, has_eq_any,
      List.map_cons, List.any_cons]
    by_cases hs : key.same e.1 = true
    · simp [hs]
    · simp only [hs, Bool.false_eq_true, if_false, Bool.false_or]
      split <;> rfl

/-- Entries under different keys are put as they are. -/
theorem putAll_eq_append : ∀ {more entries : Entries α},
    AreKeys ((entries ++ more).map (·.1)) → entries.putAll more = entries ++ more
  | [], entries, _ => (List.append_nil entries).symm
  | e :: more, entries, h => by
    have hkey : e.1.isKey = true := h.isKey _ (by simp)
    have hnone : entries.has e.1 = false := by
      rw [has, Option.isSome_eq_false_iff, Option.isNone_iff_eq_none, get?_eq_none_iff]
      intro e' he'
      have hdistinct := h.distinct
      rw [List.map_append, List.pairwise_append] at hdistinct
      cases hs : e.1.same e'.1 with
      | false => rfl
      | true =>
        have hne := hdistinct.2.2 _ (List.mem_map_of_mem he') e.1 (by simp)
        exact absurd (Value.same_symm hkey hs) (by simp [hne])
    have happend : entries ++ e :: more = (entries ++ [e]) ++ more := by simp
    rw [putAll_cons, put_of_has_eq_false e.2 hnone, happend]
    exact putAll_eq_append (happend ▸ h)

/-- Puts under different keys can be made in another order. -/
theorem put_put_perm (hkey : key.isKey = true) (hne : key.same k = false) (a b : α) :
    ∀ es : Entries α, ((es.put key a).put k b).Perm ((es.put k b).put key a)
  | [] => by
    by_cases hs : k.same key = true
    · have hk := (Value.isKey_congr hs (.inr hkey)).1
      exact absurd (Value.same_symm hk hs) (by simp [hne])
    · simpa [put, hs, hne] using .swap _ _ _
  | e :: es => by
    by_cases hs : key.same e.1 = true
    · have hs' : ¬ k.same e.1 = true := by simp [not_same_of_same hkey hne hs]
      simp [put_cons, hs, hs']
    · by_cases hs' : k.same e.1 = true
      · simp [put_cons, hs, hs']
      · simpa [put_cons, hs, hs'] using put_put_perm hkey hne a b es

end Entries

/-- That two values are the same, or records with the same entries in some order. -/
inductive Value.Rearranges : Value → Value → Prop
  | refl (v : Value) : Rearranges v v
  | record {record record' : Entries Value} (h : record.Perm record') :
      Rearranges (.map record) (.map record')

namespace Schema

variable {record record' : Entries Value} {e e' : Value × Schema}
  {fields fields' turns turns' : List (Value × Schema)} {path : List Value} {name : Value}

/-! ## Turns -/

theorem turn_eq (record : Entries Value) (e : Value × Schema) : turn record e =
    ((e.2.select record).fill (record.get? e.1)).elim record (record.put e.1 ·) := by
  unfold turn
  cases (e.2.select record).fill (record.get? e.1) <;> rfl

theorem areKeys_turn (hkey : e.1.isKey = true) (h : AreKeys (record.map (·.1))) :
    AreKeys ((turn record e).map (·.1)) := by
  rw [turn_eq]
  cases (e.2.select record).fill (record.get? e.1) with
  | none => exact h
  | some v => exact h.put hkey

/-- A turn depends on what is found in a record, not on the order of the entries. -/
theorem turn_perm (hkey : e.1.isKey = true) (hperm : record.Perm record')
    (h : AreKeys (record.map (·.1))) : (turn record e).Perm (turn record' e) := by
  have hget : record.get? = record'.get? := funext (Entries.get?_perm h hperm)
  rw [turn_eq, turn_eq, select_eq_selectBy, select_eq_selectBy, hget]
  cases (e.2.selectBy record'.get?).fill (record'.get? e.1) with
  | none => exact hperm
  | some v => exact Entries.put_perm hkey v hperm h

theorem areKeys_turns : ∀ {turns : List (Value × Schema)} {record : Entries Value},
    (∀ e ∈ turns, e.1.isKey = true) → AreKeys (record.map (·.1)) →
    AreKeys ((turns.foldl turn record).map (·.1))
  | [], _, _, h => h
  | e :: _, _, hkeys, h => by
    rw [List.foldl_cons]
    exact areKeys_turns (fun e' he' => hkeys e' (.tail _ he'))
      (areKeys_turn (hkeys e (.head _)) h)

theorem IsSound.areKeys_cast {s : Schema} (h : s.IsSound) (hrecord : AreKeys (record.map (·.1))) :
    AreKeys (((inTurn s.fields).foldl turn record).map (·.1)) :=
  areKeys_turns (fun _ he => h.areKeys.isKey _ (List.mem_map_of_mem (mem_inTurn.1 he))) hrecord

theorem foldl_turn_perm : ∀ {turns : List (Value × Schema)} {record record' : Entries Value},
    (∀ e ∈ turns, e.1.isKey = true) → record.Perm record' → AreKeys (record.map (·.1)) →
    (turns.foldl turn record).Perm (turns.foldl turn record')
  | [], _, _, _, hperm, _ => hperm
  | e :: _, _, _, hkeys, hperm, h => by
    rw [List.foldl_cons, List.foldl_cons]
    exact foldl_turn_perm (fun e' he' => hkeys e' (.tail _ he'))
      (turn_perm (hkeys e (.head _)) hperm h) (areKeys_turn (hkeys e (.head _)) h)

/-- What a field finds at its turn is not changed by that of a field it does not ask for. -/
theorem select_turn (hkey : e'.1.isKey = true)
    (hindependent : ∀ k, e.2.DependsOn k → k.same e'.1 = false) :
    e.2.select (turn record e') = e.2.select record := by
  rw [select_eq_selectBy, select_eq_selectBy]
  exact selectBy_congr e.2 fun k hk => get?_turn_of_not_same hkey (hindependent k hk)

/-- Two fields that do not ask for each other can have their turns in another order. -/
theorem turn_turn_perm (hkey : e.1.isKey = true) (hkey' : e'.1.isKey = true)
    (hne : e.1.same e'.1 = false) (hindependent : ∀ k, e.2.DependsOn k → k.same e'.1 = false)
    (hindependent' : ∀ k, e'.2.DependsOn k → k.same e.1 = false) (record : Entries Value) :
    (turn (turn record e) e').Perm (turn (turn record e') e) := by
  have hne' : e'.1.same e.1 = false := by
    cases hs : e'.1.same e.1 with
    | false => rfl
    | true => exact absurd (Value.same_symm hkey' hs) (by simp [hne])
  rw [turn_eq (turn record e), turn_eq (turn record e'), select_turn hkey hindependent',
    select_turn hkey' hindependent, get?_turn_of_not_same hkey hne',
    get?_turn_of_not_same hkey' hne, turn_eq record e, turn_eq record e']
  cases (e.2.select record).fill (record.get? e.1) <;>
    cases (e'.2.select record).fill (record.get? e'.1) <;>
    simp only [Option.elim_none, Option.elim_some, List.Perm.refl]
  exact Entries.put_put_perm hkey hne _ _ record

/-- The turns of fields that do not ask for each other can be taken in another order. -/
theorem turns_perm (hturns : turns.Perm turns') (hkeys : AreKeys (turns.map (·.1)))
    (hindependent : ∀ e ∈ turns, ∀ e' ∈ turns, ∀ k, e.2.DependsOn k → k.same e'.1 = false)
    (hperm : record.Perm record') (h : AreKeys (record.map (·.1))) :
    (turns.foldl turn record).Perm (turns'.foldl turn record') := by
  have hisKey : ∀ e ∈ turns, e.1.isKey = true := fun e he =>
    hkeys.isKey _ (List.mem_map_of_mem he)
  induction hturns generalizing record record' with
  | nil => exact hperm
  | cons e _ ih =>
    have hkey := hisKey e (.head _)
    refine ih (hkeys.sublist (List.sublist_cons_self ..)) (fun e he e' he' => ?_)
      (turn_perm hkey hperm h) (areKeys_turn hkey h) fun e he => hisKey e (.tail _ he)
    exact hindependent e (.tail _ he) e' (.tail _ he')
  | swap e e' turns =>
    have hkey := hisKey e (by simp)
    have hkey' := hisKey e' (by simp)
    have hne : e'.1.same e.1 = false := hkeys.not_same_of_cons (.head _)
    have hswap := turn_turn_perm hkey' hkey hne (hindependent e' (by simp) e (by simp))
      (hindependent e (by simp) e' (by simp)) record
    have hcongr := turn_perm hkey' (turn_perm hkey hperm h) (areKeys_turn hkey h)
    exact foldl_turn_perm (fun e he => hisKey e (.tail _ (.tail _ he))) (hswap.trans hcongr)
      (areKeys_turn hkey (areKeys_turn hkey' h))
  | trans hturns _ ih ih' =>
    have hmem := fun e => hturns.mem_iff (a := e)
    refine (ih hkeys hindependent (.refl _) h hisKey).trans
      (ih' (hkeys.perm (hturns.map _)) (fun e he e' he' => ?_) hperm h fun e he => ?_)
    · exact hindependent e ((hmem e).2 he) e' ((hmem e').2 he')
    · exact hisKey e ((hmem e).2 he)

theorem not_dependsOn {s : Schema} (h : s.isConditional = false) (k : Value) :
    ¬ s.DependsOn k := by
  have hnil : s.conditions = [] := by simpa [isConditional] using h
  intro hk
  cases hk <;> simp_all

theorem missingComplaints_congr (path : List Value) {names : List Value}
    (h : ∀ n ∈ names, record.get? n = record'.get? n) :
    missingComplaints path record names = missingComplaints path record' names := by
  have habsent : (names.filter fun n => !record.has n) = names.filter fun n => !record'.has n :=
    List.filter_congr fun n hn => by rw [Entries.has, Entries.has, h n hn]
  rw [missingComplaints, missingComplaints, habsent]

theorem ownChoiceComplaints_congr (path : List Value) (hname : record.get? name = record'.get? name)
    (s : Schema) (h : ∀ k, s.DependsOn k → record.get? k = record'.get? k) :
    s.ownChoiceComplaints path record name = s.ownChoiceComplaints path record' name := by
  induction s using Schema.induct with
  | step s _ hconditions =>
    rw [ownChoiceComplaints_eq, ownChoiceComplaints_eq]
    refine List.flatMap_congr fun c hc => ?_
    have hbranch : c.branch record = c.branch record' := by
      rw [Condition.branch, Condition.branch, Condition.isMetIn, Condition.isMetIn,
        h c.sibling (.here hc)]
    have hnested : (c.branch record').ownChoiceComplaints path record name =
        (c.branch record').ownChoiceComplaints path record' name :=
      Condition.branch_of_both (P := fun s => s.ownChoiceComplaints path record name =
          s.ownChoiceComplaints path record' name)
        ⟨(hconditions c hc).1 fun k hk => h k (.chosen hc hk),
          (hconditions c hc).2 fun k hk => h k (.other hc hk)⟩ record'
    rw [hbranch, complaintsIn, complaintsIn, branchComplaints, branchComplaints, hnested, hname,
      missingComplaints_congr path (List.forall_mem_singleton.2 hname)]

/-- What is complained of in the fields of a record depends on what is found under the keys that
are read, not on the other keys or the order of the entries. -/
theorem recordComplaints_congr (h : ∀ k, Reads fields k → record.get? k = record'.get? k)
    (choicesFirst : Bool) : recordComplaints path record choicesFirst fields =
      recordComplaints path record' choicesFirst fields := by
  have hname : ∀ e ∈ fields, record.get? e.1 = record'.get? e.1 := fun e he =>
    h e.1 ⟨e, he, .inl rfl⟩
  have hchoices : choiceComplaints path record fields = choiceComplaints path record' fields := by
    rw [choiceComplaints_eq, choiceComplaints_eq]
    exact List.flatMap_congr fun e he =>
      ownChoiceComplaints_congr path (hname e he) e.2 fun k hk => h k ⟨e, he, .inr hk⟩
  have hfields : fieldComplaints path record fields = fieldComplaints path record' fields := by
    rw [fieldComplaints_eq, fieldComplaints_eq]
    exact List.flatMap_congr fun e he => by rw [hname e he]
  have hmissing : missingComplaints path record (requiredNames fields) =
      missingComplaints path record' (requiredNames fields) :=
    missingComplaints_congr path fun n hn => by
      obtain ⟨e, he, rfl⟩ := List.mem_map.1 hn
      exact hname e (List.mem_filter.1 he).1
  rw [recordComplaints, recordComplaints, hchoices, hfields, hmissing]

/-- Of names that are texts no two are shown alike. -/
theorem missingComplaints_of_isText {names : List Value}
    (h : ∀ n ∈ names, n.isText = true) : missingComplaints path record names =
      (names.filter fun n => !record.has n).map (.missing path) := by
  refine List.map_congr_left fun n hn => ?_
  congr
  have htexts : ∀ m ∈ names.filter fun n => !record.has n, ∃ s, m = .text s := fun m hm => by
    have htext := h m (List.mem_filter.1 hm).1
    cases m <;> simp_all [Value.isText]
  rw [Value.find?_shown htexts hn, Option.getD_some]

end Schema

/-! ## Descriptions -/

section

variable {record record' : Entries Value}

theorem Value.alikeEntries_eq_all (record : Entries Value) : ∀ entries : Entries Value,
    Value.alikeEntries entries record = entries.all fun e => (record.get? e.1).any (e.2.alike ·)
  | [] => rfl
  | (k, v) :: entries => by
    rw [alikeEntries, List.all_cons, alikeEntries_eq_all record entries, Entries.get?]
    cases record.find? fun e => k.same e.1 <;> rfl

theorem Value.alike_map_perm (hperm : record.Perm record') (h : AreKeys (record.map (·.1)))
    (v : Value) : v.alike (.map record) = v.alike (.map record') := by
  cases v with
  | map entries =>
    simp only [alike, alikeEntries_eq_all, hperm.length_eq, Entries.get?_perm h hperm]
  | bool b => rfl
  | _ => simp [alike, same, number?]

theorem Demand.isMetBy_map_perm (hperm : record.Perm record') (h : AreKeys (record.map (·.1)))
    (d : Demand) : d.isMetBy (.map record) = d.isMetBy (.map record') := by
  cases d with
  | among values | notAmong values => simp only [isMetBy, Value.alike_map_perm hperm h]
  | _ => rfl

/-- Whether a schema describes a record does not depend on the order of its entries. -/
theorem Schema.admits_map_perm {s : Schema} (hs : s.Everywhere IsSound)
    (hperm : record.Perm record') (h : AreKeys (record.map (·.1))) :
    s.admits (.map record) = s.admits (.map record') := by
  have hkind : kindComplaints [] (.map record) s.kind s.isNullable = [] ↔
      kindComplaints [] (.map record') s.kind s.isNullable = [] := by
    rw [kindComplaints_eq_nil_iff, kindComplaints_eq_nil_iff]
    cases s.kind <;> rfl
  have htests : ∀ t : Test, t.complaints [] (.map record) = [] ↔
      t.complaints [] (.map record') = [] := fun t => by
    rw [testComplaints_eq_nil_iff, testComplaints_eq_nil_iff, Rule.admits, Rule.admits]
    simp only [Demand.isMetBy_map_perm hperm h]
  have hfields : ∀ choicesFirst, recordComplaints [] record choicesFirst s.fields =
      recordComplaints [] record' choicesFirst s.fields := fun choicesFirst =>
    recordComplaints_congr (fun k _ => Entries.get?_perm h hperm k) choicesFirst
  have hnil : ∀ v, s.complaints [] v = [] ↔ s.admits v = true := fun _ => complaints_eq_nil_iff hs
  rw [Bool.eq_iff_iff, ← hnil, ← hnil, complaints_map, complaints_map, hfields]
  simp only [List.append_eq_nil_iff, List.flatMap_eq_nil_iff, hkind, htests]

end

end FieldSchema
