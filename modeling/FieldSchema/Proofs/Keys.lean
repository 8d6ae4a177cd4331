import FieldSchema.Value.Basic
import Mathlib.Tactic.Common

/-!
# Keys

Among keys `Value.same` is symmetric and transitive (`Value.same_symm`, `Value.same_trans`), and
what is the same as a key is one (`Value.isKey_congr`). It is not reflexive: not-a-number is no key
that can be found again. So an association behaves as a map (`Entries.get?_put`).
-/

namespace FieldSchema

theorem Place.compare_eq_iff (p q : Place) : p.compare q = .eq ↔ p = q := by
  cases p <;> cases q <;> simp [Place.compare]

namespace Number

theorem place?_int_inj {m n : Int} : (int m).place? = (int n).place? ↔ m = n := by
  have hpos : (Binary64.unitsPerOne : Int) ≠ 0 := by
    have : 0 < Binary64.unitsPerOne := by
      unfold Binary64.unitsPerOne
      generalize 1074 = n
      exact Nat.pow_pos (by decide)
    omega
  simp only [place?, Option.some.injEq, Place.at.injEq]
  exact ⟨fun h => Int.eq_of_mul_eq_mul_right hpos h, fun h => by rw [h]⟩

theorem compare_eq_bind {a b : Number} (h : ∀ m n, a = .int m → b ≠ .int n) :
    a.compare b = a.place?.bind fun p => b.place?.map p.compare := by
  unfold compare
  split
  · exact absurd rfl (h _ _ rfl)
  · rcases a.place? with _ | p <;> rcases b.place? with _ | q <;> rfl

/-- Two numbers are equal where they stand at one place. -/
theorem same_iff (a b : Number) : a.same b = true ↔ ∃ p, a.place? = some p ∧ b.place? = some p := by
  by_cases hint : ∃ m n, a = .int m ∧ b = .int n
  · obtain ⟨m, n, rfl, rfl⟩ := hint
    have hmn : (int m).same (int n) = true ↔ m = n := by
      simp [same, compare]
    rw [hmn, ← place?_int_inj]
    constructor
    · intro h
      exact ⟨_, h.symm ▸ rfl, rfl⟩
    · rintro ⟨p, hm, hn⟩
      rw [hm, hn]
  · rw [same, compare_eq_bind fun m n ha hb => hint ⟨m, n, ha, hb⟩]
    rcases a.place? with _ | p <;> rcases b.place? with _ | q <;> simp
    rw [Place.compare_eq_iff]
    exact eq_comm

theorem same_symm {a b : Number} (h : a.same b = true) : b.same a = true := by
  obtain ⟨p, ha, hb⟩ := (same_iff a b).1 h
  exact (same_iff b a).2 ⟨p, hb, ha⟩

theorem same_trans {a b c : Number} (h : a.same b = true) (h' : b.same c = true) :
    a.same c = true := by
  obtain ⟨p, ha, hb⟩ := (same_iff a b).1 h
  obtain ⟨q, hb', hc⟩ := (same_iff b c).1 h'
  rw [hb, Option.some.injEq] at hb'
  exact (same_iff a c).2 ⟨p, ha, hb' ▸ hc⟩

end Number

namespace DateTime

theorem same_iff (a b : DateTime) :
    a.same b = true ↔ a.isZoned = b.isZoned ∧ a.instant = b.instant := by
  simp [same]

end DateTime

namespace Value

theorem eq_map_of_isMap {v : Value} (h : v.isMap = true) : ∃ entries, v = .map entries := by
  cases v <;> simp only [isMap, Bool.false_eq_true] at h
  exact ⟨_, rfl⟩

/-- A value that counts as a number is the same as those that count as an equal one. -/
theorem same_iff_of_number? {v : Value} {n : Number} (h : v.number? = some n) (w : Value) :
    v.same w = true ↔ ∃ m, w.number? = some m ∧ n.same m = true := by
  cases v with
  | bool b =>
    simp only [number?, Option.some.injEq] at h
    subst h
    rw [same]
    cases w.number? <;> simp
  | number k =>
    simp only [number?, Option.some.injEq] at h
    subst h
    rw [same]
    cases w.number? <;> simp
  | _ => simp [number?] at h

theorem isKey_of_number? {v : Value} {n : Number} (h : v.number? = some n) : v.isKey = true := by
  cases v <;> simp [number?] at h <;> rfl

mutual

/-- What is the same as a key is a key. -/
theorem isKey_of_same : ∀ {v w : Value}, v.isKey = true → v.same w = true → w.isKey = true
  | .bool _, w, _, h => by
    obtain ⟨m, hm, -⟩ := (same_iff_of_number? rfl w).1 h
    exact isKey_of_number? hm
  | .number _, w, _, h => by
    obtain ⟨m, hm, -⟩ := (same_iff_of_number? rfl w).1 h
    exact isKey_of_number? hm
  | .tuple as, w, hv, h => by
    cases w <;> simp only [same, Bool.false_eq_true] at h
    simp only [isKey] at hv ⊢
    exact areKeys_of_same hv h
  | .null, w, _, h | .text _, w, _, h | .date _, w, _, h | .dateTime _, w, _, h
  | .pattern _, w, _, h | .schema _ _, w, _, h => by
    cases w <;> simp only [same, Bool.false_eq_true] at h
    rfl
  | .list _, _, hv, _ => by simp [isKey] at hv
  | .map _, _, hv, _ => by simp [isKey] at hv
  termination_by structural v => v

theorem areKeys_of_same : ∀ {vs ws : List Value}, areKeys vs = true → sameItems vs ws = true →
    areKeys ws = true
  | [], ws, _, h => by
    cases ws with
    | nil => rfl
    | cons w ws => simp [sameItems] at h
  | v :: vs, ws, hv, h => by
    cases ws with
    | nil => simp [sameItems] at h
    | cons w ws =>
      simp only [areKeys, sameItems, Bool.and_eq_true] at hv h ⊢
      exact ⟨isKey_of_same hv.1 h.1, areKeys_of_same hv.2 h.2⟩
  termination_by structural vs => vs

end

mutual

theorem not_same_of_isKey : ∀ {v w : Value}, v.isKey = false → w.isKey = true → v.same w = false
  | .tuple as, w, hv, hw => by
    cases w <;> try rfl
    simp only [isKey] at hv hw
    simp only [same]
    exact not_sameItems_of_areKeys hv hw
  | .list _, w, _, hw => by
    cases w <;> try rfl
    simp [isKey] at hw
  | .map _, w, _, hw => by
    cases w <;> try rfl
    simp [isKey] at hw
  | .null, _, hv, _ | .bool _, _, hv, _ | .number _, _, hv, _ | .text _, _, hv, _
  | .date _, _, hv, _ | .dateTime _, _, hv, _ | .pattern _, _, hv, _ | .schema _ _, _, hv, _ => by
    simp [isKey] at hv
  termination_by structural v => v

theorem not_sameItems_of_areKeys : ∀ {vs ws : List Value}, areKeys vs = false →
    areKeys ws = true → sameItems vs ws = false
  | [], _, hv, _ => by simp [areKeys] at hv
  | v :: vs, ws, hv, hw => by
    cases ws with
    | nil => rfl
    | cons w ws =>
      simp only [areKeys, Bool.and_eq_true, Bool.and_eq_false_iff] at hv hw
      simp only [sameItems, Bool.and_eq_false_iff]
      rcases hv with hv | hv
      · exact .inl (not_same_of_isKey hv hw.1)
      · exact .inr (not_sameItems_of_areKeys hv hw.2)
  termination_by structural vs => vs

end

mutual

theorem same_symm : ∀ {v w : Value}, v.isKey = true → v.same w = true → w.same v = true
  | .bool _, w, _, h => by
    obtain ⟨m, hm, hs⟩ := (same_iff_of_number? rfl w).1 h
    exact (same_iff_of_number? hm _).2 ⟨_, rfl, Number.same_symm hs⟩
  | .number _, w, _, h => by
    obtain ⟨m, hm, hs⟩ := (same_iff_of_number? rfl w).1 h
    exact (same_iff_of_number? hm _).2 ⟨_, rfl, Number.same_symm hs⟩
  | .tuple as, w, hv, h => by
    cases w <;> simp only [same, Bool.false_eq_true] at h ⊢
    simp only [isKey] at hv
    exact sameItems_symm hv h
  | .dateTime a, w, _, h => by
    cases w <;> simp only [same, Bool.false_eq_true] at h ⊢
    rw [DateTime.same_iff] at h ⊢
    exact ⟨h.1.symm, h.2.symm⟩
  | .null, w, _, h | .text _, w, _, h | .date _, w, _, h | .pattern _, w, _, h
  | .schema _ _, w, _, h => by
    cases w <;> simp_all [same]
  | .list _, _, hv, _ => by simp [isKey] at hv
  | .map _, _, hv, _ => by simp [isKey] at hv
  termination_by structural v => v

theorem sameItems_symm : ∀ {vs ws : List Value}, areKeys vs = true → sameItems vs ws = true →
    sameItems ws vs = true
  | [], ws, _, h => by
    cases ws with
    | nil => rfl
    | cons w ws => simp [sameItems] at h
  | v :: vs, ws, hv, h => by
    cases ws with
    | nil => simp [sameItems] at h
    | cons w ws =>
      simp only [areKeys, sameItems, Bool.and_eq_true] at hv h ⊢
      exact ⟨same_symm hv.1 h.1, sameItems_symm hv.2 h.2⟩
  termination_by structural vs => vs

end

mutual

theorem same_trans : ∀ {u v w : Value}, u.isKey = true → u.same v = true → v.same w = true →
    u.same w = true
  | .bool _, v, w, _, h, h' => by
    obtain ⟨m, hm, hs⟩ := (same_iff_of_number? rfl v).1 h
    obtain ⟨n, hn, hs'⟩ := (same_iff_of_number? hm w).1 h'
    exact (same_iff_of_number? rfl w).2 ⟨n, hn, Number.same_trans hs hs'⟩
  | .number _, v, w, _, h, h' => by
    obtain ⟨m, hm, hs⟩ := (same_iff_of_number? rfl v).1 h
    obtain ⟨n, hn, hs'⟩ := (same_iff_of_number? hm w).1 h'
    exact (same_iff_of_number? rfl w).2 ⟨n, hn, Number.same_trans hs hs'⟩
  | .tuple as, v, w, hu, h, h' => by
    cases v <;> simp only [same, Bool.false_eq_true] at h
    cases w <;> simp only [same, Bool.false_eq_true] at h' ⊢
    simp only [isKey] at hu
    exact sameItems_trans hu h h'
  | .dateTime a, v, w, _, h, h' => by
    cases v <;> simp only [same, Bool.false_eq_true] at h
    cases w <;> simp only [same, Bool.false_eq_true] at h' ⊢
    rw [DateTime.same_iff] at h h' ⊢
    exact ⟨h.1.trans h'.1, h.2.trans h'.2⟩
  | .null, v, w, _, h, h' | .text _, v, w, _, h, h' | .date _, v, w, _, h, h'
  | .pattern _, v, w, _, h, h' | .schema _ _, v, w, _, h, h' => by
    cases v <;> simp only [same, Bool.false_eq_true, beq_iff_eq] at h
    cases w <;> simp_all [same]
  | .list _, _, _, hu, _, _ => by simp [isKey] at hu
  | .map _, _, _, hu, _, _ => by simp [isKey] at hu
  termination_by structural u => u

theorem sameItems_trans : ∀ {us vs ws : List Value}, areKeys us = true → sameItems us vs = true →
    sameItems vs ws = true → sameItems us ws = true
  | [], vs, ws, _, h, h' => by
    cases vs <;> simp only [sameItems, Bool.false_eq_true] at h
    exact h'
  | u :: us, vs, ws, hu, h, h' => by
    cases vs with
    | nil => simp [sameItems] at h
    | cons v vs =>
      cases ws with
      | nil => simp [sameItems] at h'
      | cons w ws =>
        simp only [areKeys, sameItems, Bool.and_eq_true] at hu h h' ⊢
        exact ⟨same_trans hu.1 h.1 h'.1, sameItems_trans hu.2 h.2 h'.2⟩
  termination_by structural us => us

end

/-- Keys that are the same are the same as the same values. -/
theorem same_congr {v w : Value} (hv : v.isKey = true) (h : v.same w = true) (u : Value) :
    v.same u = w.same u := by
  have hw := isKey_of_same hv h
  rw [Bool.eq_iff_iff]
  exact ⟨fun hu => same_trans hw (same_symm hv h) hu, fun hu => same_trans hv h hu⟩

theorem isKey_congr {v w : Value} (h : v.same w = true) (hk : v.isKey = true ∨ w.isKey = true) :
    v.isKey = true ∧ w.isKey = true := by
  rcases hk with hv | hw
  · exact ⟨hv, isKey_of_same hv h⟩
  · refine ⟨?_, hw⟩
    cases hv : v.isKey with
    | true => rfl
    | false => exact absurd h (by simp [not_same_of_isKey hv hw])

end Value

namespace Entries

variable {α : Type} {entries : Entries α} {key k : Value} {item : α}

theorem get?_cons (e : Value × α) (es : Entries α) :
    get? (e :: es) key = if key.same e.1 = true then some e.2 else get? es key := by
  simp only [get?, List.find?_cons]
  split <;> simp_all

theorem get?_append (es more : Entries α) :
    get? (es ++ more) key = (get? es key).or (get? more key) := by
  simp only [get?, List.find?_append]
  cases List.find? (fun e => key.same e.1) es <;> rfl

theorem get?_eq_none_iff : entries.get? key = none ↔ ∀ e ∈ entries, key.same e.1 = false := by
  simp [get?]

theorem exists_mem_of_get? (h : entries.get? key = some item) :
    ∃ e ∈ entries, key.same e.1 = true ∧ e.2 = item := by
  obtain ⟨e, hfind, rfl⟩ := Option.map_eq_some_iff.1 h
  exact ⟨e, List.mem_of_find?_eq_some hfind, by simpa using List.find?_some hfind, rfl⟩

theorem same_self_of_get? (hkey : key.isKey = true) (h : entries.get? key = some item) :
    key.same key = true := by
  obtain ⟨e, -, hs, -⟩ := exists_mem_of_get? h
  exact Value.same_trans hkey hs (Value.same_symm hkey hs)

theorem get?_congr (hkey : key.isKey = true) (h : key.same k = true) :
    entries.get? key = entries.get? k := by
  simp only [get?, Value.same_congr hkey h]

theorem put_cons (e : Value × α) (es : Entries α) :
    put (e :: es) key item =
      if key.same e.1 = true then (e.1, item) :: es else e :: put es key item := by
  rw [put]

theorem putAll_cons (e : Value × α) (more : Entries α) :
    entries.putAll (e :: more) = (entries.put e.1 e.2).putAll more := rfl

/-- Putting changes what stands under the keys that are the same, and nothing else. -/
theorem get?_put (hkey : key.isKey = true) :
    ∀ es : Entries α, get? (put es key item) k =
      if k.same key = true then some item else get? es k
  | [] => by
    simp only [put, get?_cons]
  | e :: es => by
    rw [put_cons]
    -- the first entry is one that `k` finds if `k` and `key` are the same, and only then
    split
    · rename_i hs
      rw [get?_cons, get?_cons]
      by_cases hk : k.same key = true
      · have hk' : k.same e.1 = true :=
          Value.same_trans (Value.isKey_congr hk (.inr hkey)).1 hk hs
        simp [hk, hk']
      · have hk' : ¬ k.same e.1 = true := by
          intro hke
          have hkk := (Value.isKey_congr hke (.inr (Value.isKey_of_same hkey hs))).1
          exact hk (Value.same_trans hkk hke (Value.same_symm hkey hs))
        simp [hk, hk']
    · rename_i hs
      rw [get?_cons, get?_cons, get?_put hkey es]
      by_cases hk : k.same key = true
      · have hk' : ¬ k.same e.1 = true := by
          intro hke
          have hkk := (Value.isKey_congr hk (.inr hkey)).1
          exact hs (Value.same_trans hkey (Value.same_symm hkk hk) hke)
        simp [hk, hk']
      · simp [hk]

theorem has_eq_any (entries : Entries α) (key : Value) :
    entries.has key = (entries.map (·.1)).any (key.same ·) := by
  induction entries with
  | nil => rfl
  | cons e entries ih =>
    rw [List.map_cons, List.any_cons, ← ih, has, has, get?_cons]
    cases key.same e.1 <;> simp

/-- Putting leaves the keys as they are, but for a new one at the end. -/
theorem keys_put : ∀ es : Entries α,
    (put es key item).map (·.1) =
      if has es key = true then es.map (·.1) else es.map (·.1) ++ [key]
  | [] => rfl
  | e :: es => by
    rw [put_cons]
    by_cases hs : key.same e.1 = true
    · simp [has, get?_cons, hs]
    · have hhas : has (e :: es) key = has es key := by simp [has, get?_cons, hs]
      rw [if_neg hs, List.map_cons, keys_put es, hhas]
      split <;> rfl

theorem length_put (es : Entries α) :
    (put es key item).length = if has es key = true then es.length else es.length + 1 := by
  have hkeys : ((put es key item).map (·.1)).length =
      (if has es key = true then es.map (·.1) else es.map (·.1) ++ [key]).length := by
    rw [keys_put]
  rw [List.length_map] at hkeys
  rw [hkeys]
  split <;> simp

/-- Putting what stands under a key already changes nothing. -/
theorem put_of_get? : ∀ {es : Entries α}, get? es key = some item → put es key item = es
  | [], h => by simp [get?] at h
  | e :: es, h => by
    rw [get?_cons] at h
    rw [put_cons]
    split_ifs at h ⊢ with hs
    · rw [← Option.some.inj h]
    · rw [put_of_get? h]

/-- What stands under a key can be replaced in its place. -/
theorem exists_split_of_get? : ∀ {es : Entries α}, get? es key = some item →
    ∃ before k after, es = before ++ (k, item) :: after ∧ key.same k = true ∧
      ∀ item', put es key item' = before ++ (k, item') :: after
  | [], h => by simp [get?] at h
  | e :: es, h => by
    rw [get?_cons] at h
    split_ifs at h with hs
    · obtain rfl := Option.some.inj h
      exact ⟨[], e.1, es, rfl, hs, fun item' => by rw [put_cons, if_pos hs]; rfl⟩
    · obtain ⟨before, k, after, rfl, hk, hput⟩ := exists_split_of_get? h
      exact ⟨e :: before, k, after, rfl, hk, fun item' => by
        rw [put_cons, if_neg hs, hput, List.cons_append]⟩

theorem mem_put {e : Value × α} : ∀ es : Entries α, e ∈ put es key item → e ∈ es ∨ e.2 = item
  | [], he => by simp_all [put]
  | e' :: es, he => by
    rw [put_cons] at he
    split at he
    · rcases List.mem_cons.1 he with rfl | he
      · exact .inr rfl
      · exact .inl (List.mem_cons_of_mem _ he)
    · rcases List.mem_cons.1 he with rfl | he
      · exact .inl List.mem_cons_self
      · exact (mem_put es he).imp (List.mem_cons_of_mem _) id

theorem not_same_of_has_eq_false (h : has entries key = false) :
    ∀ k ∈ entries.map (·.1), key.same k = false := by
  induction entries with
  | nil => simp
  | cons e es ih =>
    by_cases hs : key.same e.1 = true
    · simp [has, get?_cons, hs] at h
    · have hes : has es key = false := by simpa [has, get?_cons, hs] using h
      simpa using ⟨by simpa using hs, by simpa using ih hes⟩

end Entries

/-- Values that can be the keys of one mapping, in some order. -/
structure AreKeys (keys : List Value) : Prop where
  isKey : ∀ k ∈ keys, k.isKey = true
  distinct : keys.Pairwise fun k k' => k.same k' = false

namespace AreKeys

variable {α : Type} {entries : Entries α} {key : Value} {item : α}

theorem nil : AreKeys [] := ⟨by simp, .nil⟩

/-- A key is the same as the name of one entry at most. -/
theorem eq_of_same {k : Value} : ∀ {entries : Entries α} {e e' : Value × α},
    AreKeys (entries.map (·.1)) → e ∈ entries → e' ∈ entries →
    k.same e.1 = true → k.same e'.1 = true → e = e'
  | e₀ :: entries, e, e', h, he, he', hs, hs' => by
    have hdistinct := List.pairwise_cons.1 h.distinct
    have htail : AreKeys (entries.map (·.1)) :=
      ⟨fun k hk => h.isKey k (List.mem_cons_of_mem _ hk), hdistinct.2⟩
    have hkey : e₀.1.isKey = true := h.isKey _ (by simp)
    have hclash : ∀ b ∈ entries, k.same e₀.1 = true → k.same b.1 = true → False := by
      intro b hb ha hkb
      have hk := (Value.isKey_congr ha (.inr hkey)).1
      have hab := Value.same_trans hkey (Value.same_symm hk ha) hkb
      rw [hdistinct.1 _ (List.mem_map_of_mem hb)] at hab
      exact Bool.false_ne_true hab
    rcases List.mem_cons.1 he with he | he <;> rcases List.mem_cons.1 he' with he' | he'
    · exact he.trans he'.symm
    · exact (hclash e' he' (he ▸ hs) hs').elim
    · exact (hclash e he (he' ▸ hs') hs).elim
    · exact eq_of_same htail he he' hs hs'

/-- A key that is the same as a later name is the same as no earlier one. -/
theorem not_same_of_append {k : Value} {before after : Entries α} {e e' : Value × α}
    (h : AreKeys ((before ++ after).map (·.1))) (he : e ∈ before) (he' : e' ∈ after)
    (hk : k.same e'.1 = true) : k.same e.1 = false := by
  cases hs : k.same e.1 with
  | false => rfl
  | true =>
    have hkey : e.1.isKey = true := h.isKey _ (List.mem_map_of_mem (List.mem_append_left _ he))
    have hkk := (Value.isKey_congr hs (.inr hkey)).1
    have hee := Value.same_trans hkey (Value.same_symm hkk hs) hk
    have hdistinct := h.distinct
    rw [List.map_append, List.pairwise_append] at hdistinct
    rw [hdistinct.2.2 _ (List.mem_map_of_mem he) _ (List.mem_map_of_mem he')] at hee
    exact absurd hee Bool.false_ne_true

/-- A name that can be found again is the same as that of no other entry. -/
theorem not_same_of_others {before after : Entries α} {e : Value × α}
    (h : AreKeys ((before ++ e :: after).map (·.1))) (hself : e.1.same e.1 = true) :
    ∀ e' ∈ before ++ after, e.1.same e'.1 = false := by
  intro e' he'
  rcases List.mem_append.1 he' with he' | he'
  · exact h.not_same_of_append he' List.mem_cons_self hself
  · cases hs : e.1.same e'.1 with
    | false => rfl
    | true =>
      have hsplit : AreKeys (((before ++ [e]) ++ after).map (·.1)) := by simpa using h
      have hnot := hsplit.not_same_of_append (e := e) (by simp) he' hs
      exact absurd hself (by simp [hnot])

theorem perm {keys keys' : List Value} (h : AreKeys keys) (hperm : keys.Perm keys') :
    AreKeys keys' := by
  have hboth : keys.Pairwise fun k k' => k.same k' = false ∧ k'.same k = false := by
    refine h.distinct.imp_of_mem fun {k k'} hk hk' hkk' => ⟨hkk', ?_⟩
    cases hs : k'.same k with
    | false => rfl
    | true => exact absurd (Value.same_symm (h.isKey k' hk') hs) (by simp [hkk'])
  have hboth' := (hperm.pairwise_iff fun {k k'} hkk' => ⟨hkk'.2, hkk'.1⟩).1 hboth
  exact ⟨fun k hk => h.isKey k (hperm.mem_iff.2 hk), hboth'.imp And.left⟩

theorem put (h : AreKeys (entries.map (·.1))) (hkey : key.isKey = true) :
    AreKeys ((entries.put key item).map (·.1)) := by
  rw [Entries.keys_put]
  split
  · exact h
  · rename_i hhas
    have hnot := Entries.not_same_of_has_eq_false (by simpa using hhas)
    constructor
    · intro k hk
      rcases List.mem_append.1 hk with hk | hk
      · exact h.isKey k hk
      · rw [List.mem_singleton] at hk
        exact hk ▸ hkey
    · rw [List.pairwise_append]
      refine ⟨h.distinct, List.pairwise_singleton _ _, fun k hk k' hk' => ?_⟩
      rw [List.mem_singleton] at hk'
      subst hk'
      cases hs : k.same k' with
      | false => rfl
      | true => exact absurd (Value.same_symm (h.isKey k hk) hs) (by simp [hnot k hk])

theorem putAll : ∀ {more : Entries α} {entries : Entries α}, AreKeys (entries.map (·.1)) →
    (∀ e ∈ more, e.1.isKey = true) → AreKeys ((entries.putAll more).map (·.1))
  | [], _, h, _ => h
  | e :: more, entries, h, hmore => by
    rw [Entries.putAll_cons]
    exact putAll (h.put (hmore e List.mem_cons_self))
      fun e' he' => hmore e' (List.mem_cons_of_mem _ he')

end AreKeys

theorem Entries.mem_putAll {α : Type} {e : Value × α} : ∀ {more entries : Entries α},
    e ∈ entries.putAll more → e ∈ entries ∨ ∃ e' ∈ more, e.2 = e'.2
  | [], _, he => .inl he
  | e' :: more, _, he => by
    rw [putAll_cons] at he
    rcases mem_putAll he with he | ⟨e'', he'', h⟩
    · rcases mem_put _ he with he | h
      · exact .inl he
      · exact .inr ⟨e', List.mem_cons_self, h⟩
    · exact .inr ⟨e'', List.mem_cons_of_mem _ he'', h⟩

end FieldSchema
