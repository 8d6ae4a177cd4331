import FieldSchema.Proofs.Reported

/-!
# Where complaints are

A complaint has a place: the keys on the way from the whole value to what it is about
(`Complaint.place`), which its failure names (`Complaint.field_eq_fieldName`). What the schema of a
field complains of lies at the field or below it (`Schema.complainsAlong`). So what a record
complains of there is just what the field's schema complains of, if the field is present and has no
conditions (`Schema.IsSound.complaints_at_iff`).
-/

namespace FieldSchema

namespace Complaint

/-- The keys on the way to what a complaint is about. -/
def place : Complaint → List Value
  | .wrongKind path _ _ _ => path
  | .unmet path _ _ _ => path
  | .missing path name => path ++ [name]

/-- Whether a complaint is about a field of the whole value, or about something in it. -/
def IsAt (name : Value) (c : Complaint) : Prop :=
  ∃ k rest, c.place = k :: rest ∧ name.same k = true

theorem pathText_append_text {path : List Value} (hpath : path ≠ []) (s : String) :
    Violation.pathText (path ++ [.text s]) = Violation.pathText path ++ "." ++ s := by
  have hmap : path.map (·.plain) ≠ [] := by simpa using hpath
  rw [Violation.pathText, List.map_append, String.intercalate_append_of_ne_nil hmap (by simp)]
  simp [Violation.pathText, Value.plain]

theorem pathText_ne_empty {path : List Value} (hpath : path ≠ [])
    (hnames : ∀ k ∈ path, ∃ s, k = .text s ∧ s ≠ "") : Violation.pathText path ≠ "" := by
  rcases List.eq_nil_or_concat path with h | ⟨init, k, rfl⟩
  · exact absurd h hpath
  · obtain ⟨s, rfl, hs⟩ := hnames k (by simp)
    rw [List.concat_eq_append]
    by_cases hinit : init = []
    · simpa [hinit, Violation.pathText, Value.plain] using hs
    · rw [pathText_append_text hinit]
      simp [hs]

theorem failure_unmet {path : List Value} {t : Test} {d : Demand} {v : Value} {f : Failure}
    (h : (Complaint.unmet path t d v).failure = .ok f) :
    ∃ message, filledMessage (fieldName path) t.message = .ok message ∧
      f = ⟨fieldName path, .text t.name, message, v, d.argument⟩ := by
  rw [failure] at h
  cases hmessage : filledMessage (fieldName path) t.message with
  | error m => simp [hmessage, Except.map] at h
  | ok message =>
    rw [hmessage] at h
    exact ⟨message, rfl, (Except.ok.inj h).symm⟩

theorem failure_missing {path : List Value} {name : Value} {f : Failure}
    (h : (Complaint.missing path name).failure = .ok f) : f = .missing f.field := by
  rw [failure] at h
  cases hfield : Violation.propertyPath path name with
  | error m => simp [hfield, Except.map] at h
  | ok field =>
    rw [hfield] at h
    cases h
    rfl

/-- A failure is named for the place of its complaint, if the names on the way are texts that are
not empty. -/
theorem field_eq_fieldName {c : Complaint} {f : Failure} (h : c.failure = .ok f)
    (hnames : ∀ k ∈ c.place, ∃ s, k = .text s ∧ s ≠ "") : f.field = fieldName c.place := by
  cases c with
  | wrongKind path kind isNullable v =>
    cases h
    rfl
  | unmet path test demand v =>
    obtain ⟨message, -, rfl⟩ := failure_unmet h
    rfl
  | missing path name =>
    obtain ⟨s, rfl, hs⟩ := hnames name (by simp [place])
    have hpath : ∀ k ∈ path, ∃ s, k = .text s ∧ s ≠ "" := fun k hk =>
      hnames k (by simp [place, hk])
    have htruthy : (Value.text s).isTruthy = true := by simpa [Value.isTruthy] using hs
    have hplace : Violation.pathText (path ++ [.text s]) ≠ "" :=
      pathText_ne_empty (by simp) hnames
    rw [failure, Violation.propertyPath, if_pos htruthy] at h
    cases h
    rw [place, fieldName, if_neg hplace]
    by_cases hnil : path = []
    · simp [hnil, Violation.pathText, Value.plain, Failure.missing]
    · rw [pathText_append_text hnil, if_neg (pathText_ne_empty hnil hpath)]
      rfl

end Complaint

namespace Schema

variable {o s : Schema} {path : List Value} {record : Entries Value} {name v : Value}

theorem place_of_mem_kindComplaints {kind : Kind} {isNullable : Bool} {c : Complaint}
    (h : c ∈ kindComplaints path v kind isNullable) : c.place = path := by
  obtain ⟨-, rfl⟩ := mem_kindComplaints.1 h
  rfl

theorem place_of_mem_testComplaints {tests : List Test} {c : Complaint}
    (h : c ∈ tests.flatMap (·.complaints path v)) : c.place = path := by
  obtain ⟨_, -, _, -, -, rfl⟩ := mem_testComplaints.1 h
  rfl

/-- A complaint is about the value itself, or about a field of a record. -/
theorem cases_of_mem_complaints {c : Complaint} (h : c ∈ s.complaints path v) :
    c.place = path ∨ ∃ record, v = .map record ∧
      c ∈ recordComplaints path record (!s.tests.isEmpty) s.fields := by
  cases hmap : v.isMap with
  | false =>
    rw [complaints_of_not_isMap hmap, List.mem_append] at h
    exact .inl (h.elim place_of_mem_kindComplaints place_of_mem_testComplaints)
  | true =>
    obtain ⟨record, rfl⟩ := Value.eq_map_of_isMap hmap
    rw [complaints_map, List.mem_append, List.mem_append] at h
    rcases h with (h | h) | h
    · exact .inl (place_of_mem_kindComplaints h)
    · exact .inl (place_of_mem_testComplaints h)
    · exact .inr ⟨record, rfl, h⟩

/-- That the way from where a schema's value stands to what is complained of in it goes over names
of some sort. What the conditions of a field come to lies on the way over the field's own name. -/
structure ComplainsAlong (N : Value → Prop) (s : Schema) : Prop where
  complaints : ∀ path v, ∀ c ∈ s.complaints path v,
    ∃ names, c.place = path ++ names ∧ ∀ k ∈ names, N k
  choices : ∀ path record name, ∀ c ∈ s.ownChoiceComplaints path record name,
    ∃ names, c.place = path ++ name :: names ∧ ∀ k ∈ names, N k

/-- Complaints go down from the value to its fields, and from there to what is in them. -/
theorem complainsAlong {N : Value → Prop} (s : Schema) :
    s.Everywhere (fun s => ∀ e ∈ s.fields, N e.1) → s.ComplainsAlong N := by
  induction s using Schema.induct with
  | step s hfields hconditions =>
    intro h
    -- from the place of a field's value the way goes on over the field's name
    have hbelow : ∀ {path : List Value} {name : Value} {c : Complaint},
        (∃ names, c.place = (path ++ [name]) ++ names ∧ ∀ k ∈ names, N k) →
        ∃ names, c.place = path ++ name :: names ∧ ∀ k ∈ names, N k := by
      rintro path name c ⟨names, hplace, hnames⟩
      exact ⟨names, by simpa using hplace, hnames⟩
    constructor
    · intro path v c hc
      rcases cases_of_mem_complaints hc with hplace | ⟨record, rfl, hrecord⟩
      · exact ⟨[], by simpa using hplace, List.forall_mem_nil _⟩
      · obtain ⟨e, he, names, hplace, hnames⟩ : ∃ e ∈ s.fields, ∃ names,
            c.place = path ++ e.1 :: names ∧ ∀ k ∈ names, N k := by
          rcases mem_recordComplaints.1 hrecord with hc | hc | hc
          · obtain ⟨e, he, hc⟩ := mem_choiceComplaints.1 hc
            exact ⟨e, he, (hfields e he (h.field he)).choices path record e.1 c hc⟩
          · obtain ⟨e, he, v, -, hc⟩ := mem_fieldComplaints.1 hc
            exact ⟨e, he, hbelow ((hfields e he (h.field he)).complaints _ v c hc)⟩
          · obtain ⟨n, hn, -, rfl⟩ := exists_of_mem_missingComplaints hc
            obtain ⟨e, he, rfl⟩ := List.mem_map.1 hn
            exact ⟨e, (List.mem_filter.1 he).1, [], rfl, List.forall_mem_nil _⟩
        exact ⟨e.1 :: names, hplace, List.forall_mem_cons.2 ⟨h.self e he, hnames⟩⟩
    · intro path record name complaint hcomplaint
      obtain ⟨c, hc, hcomplaint⟩ := mem_ownChoiceComplaints.1 hcomplaint
      have hbranch : (c.branch record).ComplainsAlong N := Condition.branch_of_both
        ⟨(hconditions c hc).1 (h.chosen hc), (hconditions c hc).2 (h.other hc)⟩ record
      rcases mem_complaintsIn.1 hcomplaint with ⟨v, -, hc⟩ | ⟨-, -, rfl⟩ | hc
      · exact hbelow (hbranch.complaints _ v complaint hc)
      · exact ⟨[], rfl, List.forall_mem_nil _⟩
      · exact hbranch.choices path record name complaint hc

/-- Whatever the names are, complaints are below the place of the value. -/
theorem complainsBelow (s : Schema) : s.ComplainsAlong fun _ => True :=
  complainsAlong s (everywhere_of_forall (fun _ _ _ => trivial) s)

theorem mem_complaints_of_mem_field (he : (name, s) ∈ o.fields) (hv : record.get? name = some v)
    {c : Complaint} (hc : c ∈ s.complaints (path ++ [name]) v) :
    c ∈ o.complaints path (.map record) := by
  rw [complaints_map]
  exact List.mem_append_right _ <| mem_recordComplaints.2 <| .inr <| .inl <|
    mem_fieldComplaints.2 ⟨_, he, v, hv, hc⟩

/-- What a record complains of at a present field without conditions is what the field's schema
complains of. -/
theorem IsSound.complaints_at_iff (h : o.IsSound) (he : (name, s) ∈ o.fields)
    (hconditions : s.conditions = []) (hv : record.get? name = some v) (c : Complaint) :
    c ∈ o.complaints [] (.map record) ∧ c.IsAt name ↔ c ∈ s.complaints [name] v := by
  have hself := h.same_self_of_get? he hv
  constructor
  · rintro ⟨hc, k, rest, hplace, hk⟩
    -- the first key on the way to the complaint is that of the field, and of no other
    have hfield : ∀ e ∈ o.fields, ∀ names, c.place = e.1 :: names → e = (name, s) := by
      intro e hmem names hbelow
      obtain ⟨rfl, -⟩ := List.cons.inj (hplace.symm.trans hbelow)
      exact h.areKeys.eq_of_same hmem he hk hself
    rcases cases_of_mem_complaints hc with hroot | ⟨record', hrecord, hc⟩
    · rw [hplace] at hroot
      cases hroot
    · obtain rfl := Value.map.inj hrecord
      rcases mem_recordComplaints.1 hc with hc | hc | hc
      · obtain ⟨e, hmem, hc⟩ := mem_choiceComplaints.1 hc
        obtain ⟨names, hbelow, -⟩ := (complainsBelow e.2).choices [] record e.1 c hc
        rw [hfield e hmem names hbelow] at hc
        obtain ⟨condition, hcondition, -⟩ := mem_ownChoiceComplaints.1 hc
        simp [hconditions] at hcondition
      · obtain ⟨e, hmem, w, hw, hc⟩ := mem_fieldComplaints.1 hc
        obtain ⟨names, hbelow, -⟩ := (complainsBelow e.2).complaints [e.1] w c hc
        rw [hfield e hmem names hbelow] at hw hc
        rw [hv] at hw
        cases hw
        exact hc
      · obtain ⟨m, hm, habsent, rfl⟩ := exists_of_mem_missingComplaints hc
        obtain ⟨e, hmem, rfl⟩ := List.mem_map.1 hm
        have heq := hfield e (List.mem_filter.1 hmem).1 [] rfl
        rw [heq, Entries.has, hv] at habsent
        cases habsent
  · intro hc
    obtain ⟨rest, hplace, -⟩ := (complainsBelow s).complaints [name] v c hc
    exact ⟨mem_complaints_of_mem_field he hv hc, name, rest, hplace, hself⟩

/-- So nothing is complained of there exactly if that schema describes what the field has. -/
theorem not_isAt_iff_admits (h : o.Everywhere IsSound) (he : (name, s) ∈ o.fields)
    (hconditions : s.conditions = []) (hv : record.get? name = some v) :
    (∀ c ∈ o.complaints [] (.map record), ¬ c.IsAt name) ↔ s.admits v = true := by
  have hnil : s.complaints [name] v = [] ↔ s.admits v = true := complaints_eq_nil_iff (h.field he)
  rw [← hnil, List.eq_nil_iff_forall_not_mem]
  refine forall_congr' fun c => ?_
  rw [← h.self.complaints_at_iff he hconditions hv c, not_and]

end Schema

end FieldSchema
