namespace NodeRun

def repeatedAfter? (seen : List String) : List String → Option String
  | [] => none
  | i :: is => if i ∈ seen then some i else repeatedAfter? (i :: seen) is

def repeated? (names : List String) : Option String := repeatedAfter? [] names

theorem repeatedAfter?_eq_none_iff {seen names : List String} :
    repeatedAfter? seen names = none ↔ names.Nodup ∧ ∀ i ∈ names, i ∉ seen := by
  induction names generalizing seen with
  | nil => simp [repeatedAfter?]
  | cons i is ih =>
    simp only [repeatedAfter?]
    split
    · rename_i h
      simp [h]
    · rename_i h
      rw [ih]
      constructor
      · rintro ⟨h1, h2⟩
        refine ⟨List.nodup_cons.mpr ⟨fun hi => (h2 i hi) List.mem_cons_self, h1⟩, ?_⟩
        intro j hj
        rcases List.mem_cons.mp hj with rfl | hj
        · exact h
        · exact fun hs => h2 j hj (List.mem_cons_of_mem _ hs)
      · rintro ⟨h1, h2⟩
        obtain ⟨h3, h4⟩ := List.nodup_cons.mp h1
        refine ⟨h4, fun j hj hs => ?_⟩
        rcases List.mem_cons.mp hs with rfl | hs
        · exact h3 hj
        · exact h2 j (List.mem_cons_of_mem _ hj) hs

theorem repeated?_eq_none_iff {names : List String} : repeated? names = none ↔ names.Nodup := by
  simp [repeated?, repeatedAfter?_eq_none_iff]

theorem mem_of_repeatedAfter?_eq_some {seen names : List String} {i : String}
    (h : repeatedAfter? seen names = some i) :
    ∃ before after, names = before ++ i :: after ∧ (i ∈ seen ∨ i ∈ before) := by
  induction names generalizing seen with
  | nil => simp [repeatedAfter?] at h
  | cons j js ih =>
    simp only [repeatedAfter?] at h
    split at h
    · rename_i hj
      cases h
      exact ⟨[], js, rfl, .inl hj⟩
    · obtain ⟨before, after, rfl, hi⟩ := ih h
      refine ⟨j :: before, after, rfl, ?_⟩
      rcases hi with hi | hi
      · rcases List.mem_cons.mp hi with rfl | hi
        · exact .inr List.mem_cons_self
        · exact .inl hi
      · exact .inr (List.mem_cons_of_mem _ hi)

end NodeRun
