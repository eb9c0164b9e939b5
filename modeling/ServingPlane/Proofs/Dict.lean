import Mathlib.Data.List.Nodup
import Mathlib.Data.List.Perm.Basic
import ServingPlane.Dict

/-! # Looking up bindings

    What each operation on a dictionary does to the bindings that a
    lookup sees, and how the entries are rearranged: inserting a key puts
    one entry beside those of the other keys, whatever stood there. -/

namespace ServingPlane.Dict

variable {κ α : Type}

section Lookup

variable [DecidableEq κ]

private theorem lookup_eq_some_of_mem {l : List (κ × α)} (h : (l.map (·.1)).Nodup) {k : κ} {v : α}
    (hm : (k, v) ∈ l) : l.lookup k = some v := by
  induction l with
  | nil => exact nomatch hm
  | cons p r ih =>
    obtain ⟨k', v'⟩ := p
    rw [List.map_cons, List.nodup_cons] at h
    rw [List.lookup_cons]
    rcases List.mem_cons.mp hm with heq | hr
    · cases heq
      rw [beq_self_eq_true]
    · have hne : k ≠ k' := by
        intro heq
        exact h.1 (List.mem_map.mpr ⟨(k, v), hr, heq⟩)
      rw [beq_false_of_ne hne]
      exact ih h.2 hr

private theorem mem_of_lookup_eq_some {l : List (κ × α)} {k : κ} {v : α}
    (h : l.lookup k = some v) : (k, v) ∈ l := by
  induction l with
  | nil => exact nomatch h
  | cons p r ih =>
    obtain ⟨k', v'⟩ := p
    rw [List.lookup_cons] at h
    by_cases hk : k = k'
    · subst hk
      rw [beq_self_eq_true] at h
      cases h
      exact List.mem_cons_self
    · rw [beq_false_of_ne hk] at h
      exact List.mem_cons_of_mem _ (ih h)

variable [LT κ]

theorem get?_of_size_eq_zero {d : Dict κ α} (h : d.size = 0) (k : κ) : d.get? k = none := by
  have hentries : d.entries = [] := List.eq_nil_of_length_eq_zero h
  simp only [get?]
  rw [hentries]
  rfl

theorem contains_eq_true_iff {d : Dict κ α} {k : κ} :
    d.contains k = true ↔ ∃ v, d.get? k = some v :=
  Option.isSome_iff_exists

end Lookup

section Order

variable [LT κ] [LE κ] [Std.LawfulOrderLT κ]

theorem keys_nodup (d : Dict κ α) : d.keys.Nodup :=
  List.Pairwise.imp (S := (· ≠ ·)) (fun h heq => Std.lt_irrefl (heq ▸ h)) d.keys_pairwise

variable [DecidableEq κ]

/-- A lookup finds exactly the entries. -/
theorem get?_eq_some_iff {d : Dict κ α} {k : κ} {v : α} :
    d.get? k = some v ↔ (k, v) ∈ d.entries :=
  ⟨mem_of_lookup_eq_some, lookup_eq_some_of_mem d.keys_nodup⟩

theorem mem_keys_iff {d : Dict κ α} {k : κ} : k ∈ d.keys ↔ ∃ v, d.get? k = some v := by
  constructor
  · intro h
    obtain ⟨⟨k', v⟩, hm, rfl⟩ := List.mem_map.mp h
    exact ⟨v, get?_eq_some_iff.mpr hm⟩
  · rintro ⟨v, h⟩
    exact List.mem_map.mpr ⟨(k, v), get?_eq_some_iff.mp h, rfl⟩

theorem get?_eq_none_iff {d : Dict κ α} {k : κ} : d.get? k = none ↔ k ∉ d.keys := by
  rw [mem_keys_iff]
  cases d.get? k with
  | none => exact ⟨fun _ h => (nomatch h.choose_spec), fun _ => rfl⟩
  | some v => exact ⟨fun h => (nomatch h), fun h => absurd ⟨v, rfl⟩ h⟩

private theorem get?_eq_of_mem_iff {d e : Dict κ α} {k : κ}
    (h : ∀ v, (k, v) ∈ d.entries ↔ (k, v) ∈ e.entries) : d.get? k = e.get? k :=
  Option.ext fun v => by rw [get?_eq_some_iff, get?_eq_some_iff, h]

/-- Dictionaries with the same lookups are equal. -/
theorem ext_get? {d e : Dict κ α} (h : ∀ k, d.get? k = e.get? k) : d = e := by
  have hmem : ∀ p : κ × α, p ∈ d.entries ↔ p ∈ e.entries := by
    rintro ⟨k, v⟩
    rw [← get?_eq_some_iff, ← get?_eq_some_iff, h]
  have hperm : d.entries.Perm e.entries :=
    (List.perm_ext_iff_of_nodup d.keys_nodup.of_map e.keys_nodup.of_map).mpr hmem
  refine ext_entries (hperm.eq_of_pairwise ?_ d.sorted e.sorted)
  intro p q _ _ hpq hqp
  exact absurd hqp (Std.not_gt_of_lt hpq)

/-- Erasing a key hides its binding and no other. -/
theorem get?_erase (d : Dict κ α) (k k' : κ) :
    (d.erase k).get? k' = if k' = k then none else d.get? k' := by
  by_cases hk : k' = k
  · rw [if_pos hk, get?_eq_none_iff]
    intro h
    obtain ⟨⟨a, v⟩, hm, rfl⟩ := List.mem_map.mp h
    have hne := (List.mem_filter.mp hm).2
    simp only [decide_eq_true_eq] at hne
    exact hne hk
  · rw [if_neg hk]
    refine get?_eq_of_mem_iff fun v => ?_
    show (k', v) ∈ d.entries.filter _ ↔ _
    rw [List.mem_filter]
    simp [hk]

@[simp] theorem get?_erase_self (d : Dict κ α) (k : κ) : (d.erase k).get? k = none := by
  rw [get?_erase, if_pos rfl]

theorem get?_erase_of_ne (d : Dict κ α) {k k' : κ} (h : k' ≠ k) :
    (d.erase k).get? k' = d.get? k' := by
  rw [get?_erase, if_neg h]

theorem get?_of_get?_erase {d : Dict κ α} {k k' : κ} {v : α} (h : (d.erase k).get? k' = some v) :
    d.get? k' = some v := by
  rw [get?_erase] at h
  by_cases hk : k' = k
  · rw [if_pos hk] at h
    cases h
  · rw [if_neg hk] at h
    exact h

theorem mem_keys_erase {d : Dict κ α} {k k' : κ} :
    k' ∈ (d.erase k).keys ↔ k' ≠ k ∧ k' ∈ d.keys := by
  rw [mem_keys_iff, mem_keys_iff, get?_erase]
  by_cases hk : k' = k
  · rw [if_pos hk]
    exact ⟨fun h => (nomatch h.choose_spec), fun h => absurd hk h.1⟩
  · rw [if_neg hk]
    exact ⟨fun h => ⟨hk, h⟩, fun h => h.2⟩

theorem erase_of_get?_eq_none {d : Dict κ α} {k : κ} (h : d.get? k = none) : d.erase k = d := by
  refine ext_entries (List.filter_eq_self.mpr ?_)
  rintro ⟨a, v⟩ hm
  simp only [decide_eq_true_eq]
  rintro rfl
  rw [get?_eq_some_iff.mpr hm] at h
  exact nomatch h

/-- The entry of a bound key stands beside those of the other keys. -/
theorem entries_perm_erase {d : Dict κ α} {k : κ} {v : α} (h : d.get? k = some v) :
    d.entries.Perm ((k, v) :: (d.erase k).entries) := by
  have hm := get?_eq_some_iff.mp h
  obtain ⟨l, r, hl⟩ := List.append_of_mem hm
  have hn := d.keys_nodup
  simp only [keys] at hn
  rw [hl, List.map_append, List.map_cons] at hn
  have hk : k ∉ l.map (·.1) ++ r.map (·.1) := (List.nodup_middle.mp hn).notMem
  have hself : ∀ {s : List (κ × α)}, k ∉ s.map (·.1) → s.filter (fun p => p.1 ≠ k) = s := by
    intro s hs
    refine List.filter_eq_self.mpr fun p hp => ?_
    simp only [decide_eq_true_eq]
    rintro rfl
    exact hs (List.mem_map.mpr ⟨p, hp, rfl⟩)
  have herase : (d.erase k).entries = l ++ r := by
    show d.entries.filter _ = _
    rw [hl, List.filter_append, List.filter_cons,
      hself fun hc => hk (List.mem_append_left _ hc),
      hself fun hc => hk (List.mem_append_right _ hc)]
    simp
  rw [herase, hl]
  exact List.perm_middle

/-- The entries of a key are its binding, if it has one. -/
theorem filter_entries (d : Dict κ α) (k : κ) :
    d.entries.filter (·.1 = k) = (d.get? k).toList.map (k, ·) := by
  cases h : d.get? k with
  | none =>
    refine List.filter_eq_nil_iff.mpr fun p hp => ?_
    simp only [decide_eq_true_eq]
    rintro rfl
    exact get?_eq_none_iff.mp h (List.mem_map.mpr ⟨p, hp, rfl⟩)
  | some v =>
    have hothers : (d.erase k).entries.filter (·.1 = k) = [] := by
      refine List.filter_eq_nil_iff.mpr fun p hp => ?_
      have hne := (List.mem_filter.mp hp).2
      simpa using hne
    have hperm := (entries_perm_erase h).filter (·.1 = k)
    rw [List.filter_cons_of_pos (by simp), hothers] at hperm
    exact List.perm_singleton.mp hperm

variable [DecidableLT κ] [Std.IsLinearOrder κ]

private theorem place_perm (k : κ) (v : α) {l : List (κ × α)}
    (h : l.Pairwise fun a b => a.1 < b.1) :
    (place k v l).Perm ((k, v) :: l.filter fun p => p.1 ≠ k) := by
  induction l with
  | nil => exact List.Perm.refl _
  | cons p r ih =>
    obtain ⟨k', v'⟩ := p
    obtain ⟨hk, hr⟩ := List.pairwise_cons.mp h
    have hself : ¬ k' < k → r.filter (fun p => p.1 ≠ k) = r := by
      intro hle
      refine List.filter_eq_self.mpr fun p hp => ?_
      simp only [decide_eq_true_eq]
      rintro rfl
      exact hle (hk p hp)
    simp only [place]
    by_cases hlt : k < k'
    · have hne : k' ≠ k := fun heq => Std.lt_irrefl (heq ▸ hlt)
      rw [if_pos hlt, List.filter_cons_of_pos (by simpa using hne),
        hself fun hgt => Std.lt_irrefl (Std.lt_trans hlt hgt)]
    · by_cases hgt : k' < k
      · have hne : k' ≠ k := fun heq => Std.lt_irrefl (heq ▸ hgt)
        rw [if_neg hlt, if_pos hgt, List.filter_cons_of_pos (by simpa using hne)]
        exact ((ih hr).cons _).trans (List.Perm.swap ..)
      · have heq : k = k' := eq_of_not_lt hlt hgt
        subst heq
        rw [if_neg hlt, if_neg hgt, List.filter_cons_of_neg (by simp), hself hgt]

/-- An inserted entry stands beside those of the other keys. -/
theorem entries_insert_perm (d : Dict κ α) (k : κ) (v : α) :
    (d.insert k v).entries.Perm ((k, v) :: (d.erase k).entries) :=
  place_perm k v d.sorted

/-- Inserting a key replaces its binding and no other. -/
theorem get?_insert (d : Dict κ α) (k k' : κ) (v : α) :
    (d.insert k v).get? k' = if k' = k then some v else d.get? k' := by
  by_cases hk : k' = k
  · subst hk
    rw [if_pos rfl, get?_eq_some_iff, (d.entries_insert_perm k' v).mem_iff]
    exact List.mem_cons_self
  · rw [if_neg hk, ← d.get?_erase_of_ne hk]
    refine get?_eq_of_mem_iff fun w => ?_
    rw [(d.entries_insert_perm k v).mem_iff, List.mem_cons]
    simp [hk]

@[simp] theorem get?_insert_self (d : Dict κ α) (k : κ) (v : α) :
    (d.insert k v).get? k = some v := by
  rw [get?_insert, if_pos rfl]

theorem get?_insert_of_ne (d : Dict κ α) {k k' : κ} (v : α) (h : k' ≠ k) :
    (d.insert k v).get? k' = d.get? k' := by
  rw [get?_insert, if_neg h]

/-- Changing the value under a key changes no other binding. -/
theorem get?_modify (d : Dict κ α) (k k' : κ) (f : α → α) :
    (d.modify k f).get? k' = if k' = k then (d.get? k).map f else d.get? k' := by
  simp only [modify]
  cases h : d.get? k with
  | some v => rw [get?_insert]; rfl
  | none =>
    by_cases hk : k' = k
    · rw [if_pos hk, hk]
      exact h
    · rw [if_neg hk]

theorem mem_keys_insert {d : Dict κ α} {k k' : κ} {v : α} :
    k' ∈ (d.insert k v).keys ↔ k' = k ∨ k' ∈ d.keys := by
  rw [mem_keys_iff, mem_keys_iff, get?_insert]
  by_cases hk : k' = k
  · rw [if_pos hk]
    exact ⟨fun _ => .inl hk, fun _ => ⟨v, rfl⟩⟩
  · rw [if_neg hk, or_iff_right hk]

end Order

section Placing

variable {β : Type} [LT κ] [DecidableLT κ]

/-- Placing looks at the keys alone. -/
theorem place_map (g : α → β) (k : κ) (v : α) (l : List (κ × α)) :
    place k (g v) (l.map fun p => (p.1, g p.2)) = (place k v l).map fun p => (p.1, g p.2) := by
  induction l with
  | nil => rfl
  | cons p r ih =>
    obtain ⟨k', v'⟩ := p
    simp only [List.map_cons, place]
    split
    · rfl
    · split
      · rw [List.map_cons, ih]
      · rfl

theorem mem_keys_place {k k' : κ} {v : α} {l : List (κ × α)}
    (h : k' ∈ (place k v l).map (·.1)) : k' = k ∨ k' ∈ l.map (·.1) := by
  obtain ⟨p, hp, rfl⟩ := List.mem_map.mp h
  rcases mem_place hp with rfl | hp
  · exact .inl rfl
  · exact .inr (List.mem_map_of_mem hp)

variable [LE κ] [Std.IsLinearOrder κ] [Std.LawfulOrderLT κ]

/-- A new key stands beside the others. -/
theorem place_perm_of_notMem {k : κ} (v : α) {l : List (κ × α)} (h : k ∉ l.map (·.1)) :
    (place k v l).Perm ((k, v) :: l) := by
  induction l with
  | nil => exact List.Perm.refl _
  | cons p r ih =>
    obtain ⟨k', v'⟩ := p
    rw [List.map_cons, List.mem_cons, not_or] at h
    simp only [place]
    split
    · exact List.Perm.refl _
    · split
      · exact ((ih h.2).cons _).trans (List.Perm.swap ..)
      · rename_i hlt hgt
        exact absurd (eq_of_not_lt hlt hgt) h.1

omit [Std.IsLinearOrder κ] in
/-- A key beyond all others goes to the end. -/
theorem place_of_forall_lt {k : κ} {v : α} {l : List (κ × α)} (h : ∀ p ∈ l, p.1 < k) :
    place k v l = l ++ [(k, v)] := by
  induction l with
  | nil => rfl
  | cons p r ih =>
    obtain ⟨k', v'⟩ := p
    have hk : k' < k := h _ List.mem_cons_self
    rw [place, if_neg (Std.not_gt_of_lt hk), if_pos hk,
      ih fun q hq => h q (List.mem_cons_of_mem _ hq)]
    rfl

/-- A key that is filtered out leaves no trace. -/
theorem filter_place_of_neg {keep : κ → Bool} {k : κ} (hk : keep k = false) (v : α)
    (l : List (κ × α)) :
    (place k v l).filter (fun p => keep p.1) = l.filter fun p => keep p.1 := by
  induction l with
  | nil => simp [place, hk]
  | cons p r ih =>
    obtain ⟨k', v'⟩ := p
    simp only [place]
    split
    · rw [List.filter_cons_of_neg (by simp [hk])]
    · split
      · rw [List.filter_cons, List.filter_cons, ih]
      · rename_i hlt hgt
        obtain rfl := eq_of_not_lt hlt hgt
        rw [List.filter_cons_of_neg (by simp [hk]), List.filter_cons_of_neg (by simp [hk])]

/-- A key that stays is placed among those that stay. -/
theorem filter_place_of_pos {keep : κ → Bool} {k : κ} (hk : keep k = true) (v : α)
    {l : List (κ × α)} (h : l.Pairwise fun a b => a.1 < b.1) :
    (place k v l).filter (fun p => keep p.1) = place k v (l.filter fun p => keep p.1) := by
  induction l with
  | nil => simp [place, hk]
  | cons p r ih =>
    obtain ⟨k', v'⟩ := p
    obtain ⟨hfirst, hr⟩ := List.pairwise_cons.mp h
    -- whatever stands behind a larger key is larger too
    have hbehind : ∀ {l' : List (κ × α)}, (∀ q ∈ l', k < q.1) → place k v l' = (k, v) :: l' := by
      intro l' hl'
      cases l' with
      | nil => rfl
      | cons q l' => rw [place, if_pos (hl' q List.mem_cons_self)]
    simp only [place]
    split
    · rename_i hlt
      rw [List.filter_cons_of_pos (by simpa using hk)]
      refine (hbehind fun q hq => ?_).symm
      rcases List.mem_cons.mp (List.mem_filter.mp hq).1 with rfl | hq
      · exact hlt
      · exact Std.lt_trans hlt (hfirst q hq)
    · split
      · rename_i hlt hgt
        rw [List.filter_cons, List.filter_cons, ih hr]
        split
        · rw [place, if_neg hlt, if_pos hgt]
        · rfl
      · rename_i hlt hgt
        obtain rfl := eq_of_not_lt hlt hgt
        rw [List.filter_cons_of_pos (by simpa using hk),
          List.filter_cons_of_pos (by simpa using hk), place, if_neg hlt, if_neg hgt]

end Placing

end ServingPlane.Dict
