/-! # Dictionaries in key order

    A finite map kept as its list of entries, keys strictly increasing.
    Two dictionaries with the same bindings are therefore equal, and
    walking one never depends on the order of the insertions that made
    it. -/

namespace ServingPlane

/-- A finite map whose entries stand in strictly increasing key order. -/
structure Dict (κ α : Type) [LT κ] where
  /-- The bindings, in key order. -/
  entries : List (κ × α)
  /-- No key is repeated and none is out of place. -/
  sorted : entries.Pairwise (fun a b => a.1 < b.1)

namespace Dict

variable {κ α β : Type}

section Order

variable [LT κ]

theorem ext_entries {d e : Dict κ α} (h : d.entries = e.entries) : d = e := by
  cases d; cases e; cases h; rfl

instance [DecidableEq κ] [DecidableEq α] : DecidableEq (Dict κ α) := fun d e =>
  decidable_of_iff (d.entries = e.entries) ⟨ext_entries, fun h => h ▸ rfl⟩

/-- The dictionary without bindings. -/
def empty : Dict κ α := ⟨[], .nil⟩

instance : EmptyCollection (Dict κ α) := ⟨empty⟩
instance : Inhabited (Dict κ α) := ⟨empty⟩

/-- The value bound to a key. -/
def get? [DecidableEq κ] (d : Dict κ α) (k : κ) : Option α :=
  d.entries.lookup k

/-- Whether a key is bound. -/
def contains [DecidableEq κ] (d : Dict κ α) (k : κ) : Bool :=
  (d.get? k).isSome

/-- Drop the binding of a key, if there is one. -/
def erase [DecidableEq κ] (d : Dict κ α) (k : κ) : Dict κ α :=
  ⟨d.entries.filter (fun p => p.1 ≠ k), d.sorted.filter _⟩

/-- The keys, in increasing order. -/
def keys (d : Dict κ α) : List κ := d.entries.map (·.1)

/-- The values, in key order. -/
def values (d : Dict κ α) : List α := d.entries.map (·.2)

/-- Number of bindings. -/
def size (d : Dict κ α) : Nat := d.entries.length

/-- Whether there are no bindings. -/
def isEmpty (d : Dict κ α) : Bool := d.entries.isEmpty

theorem keys_pairwise (d : Dict κ α) : d.keys.Pairwise (· < ·) := by
  unfold keys
  rw [List.pairwise_map]
  exact d.sorted

end Order

section Placing

variable [LT κ] [DecidableLT κ]

/-- Put a binding at its place in a sorted list, replacing an equal key. -/
def place (k : κ) (v : α) : List (κ × α) → List (κ × α)
  | [] => [(k, v)]
  | (k', v') :: r =>
    if k < k' then (k, v) :: (k', v') :: r
    else if k' < k then (k', v') :: place k v r
    else (k, v) :: r

theorem mem_place {k : κ} {v : α} {l : List (κ × α)} {x : κ × α} (h : x ∈ place k v l) :
    x = (k, v) ∨ x ∈ l := by
  induction l with
  | nil => simpa [place] using h
  | cons p r ih =>
    obtain ⟨k', v'⟩ := p
    unfold place at h
    split at h
    · simpa using h
    · split at h
      · rcases List.mem_cons.mp h with h | h
        · exact .inr (h ▸ List.mem_cons_self ..)
        · exact (ih h).imp id (List.mem_cons_of_mem _)
      · rcases List.mem_cons.mp h with h | h
        · exact .inl h
        · exact .inr (List.mem_cons_of_mem _ h)

omit [DecidableLT κ] in
theorem eq_of_not_lt [LE κ] [Std.IsLinearOrder κ] [Std.LawfulOrderLT κ] {a b : κ} (h : ¬ a < b) (h' : ¬ b < a) : a = b :=
  Std.le_antisymm (Std.not_lt.mp h') (Std.not_lt.mp h)

variable [LE κ] [Std.IsLinearOrder κ] [Std.LawfulOrderLT κ]

theorem sorted_place (k : κ) (v : α) {l : List (κ × α)}
    (h : l.Pairwise (fun a b => a.1 < b.1)) :
    (place k v l).Pairwise (fun a b => a.1 < b.1) := by
  induction l with
  | nil => simp [place]
  | cons p r ih =>
    obtain ⟨k', v'⟩ := p
    have hr := (List.pairwise_cons.mp h).2
    have hk := (List.pairwise_cons.mp h).1
    unfold place
    split
    · rename_i hlt
      refine List.pairwise_cons.mpr ⟨?_, h⟩
      intro x hx
      rcases List.mem_cons.mp hx with rfl | hx
      · exact hlt
      · exact Std.lt_trans hlt (hk x hx)
    · split
      · rename_i hgt
        refine List.pairwise_cons.mpr ⟨?_, ih hr⟩
        intro x hx
        rcases mem_place hx with rfl | hx
        · exact hgt
        · exact hk x hx
      · rename_i h1 h2
        have he : k = k' := eq_of_not_lt h1 h2
        refine List.pairwise_cons.mpr ⟨?_, hr⟩
        intro x hx
        exact he ▸ hk x hx

/-- Bind a key, replacing an earlier binding of it. -/
def insert (d : Dict κ α) (k : κ) (v : α) : Dict κ α :=
  ⟨place k v d.entries, sorted_place k v d.sorted⟩

/-- The dictionary of a list of bindings; a later binding of a key wins. -/
def ofList (l : List (κ × α)) : Dict κ α :=
  l.foldl (fun d p => d.insert p.1 p.2) empty

/-- Change the value under a key, if it is bound. -/
def modify [DecidableEq κ] (d : Dict κ α) (k : κ) (f : α → α) : Dict κ α :=
  match d.get? k with
  | some v => d.insert k (f v)
  | none => d

end Placing

end Dict

end ServingPlane
