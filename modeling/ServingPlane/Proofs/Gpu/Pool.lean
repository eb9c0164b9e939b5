import ServingPlane.Gpu.Pool
import ServingPlane.Proofs.Dict

/-! # Taking and giving back GPUs

    What allocation and release do to the status of each GPU.  The taken
    indices were available and become the ones in use beside those that
    were; giving them back at once leaves the pool as it was. -/

namespace ServingPlane.GpuPool

theorem ext_status {p q : GpuPool} (h : ∀ i, p.status? i = q.status? i) : p = q := by
  cases p
  cases q
  exact congrArg mk (Dict.ext_get? h)

theorem status?_mark (p : GpuPool) (i j : UInt32) (s : GpuStatus) :
    (p.mark i s).status? j = if j = i then some s else p.status? j :=
  p.gpus.get?_insert i j s

theorem status?_releaseOne (p : GpuPool) (i j : UInt32) :
    (p.releaseOne i).status? j
      = if j = i then (p.status? i).map fun _ => .available else p.status? j :=
  p.gpus.get?_modify i j _

/-- Released GPUs are available, if they are in the pool at all. -/
theorem status?_release (l : List UInt32) (p : GpuPool) (j : UInt32) :
    (p.release l).status? j
      = if j ∈ l then (p.status? j).map fun _ => .available else p.status? j := by
  induction l generalizing p with
  | nil => rfl
  | cons i l ih =>
    show ((p.releaseOne i).release l).status? j = _
    rw [ih, status?_releaseOne]
    by_cases hi : j = i
    · subst hi
      rw [if_pos rfl, if_pos List.mem_cons_self, Option.map_map]
      exact ite_self _
    · rw [if_neg hi]
      by_cases hl : j ∈ l
      · rw [if_pos hl, if_pos (List.mem_cons_of_mem _ hl)]
      · rw [if_neg hl, if_neg (by simp [hi, hl])]

theorem mem_withStatus {p : GpuPool} {s : GpuStatus} {i : UInt32} :
    i ∈ p.withStatus s ↔ p.status? i = some s := by
  simp only [withStatus, status?]
  rw [Dict.get?_eq_some_iff, List.mem_map]
  constructor
  · rintro ⟨⟨j, t⟩, hm, rfl⟩
    obtain ⟨hm, ht⟩ := List.mem_filter.mp hm
    exact of_decide_eq_true ht ▸ hm
  · intro hm
    exact ⟨(i, s), List.mem_filter.mpr ⟨hm, decide_eq_true rfl⟩, rfl⟩

theorem withStatus_nodup (p : GpuPool) (s : GpuStatus) : (p.withStatus s).Nodup :=
  p.gpus.keys_nodup.sublist (List.filter_sublist.map _)

/-- The count of GPUs in use counts their indices. -/
theorem inUse_eq_length (p : GpuPool) : p.inUse = p.inUseIndices.length := by
  simp only [inUse, inUseIndices, withStatus, Dict.values]
  rw [List.length_map, List.countP_map, List.countP_eq_length_filter]
  rfl

theorem allocate_nodup (p : GpuPool) (want : Nat) : (p.allocate want).1.Nodup :=
  (p.withStatus_nodup .available).sublist (List.take_sublist ..)

/-- Only available GPUs are taken. -/
theorem status?_of_mem_allocate {p : GpuPool} {want : Nat} {i : UInt32}
    (h : i ∈ (p.allocate want).1) : p.status? i = some .available :=
  mem_withStatus.mp (List.mem_of_mem_take h)

/-- Taken GPUs are in use, and nothing else changes. -/
theorem status?_allocate (p : GpuPool) (want : Nat) (j : UInt32) :
    (p.allocate want).2.status? j
      = if j ∈ (p.allocate want).1 then some .inUse else p.status? j := by
  have hmarks : ∀ (l : List UInt32) (q : GpuPool),
      (l.foldl (fun q i => q.mark i .inUse) q).status? j
        = if j ∈ l then some .inUse else q.status? j := by
    intro l
    induction l with
    | nil => intro q; rfl
    | cons i l ih =>
      intro q
      rw [List.foldl_cons, ih, status?_mark]
      by_cases hl : j ∈ l
      · rw [if_pos hl, if_pos (List.mem_cons_of_mem _ hl)]
      · rw [if_neg hl]
        by_cases hi : j = i
        · rw [if_pos hi, if_pos (hi ▸ List.mem_cons_self)]
        · rw [if_neg hi, if_neg (by simp [hi, hl])]
  exact hmarks _ p

/-- Giving back at once what was taken leaves the pool as it was. -/
theorem release_allocate (p : GpuPool) (want : Nat) :
    (p.allocate want).2.release (p.allocate want).1 = p := by
  refine ext_status fun j => ?_
  rw [status?_release, status?_allocate]
  by_cases h : j ∈ (p.allocate want).1
  · rw [if_pos h, if_pos h, status?_of_mem_allocate h]
    rfl
  · rw [if_neg h, if_neg h]

/-- What is taken comes beside what was in use. -/
theorem inUseIndices_allocate (p : GpuPool) (want : Nat) :
    (p.allocate want).2.inUseIndices.Perm ((p.allocate want).1 ++ p.inUseIndices) := by
  have hdisjoint : ∀ i ∈ (p.allocate want).1, i ∉ p.inUseIndices := by
    intro i hi hu
    have := status?_of_mem_allocate hi
    rw [mem_withStatus.mp hu] at this
    exact nomatch this
  have hnodup : ((p.allocate want).1 ++ p.inUseIndices).Nodup :=
    (p.allocate_nodup want).append (p.withStatus_nodup _) hdisjoint
  refine (List.perm_ext_iff_of_nodup (withStatus_nodup _ _) hnodup).mpr fun i => ?_
  rw [List.mem_append]
  show i ∈ withStatus _ .inUse ↔ _ ∨ i ∈ p.withStatus .inUse
  rw [mem_withStatus, mem_withStatus, status?_allocate]
  by_cases h : i ∈ (p.allocate want).1
  · rw [if_pos h]
    exact ⟨fun _ => .inl h, fun _ => rfl⟩
  · rw [if_neg h, or_iff_right h]

/-- What is given back is no longer in use, and the rest still is. -/
theorem inUseIndices_release {p : GpuPool} {held rest : List UInt32}
    (h : p.inUseIndices.Perm (held ++ rest)) : (p.release held).inUseIndices.Perm rest := by
  have hnodup : (held ++ rest).Nodup := h.nodup_iff.mp (p.withStatus_nodup _)
  refine (List.perm_ext_iff_of_nodup (withStatus_nodup _ _)
    (List.nodup_append.mp hnodup).2.1).mpr fun i => ?_
  have hmem : p.status? i = some .inUse ↔ i ∈ held ∨ i ∈ rest := by
    rw [← mem_withStatus, ← List.mem_append]
    exact h.mem_iff
  show i ∈ withStatus _ .inUse ↔ _
  rw [mem_withStatus, status?_release]
  by_cases hi : i ∈ held
  · rw [if_pos hi]
    constructor
    · intro hs
      cases hp : p.status? i with
      | none => rw [hp] at hs; exact nomatch hs
      | some t => rw [hp] at hs; exact nomatch hs
    · intro hr
      exact absurd hr (List.disjoint_of_nodup_append hnodup hi)
  · rw [if_neg hi, hmem, or_iff_right hi]

/-- A new pool has the given indices, and all of them are available. -/
theorem status?_ofIndices (indices : List UInt32) (i : UInt32) :
    (ofIndices indices).status? i = if i ∈ indices then some .available else none := by
  have hinsert : ∀ (l : List UInt32) (d : Dict UInt32 GpuStatus),
      ((l.map fun j => (j, GpuStatus.available)).foldl (fun d e => d.insert e.1 e.2) d).get? i
        = if i ∈ l then some .available else d.get? i := by
    intro l
    induction l with
    | nil => intro d; rfl
    | cons j l ih =>
      intro d
      rw [List.map_cons, List.foldl_cons, ih, Dict.get?_insert]
      by_cases hl : i ∈ l
      · rw [if_pos hl, if_pos (List.mem_cons_of_mem _ hl)]
      · rw [if_neg hl]
        by_cases hj : i = j
        · rw [if_pos hj, if_pos (hj ▸ List.mem_cons_self)]
        · rw [if_neg hj, if_neg (by simp [hj, hl])]
  exact hinsert indices .empty

theorem inUseIndices_ofIndices (indices : List UInt32) : (ofIndices indices).inUseIndices = [] := by
  refine List.eq_nil_iff_forall_not_mem.mpr fun i hi => ?_
  have hs := mem_withStatus.mp hi
  rw [status?_ofIndices] at hs
  by_cases hmem : i ∈ indices
  · rw [if_pos hmem] at hs
    cases hs
  · rw [if_neg hmem] at hs
    cases hs

end ServingPlane.GpuPool
