import Mathlib.Data.List.Dedup
import ServingPlane.Proofs.Gpu.Pool

/-! # Pools in use

    A pool is made from a list of indices, and from then on GPUs are taken
    and given back in any order.  Whatever the order, it has the GPUs of
    that list and no others, and counts each of them once; a request gets
    the lowest indices that are available, and can undo itself; and what
    is given back does not depend on how often, in which order or beside
    what else it is. -/

namespace ServingPlane.GpuPool

/-- What is asked of a pool. -/
inductive Use where
  | take (want : Nat)
  | giveBack (indices : List UInt32)
  deriving DecidableEq, Repr

/-- The pool after a request. -/
def serve (p : GpuPool) : Use → GpuPool
  | .take want => (p.allocate want).2
  | .giveBack indices => p.release indices

/-- A pool of the given indices, after any requests. -/
def after (indices : List UInt32) (uses : List Use) : GpuPool :=
  uses.foldl serve (ofIndices indices)

variable {p : GpuPool} {indices : List UInt32}

/-! ## Which GPUs there are -/

/-- The pool has the GPUs of a list and no others. -/
def Has (p : GpuPool) (indices : List UInt32) : Prop := ∀ i, p.status? i = none ↔ i ∉ indices

theorem has_ofIndices (indices : List UInt32) : (ofIndices indices).Has indices := by
  intro i
  rw [status?_ofIndices]
  by_cases hi : i ∈ indices
  · rw [if_pos hi]
    exact iff_of_false (Option.some_ne_none _) (not_not_intro hi)
  · rw [if_neg hi]
    exact iff_of_true rfl hi

theorem release_status?_eq_none_iff (l : List UInt32) (i : UInt32) :
    (p.release l).status? i = none ↔ p.status? i = none := by
  rw [status?_release]
  by_cases hi : i ∈ l
  · rw [if_pos hi, Option.map_eq_none_iff]
  · rw [if_neg hi]

theorem allocate_status?_eq_none_iff (want : Nat) (i : UInt32) :
    (p.allocate want).2.status? i = none ↔ p.status? i = none := by
  rw [status?_allocate]
  by_cases hi : i ∈ (p.allocate want).1
  · rw [if_pos hi, status?_of_mem_allocate hi]
    exact iff_of_false (Option.some_ne_none _) (Option.some_ne_none _)
  · rw [if_neg hi]

/-- No request brings a GPU into the pool or takes one out of it. -/
theorem Has.serve (h : p.Has indices) (use : Use) : (p.serve use).Has indices := by
  intro i
  cases use with
  | take want => exact (allocate_status?_eq_none_iff want i).trans (h i)
  | giveBack l => exact (release_status?_eq_none_iff l i).trans (h i)

theorem has_after (indices : List UInt32) (uses : List Use) : (after indices uses).Has indices :=
  List.foldlRecOn (motive := (Has · indices)) uses serve (has_ofIndices indices)
    fun _ h use _ => h.serve use

/-! ## How many there are -/

theorem withStatus_sorted (p : GpuPool) (s : GpuStatus) : (p.withStatus s).Pairwise (· < ·) :=
  List.pairwise_map.mpr (p.gpus.sorted.filter _)

theorem inUse_le_size (p : GpuPool) : p.inUse ≤ p.size := by
  have hle := List.countP_le_length (p := (· = GpuStatus.inUse)) (l := p.gpus.values)
  rw [Dict.values, List.length_map] at hle
  exact hle

/-- The count of available GPUs counts their indices. -/
theorem available_eq_length (p : GpuPool) : p.available = (p.withStatus .available).length := by
  have hsplit := List.length_eq_countP_add_countP (· = GpuStatus.inUse) (l := p.gpus.values)
  have hother : p.gpus.values.countP (fun s => decide ¬decide (s = GpuStatus.inUse) = true)
      = (p.withStatus .available).length := by
    simp only [withStatus, Dict.values]
    rw [List.length_map, List.countP_map, List.countP_eq_length_filter]
    refine congrArg _ (List.filter_congr fun e _ => ?_)
    obtain ⟨i, s⟩ := e
    cases s with
    | _ => rfl
  have hsize : p.gpus.values.length = p.size := List.length_map ..
  rw [hother, hsize] at hsplit
  simp only [available, inUse]
  omega

/-- The GPUs with a status, each counted once. -/
theorem Has.length_withStatus (h : p.Has indices) (s : GpuStatus) :
    (p.withStatus s).length = indices.dedup.countP fun i => p.status? i = some s := by
  rw [List.countP_eq_length_filter]
  refine List.Perm.length_eq ((List.perm_ext_iff_of_nodup (p.withStatus_nodup s)
    (indices.nodup_dedup.filter _)).mpr fun i => ?_)
  rw [mem_withStatus, List.mem_filter, List.mem_dedup, decide_eq_true_eq]
  refine ⟨fun hs => ⟨?_, hs⟩, fun hs => hs.2⟩
  by_contra hi
  rw [(h i).mpr hi] at hs
  cases hs

theorem Has.size_eq (h : p.Has indices) : p.size = indices.dedup.length := by
  have hkeys : p.gpus.keys.length = p.size := List.length_map ..
  rw [← hkeys]
  refine List.Perm.length_eq ((List.perm_ext_iff_of_nodup p.gpus.keys_nodup
    indices.nodup_dedup).mpr fun i => ?_)
  rw [List.mem_dedup, ← not_iff_not, ← Dict.get?_eq_none_iff]
  exact h i

/-- A pool counts each GPU of a list once, as in use or as available. -/
structure Counts (p : GpuPool) (indices : List UInt32) : Prop where
  has : p.Has indices
  size : p.size = indices.dedup.length
  inUse : p.inUse = indices.dedup.countP fun i => p.status? i = some .inUse
  available : p.available = indices.dedup.countP fun i => p.status? i = some .available
  /-- The subtraction that gives the available ones never underflows. -/
  inUse_le : p.inUse ≤ p.size
  total : p.inUse + p.available = p.size

theorem Has.counts (h : p.Has indices) : p.Counts indices where
  has := h
  size := h.size_eq
  inUse := p.inUse_eq_length.trans (h.length_withStatus .inUse)
  available := p.available_eq_length.trans (h.length_withStatus .available)
  inUse_le := p.inUse_le_size
  total := Nat.add_sub_cancel' p.inUse_le_size

/-! ## Taking and giving back -/

/-- A request for some GPUs took the lowest that were available, as many as
    it wanted or all there were, and can be undone. -/
structure Takes (p : GpuPool) (want : Nat) (taken : List UInt32) (q : GpuPool) : Prop where
  increasing : taken.Pairwise (· < ·)
  count : taken.length = min want p.available
  free : ∀ i ∈ taken, p.status? i = some .available
  lowest : ∀ i ∈ taken, ∀ j ∉ taken, p.status? j = some .available → i < j
  marked : ∀ i, q.status? i = if i ∈ taken then some .inUse else p.status? i
  undone : q.release taken = p

theorem takes_allocate (p : GpuPool) (want : Nat) :
    p.Takes want (p.allocate want).1 (p.allocate want).2 where
  increasing := (p.withStatus_sorted .available).sublist (List.take_sublist ..)
  count := by
    rw [available_eq_length]
    exact List.length_take
  free := fun _ hi => status?_of_mem_allocate hi
  lowest := by
    intro i hi j hj hfree
    -- what was taken stands in front of the rest
    have hsorted := p.withStatus_sorted .available
    rw [← List.take_append_drop want (p.withStatus .available)] at hsorted
    refine (List.pairwise_append.mp hsorted).2.2 i hi j ?_
    have hmem := mem_withStatus.mpr hfree
    rw [← List.take_append_drop want (p.withStatus .available)] at hmem
    exact (List.mem_append.mp hmem).resolve_left hj
  marked := p.status?_allocate want
  undone := p.release_allocate want

/-- Of what is given back, only the GPUs that the pool has count. -/
theorem release_congr {l l' : List UInt32} (h : ∀ i, p.status? i ≠ none → (i ∈ l ↔ i ∈ l')) :
    p.release l = p.release l' := by
  refine ext_status fun i => ?_
  rw [status?_release, status?_release]
  cases hi : p.status? i with
  | none => rw [Option.map_none, ite_self, ite_self]
  | some s =>
    have hiff := h i (by rw [hi]; exact Option.some_ne_none s)
    by_cases hl : i ∈ l
    · rw [if_pos hl, if_pos (hiff.mp hl)]
    · rw [if_neg hl, if_neg (mt hiff.mpr hl)]

/-- Giving back one list after another is giving back both at once. -/
theorem release_release (l l' : List UInt32) : (p.release l).release l' = p.release (l ++ l') :=
  (List.foldl_append ..).symm

/-- What is given back is available from then on, once and for all, and
    nothing else changes. -/
structure TakesBack (p : GpuPool) : Prop where
  status : ∀ l i, (p.release l).status? i
    = if i ∈ l then (p.status? i).map fun _ => .available else p.status? i
  keys : ∀ l, (p.release l).gpus.keys = p.gpus.keys
  unknown : ∀ l l', (∀ i, p.status? i ≠ none → (i ∈ l ↔ i ∈ l')) → p.release l = p.release l'
  again : ∀ l, (p.release l).release l = p.release l
  commute : ∀ l l', (p.release l).release l' = (p.release l').release l

theorem keys_release (l : List UInt32) : (p.release l).gpus.keys = p.gpus.keys := by
  have hperm : (p.release l).gpus.keys.Perm p.gpus.keys := by
    refine (List.perm_ext_iff_of_nodup (Dict.keys_nodup _) (Dict.keys_nodup _)).mpr fun i => ?_
    rw [← not_iff_not, ← Dict.get?_eq_none_iff, ← Dict.get?_eq_none_iff]
    exact release_status?_eq_none_iff l i
  -- both are sorted, so it is enough that they hold the same indices
  refine hperm.eq_of_pairwise ?_ (Dict.keys_pairwise _) (Dict.keys_pairwise _)
  intro i j _ _ hij hji
  exact absurd hji (Std.not_gt_of_lt hij)

theorem takesBack (p : GpuPool) : p.TakesBack where
  status := fun l i => status?_release l p i
  keys := keys_release
  unknown := fun _ _ => release_congr
  again := by
    intro l
    rw [release_release]
    exact release_congr fun i _ => by rw [List.mem_append, or_self]
  commute := by
    intro l l'
    rw [release_release, release_release]
    exact release_congr fun i _ => by rw [List.mem_append, List.mem_append, or_comm]

/-- After any requests to a pool of any indices: it counts each index once;
    a request for more is given the lowest available indices, as many as it
    wants or there are, and undone by giving them back; and giving back
    touches what the pool has and is given back, whatever the order. -/
theorem lowest_taken_and_given_back (indices : List UInt32) (uses : List Use) (want : Nat) :
    let p := after indices uses
    p.Counts indices ∧ p.Takes want (p.allocate want).1 (p.allocate want).2 ∧ p.TakesBack :=
  ⟨(has_after indices uses).counts, takes_allocate _ want, takesBack _⟩

/-- A pool with a gap and a duplicate, used to the full and then in part. -/
example : (after [4, 0, 4, 2] [.take 9, .giveBack [2, 7]]).allocate 2
    = ([2], after [0, 2, 4] [.take 3]) := by
  decide

end ServingPlane.GpuPool
