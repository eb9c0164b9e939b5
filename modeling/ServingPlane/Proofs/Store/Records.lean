import ServingPlane.Proofs.Dict
import ServingPlane.Proofs.Json.Text
import ServingPlane.Store

/-! # The container records of the store

    Ids put on record are read back as they were, whatever characters
    they hold; putting or forgetting the record of one task leaves those
    of the others alone, and so does every change of a history. -/

namespace ServingPlane.Store

@[simp] theorem containerIds_empty (task : String) : empty.containerIds task = .ok none := rfl

/-- A record is read back as it was put. -/
theorem containerIds_put (s : Store) (task other : String) (ids : List String) :
    (s.putContainerIds task ids).containerIds other
      = if other = task then .ok (some ids) else s.containerIds other := by
  simp only [containerIds, lookup, putContainerIds]
  rw [Dict.get?_insert]
  by_cases h : other = task
  · rw [if_pos h, if_pos h]
    have hread : idsCodec.ofText (idsCodec.write ids).compact = .ok ids :=
      Codec.ofText_strings ids
    dsimp only
    rw [hread]
  · rw [if_neg h, if_neg h]

/-- A forgotten record is gone, and no other. -/
theorem containerIds_delete (s : Store) (task other : String) :
    (s.deleteContainerIds task).2.containerIds other
      = if other = task then .ok none else s.containerIds other := by
  simp only [containerIds, lookup, deleteContainerIds]
  rw [Dict.get?_erase]
  by_cases h : other = task
  · rw [if_pos h, if_pos h]
  · rw [if_neg h, if_neg h]

/-- A longer history leaves the container records alone. -/
theorem containers_appendHistory {s s' : Store} {task : String} {record : RecoveryRecord}
    {limit : Nat} (h : s.appendHistory task record limit = .ok s') :
    s'.containers = s.containers := by
  simp only [appendHistory] at h
  cases hl : lookup historyCodec s.history task with
  | error e =>
    rw [hl] at h
    cases h
  | ok earlier =>
    rw [hl] at h
    cases h
    rfl

/-- Every container record can be read. -/
def Legible (s : Store) : Prop := ∀ task, ∃ record, s.containerIds task = .ok record

theorem legible_empty : empty.Legible := fun task => ⟨none, containerIds_empty task⟩

theorem Legible.put {s : Store} (h : s.Legible) (task : String) (ids : List String) :
    (s.putContainerIds task ids).Legible := by
  intro other
  rw [containerIds_put]
  by_cases ho : other = task
  · rw [if_pos ho]
    exact ⟨_, rfl⟩
  · rw [if_neg ho]
    exact h other

theorem Legible.delete {s : Store} (h : s.Legible) (task : String) :
    (s.deleteContainerIds task).2.Legible := by
  intro other
  rw [containerIds_delete]
  by_cases ho : other = task
  · rw [if_pos ho]
    exact ⟨_, rfl⟩
  · rw [if_neg ho]
    exact h other

end ServingPlane.Store
