import ServingPlane.Proofs.Store.Reread

/-! # The histories of the store

    A record of a recovery is written as text and read back whenever the
    history is listed or grows. -/

namespace ServingPlane

open Json Numeric

/-! ## Fractions and records -/

/-- A finite number is read back from its text as a finite number. -/
theorem Numeric.Single.exists_reread {x : Single} (h : x.isFinite = true) :
    ∃ y : Single, y.isFinite = true ∧ x.reread = .ok y := by
  obtain ⟨d, y, hnumber, htext, hfinite⟩ := Number.exists_asText h
  refine ⟨y.toSingle, hfinite, ?_⟩
  have hwrite : Codec.single.write x = .number (.float d) := by
    simp only [Codec.single, hnumber]
  rw [reread, hwrite, asText, htext]
  rfl

/-- Any other number is written as null, which is no number. -/
theorem Numeric.Single.reread_error {x : Single} (h : x.isFinite = false) :
    x.reread = .error (.wrongType .null "f32") := by
  have hnone : x.asDocumentNumber? = none := by
    have hbits : ¬ x.bits.toNat % Format.single.signWeight < Format.single.infinityBits :=
      of_decide_eq_false h
    simp only [asDocumentNumber?, reading, Format.reading]
    rw [if_neg hbits]
    split
    · rename_i heq
      split at heq
      · cases heq
      · cases heq
    · rfl
  have hwrite : Codec.single.write x = .null := by
    simp only [Codec.single, hnone]
  rw [reread, hwrite]
  rfl

/-- The fraction of a recommendation is a finite number. -/
def Recommendation.Finite (r : Recommendation) : Prop := r.gpuMemoryUtilization.isFinite = true

/-- A recommendation, its fraction aside. -/
def Recommendation.outline (r : Recommendation) : Recommendation :=
  { r with gpuMemoryUtilization := .zero }

namespace RecoveryRecord

/-- Both fractions of a record are finite numbers. -/
structure Finite (r : RecoveryRecord) : Prop where
  recommended : r.recommended.Finite
  previous : r.previous.Finite

/-- A record, its fractions aside. -/
def outline (r : RecoveryRecord) : RecoveryRecord :=
  { r with recommended := r.recommended.outline, previous := r.previous.outline }

end RecoveryRecord

namespace Recommendation

/-- A recommendation with a finite fraction is read back with one. -/
theorem exists_reread {r : Recommendation} (h : r.Finite) :
    ∃ s : Recommendation, s.outline = r.outline ∧ s.Finite ∧ r.reread = .ok s := by
  obtain ⟨y, hfinite, hfraction⟩ := Single.exists_reread h
  refine ⟨{ r with gpuMemoryUtilization := y }, rfl, hfinite, ?_⟩
  rw [reread, hfraction]
  rfl

/-- A recommendation with any other fraction cannot be read. -/
theorem reread_error {r : Recommendation} (h : ¬ r.Finite) :
    r.reread = .error (.wrongType .null "f32") := by
  rw [reread, Single.reread_error (Bool.eq_false_iff.mpr h)]
  rfl

end Recommendation

namespace RecoveryRecord

/-- A record with finite fractions is read back, fractions aside. -/
theorem exists_reread {r : RecoveryRecord} (h : r.Finite) :
    ∃ s : RecoveryRecord, s.outline = r.outline ∧ s.Finite ∧ r.reread = .ok s := by
  obtain ⟨recommended, hrest, hfinite, hrecommended⟩ := Recommendation.exists_reread h.recommended
  obtain ⟨previous, hrest', hfinite', hprevious⟩ := Recommendation.exists_reread h.previous
  refine ⟨{ r with recommended, previous }, ?_, ⟨hfinite, hfinite'⟩, ?_⟩
  · rw [outline, outline, hrest, hrest']
  · rw [reread, hrecommended, hprevious]
    rfl

/-- A record with any other fraction cannot be read. -/
theorem reread_error {r : RecoveryRecord} (h : ¬ r.Finite) :
    r.reread = .error (.wrongType .null "f32") := by
  rw [reread]
  by_cases hrecommended : r.recommended.Finite
  · obtain ⟨recommended, -, -, hread⟩ := Recommendation.exists_reread hrecommended
    rw [hread, Recommendation.reread_error fun hprevious => h ⟨hrecommended, hprevious⟩]
    rfl
  · rw [Recommendation.reread_error hrecommended]
    rfl

end RecoveryRecord

/-! ## Histories -/

namespace Store

variable {records : List RecoveryRecord}

/-- A history of finite fractions is read back, fractions aside. -/
theorem exists_ofText_historyCodec (h : ∀ r ∈ records, r.Finite) :
    ∃ read, read.map RecoveryRecord.outline = records.map RecoveryRecord.outline ∧
      (∀ r ∈ read, r.Finite) ∧
      historyCodec.ofText (historyCodec.write records).compact = .ok read := by
  rw [ofText_historyCodec]
  induction records with
  | nil => exact ⟨[], rfl, fun _ hr => absurd hr List.not_mem_nil, rfl⟩
  | cons r records ih =>
    obtain ⟨s, hrest, hfinite, hr⟩ := RecoveryRecord.exists_reread (h r List.mem_cons_self)
    obtain ⟨read, hread, hall, hrecords⟩ := ih fun s hs => h s (List.mem_cons_of_mem _ hs)
    refine ⟨s :: read, ?_, List.forall_mem_cons.mpr ⟨hfinite, hall⟩, ?_⟩
    · rw [List.map_cons, List.map_cons, hrest, hread]
    · rw [List.mapM_cons, hr, hrecords]
      rfl

/-- A history with any other fraction cannot be read. -/
theorem ofText_historyCodec_error {r : RecoveryRecord} (hr : r ∈ records) (h : ¬ r.Finite) :
    ∃ fault, historyCodec.ofText (historyCodec.write records).compact = .error fault := by
  rw [ofText_historyCodec]
  induction records with
  | nil => cases hr
  | cons first records ih =>
    rw [List.mapM_cons]
    cases hfirst : first.reread with
    | error fault => exact ⟨fault, rfl⟩
    | ok read =>
      rcases List.mem_cons.mp hr with rfl | hr
      · rw [RecoveryRecord.reread_error h] at hfirst
        cases hfirst
      · obtain ⟨fault, hfault⟩ := ih hr
        rw [hfault]
        exact ⟨fault, rfl⟩

variable {s t : Store} {task : String} {record : RecoveryRecord} {limit : Nat}

/-- The history of a task is these records: their text is there, or none
    are and nothing is there. -/
def HistoryIs (s : Store) (task : String) (records : List RecoveryRecord) : Prop :=
  s.history.get? task = some (historyCodec.write records).compact ∨
    records = [] ∧ s.history.get? task = none

theorem HistoryIs.congr (h : s.HistoryIs task records)
    (hsame : t.history.get? task = s.history.get? task) : t.HistoryIs task records := by
  rw [HistoryIs, hsame]
  exact h

/-- A history of finite fractions can be listed. -/
theorem HistoryIs.listHistory (h : s.HistoryIs task records) (hfinite : ∀ r ∈ records, r.Finite) :
    ∃ read, read.map RecoveryRecord.outline = records.map RecoveryRecord.outline ∧
      (∀ r ∈ read, r.Finite) ∧ s.listHistory task = .ok read := by
  rcases h with htext | ⟨rfl, hnone⟩
  · obtain ⟨read, hrest, hread, hok⟩ := exists_ofText_historyCodec hfinite
    refine ⟨read, hrest, hread, ?_⟩
    rw [Store.listHistory, lookup, htext]
    dsimp only
    rw [hok]
    rfl
  · refine ⟨[], rfl, hfinite, ?_⟩
    rw [Store.listHistory, lookup, hnone]
    rfl

/-- A history with any other fraction cannot be listed. -/
theorem HistoryIs.listHistory_error (h : s.HistoryIs task records) {r : RecoveryRecord}
    (hr : r ∈ records) (hfraction : ¬ r.Finite) : ∃ cause, s.listHistory task = .error cause := by
  rcases h with htext | ⟨rfl, -⟩
  · obtain ⟨fault, hfault⟩ := ofText_historyCodec_error hr hfraction
    refine ⟨.undecodable fault, ?_⟩
    rw [Store.listHistory, lookup, htext]
    dsimp only
    rw [hfault]
    rfl
  · cases hr

/-- A record is put in front of what a listing gives. -/
theorem appendHistory_eq (s : Store) (task : String) (record : RecoveryRecord) (limit : Nat) :
    s.appendHistory task record limit = (s.listHistory task).map fun earlier =>
      let text := (historyCodec.write ((record :: earlier).take limit)).compact
      { s with history := s.history.insert task text } := by
  rw [appendHistory, listHistory]
  cases lookup historyCodec s.history task with
  | error cause => rfl
  | ok earlier => rfl

/-- What the history is once a record was filed. -/
theorem historyIs_of_appendHistory (hlist : s.listHistory task = .ok records)
    (hok : s.appendHistory task record limit = .ok t) :
    t.HistoryIs task ((record :: records).take limit) := by
  rw [appendHistory_eq, hlist] at hok
  cases hok
  exact .inl (Dict.get?_insert_self ..)

/-- The history of a task after these records were filed, the newest first:
    it is those of them within the limit, fractions aside, as long as all
    fractions are finite, and one that cannot be read from then on. -/
structure Tracks (s : Store) (task : String) (limit : Nat) (filed : List RecoveryRecord) :
    Prop where
  legible : (∀ r ∈ filed, r.Finite) → ∃ records, s.HistoryIs task records ∧
    (∀ r ∈ records, r.Finite) ∧
    records.map RecoveryRecord.outline = (filed.take limit).map RecoveryRecord.outline
  spoiled : (∃ r ∈ filed, ¬ r.Finite) → ∃ records, s.HistoryIs task records ∧
    ∃ r ∈ records, ¬ r.Finite

namespace Tracks

variable {filed : List RecoveryRecord}

theorem nil (h : s.history.get? task = none) : s.Tracks task limit [] := by
  refine ⟨fun hfinite => ⟨[], .inr ⟨rfl, h⟩, hfinite, ?_⟩, ?_⟩
  · rw [List.take_nil]
  · rintro ⟨r, hr, -⟩
    cases hr

theorem congr (h : s.Tracks task limit filed)
    (hsame : t.history.get? task = s.history.get? task) : t.Tracks task limit filed := by
  refine ⟨fun hfinite => ?_, fun hspoiled => ?_⟩
  · obtain ⟨records, hhistory, hrecords⟩ := h.legible hfinite
    exact ⟨records, hhistory.congr hsame, hrecords⟩
  · obtain ⟨records, hhistory, hrecords⟩ := h.spoiled hspoiled
    exact ⟨records, hhistory.congr hsame, hrecords⟩

/-- While all fractions are finite, the newest records can be listed. -/
theorem listHistory (h : s.Tracks task limit filed) (hfinite : ∀ r ∈ filed, r.Finite) :
    ∃ records, s.listHistory task = .ok records ∧ (∀ r ∈ records, r.Finite) ∧
      records.map RecoveryRecord.outline = (filed.take limit).map RecoveryRecord.outline := by
  obtain ⟨records, hhistory, hrecords, hrest⟩ := h.legible hfinite
  obtain ⟨read, hread, hall, hok⟩ := hhistory.listHistory hrecords
  exact ⟨read, hok, hall, hread.trans hrest⟩

/-- Once a fraction is not, nothing can be listed. -/
theorem listHistory_error (h : s.Tracks task limit filed) (hspoiled : ∃ r ∈ filed, ¬ r.Finite) :
    ∃ cause, s.listHistory task = .error cause := by
  obtain ⟨records, hhistory, r, hr, hfraction⟩ := h.spoiled hspoiled
  exact hhistory.listHistory_error hr hfraction

/-- While all fractions are finite, any record can be filed. -/
theorem appendHistory (h : s.Tracks task limit filed) (hfinite : ∀ r ∈ filed, r.Finite)
    (record : RecoveryRecord) : ∃ t, s.appendHistory task record limit = .ok t := by
  obtain ⟨records, hok, -⟩ := h.listHistory hfinite
  rw [appendHistory_eq, hok]
  exact ⟨_, rfl⟩

/-- Once a fraction is not, no record can be filed. -/
theorem appendHistory_error (h : s.Tracks task limit filed) (hspoiled : ∃ r ∈ filed, ¬ r.Finite)
    (record : RecoveryRecord) : ∃ cause, s.appendHistory task record limit = .error cause := by
  obtain ⟨cause, hcause⟩ := h.listHistory_error hspoiled
  rw [appendHistory_eq, hcause]
  exact ⟨cause, rfl⟩

/-- A record that could be filed. -/
theorem cons (h : s.Tracks task limit filed) (hlimit : 0 < limit)
    (hok : s.appendHistory task record limit = .ok t) :
    t.Tracks task limit (record :: filed) := by
  have hfinite : ∀ r ∈ filed, r.Finite := by
    by_contra hnot
    push Not at hnot
    obtain ⟨cause, hcause⟩ := h.appendHistory_error hnot record
    rw [hok] at hcause
    cases hcause
  obtain ⟨records, hlist, hrecords, hrest⟩ := h.listHistory hfinite
  obtain ⟨kept, rfl⟩ : ∃ n, limit = n + 1 := Nat.exists_eq_succ_of_ne_zero hlimit.ne'
  have hhistory := historyIs_of_appendHistory hlist hok
  rw [List.take_succ_cons] at hhistory
  refine ⟨fun hall => ⟨_, hhistory, ?_, ?_⟩, fun hspoiled => ⟨_, hhistory, record, ?_, ?_⟩⟩
  · refine List.forall_mem_cons.mpr ⟨hall record List.mem_cons_self, fun r hr => ?_⟩
    exact hrecords r (List.mem_of_mem_take hr)
  · rw [List.take_succ_cons, List.map_cons, List.map_cons, List.map_take, hrest, ← List.map_take,
      List.take_take, Nat.min_eq_left (Nat.le_succ kept)]
  · exact List.mem_cons_self
  · obtain ⟨r, hr, hfraction⟩ := hspoiled
    rcases List.mem_cons.mp hr with rfl | hearlier
    · exact hfraction
    · exact absurd (hfinite r hearlier) hfraction

end Tracks

end Store

end ServingPlane
