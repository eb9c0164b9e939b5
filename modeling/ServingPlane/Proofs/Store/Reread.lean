import ServingPlane.Proofs.Store.Records

/-! # What the text of a history is read as

    Of a record only the two fractions are at stake when it is written and
    read: each comes back as what its own text is read as, or the record
    does not come back at all.  The rest of the record comes back as it
    was. -/

namespace ServingPlane

open Json Numeric

/-- A field is read, and the others after it into what it leads to. -/
theorem RecordShape.filling_optional {σ β : Type} {doc : Json → Document} {s : σ} {name : String}
    {c : Codec β} {get : σ → β} {set : β → σ → σ} {fs : List (Field σ)} {acc : σ} :
    filling doc s (.optional name c get set :: fs) acc
      = c.read (doc (c.write (get s))) >>= fun b => filling doc s fs (set b acc) := by
  rw [filling, List.foldlM_cons]
  show (c.read (doc (c.write (get s)))).map (set · acc) >>= _ = _
  cases c.read (doc (c.write (get s))) <;> rfl

@[inherit_doc RecordShape.filling_optional]
theorem RecordShape.filling_needed {σ β : Type} {doc : Json → Document} {s : σ} {name : String}
    {c : Codec β} {get : σ → β} {set : β → σ → σ} {fs : List (Field σ)} {acc : σ} :
    filling doc s (.needed name c get set :: fs) acc
      = c.read (doc (c.write (get s))) >>= fun b => filling doc s fs (set b acc) :=
  @RecordShape.filling_optional σ β doc s name c get set fs acc

/-! ## Fractions, recommendations and records -/

/-- What the text of a number is read as. -/
def Numeric.Single.reread (x : Single) : Except Fault Single :=
  Codec.single.read (Codec.single.write x).asText

namespace Recommendation

/-- What the text of a recommendation is read as. -/
def reread (r : Recommendation) : Except Fault Recommendation := do
  let fraction ← r.gpuMemoryUtilization.reread
  return { r with gpuMemoryUtilization := fraction }

theorem wellNamed_shape : shape.WellNamed := ⟨by decide, by decide⟩

theorem read_asText (r : Recommendation) : codec.read (codec.write r).asText = r.reread := by
  refine (wellNamed_shape.read_text r).trans ?_
  have hnumber : ∀ n : UInt32, Codec.uint32.read (Codec.uint32.write n).asText = .ok n :=
    Codec.returns_uint32 faithful_asText
  show RecordShape.filling asText r (.optional .. :: .optional .. :: .optional .. :: [.optional ..])
    blank = _
  simp only [RecordShape.filling_optional, hnumber]
  rw [reread, Numeric.Single.reread]
  cases Codec.single.read (Codec.single.write r.gpuMemoryUtilization).asText <;> rfl

theorem nesting_write (r : Recommendation) : (codec.write r).nesting = 1 := by
  have hsingle : (Codec.single.write r.gpuMemoryUtilization).nesting = 0 := by
    simp only [Codec.single]
    split <;> rfl
  show max 0 (max 0 (max (Codec.single.write r.gpuMemoryUtilization).nesting (max 0 0))) + 1 = 1
  rw [hsingle]
  rfl

end Recommendation

namespace RecoveryRecord

/-- What the text of a record is read as. -/
def reread (r : RecoveryRecord) : Except Fault RecoveryRecord := do
  let recommended ← r.recommended.reread
  let previous ← r.previous.reread
  return { r with recommended, previous }

theorem wellNamed_shape : shape.WellNamed := ⟨by decide, by decide⟩

theorem read_asText (r : RecoveryRecord) :
    shape.codec.read (shape.codec.write r).asText = r.reread := by
  refine (wellNamed_shape.read_text r).trans ?_
  have htime : Codec.int64.read (Codec.int64.write r.timestamp).asText = .ok r.timestamp :=
    Codec.returns_int64 faithful_asText _
  have hflag : Codec.bool.read (Codec.bool.write r.isAnomaly).asText = .ok r.isAnomaly :=
    Codec.returns_bool faithful_asText _
  show RecordShape.filling asText r (.needed .. :: .needed .. :: .needed .. :: [.needed ..])
    default = _
  simp only [RecordShape.filling_needed, htime, hflag, Recommendation.read_asText]
  rw [reread]
  cases r.recommended.reread with
  | error fault => rfl
  | ok recommended => cases r.previous.reread <;> rfl

theorem nesting_write (r : RecoveryRecord) : (shape.codec.write r).nesting = 2 := by
  show max 0 (max 0 (max (Recommendation.codec.write r.recommended).nesting
    (max (Recommendation.codec.write r.previous).nesting 0))) + 1 = 2
  rw [Recommendation.nesting_write, Recommendation.nesting_write]
  rfl

end RecoveryRecord

/-! ## Histories -/

namespace Store

theorem nesting_historyCodec (records : List RecoveryRecord) :
    (historyCodec.write records).nesting ≤ Document.maxDepth := by
  have hitems : itemsNesting (records.map RecoveryRecord.shape.codec.write) ≤ 2 :=
    itemsNesting_le fun v hv => by
      obtain ⟨r, -, rfl⟩ := List.mem_map.mp hv
      exact r.nesting_write.le
  show itemsNesting (records.map RecoveryRecord.shape.codec.write) + 1 ≤ Document.maxDepth
  have hdepth : Document.maxDepth = 127 := rfl
  omega

/-- The text of a history is read record by record. -/
theorem ofText_historyCodec (records : List RecoveryRecord) :
    historyCodec.ofText (historyCodec.write records).compact
      = records.mapM RecoveryRecord.reread := by
  have hitems : Codec.readItems RecoveryRecord.shape.codec.read
      ((records.map RecoveryRecord.shape.codec.write).map asText)
        = records.mapM RecoveryRecord.reread := by
    induction records with
    | nil => rfl
    | cons r records ih =>
      rw [List.map_cons, List.map_cons, Codec.readItems, ih, r.read_asText, List.mapM_cons]
  rw [Codec.ofText_compact (nesting_historyCodec records)]
  show historyCodec.read (asText (.array (records.map RecoveryRecord.shape.codec.write))) = _
  rw [asText, itemsAsText_eq_map]
  show (Codec.readItems RecoveryRecord.shape.codec.read _ >>= fun as => _) = _
  rw [hitems]
  exact bind_pure _

end Store

end ServingPlane
