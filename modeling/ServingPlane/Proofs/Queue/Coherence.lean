import ServingPlane.Proofs.Queue.Backlog

/-! # Channel and specs agree

    Names travel in the channel and specs wait beside it.  As long as the
    consumer is there, each name in the channel has its spec and each spec
    its name, counting the name that the consumer has taken already.  So
    the two together are a backlog, and each step changes it as a backlog
    should change. -/

namespace ServingPlane.TaskQueue

variable {q q' : TaskQueue} {taken rest : List String} {spec : TaskSpec} {name : String}

/-- The names in the channel, with those that the consumer has taken, are
    those that have a spec. -/
structure Coherent (q : TaskQueue) (taken : List String) : Prop where
  distinct : (taken ++ q.channel).Nodup
  names : ∀ name, name ∈ taken ++ q.channel ↔ ∃ spec, q.pending.get? name = some spec
  named : ∀ name spec, q.pending.get? name = some spec → spec.name = name

/-- The tasks that wait, in the order of their names, with their specs. -/
def backlog (q : TaskQueue) (taken : List String) : Backlog :=
  (taken ++ q.channel).filterMap fun name => (q.pending.get? name).map (name, ·)

theorem coherent_new (capacity : Nat) : (new capacity).Coherent [] where
  distinct := List.nodup_nil
  names := fun _ => ⟨fun h => absurd h List.not_mem_nil, fun ⟨_, h⟩ => (nomatch h)⟩
  named := fun _ _ h => (nomatch h)

/-- Neither looks at anything but channel and specs. -/
theorem backlog_congr (hchannel : q'.channel = q.channel) (hpending : q'.pending = q.pending) :
    q'.backlog taken = q.backlog taken := by
  simp only [backlog]
  rw [hchannel, hpending]

namespace Coherent

theorem congr (h : q.Coherent taken) (hchannel : q'.channel = q.channel)
    (hpending : q'.pending = q.pending) : q'.Coherent taken where
  distinct := hchannel ▸ h.distinct
  names := by
    rw [hchannel, hpending]
    exact h.names
  named := hpending ▸ h.named

/-- A name that waits, in channel and backlog. -/
theorem any_backlog (h : q.Coherent taken) (name : String) :
    (q.backlog taken).any (·.1 = name) = q.pending.contains name := by
  rw [Bool.eq_iff_iff, List.any_eq_true, Dict.contains_eq_true_iff]
  constructor
  · rintro ⟨e, he, hname⟩
    obtain ⟨other, -, hother⟩ := List.mem_filterMap.mp he
    obtain ⟨spec, hspec, rfl⟩ := Option.map_eq_some_iff.mp hother
    have hname : other = name := of_decide_eq_true hname
    exact ⟨spec, hname ▸ hspec⟩
  · rintro ⟨spec, hspec⟩
    refine ⟨(name, spec), List.mem_filterMap.mpr ⟨name, ?_, ?_⟩, decide_eq_true rfl⟩
    · exact (h.names name).mpr ⟨spec, hspec⟩
    · rw [hspec]
      rfl

theorem record (h : q.Coherent taken) (spec : TaskSpec) : (q.record spec).Coherent taken := by
  rw [record_eq]
  refine ⟨?_, fun name => ?_, fun name other => ?_⟩
  · by_cases hwaits : q.pending.contains spec.name = true
    · dsimp only
      rw [if_pos hwaits]
      exact h.distinct
    · dsimp only
      rw [if_neg hwaits, ← List.append_assoc]
      refine h.distinct.append (List.nodup_singleton _) fun name hold hlast => hwaits ?_
      rw [← List.mem_singleton.mp hlast]
      exact Dict.contains_eq_true_iff.mpr ((h.names name).mp hold)
  · dsimp only
    rw [Dict.get?_insert]
    by_cases hname : name = spec.name
    · rw [if_pos hname, hname]
      refine ⟨fun _ => ⟨spec, rfl⟩, fun _ => ?_⟩
      by_cases hwaits : q.pending.contains spec.name = true
      · rw [if_pos hwaits]
        exact (h.names _).mpr (Dict.contains_eq_true_iff.mp hwaits)
      · rw [if_neg hwaits]
        exact List.mem_append_right _ (List.mem_append_right _ (List.mem_singleton_self _))
    · rw [if_neg hname, ← h.names]
      by_cases hwaits : q.pending.contains spec.name = true
      · rw [if_pos hwaits]
      · rw [if_neg hwaits, ← List.append_assoc, List.mem_append, List.mem_singleton,
          or_iff_left hname]
  · dsimp only
    rw [Dict.get?_insert]
    by_cases hname : name = spec.name
    · rw [if_pos hname]
      intro heq
      rw [← Option.some.inj heq, hname]
    · rw [if_neg hname]
      exact h.named name other

/-- Recording a spec appends it to the backlog. -/
theorem backlog_record (h : q.Coherent taken) (spec : TaskSpec) :
    (q.record spec).backlog taken = (q.backlog taken).append spec := by
  simp only [Backlog.append]
  rw [h.any_backlog, record_eq]
  by_cases hwaits : q.pending.contains spec.name = true
  · rw [if_pos hwaits, if_pos hwaits]
    unfold backlog
    -- its name stays where it is, and what is looked up under it changes
    rw [List.map_filterMap]
    refine congrArg (List.filterMap · _) (funext fun name => ?_)
    dsimp only
    rw [Dict.get?_insert]
    by_cases hname : name = spec.name
    · obtain ⟨old, hold⟩ := Dict.contains_eq_true_iff.mp hwaits
      rw [if_pos hname, hname, hold]
      show _ = some (if spec.name = spec.name then (spec.name, spec) else (spec.name, old))
      rw [if_pos rfl]
      rfl
    · rw [if_neg hname]
      cases q.pending.get? name with
      | none => rfl
      | some old =>
        show _ = some (if name = spec.name then (name, spec) else (name, old))
        rw [if_neg hname]
        rfl
  · rw [if_neg hwaits, if_neg hwaits]
    simp only [backlog]
    -- what is looked up under the other names stays the same
    rw [← List.append_assoc, List.filterMap_append]
    refine congrArg₂ (· ++ ·) (List.filterMap_congr fun name hname => ?_) ?_
    · have hne : name ≠ spec.name := by
        rintro rfl
        exact hwaits (Dict.contains_eq_true_iff.mpr ((h.names _).mp hname))
      rw [Dict.get?_insert_of_ne _ _ hne]
    · rw [List.filterMap_cons, Dict.get?_insert_self]
      rfl

/-- Taking a name from the channel changes nothing as yet. -/
theorem receive (h : q.Coherent []) (hchannel : q.channel = name :: rest) :
    { q with channel := rest }.grant.Coherent [name] where
  distinct := by
    have hdistinct := h.distinct
    rw [List.nil_append, hchannel] at hdistinct
    exact hdistinct
  names := by
    intro other
    have hother := h.names other
    rw [List.nil_append, hchannel] at hother
    exact hother
  named := h.named

theorem backlog_receive (hchannel : q.channel = name :: rest) :
    { q with channel := rest }.grant.backlog [name] = q.backlog [] := by
  simp only [backlog]
  rw [List.nil_append, hchannel]
  rfl

/-- A name that was taken from the channel has a spec. -/
theorem spec_of_taken (h : q.Coherent [name]) : ∃ spec, q.pending.get? name = some spec :=
  (h.names name).mp (List.mem_append_left _ (List.mem_singleton_self _))

theorem hand (h : q.Coherent [name]) :
    ({ q with pending := q.pending.erase name } : TaskQueue).Coherent [] where
  distinct := (List.nodup_cons.mp h.distinct).2
  names := by
    intro other
    show other ∈ q.channel ↔ ∃ spec, (q.pending.erase name).get? other = some spec
    rw [Dict.get?_erase]
    by_cases hother : other = name
    · rw [if_pos hother, hother]
      exact ⟨fun hmem => absurd hmem (List.nodup_cons.mp h.distinct).1, fun ⟨_, hc⟩ => (nomatch hc)⟩
    · rw [if_neg hother, ← h.names]
      exact ⟨List.mem_cons_of_mem _, fun hmem => (List.mem_cons.mp hmem).resolve_left hother⟩
  named := by
    intro other spec hget
    exact h.named other spec (Dict.get?_of_get?_erase hget)

/-- Handing a spec over takes the front of the backlog. -/
theorem backlog_hand (h : q.Coherent [name]) (hspec : q.pending.get? name = some spec) :
    q.backlog [name]
      = (name, spec) :: ({ q with pending := q.pending.erase name } : TaskQueue).backlog [] := by
  unfold backlog
  rw [List.cons_append, List.filterMap_cons, hspec]
  refine congrArg ((name, spec) :: ·) (List.filterMap_congr fun other hother => ?_)
  have hne : other ≠ name := by
    rintro rfl
    exact (List.nodup_cons.mp h.distinct).1 hother
  dsimp only
  rw [Dict.get?_erase_of_ne _ hne]

/-- A take is handed the spec of the first name, and leaves the others. -/
theorem pop_cons (h : q.Coherent []) (hchannel : q.channel = name :: rest) :
    ∃ spec, q.pop = (.spec spec, ({ q with
        channel := rest, pending := q.pending.erase name } : TaskQueue).grant) ∧
      ({ q with channel := rest, pending := q.pending.erase name } : TaskQueue).grant.Coherent [] ∧
      q.backlog [] = (name, spec) :: ({ q with
        channel := rest, pending := q.pending.erase name } : TaskQueue).grant.backlog [] := by
  obtain ⟨spec, hspec⟩ := (h.names name).mp (hchannel ▸ List.mem_cons_self)
  have hreceived := h.receive hchannel
  refine ⟨spec, ?_, hreceived.hand.congr rfl rfl, ?_⟩
  · simp only [pop]
    rw [hchannel, takeFirst, hspec]
  · rw [← backlog_receive hchannel, hreceived.backlog_hand hspec]
    exact congrArg ((name, spec) :: ·) (backlog_congr rfl rfl)

/-- A step of an append keeps channel and specs together, and appends to
    the backlog when it takes effect. -/
theorem step {stage after : AppendStage} (h : q.Coherent taken)
    (hstep : AppendStep q spec stage after q') :
    q'.Coherent taken ∧ q'.backlog taken
      = if stage.takesEffect after then (q.backlog taken).append spec else q.backlog taken := by
  cases hstep with
  | replaced => exact ⟨h.record spec, h.backlog_record spec⟩
  | missed => exact ⟨h, rfl⟩
  | refused => exact ⟨h, rfl⟩
  | joined => exact ⟨h.congr rfl rfl, backlog_congr rfl rfl⟩
  | turnedAway => exact ⟨h.congr rfl rfl, backlog_congr rfl rfl⟩
  | granted => exact ⟨h, rfl⟩
  | recorded ticket =>
    have hleft : (q.leave ticket).Coherent taken := h.congr rfl rfl
    exact ⟨(hleft.record spec).congr rfl rfl,
      (backlog_congr rfl rfl).trans (hleft.backlog_record spec)⟩
  | still stage =>
    rw [AppendStage.takesEffect_self, if_neg Bool.false_ne_true]
    exact ⟨h, rfl⟩

end Coherent

end ServingPlane.TaskQueue
