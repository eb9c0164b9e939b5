import ServingPlane.Proofs.Queue.Steps

/-! # Appends and their tickets

    Appends under way are many, and each that has asked for a slot is
    known to the queue by its ticket alone.  No step confuses two of them:
    an append finds its own spec under its ticket, whatever the others do. -/

namespace ServingPlane.TaskQueue

variable {calls : Nat → Option (TaskSpec × AppendStage)} {q q' : TaskQueue}
  {i : Nat} {spec : TaskSpec} {stage after : AppendStage}

/-- Each of the given appends that has a ticket has one of its own. -/
structure Tracks (q : TaskQueue) (calls : Nat → Option (TaskSpec × AppendStage)) : Prop where
  issued : ∀ p ∈ q.tickets, p.1 < q.nextTicket
  distinct : (q.tickets.map Prod.fst).Nodup
  held : ∀ {i spec stage ticket}, calls i = some (spec, stage) → stage.ticket? = some ticket →
    (ticket, spec) ∈ q.tickets
  apart : ∀ {i j spec other stage stage' ticket}, calls i = some (spec, stage) →
    stage.ticket? = some ticket → calls j = some (other, stage') → stage'.ticket? = some ticket →
    i = j

/-- Not an append that has a ticket. -/
def Unlisted (call : Option (TaskSpec × AppendStage)) : Prop :=
  ∀ spec stage, call = some (spec, stage) → stage.ticket? = none

theorem unlisted_none : Unlisted none := fun _ _ hc => (nomatch hc)

theorem unlisted_some (h : stage.ticket? = none) : Unlisted (some (spec, stage)) := by
  rintro _ _ ⟨⟩
  exact h

namespace Tracks

theorem of_tickets (h : q.Tracks calls) (htickets : q'.tickets = q.tickets)
    (hnext : q'.nextTicket = q.nextTicket) : q'.Tracks calls where
  issued := by
    rw [htickets, hnext]
    exact h.issued
  distinct := htickets ▸ h.distinct
  held := fun hcall hticket => htickets ▸ h.held hcall hticket
  apart := h.apart

/-- An append that has a ticket, in a record where one that has none was put. -/
private theorem of_update {call : Option (TaskSpec × AppendStage)} (hcall : Unlisted call) {j : Nat}
    {other : TaskSpec} {ticket : Nat} (h : Function.update calls i call j = some (other, stage))
    (hticket : stage.ticket? = some ticket) : j ≠ i ∧ calls j = some (other, stage) := by
  by_cases hj : j = i
  · subst hj
    rw [Function.update_self] at h
    rw [hcall other stage h] at hticket
    exact nomatch hticket
  · rw [Function.update_of_ne hj] at h
    exact ⟨hj, h⟩

theorem unlist (h : q.Tracks calls) {call : Option (TaskSpec × AppendStage)}
    (hcall : Unlisted call) : q.Tracks (Function.update calls i call) where
  issued := h.issued
  distinct := h.distinct
  held := fun hj ht => h.held (of_update hcall hj ht).2 ht
  apart := fun hj ht hk ht' => h.apart (of_update hcall hj ht).2 ht (of_update hcall hk ht').2 ht'

/-- One that leaves takes its own ticket along and no other. -/
theorem leave (h : q.Tracks calls) {ticket : Nat} (hi : calls i = some (spec, stage))
    (hstage : stage.ticket? = some ticket) {call : Option (TaskSpec × AppendStage)}
    (hcall : Unlisted call) : (q.leave ticket).Tracks (Function.update calls i call) where
  issued := by
    rw [tickets_leave]
    exact fun p hp => h.issued p (List.mem_of_mem_filter hp)
  distinct := by
    rw [tickets_leave]
    exact h.distinct.sublist (List.filter_sublist.map _)
  held := by
    intro j other stage' ticket' hj ht
    obtain ⟨hne, hj⟩ := of_update hcall hj ht
    rw [tickets_leave]
    refine List.mem_filter.mpr ⟨h.held hj ht, decide_eq_true ?_⟩
    rintro rfl
    exact hne (h.apart hj ht hi hstage)
  apart := fun hj ht hk ht' => h.apart (of_update hcall hj ht).2 ht (of_update hcall hk ht').2 ht'

/-- One that moves on under the ticket it has. -/
theorem keep (h : q.Tracks calls) (hi : calls i = some (spec, stage))
    (hstage : after.ticket? = stage.ticket?) :
    q.Tracks (Function.update calls i (some (spec, after))) := by
  -- every append has the ticket that it had
  have hbefore : ∀ {j other stage'}, Function.update calls i (some (spec, after)) j
      = some (other, stage') → ∃ before, calls j = some (other, before) ∧
        before.ticket? = stage'.ticket? := by
    intro j other stage' hj
    by_cases hji : j = i
    · subst hji
      rw [Function.update_self] at hj
      cases hj
      exact ⟨stage, hi, hstage.symm⟩
    · rw [Function.update_of_ne hji] at hj
      exact ⟨stage', hj, rfl⟩
  refine ⟨h.issued, h.distinct, fun hj ht => ?_, fun hj ht hk ht' => ?_⟩
  · obtain ⟨_, hj, heq⟩ := hbefore hj
    exact h.held hj (heq.trans ht)
  · obtain ⟨_, hj, heq⟩ := hbefore hj
    obtain ⟨_, hk, heq'⟩ := hbefore hk
    exact h.apart hj (heq.trans ht) hk (heq'.trans ht')

/-- One that joins gets a ticket that nobody holds. -/
theorem join (h : q.Tracks calls) :
    (q.join spec).Tracks (Function.update calls i (some (spec, .waiting q.nextTicket))) := by
  -- tickets are given out in order, so the next one is nobody's
  have hnew : ∀ {j other stage}, calls j = some (other, stage) →
      stage.ticket? ≠ some q.nextTicket :=
    fun hj ht => Nat.lt_irrefl _ (h.issued _ (h.held hj ht))
  refine ⟨?_, ?_, fun {j other stage ticket} hj ht => ?_,
    fun {j k s s' stage stage' ticket} hj ht hk ht' => ?_⟩
  · rw [tickets_join]
    intro p hp
    show p.1 < q.nextTicket + 1
    rcases List.mem_append.mp hp with hp | hp
    · exact Nat.lt_succ_of_lt (h.issued p hp)
    · rw [List.mem_singleton.mp hp]
      exact Nat.lt_succ_self _
  · rw [tickets_join, List.map_append]
    refine h.distinct.append (List.nodup_singleton _) fun ticket hold hlast => ?_
    obtain ⟨p, hp, rfl⟩ := List.mem_map.mp hold
    exact Nat.ne_of_lt (h.issued p hp) (List.mem_singleton.mp hlast)
  · rw [tickets_join]
    by_cases hji : j = i
    · subst hji
      rw [Function.update_self] at hj
      cases hj
      cases ht
      exact List.mem_append_right _ (List.mem_singleton_self _)
    · rw [Function.update_of_ne hji] at hj
      exact List.mem_append_left _ (h.held hj ht)
  · by_cases hji : j = i
    · by_cases hki : k = i
      · exact hji.trans hki.symm
      · subst hji
        rw [Function.update_self] at hj
        rw [Function.update_of_ne hki] at hk
        cases hj
        cases ht
        exact absurd ht' (hnew hk)
    · rw [Function.update_of_ne hji] at hj
      by_cases hki : k = i
      · subst hki
        rw [Function.update_self] at hk
        cases hk
        cases ht'
        exact absurd ht (hnew hj)
      · rw [Function.update_of_ne hki] at hk
        exact h.apart hj ht hk ht'

/-- A step of one append keeps every ticket with its append. -/
theorem advance (h : q.Tracks calls) (hi : calls i = some (spec, stage)) :
    (q.advance spec stage).2.Tracks
      (Function.update calls i (some (spec, (q.advance spec stage).1))) := by
  have hstep := advance_step q spec stage
  generalize (q.advance spec stage).1 = after at hstep
  generalize (q.advance spec stage).2 = q' at hstep
  cases hstep with
  | replaced =>
    exact (h.of_tickets (tickets_record ..) (by rw [record_eq])).unlist (unlisted_some rfl)
  | missed => exact h.keep hi rfl
  | refused => exact h.keep hi rfl
  | joined => exact h.join
  | turnedAway ticket => exact h.leave hi rfl (unlisted_some rfl)
  | granted ticket => exact h.keep hi rfl
  | recorded ticket =>
    refine (h.leave hi rfl (unlisted_some rfl)).of_tickets ?_ ?_
    · rw [tickets_grant, tickets_record]
    · show ((q.leave ticket).record spec).nextTicket = _
      rw [record_eq]
  | still => exact h.keep hi rfl

/-- An append that is given up troubles no other. -/
theorem giveUp (h : q.Tracks calls) (hi : calls i = some (spec, stage))
    {call : Option (TaskSpec × AppendStage)} (hcall : Unlisted call) :
    (q.giveUp stage).Tracks (Function.update calls i call) := by
  cases stage with
  | waiting ticket => exact (h.leave hi rfl hcall).of_tickets (tickets_grant _) rfl
  | holding ticket => exact (h.leave hi rfl hcall).of_tickets (tickets_grant _) rfl
  | arrived => exact h.unlist hcall
  | absent => exact h.unlist hcall
  | ended result => exact h.unlist hcall
  | gone => exact h.unlist hcall

/-- The consumer takes no part in the tickets. -/
theorem consume (h : q.Tracks calls) (consumer : Consumer) :
    (q.consume consumer).2.1.Tracks calls := by
  simp only [TaskQueue.consume]
  cases consumer with
  | idle => exact h
  | receiving waits =>
    dsimp only
    cases q.channel with
    | nil =>
      dsimp only
      split
      · exact h
      · split
        · exact h
        · exact h
    | cons name rest => exact h.of_tickets (tickets_grant _) rfl
  | received waits name =>
    dsimp only
    cases q.pending.get? name with
    | none => exact h
    | some spec => exact h.of_tickets rfl rfl

end Tracks

end ServingPlane.TaskQueue
