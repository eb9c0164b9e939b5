import ServingPlane.Proofs.Queue.Coherence
import ServingPlane.Proofs.Queue.Slots

/-! # Appends that are dropped while they wait

    Whoever waits stands behind a full channel and holds nothing, so that
    dropping one who waits changes neither what the others are told nor
    what they find.  Two runs are compared, with and without the append
    that is dropped: at every moment they differ by its place in the line
    alone, since it never came to the front while there was room. -/

namespace ServingPlane

namespace TaskQueue

variable {q : TaskQueue} {spec : TaskSpec}

/-- While the consumer is there, channel and specs agree and the channel is
    not overfull; and never are there more specs than slots. -/
structure Stocked (q : TaskQueue) : Prop where
  coherent : q.closed = false → q.Coherent []
  within : q.closed = false → q.channel.length ≤ q.capacity
  few : q.pending.size ≤ q.capacity

theorem Coherent.mem_keys (h : q.Coherent []) (name : String) :
    name ∈ q.channel ↔ name ∈ q.pending.keys := by
  rw [Dict.mem_keys_iff]
  exact h.names name

theorem Coherent.size_eq (h : q.Coherent []) : q.pending.size = q.channel.length := by
  have hperm : q.channel.Perm q.pending.keys :=
    (List.perm_ext_iff_of_nodup h.distinct q.pending.keys_nodup).mpr h.mem_keys
  rw [hperm.length_eq]
  exact (List.length_map _).symm

/-- Channel and specs agree, and the channel is not overfull. -/
theorem Stocked.of_coherent (hcoherent : q.Coherent []) (hwithin : q.channel.length ≤ q.capacity) :
    q.Stocked where
  coherent := fun _ => hcoherent
  within := fun _ => hwithin
  few := hcoherent.size_eq ▸ hwithin

theorem stocked_new (capacity : Nat) : (new capacity).Stocked :=
  .of_coherent (coherent_new capacity) (Nat.zero_le _)

/-- A spec is replaced, or gets a free slot. -/
theorem Stocked.record (h : q.Stocked)
    (hroom : q.pending.contains spec.name = true ∨
      q.closed = false ∧ q.channel.length < q.capacity) : (q.record spec).Stocked := by
  cases hclosed : q.closed with
  | false =>
    refine .of_coherent ((h.coherent hclosed).record spec) ?_
    have hwithin := h.within hclosed
    rw [record_eq]
    dsimp only
    rcases hroom with hwaits | ⟨-, hfree⟩
    · rw [if_pos hwaits]
      exact hwithin
    · split
      · exact hwithin
      · simp
        omega
  | true =>
    have hwaits : q.pending.contains spec.name = true := by
      rcases hroom with hwaits | ⟨hopen, -⟩
      · exact hwaits
      · cases hclosed.symm.trans hopen
    -- the names that wait stay the same
    have hsize : (q.pending.insert spec.name spec).size = q.pending.size := by
      have hperm : (q.pending.insert spec.name spec).keys.Perm q.pending.keys := by
        refine (List.perm_ext_iff_of_nodup (Dict.keys_nodup _) (Dict.keys_nodup _)).mpr ?_
        intro name
        rw [Dict.mem_keys_insert]
        refine ⟨fun h => h.elim (fun heq => ?_) id, .inr⟩
        rw [heq]
        exact Dict.mem_keys_iff.mpr (Dict.contains_eq_true_iff.mp hwaits)
      have hlength := hperm.length_eq
      simp only [Dict.keys, List.length_map] at hlength
      exact hlength
    rw [record_eq]
    refine ⟨fun hopen => ?_, fun hopen => ?_, ?_⟩
    · cases hclosed.symm.trans hopen
    · cases hclosed.symm.trans hopen
    · dsimp only
      rw [hsize]
      exact h.few

theorem Stocked.pop (h : q.Stocked) (hopen : q.closed = false) : q.pop.2.Stocked := by
  have hcoherent := h.coherent hopen
  have hwithin := h.within hopen
  cases hchannel : q.channel with
  | nil =>
    have hpop : q.pop.2 = q.grant := by
      simp only [TaskQueue.pop]
      rw [hchannel]
      exact congrArg (fun l => ({ q with channel := l } : TaskQueue).grant) hchannel.symm
    rw [hpop]
    exact .of_coherent (hcoherent.congr rfl rfl) hwithin
  | cons name rest =>
    obtain ⟨spec, hpop, hrest, -⟩ := hcoherent.pop_cons hchannel
    rw [hpop]
    refine .of_coherent hrest ?_
    rw [hchannel] at hwithin
    exact Nat.le_of_succ_le hwithin

theorem Stocked.close (h : q.Stocked) : q.close.Stocked where
  coherent := fun hopen => by cases hopen
  within := fun hopen => by cases hopen
  few := h.few

end TaskQueue

namespace QueueLine

variable {k : QueueLine} {id : Nat} {spec : TaskSpec}

/-! ## The line between two steps -/

/-- What holds whatever is asked: nobody waits at the core, whose capacity
    stays, and the numbers in line are distinct. -/
structure Kept (capacity : Nat) (k : QueueLine) : Prop where
  stocked : k.core.Stocked
  unattended : k.core.waiting = []
  capacity : k.core.capacity = capacity
  distinct : (k.line.map Prod.fst).Nodup

/-- Between two steps, there is a line only before a full channel. -/
structure Sound (capacity : Nat) (k : QueueLine) : Prop extends Kept capacity k where
  full : k.line ≠ [] → k.core.closed = false ∧ k.core.capacity ≤ k.core.channel.length

/-- Without the one who waits under a number. -/
def without (k : QueueLine) (id : Nat) : QueueLine :=
  { k with line := k.line.filter (·.1 ≠ id) }

/-- An append replaces a spec, gets a slot, is refused, or has to wait. -/
theorem append_cases (h : k.core.waiting = []) (spec : TaskSpec) :
    (k.append spec = (.ended .accepted, { k with core := k.core.record spec }) ∧
      (k.core.pending.contains spec.name = true ∨
        k.core.closed = false ∧ k.core.channel.length < k.core.capacity)) ∨
    k.append spec = (.ended .closed, k) ∨
    k.append spec = (.blocked, k) ∧ k.core.closed = false ∧
      k.core.capacity ≤ k.core.channel.length := by
  have hslots : k.core.freeSlots = k.core.capacity - k.core.channel.length := by
    refine TaskQueue.Unheld.freeSlots fun w hw => ?_
    rw [h] at hw
    exact absurd hw List.not_mem_nil
  simp only [append, TaskQueue.append]
  by_cases hwaits : k.core.pending.contains spec.name = true
  · rw [if_pos hwaits]
    exact .inl ⟨rfl, .inl hwaits⟩
  rw [if_neg hwaits]
  by_cases hclosed : k.core.closed = true
  · rw [if_pos hclosed]
    exact .inr (.inl rfl)
  rw [if_neg hclosed]
  have hopen : k.core.closed = false := Bool.eq_false_iff.mpr hclosed
  by_cases hfree : 0 < k.core.freeSlots
  · rw [if_pos hfree]
    rw [hslots] at hfree
    exact .inl ⟨rfl, .inr ⟨hopen, by omega⟩⟩
  · rw [if_neg hfree]
    rw [hslots] at hfree
    exact .inr (.inr ⟨rfl, hopen, by omega⟩)

variable {capacity : Nat}

theorem Kept.record (h : k.Kept capacity)
    (hroom : k.core.pending.contains spec.name = true ∨
      k.core.closed = false ∧ k.core.channel.length < k.core.capacity) :
    ({ k with core := k.core.record spec } : QueueLine).Kept capacity where
  stocked := h.stocked.record hroom
  unattended := (TaskQueue.waiting_record _ _).trans h.unattended
  capacity := by
    rw [TaskQueue.record_eq]
    exact h.capacity
  distinct := h.distinct

theorem Kept.append (h : k.Kept capacity) (spec : TaskSpec) : (k.append spec).2.Kept capacity := by
  rcases append_cases h.unattended spec with ⟨heq, hroom⟩ | heq | ⟨heq, -⟩
  · rw [heq]
    exact h.record hroom
  · rw [heq]
    exact h
  · rw [heq]
    exact h

theorem line_append (k : QueueLine) (spec : TaskSpec) : (k.append spec).2.line = k.line := by
  simp only [append]
  cases k.core.append spec with
  | mk start core =>
    cases start with
    | finished result => rfl
    | waits ticket => rfl

/-- An append that may wait does nothing, or as much as one that may not,
    or joins the line. -/
theorem act_wait_cases (k : QueueLine) (id : Nat) (spec : TaskSpec) :
    (k.act (.wait id spec)).2 = k ∨ (k.act (.wait id spec)).2 = (k.append spec).2 ∨
    (k.act (.wait id spec)).2 = { k with line := k.line ++ [(id, spec)] } ∧
      ¬k.line.any (·.1 = id) = true := by
  simp only [QueueLine.act]
  by_cases hid : k.line.any (·.1 = id) = true
  · rw [if_pos hid]
    exact .inl rfl
  · rw [if_neg hid]
    cases k.append spec with
    | mk answer after =>
      cases answer with
      | blocked => exact .inr (.inr ⟨rfl, hid⟩)
      | ended => exact .inr (.inl rfl)
      | cancelled => exact .inr (.inl rfl)
      | taken => exact .inr (.inl rfl)
      | none => exact .inr (.inl rfl)

theorem Kept.act (h : k.Kept capacity) (op : QueueOp) : (k.act op).2.Kept capacity := by
  cases op with
  | append spec => exact h.append spec
  | wait id spec =>
    rcases act_wait_cases k id spec with heq | heq | ⟨heq, hid⟩
    · rw [heq]
      exact h
    · rw [heq]
      exact h.append spec
    · rw [heq]
      refine ⟨h.stocked, h.unattended, h.capacity, ?_⟩
      simp only [List.map_append, List.map_cons, List.map_nil]
      rw [← List.concat_eq_append]
      exact h.distinct.concat (not_mem_of_any_eq_false hid)
  | cancel id =>
    exact ⟨h.stocked, h.unattended, h.capacity,
      h.distinct.sublist (List.filter_sublist.map Prod.fst)⟩
  | take waits =>
    simp only [QueueLine.act]
    by_cases hclosed : k.core.closed = true
    · rw [if_pos hclosed]
      exact h
    · rw [if_neg hclosed]
      obtain ⟨hwaiting, -, -, hcapacity⟩ := TaskQueue.takeFirst_frame k.core.channel k.core
      refine ⟨h.stocked.pop (Bool.eq_false_iff.mpr hclosed), ?_, ?_, h.distinct⟩
      · dsimp only
        rw [TaskQueue.pop_eq_grant, TaskQueue.grant_of_nil (hwaiting.trans h.unattended)]
        exact hwaiting.trans h.unattended
      · dsimp only
        rw [TaskQueue.pop_eq_grant]
        exact hcapacity.trans h.capacity
  | close => exact ⟨h.stocked.close, h.unattended, h.capacity, h.distinct⟩

theorem enter_of_full (line : List (Nat × TaskSpec)) {core : TaskQueue}
    (h : core.capacity ≤ core.channel.length) : enter line core = ([], ⟨core, line⟩) := by
  cases line with
  | nil => rfl
  | cons first line => exact if_neg (Nat.not_lt.mpr h)

/-- Those who are entered come from the front. -/
theorem enter_suffix (line : List (Nat × TaskSpec)) (core : TaskQueue) :
    (enter line core).2.line <:+ line := by
  induction line generalizing core with
  | nil => exact List.suffix_refl _
  | cons first line ih =>
    by_cases hroom : core.channel.length < core.capacity
    · obtain ⟨id, spec⟩ := first
      simp only [enter]
      rw [if_pos hroom]
      exact (ih _).trans (List.suffix_cons _ _)
    · have hstay := enter_of_full (first :: line) (Nat.not_lt.mp hroom)
      exact hstay.symm ▸ List.suffix_refl (first :: line)

/-- Whoever remains stands before a full channel. -/
theorem Kept.enter {line : List (Nat × TaskSpec)} {core : TaskQueue}
    (h : (QueueLine.mk core line).Kept capacity) (hopen : core.closed = false) :
    (QueueLine.enter line core).2.Sound capacity := by
  induction line generalizing core with
  | nil => exact ⟨h, fun hne => absurd rfl hne⟩
  | cons first line ih =>
    obtain ⟨id, spec⟩ := first
    simp only [QueueLine.enter]
    by_cases hroom : core.channel.length < core.capacity
    · rw [if_pos hroom]
      have hrest : (QueueLine.mk core line).Kept capacity :=
        ⟨h.stocked, h.unattended, h.capacity, (List.nodup_cons.mp h.distinct).2⟩
      exact ih (hrest.record (.inr ⟨hopen, hroom⟩)) ((TaskQueue.closed_record _ _).trans hopen)
    · rw [if_neg hroom]
      exact ⟨h, fun _ => ⟨hopen, Nat.le_of_not_lt hroom⟩⟩

theorem settle_suffix (k : QueueLine) : k.settle.2.line <:+ k.line := by
  simp only [settle]
  by_cases hclosed : k.core.closed = true
  · rw [if_pos hclosed]
    exact List.nil_suffix
  · rw [if_neg hclosed]
    exact enter_suffix _ _

theorem Kept.settle (h : k.Kept capacity) : k.settle.2.Sound capacity := by
  simp only [QueueLine.settle]
  by_cases hclosed : k.core.closed = true
  · rw [if_pos hclosed]
    refine ⟨⟨h.stocked, h.unattended, h.capacity, List.nodup_nil⟩, ?_⟩
    intro hne
    exact absurd rfl hne
  · rw [if_neg hclosed]
    exact h.enter (Bool.eq_false_iff.mpr hclosed)

theorem Sound.step (h : k.Sound capacity) (op : QueueOp) : (k.step op).2.Sound capacity :=
  (h.toKept.act op).settle

theorem Sound.serveAll (h : k.Sound capacity) (ops : List QueueOp) :
    (serveAll QueueLine.step ops k).2.Sound capacity := by
  induction ops generalizing k with
  | nil => exact h
  | cons op ops ih => exact ih (h.step op)

/-! ## Whether the consumer is there -/

theorem closed_enter (line : List (Nat × TaskSpec)) (core : TaskQueue) :
    (enter line core).2.core.closed = core.closed := by
  induction line generalizing core with
  | nil => rfl
  | cons first line ih =>
    obtain ⟨id, spec⟩ := first
    simp only [enter]
    by_cases hroom : core.channel.length < core.capacity
    · rw [if_pos hroom]
      exact (ih _).trans (TaskQueue.closed_record _ _)
    · rw [if_neg hroom]

theorem closed_settle (k : QueueLine) : k.settle.2.core.closed = k.core.closed := by
  simp only [settle]
  by_cases hclosed : k.core.closed = true
  · rw [if_pos hclosed]
  · rw [if_neg hclosed]
    exact closed_enter _ _

theorem closed_append (h : k.core.waiting = []) (spec : TaskSpec) :
    (k.append spec).2.core.closed = k.core.closed := by
  rcases append_cases h spec with ⟨heq, -⟩ | heq | ⟨heq, -⟩
  · rw [heq]
    exact TaskQueue.closed_record _ _
  · rw [heq]
  · rw [heq]

/-- The consumer is gone when it goes, and then for good. -/
theorem Kept.closed_step (h : k.Kept capacity) (op : QueueOp) :
    (k.step op).2.core.closed = true ↔ op = .close ∨ k.core.closed = true := by
  have hstays : ∀ {b : Bool}, op ≠ .close → b = k.core.closed →
      (b = true ↔ op = .close ∨ k.core.closed = true) := by
    rintro _ hop rfl
    exact (or_iff_right hop).symm
  have hsettle : (k.step op).2.core.closed = (k.act op).2.core.closed := closed_settle _
  rw [hsettle]
  cases op with
  | append spec => exact hstays QueueOp.noConfusion (closed_append h.unattended spec)
  | wait id spec =>
    refine hstays QueueOp.noConfusion ?_
    rcases act_wait_cases k id spec with heq | heq | ⟨heq, -⟩
    · rw [heq]
    · rw [heq]
      exact closed_append h.unattended spec
    · rw [heq]
  | cancel id => exact hstays QueueOp.noConfusion rfl
  | take waits =>
    refine hstays QueueOp.noConfusion ?_
    simp only [QueueLine.act]
    by_cases hclosed : k.core.closed = true
    · rw [if_pos hclosed]
    · rw [if_neg hclosed, TaskQueue.pop_eq_grant]
      exact (TaskQueue.takeFirst_frame k.core.channel k.core).2.2.1
  | close => exact ⟨fun _ => .inl rfl, fun _ => rfl⟩

theorem Sound.closed_serveAll (h : k.Sound capacity) (ops : List QueueOp) :
    (ServingPlane.serveAll QueueLine.step ops k).2.core.closed = true ↔
      .close ∈ ops ∨ k.core.closed = true := by
  induction ops generalizing k with
  | nil => exact (or_iff_right List.not_mem_nil).symm
  | cons op ops ih =>
    refine (ih (h.step op)).trans ?_
    rw [h.toKept.closed_step op, List.mem_cons, eq_comm (a := op), or_left_comm, or_assoc]

/-! ## With and without one who waits -/

/-- Who waits after a step about others waited before it. -/
theorem mem_line_of_step {op : QueueOp} (hop : op.id? ≠ some id)
    (hmem : id ∈ (k.step op).2.line.map Prod.fst) : id ∈ k.line.map Prod.fst := by
  have hacted : id ∈ (k.act op).2.line.map Prod.fst :=
    ((settle_suffix _).sublist.map Prod.fst).subset hmem
  cases op with
  | append spec =>
    simp only [QueueLine.act] at hacted
    rw [line_append] at hacted
    exact hacted
  | wait other spec =>
    have hne : id ≠ other := fun heq => hop (congrArg some heq.symm)
    rcases act_wait_cases k other spec with heq | heq | ⟨heq, -⟩
    · rw [heq] at hacted
      exact hacted
    · rw [heq, line_append] at hacted
      exact hacted
    · rw [heq] at hacted
      simpa [hne] using hacted
  | cancel other => exact (List.filter_sublist.map Prod.fst).subset hacted
  | take waits =>
    simp only [QueueLine.act] at hacted
    by_cases hclosed : k.core.closed = true
    · rw [if_pos hclosed] at hacted
      exact hacted
    · rw [if_neg hclosed] at hacted
      exact hacted
  | close => exact hacted

theorem any_without {other : Nat} (h : other ≠ id) :
    (k.without id).line.any (·.1 = other) = k.line.any (·.1 = other) := by
  simp only [without, List.any_filter]
  refine congrArg k.line.any (funext fun w => ?_)
  by_cases hw : w.1 = other
  · simp [hw, h]
  · simp [hw]

/-- Before anyone is let on, a step about others is not changed by one who waits. -/
theorem act_without {op : QueueOp} (hop : op.id? ≠ some id) :
    (k.without id).act op = ((k.act op).1, (k.act op).2.without id) := by
  have happend : ∀ spec,
      (k.without id).append spec = ((k.append spec).1, (k.append spec).2.without id) := by
    intro spec
    simp only [append, without]
    cases hcore : k.core.append spec with
    | mk start core =>
      cases start with
      | finished result => rfl
      | waits ticket => rfl
  cases op with
  | append spec => exact happend spec
  | wait other spec =>
    have hne : other ≠ id := fun heq => hop (congrArg some heq)
    simp only [QueueLine.act]
    rw [any_without hne]
    by_cases hother : k.line.any (·.1 = other) = true
    · rw [if_pos hother, if_pos hother]
    · rw [if_neg hother, if_neg hother, happend]
      cases hanswer : k.append spec with
      | mk answer after =>
        cases answer with
        | blocked => simp [without, hne]
        | ended => rfl
        | cancelled => rfl
        | taken => rfl
        | none => rfl
  | cancel other =>
    have hne : other ≠ id := fun heq => hop (congrArg some heq)
    simp only [QueueLine.act]
    rw [any_without hne]
    simp only [without, List.filter_filter]
    refine congrArg (Prod.mk _) (congrArg (QueueLine.mk _) ?_)
    exact List.filter_congr fun w _ => Bool.and_comm _ _
  | take waits =>
    have hcore : (k.without id).core = k.core := rfl
    simp only [QueueLine.act]
    rw [hcore]
    by_cases hclosed : k.core.closed = true
    · rw [if_pos hclosed, if_pos hclosed]
    · rw [if_neg hclosed, if_neg hclosed]
      rfl
  | close => rfl

/-- One who is not let on changes nothing for those who are. -/
theorem enter_without {line : List (Nat × TaskSpec)} {core : TaskQueue}
    (hdistinct : (line.map Prod.fst).Nodup)
    (hmem : id ∈ (enter line core).2.line.map Prod.fst) :
    enter (line.filter (·.1 ≠ id)) core
      = ((enter line core).1, (enter line core).2.without id) := by
  induction line generalizing core with
  | nil => exact absurd hmem List.not_mem_nil
  | cons first line ih =>
    obtain ⟨other, spec⟩ := first
    obtain ⟨hfresh, hrest⟩ := List.nodup_cons.mp hdistinct
    by_cases hroom : core.channel.length < core.capacity
    · have henter : enter ((other, spec) :: line) core
          = ((other, .accepted) :: (enter line (core.record spec)).1,
            (enter line (core.record spec)).2) := if_pos hroom
      rw [henter] at hmem ⊢
      -- the one who is let on is another, since this one still waits
      have hne : other ≠ id := by
        rintro rfl
        exact hfresh (((enter_suffix _ _).sublist.map Prod.fst).subset hmem)
      have hfilter : ((other, spec) :: line).filter (·.1 ≠ id)
          = (other, spec) :: line.filter (·.1 ≠ id) :=
        List.filter_cons_of_pos (decide_eq_true hne)
      have hothers : enter ((other, spec) :: line.filter (·.1 ≠ id)) core
          = ((other, .accepted) :: (enter (line.filter (·.1 ≠ id)) (core.record spec)).1,
            (enter (line.filter (·.1 ≠ id)) (core.record spec)).2) := if_pos hroom
      rw [hfilter, hothers, ih hrest hmem]
    · have hfull : core.capacity ≤ core.channel.length := Nat.le_of_not_lt hroom
      rw [enter_of_full _ hfull, enter_of_full _ hfull]
      rfl

theorem settle_without (hdistinct : (k.line.map Prod.fst).Nodup)
    (hmem : id ∈ k.settle.2.line.map Prod.fst) :
    (k.without id).settle = (k.settle.1, k.settle.2.without id) := by
  have hcore : (k.without id).core = k.core := rfl
  simp only [settle] at hmem ⊢
  rw [hcore]
  by_cases hclosed : k.core.closed = true
  · rw [if_pos hclosed] at hmem
    exact absurd hmem List.not_mem_nil
  · rw [if_neg hclosed] at hmem
    rw [if_neg hclosed, if_neg hclosed]
    exact enter_without hdistinct hmem

/-- A step about others is answered the same with and without one who
    still waits after it. -/
theorem step_without (h : k.Kept capacity) {op : QueueOp} (hop : op.id? ≠ some id)
    (hmem : id ∈ (k.step op).2.line.map Prod.fst) :
    (k.without id).step op = ((k.step op).1, (k.step op).2.without id) := by
  simp only [step] at hmem ⊢
  rw [act_without hop, settle_without (h.act op).distinct hmem]

theorem mem_line_of_serveAll {ops : List QueueOp}
    (hops : ∀ op ∈ ops, op.id? ≠ some id)
    (hmem : id ∈ (serveAll step ops k).2.line.map Prod.fst) : id ∈ k.line.map Prod.fst := by
  induction ops generalizing k with
  | nil => exact hmem
  | cons op ops ih =>
    have hstep := ih (fun x hx => hops x (List.mem_cons_of_mem _ hx)) hmem
    exact mem_line_of_step (hops op List.mem_cons_self) hstep

/-- So are any number of steps. -/
theorem serveAll_without (h : k.Sound capacity) {ops : List QueueOp}
    (hops : ∀ op ∈ ops, op.id? ≠ some id)
    (hmem : id ∈ (serveAll step ops k).2.line.map Prod.fst) :
    serveAll step ops (k.without id)
      = ((serveAll step ops k).1, (serveAll step ops k).2.without id) := by
  induction ops generalizing k with
  | nil => rfl
  | cons op ops ih =>
    have hothers : ∀ x ∈ ops, x.id? ≠ some id := fun x hx => hops x (List.mem_cons_of_mem _ hx)
    have hstep := mem_line_of_serveAll hothers hmem
    simp only [serveAll] at hmem ⊢
    rw [step_without h.toKept (hops op List.mem_cons_self) hstep, ih (h.step op) hothers hmem]

/-- Whoever has to wait joins a line before a full channel, and nobody is let on. -/
theorem step_wait (h : k.Sound capacity) (hblocked : (k.step (.wait id spec)).1.answer = .blocked) :
    k.step (.wait id spec) = (⟨.blocked, []⟩, { k with line := k.line ++ [(id, spec)] }) ∧
      id ∉ k.line.map Prod.fst := by
  simp only [step, act] at hblocked ⊢
  by_cases hid : k.line.any (·.1 = id) = true
  · rw [if_pos hid] at hblocked
    cases hblocked
  rw [if_neg hid] at hblocked ⊢
  rcases append_cases h.unattended spec with ⟨heq, -⟩ | heq | ⟨heq, hopen, hfull⟩
  · rw [heq] at hblocked
    cases hblocked
  · rw [heq] at hblocked
    cases hblocked
  · rw [heq]
    refine ⟨?_, not_mem_of_any_eq_false hid⟩
    have hsettle : settle { k with line := k.line ++ [(id, spec)] }
        = ([], { k with line := k.line ++ [(id, spec)] }) := by
      simp only [settle]
      rw [if_neg (by rw [hopen]; exact Bool.false_ne_true), enter_of_full _ hfull]
    dsimp only
    rw [hsettle]

/-- Whoever stops waiting is gone from the line, and nobody is let on. -/
theorem step_cancel (h : k.Sound capacity)
    (hfound : (k.step (.cancel id)).1.answer = .cancelled true) :
    k.step (.cancel id) = (⟨.cancelled true, []⟩, k.without id) ∧ id ∈ k.line.map Prod.fst := by
  have hany : k.line.any (·.1 = id) = true := QueueAnswer.cancelled.inj hfound
  obtain ⟨w, hw, hid⟩ := List.any_eq_true.mp hany
  obtain ⟨hopen, hfull⟩ := h.full (List.ne_nil_of_mem hw)
  refine ⟨?_, List.mem_map.mpr ⟨w, hw, of_decide_eq_true hid⟩⟩
  have hsettle : settle (k.without id) = ([], k.without id) := by
    have hcore : (k.without id).core = k.core := rfl
    simp only [settle]
    rw [hcore, if_neg (by rw [hopen]; exact Bool.false_ne_true), enter_of_full _ hfull]
    rfl
  simp only [step, act]
  rw [hany]
  show (QueueReply.mk _ (settle (k.without id)).1, (settle (k.without id)).2) = _
  rw [hsettle]

theorem sound_new (capacity : Nat) :
    (QueueLine.mk (TaskQueue.new capacity) []).Sound (max capacity 1) where
  stocked := TaskQueue.stocked_new capacity
  unattended := rfl
  capacity := rfl
  distinct := List.nodup_nil
  full := fun hne => absurd rfl hne

end QueueLine

/-! ## The two runs -/

namespace Desk

open QueueLine

theorem run_shown (capacity : Nat) (ops : List QueueOp) :
    (run capacity ops).1 = (serveAll QueueLine.step ops ⟨.new capacity, []⟩).1 ∧
      (run capacity ops).2.shown = (serveAll QueueLine.step ops ⟨.new capacity, []⟩).2 ∧
      (run capacity ops).2.Resting :=
  (resting_new capacity).serveAll ops

/-- Replies of two runs in a row, taken apart at one step. -/
theorem serveAll_parts {σ : Type} {step : σ → QueueOp → QueueReply × σ} {s : σ}
    {before later : List QueueOp} {op : QueueOp} {first rest : List QueueReply}
    {reply : QueueReply} (h : (serveAll step (before ++ op :: later) s).1 = first ++ reply :: rest)
    (hlength : first.length = before.length) :
    first = (serveAll step before s).1 ∧
      reply = (step (serveAll step before s).2 op).1 ∧
      rest = (serveAll step later (step (serveAll step before s).2 op).2).1 := by
  rw [serveAll_append] at h
  obtain ⟨hfirst, hrest⟩ := List.append_inj h ((length_serveAll ..).trans hlength.symm)
  obtain ⟨hreply, hlater⟩ := List.cons.inj hrest
  exact ⟨hfirst.symm, hreply.symm, hlater.symm⟩

/-- A line with one who waits for a while, against the same line without. -/
theorem without_trace {k : QueueLine} {n id : Nat} {spec : TaskSpec} {between : List QueueOp}
    (h : k.Sound n) (hblocked : (k.step (.wait id spec)).1.answer = .blocked)
    (hops : ∀ op ∈ between, op.id? ≠ some id)
    (hfound : ((serveAll QueueLine.step between (k.step (.wait id spec)).2).2.step
      (.cancel id)).1.answer = .cancelled true) :
    (k.step (.wait id spec)).1.resumed = [] ∧
    ((serveAll QueueLine.step between (k.step (.wait id spec)).2).2.step
      (.cancel id)).1.resumed = [] ∧
    serveAll QueueLine.step between k
      = ((serveAll QueueLine.step between (k.step (.wait id spec)).2).1,
        ((serveAll QueueLine.step between (k.step (.wait id spec)).2).2.step (.cancel id)).2) ∧
    ∀ early, early <+: between → (serveAll QueueLine.step early k).2
      = (serveAll QueueLine.step early (k.step (.wait id spec)).2).2.without id := by
  obtain ⟨hwait, hfresh⟩ := step_wait h hblocked
  have hjoined := h.step (.wait id spec)
  have hcancelled := step_cancel (hjoined.serveAll between) hfound
  have hkept : k.line.filter (·.1 ≠ id) = k.line := by
    refine List.filter_eq_self.mpr fun w hw => decide_eq_true fun heq => ?_
    exact hfresh (List.mem_map.mpr ⟨w, hw, heq⟩)
  have hk : (k.step (.wait id spec)).2.without id = k := by
    rw [hwait]
    simp only [QueueLine.without]
    rw [List.filter_append, hkept]
    simp
  refine ⟨by rw [hwait], by rw [hcancelled.1], ?_, ?_⟩
  · have hboth := serveAll_without hjoined hops hcancelled.2
    rw [hk] at hboth
    rw [hboth, hcancelled.1]
  · rintro early ⟨rest, rfl⟩
    -- who waits at the end has waited all the time
    have hmem := hcancelled.2
    rw [serveAll_append] at hmem
    have hearly := mem_line_of_serveAll (fun op hop => hops op (List.mem_append_right _ hop)) hmem
    have hboth := serveAll_without hjoined
      (fun op hop => hops op (List.mem_append_left _ hop)) hearly
    rw [hk] at hboth
    rw [hboth]

/-- Whatever is asked of a queue, with those who wait let on after each
    step: no slot is held between two steps, never do more specs wait than
    there are slots, and until the consumer goes away the names in the
    channel are distinct and are those of the specs, and an append waits
    only for a channel that is full.  An append that waits and is dropped
    leaves no trace: without its call and its drop all others are answered
    the same and the queue looks the same after every step, but for the
    one who waits in between. -/
theorem slots_and_drops (capacity : Nat) :
    (∀ ops, ((run capacity ops).2.queue.closed = true ↔ .close ∈ ops) ∧
      (run capacity ops).2.queue.heldSlots = 0 ∧
      (run capacity ops).2.queue.pendingCount ≤ max capacity 1 ∧
      ((run capacity ops).2.queue.closed = false →
        (run capacity ops).2.queue.channel.Nodup ∧
        ∀ name, name ∈ (run capacity ops).2.queue.channel ↔
          name ∈ (run capacity ops).2.queue.pending.keys) ∧
      ((run capacity ops).2.queue.waiting ≠ [] →
        (run capacity ops).2.queue.closed = false ∧
        (run capacity ops).2.queue.channel.length = max capacity 1)) ∧
    ∀ before id spec between after first called during dropped last,
      (run capacity (before ++ .wait id spec :: (between ++ .cancel id :: after))).1
        = first ++ called :: (during ++ dropped :: last) →
      first.length = before.length → during.length = between.length →
      called.answer = .blocked → dropped.answer = .cancelled true →
      (∀ op ∈ between, op.id? ≠ some id) →
      (run capacity (before ++ (between ++ after))).1 = first ++ (during ++ last) ∧
      called.resumed = [] ∧ dropped.resumed = [] ∧
      (∀ early, early <+: between →
        (run capacity (before ++ early)).2.shown
          = (run capacity (before ++ .wait id spec :: early)).2.shown.without id) ∧
      (run capacity (before ++ (between ++ after))).2.shown
        = (run capacity (before ++ .wait id spec :: (between ++ .cancel id :: after))).2.shown := by
  constructor
  · intro ops
    obtain ⟨-, hshown, hresting⟩ := run_shown capacity ops
    have hsound := (sound_new capacity).serveAll ops
    rw [← hshown] at hsound
    have hcapacity : (run capacity ops).2.queue.capacity = max capacity 1 := hsound.capacity
    refine ⟨?_, hresting.unheld.heldSlots, hcapacity ▸ hsound.stocked.few, ?_, ?_⟩
    · have hclosed := (sound_new capacity).closed_serveAll ops
      rw [← hshown] at hclosed
      exact hclosed.trans (or_iff_left Bool.false_ne_true)
    · intro hopen
      have hcoherent := hsound.stocked.coherent hopen
      exact ⟨hcoherent.distinct, hcoherent.mem_keys⟩
    · intro hne
      obtain ⟨hopen, hfull⟩ := hresting.full hne
      have hwithin := hsound.stocked.within hopen
      exact ⟨hopen, hcapacity ▸ Nat.le_antisymm hwithin hfull⟩
  · intro before id spec between after first called during dropped last hreplies hfirst hduring
      hcalled hdropped hops
    obtain ⟨hfull, hfullShown, -⟩ :=
      run_shown capacity (before ++ .wait id spec :: (between ++ .cancel id :: after))
    obtain ⟨hless, hlessShown, -⟩ := run_shown capacity (before ++ (between ++ after))
    rw [hfull] at hreplies
    obtain ⟨rfl, rfl, hrest⟩ := serveAll_parts hreplies hfirst
    obtain ⟨rfl, rfl, rfl⟩ := serveAll_parts hrest.symm hduring
    obtain ⟨hquiet, hquieter, hbetween, hearly⟩ :=
      without_trace ((sound_new capacity).serveAll before) hcalled hops hdropped
    refine ⟨?_, hquiet, hquieter, ?_, ?_⟩
    · rw [hless, serveAll_append, serveAll_append, hbetween]
    · intro early hprefix
      rw [(run_shown ..).2.1, (run_shown ..).2.1, serveAll_append, serveAll_append]
      exact hearly early hprefix
    · rw [hlessShown, hfullShown, serveAll_append, serveAll_append, serveAll_append, hbetween]
      simp only [serveAll]
      rw [serveAll_append]
      rfl

/-- The one slot is taken and two wait; the first of them is dropped, and
    the other gets the slot that the consumer frees, as it does when the
    first never came. -/
theorem slots_and_drops_of_first_in_line :
    ∃ a b c : TaskSpec,
      (run 1 ([.append a] ++ .wait 0 b :: ([.wait 1 c] ++ .cancel 0 :: [.take true]))).1
        = [⟨.ended .accepted, []⟩] ++ ⟨.blocked, []⟩ :: ([⟨.blocked, []⟩] ++
          ⟨.cancelled true, []⟩ :: [⟨.taken (.spec a), [(1, .accepted)]⟩]) ∧
      (run 1 ([.append a] ++ ([.wait 1 c] ++ [.take true]))).1
        = [⟨.ended .accepted, []⟩] ++ ([⟨.blocked, []⟩] ++
          [⟨.taken (.spec a), [(1, .accepted)]⟩]) := by
  let a : TaskSpec := { TaskSpec.blank with name := "a" }
  let b : TaskSpec := { TaskSpec.blank with name := "b" }
  let c : TaskSpec := { TaskSpec.blank with name := "c" }
  have hreplies : (run 1 ([.append a] ++ .wait 0 b :: ([.wait 1 c] ++ .cancel 0 ::
      [.take true]))).1 = [⟨.ended .accepted, []⟩] ++ ⟨.blocked, []⟩ :: ([⟨.blocked, []⟩] ++
        ⟨.cancelled true, []⟩ :: [⟨.taken (.spec a), [(1, .accepted)]⟩]) := by
    decide +kernel
  refine ⟨a, b, c, hreplies, ?_⟩
  refine ((slots_and_drops 1).2 _ _ _ _ _ _ _ _ _ _ hreplies rfl rfl rfl rfl ?_).1
  intro op hop
  rw [List.mem_singleton.mp hop]
  intro heq
  cases heq

end Desk

end ServingPlane
