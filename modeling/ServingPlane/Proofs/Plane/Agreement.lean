import ServingPlane.Proofs.Plane.Schedule

/-! # Registry and queue agree

    While nobody holds the registry, it tells what was last queued: each
    registered task has the spec of the last effective append of its name,
    and whatever is not registered was last queued for teardown, if at
    all.  A request that holds the registry is alone in queueing and in
    changing specs, and its discipline says what it still owes; so each
    step of anybody keeps what the others rely on. -/

namespace ServingPlane

/-- The spec of the last append of a name. -/
def lastOf (accepted : List TaskSpec) (name : String) : Option TaskSpec :=
  (accepted.filter (·.name = name)).getLast?

theorem lastOf_concat (accepted : List TaskSpec) (spec : TaskSpec) (name : String) :
    lastOf (accepted ++ [spec]) name
      = if name = spec.name then some spec else lastOf accepted name := by
  simp only [lastOf]
  rw [List.filter_append, List.filter_cons, List.filter_nil]
  by_cases hname : name = spec.name
  · rw [if_pos hname, if_pos (decide_eq_true hname.symm), List.getLast?_concat]
  · rw [if_neg hname, if_neg (by simpa using Ne.symm hname), List.append_nil]

/-- The registry tells what was last queued. -/
structure Agree (r : Registry) (accepted : List TaskSpec) : Prop where
  registered : ∀ name task, r.get? name = some task → lastOf accepted name = some task.spec
  gone : ∀ name spec, r.get? name = none → lastOf accepted name = some spec → spec.replica = 0

theorem agree_empty : Agree .empty [] :=
  ⟨fun _ _ h => (nomatch h), fun _ _ _ h => (nomatch h)⟩

theorem Agree.of_keepsSpecs {r : Registry} {accepted : List TaskSpec} (h : Agree r accepted)
    {change : Registry → Registry} (hchange : Registry.KeepsSpecs change) :
    Agree (change r) accepted where
  registered := by
    intro name task htask
    have hspec := hchange r name
    rw [htask] at hspec
    obtain ⟨old, hold, heq⟩ := Option.map_eq_some_iff.mp hspec.symm
    rw [← show old.spec = task.spec from heq]
    exact h.registered name old hold
  gone := by
    intro name spec hnone
    have hspec := hchange r name
    rw [hnone] at hspec
    exact h.gone name spec (Option.map_eq_none_iff.mp hspec.symm)

/-- A spec that was queued, and the registry that tells of it. -/
theorem Agree.of_reflects {r after : Registry} {accepted : List TaskSpec} (h : Agree r accepted)
    {admits : String → Prop} {spec : TaskSpec} (hreflects : Registry.Reflects admits r spec after) :
    Agree after (accepted ++ [spec]) where
  registered := by
    intro name task htask
    rw [lastOf_concat]
    by_cases hname : name = spec.name
    · rw [if_pos hname]
      rw [hname] at htask
      rcases hreflects.own with ⟨own, hown, hspec, -⟩ | ⟨hnone, -⟩
      · rw [htask] at hown
        cases hown
        rw [hspec]
      · rw [htask] at hnone
        exact nomatch hnone
    · rw [if_neg hname]
      rw [hreflects.others name hname] at htask
      exact h.registered name task htask
  gone := by
    intro name last hnone
    rw [lastOf_concat]
    by_cases hname : name = spec.name
    · rw [if_pos hname]
      rw [hname] at hnone
      intro hlast
      cases hlast
      rcases hreflects.own with ⟨own, hown, -⟩ | ⟨-, hreplica⟩
      · rw [hnone] at hown
        exact nomatch hown
      · exact hreplica
    · rw [if_neg hname]
      rw [hreflects.others name hname] at hnone
      exact h.gone name last hnone

/-- What a request has in hand fits the plane: it holds the registry as it
    is, and what it has queued beyond that is the last thing queued. -/
def Custody.Fits (registry : Registry) (accepted : List TaskSpec) (holds : Bool) : Custody → Prop
  | .free => holds = false
  | .held r => holds = true ∧ registry = r ∧ Agree r accepted
  | .queued r spec =>
    holds = true ∧ registry = r ∧ ∃ earlier, accepted = earlier ++ [spec] ∧ Agree r earlier

theorem Custody.Fits.eq_free {registry : Registry} {accepted : List TaskSpec} {c : Custody}
    (h : c.Fits registry accepted false) : c = .free := by
  cases c with
  | free => rfl
  | held r => exact nomatch h.1
  | queued r spec => exact nomatch h.1

namespace Schedule

/-- A request under way keeps to the discipline from where it stands. -/
def Keeps (registry : Registry) (accepted : List TaskSpec) (a : Activity) : Prop :=
  a.stage.isUnderWay = true ∧
    ∃ c : Custody, a.program.Orderly a.request.Admits c ∧ c.Fits registry accepted a.holds

/-- No other request holds the registry. -/
def Alone (s : Schedule) (i : Nat) : Prop :=
  ∀ j b, j ≠ i → s.activities j = some b → b.holds = false

/-- What every step keeps. -/
structure Sound (s : Schedule) : Prop where
  named : s.plane.registry.WellNamed
  tracks : s.plane.queue.Tracks s.appends
  orderly : ∀ i a, s.activities i = some a → Keeps s.plane.registry s.accepted a
  locked : ∀ i a, s.activities i = some a → a.holds = true → s.plane.locked = true ∧ s.Alone i
  holder : s.plane.locked = true → ∃ i a, s.activities i = some a ∧ a.holds = true
  agree : s.plane.locked = false → Agree s.plane.registry s.accepted

variable {d : Detector} {s : Schedule} {i : Nat} {a : Activity} {β : Type}

theorem sound_start (capacity : Nat) : (start capacity).Sound where
  named := Registry.wellNamed_empty
  tracks := ⟨fun _ hp => absurd hp List.not_mem_nil, List.nodup_nil, fun hc => (nomatch hc),
    fun hc => (nomatch hc)⟩
  orderly := fun _ _ h => (nomatch h)
  locked := fun _ _ h => (nomatch h)
  holder := fun h => (nomatch h)
  agree := fun _ => agree_empty

/-- While the registry is free, nobody holds it. -/
theorem Sound.alone_of_free (h : s.Sound) (hfree : s.plane.locked = false) (i : Nat) :
    s.Alone i := by
  intro j b _ hb
  rw [← Bool.not_eq_true]
  intro hholds
  have hlocked := (h.locked j b hb hholds).1
  rw [hfree] at hlocked
  exact nomatch hlocked

/-- A request moves on and changes the plane: either it leaves alone what
    the others rely on, or none of them relies on anything. -/
theorem Sound.change (h : s.Sound) {plane : Plane} {accepted : List TaskSpec}
    {next : Option Activity} (hnamed : plane.registry.WellNamed)
    (htracks : plane.queue.Tracks (Function.update s.appends i (next.bind Activity.append)))
    (hnext : ∀ a, next = some a → Keeps plane.registry accepted a)
    (hothers : (plane.registry = s.plane.registry ∧ accepted = s.accepted ∧
      plane.locked = s.plane.locked) ∨ s.Alone i)
    (hheld : ∀ a, next = some a → a.holds = true → plane.locked = true ∧ s.Alone i)
    (hholder : plane.locked = true → (∃ a, next = some a ∧ a.holds = true) ∨
      ∃ j b, j ≠ i ∧ s.activities j = some b ∧ b.holds = true)
    (hagree : plane.locked = false → Agree plane.registry accepted) :
    ({ s with plane, accepted }.put i next).Sound := by
  have hself : ({ s with plane, accepted }.put i next).activities i = next :=
    Function.update_self ..
  have hother : ∀ {j}, j ≠ i →
      ({ s with plane, accepted }.put i next).activities j = s.activities j :=
    fun hj => Function.update_of_ne hj ..
  -- of another request: it relies on nothing, or on what has not changed
  refine ⟨hnamed, ?_, fun j b hb => ?_, fun j b hb hholds => ?_, fun hlocked => ?_, hagree⟩
  · rw [appends_put]
    exact htracks
  · by_cases hj : j = i
    · subst hj
      exact hnext b (hself ▸ hb)
    · rw [hother hj] at hb
      obtain ⟨hstage, c, horderly, hfits⟩ := h.orderly j b hb
      refine ⟨hstage, c, horderly, ?_⟩
      rcases hothers with ⟨hregistry, haccepted, -⟩ | halone
      · show c.Fits plane.registry accepted b.holds
        rw [hregistry, haccepted]
        exact hfits
      · rw [halone j b hj hb] at hfits ⊢
        rw [hfits.eq_free]
        rfl
  · by_cases hj : j = i
    · subst hj
      obtain ⟨hlocked, halone⟩ := hheld b (hself ▸ hb) hholds
      exact ⟨hlocked, fun k c hk hc => halone k c hk (hother hk ▸ hc)⟩
    · rw [hother hj] at hb
      obtain ⟨hlocked, halone⟩ := h.locked j b hb hholds
      rcases hothers with ⟨-, -, hsame⟩ | hnone
      · refine ⟨hsame.trans hlocked, fun k c hk hc => ?_⟩
        by_cases hki : k = i
        · subst hki
          rw [← Bool.not_eq_true]
          intro hc'
          have hfree := (hheld c (hself ▸ hc) hc').2 j b hj hb
          rw [hholds] at hfree
          exact nomatch hfree
        · exact halone k c hk (hother hki ▸ hc)
      · rw [hnone j b hj hb] at hholds
        exact nomatch hholds
  · rcases hholder hlocked with ⟨b, hb, hholds⟩ | ⟨j, b, hj, hb, hholds⟩
    · exact ⟨i, b, hself.trans hb, hholds⟩
    · exact ⟨j, b, (hother hj).trans hb, hholds⟩

/-- If the registry is locked, somebody else holds it unless the request does. -/
theorem Sound.other_holder (h : s.Sound) (hi : ∀ a, s.activities i = some a → a.holds = false)
    (hlocked : s.plane.locked = true) :
    ∃ j b, j ≠ i ∧ s.activities j = some b ∧ b.holds = true := by
  obtain ⟨j, b, hb, hholds⟩ := h.holder hlocked
  refine ⟨j, b, ?_, hb, hholds⟩
  rintro rfl
  rw [hi b hb] at hholds
  exact nomatch hholds

/-- A request moves on and leaves registry, lock and queued specs alone. -/
theorem Sound.quiet (h : s.Sound) (plane : Plane) (hi : s.activities i = some a)
    (hregistry : plane.registry = s.plane.registry) (hlocked : plane.locked = s.plane.locked)
    {next : Activity} (hkeeps : Keeps s.plane.registry s.accepted next)
    (hholds : next.holds = a.holds)
    (htracks : plane.queue.Tracks (Function.update s.appends i next.append)) :
    ({ s with plane }.put i (some next)).Sound := by
  refine h.change (hregistry.symm ▸ h.named) htracks (fun b hb => ?_)
    (.inl ⟨hregistry, rfl, hlocked⟩) (fun b hb hb' => ?_) (fun htrue => ?_) (fun hfree => ?_)
  · cases hb
    rw [hregistry]
    exact hkeeps
  · cases hb
    rw [hlocked]
    exact h.locked i a hi (hholds ▸ hb')
  · by_cases ha : a.holds = true
    · exact .inl ⟨next, rfl, hholds.trans ha⟩
    · refine .inr (h.other_holder (fun b hb => ?_) (hlocked ▸ htrue))
      rw [hi] at hb
      cases hb
      exact Bool.eq_false_iff.mpr ha
  · rw [hregistry]
    exact h.agree (hlocked ▸ hfree)

/-! ## One step of a request -/

section Call

variable {e : PlaneCall β} {k : β → Detection Unit} {c : Custody} {plane : Plane} {answer : β}

theorem resume_none (s : Schedule) (i : Nat) (a : Activity) (e : PlaneCall β)
    (k : β → Detection Unit) :
    s.resume i a e k ⟨none, .arrived, s.plane, []⟩
      = s.put i (some { a with stage := .arrived }) := by
  simp only [resume]
  rw [List.append_nil]

theorem resume_some (s : Schedule) (i : Nat) (a : Activity) (e : PlaneCall β)
    (k : β → Detection Unit) (answer : β) (plane : Plane) :
    s.resume i a e k ⟨some answer, .arrived, plane, []⟩
      = { s with plane }.put i
        (some { a with program := k answer, holds := e.holds a.holds, stage := .arrived }) := by
  simp only [resume]
  rw [List.append_nil]

/-- A call that cannot go on yet leaves all as it was. -/
theorem Sound.stall (h : s.Sound) (hi : s.activities i = some a) (he : e.isAppend = false)
    (hserve : s.plane.serve e = none) : (s.resume i a e k (s.plane.attempt a.stage e)).Sound := by
  rw [Plane.attempt_of_serve_eq_none he hserve, resume_none]
  have hlisted : TaskQueue.Unlisted ({ a with stage := .arrived } : Activity).append :=
    Activity.unlisted_append rfl
  exact h.quiet s.plane hi rfl rfl ⟨rfl, (h.orderly i a hi).2⟩ rfl (h.tracks.unlist hlisted)

/-- A call that leaves registry, lock and queue alone is answered. -/
theorem Sound.answered (h : s.Sound) (hi : s.activities i = some a) (he : e.isAppend = false)
    (hserve : s.plane.serve e = some (answer, plane))
    (hplane : ∃ store, plane = { s.plane with store }) (hholds : e.holds a.holds = a.holds)
    (hnext : (k answer).Orderly a.request.Admits c)
    (hfits : c.Fits s.plane.registry s.accepted a.holds) :
    (s.resume i a e k (s.plane.attempt a.stage e)).Sound := by
  obtain ⟨store, rfl⟩ := hplane
  rw [Plane.attempt_of_serve_eq_some he hserve, resume_some, hholds]
  have hlisted : TaskQueue.Unlisted ({ a with program := k answer, stage := .arrived } :
      Activity).append := Activity.unlisted_append rfl
  have hkeeps : Keeps s.plane.registry s.accepted
      { a with program := k answer, stage := .arrived } := ⟨rfl, c, hnext, hfits⟩
  exact h.quiet { s.plane with store } hi rfl rfl hkeeps rfl (h.tracks.unlist hlisted)

end Call

section Calls

variable {c : Custody}

theorem Sound.readRegistry (h : s.Sound) (hi : s.activities i = some a)
    {k : Registry → Detection Unit}
    (hnext : ∀ r, (k r).Orderly a.request.Admits c)
    (hfits : c.Fits s.plane.registry s.accepted a.holds) :
    (s.resume i a .readRegistry k (s.plane.attempt a.stage .readRegistry)).Sound := by
  by_cases hlocked : s.plane.locked = true
  · exact h.stall hi rfl (if_pos hlocked)
  · exact h.answered hi rfl (if_neg hlocked) ⟨_, rfl⟩ rfl (hnext _) hfits

/-- The statuses of registered tasks change; nobody holds the registry. -/
theorem Sound.updateRegistry (h : s.Sound) (hi : s.activities i = some a)
    {change : Registry → Registry} (hchange : Registry.KeepsSpecs change)
    {k : Unit → Detection Unit} (hnext : (k ()).Orderly a.request.Admits .free)
    (hholds : a.holds = false) :
    (s.resume i a (.updateRegistry change) k
      (s.plane.attempt a.stage (.updateRegistry change))).Sound := by
  by_cases hlocked : s.plane.locked = true
  · exact h.stall hi rfl (if_pos hlocked)
  · have hserve : s.plane.serve (.updateRegistry change)
        = some ((), { s.plane with registry := change s.plane.registry }) := if_neg hlocked
    have hfree : s.plane.locked = false := Bool.eq_false_iff.mpr hlocked
    rw [Plane.attempt_of_serve_eq_some rfl hserve, resume_some]
    have hlisted : TaskQueue.Unlisted ({ a with program := k (), stage := .arrived } :
        Activity).append := Activity.unlisted_append rfl
    refine h.change (h.named.of_keepsSpecs hchange) (h.tracks.unlist hlisted) (fun b hb => ?_)
      (.inr (h.alone_of_free hfree i)) (fun b hb hb' => ?_) (fun htrue => absurd htrue hlocked)
      (fun _ => (h.agree hfree).of_keepsSpecs hchange)
    · cases hb
      exact ⟨rfl, .free, hnext, hholds⟩
    · cases hb
      rw [show a.holds = true from hb'] at hholds
      exact nomatch hholds

/-- A request locks the registry. -/
theorem Sound.lockRegistry (h : s.Sound) (hi : s.activities i = some a)
    {k : Registry → Detection Unit}
    (hnext : ∀ r, Registry.WellNamed r → (k r).Orderly a.request.Admits (.held r)) :
    (s.resume i a .lockRegistry k (s.plane.attempt a.stage .lockRegistry)).Sound := by
  by_cases hlocked : s.plane.locked = true
  · exact h.stall hi rfl (if_pos hlocked)
  · have hserve : s.plane.serve .lockRegistry
        = some (s.plane.registry, { s.plane with locked := true }) := if_neg hlocked
    have hfree : s.plane.locked = false := Bool.eq_false_iff.mpr hlocked
    rw [Plane.attempt_of_serve_eq_some rfl hserve, resume_some]
    have hlisted : TaskQueue.Unlisted ({ a with
        program := k s.plane.registry, holds := true, stage := .arrived } : Activity).append :=
      Activity.unlisted_append rfl
    have halone := h.alone_of_free hfree i
    refine h.change h.named (h.tracks.unlist hlisted) (fun b hb => ?_) (.inr halone)
      (fun _ _ _ => ⟨rfl, halone⟩) (fun _ => .inl ⟨_, rfl, rfl⟩) (fun hc => (nomatch hc))
    cases hb
    exact ⟨rfl, .held s.plane.registry, hnext _ h.named, rfl, rfl, h.agree hfree⟩

/-- A request releases the registry: as it was, or telling of what it queued. -/
theorem Sound.unlockRegistry (h : s.Sound) (hi : s.activities i = some a) {contents : Registry}
    {k : Unit → Detection Unit} (hnext : (k ()).Orderly a.request.Admits .free)
    (hallowed : (PlaneCall.unlockRegistry contents).Allowed a.request.Admits c)
    (hfits : c.Fits s.plane.registry s.accepted a.holds) :
    (s.resume i a (.unlockRegistry contents) k
      (s.plane.attempt a.stage (.unlockRegistry contents))).Sound := by
  have hserve : s.plane.serve (.unlockRegistry contents)
      = some ((), { s.plane with registry := contents, locked := false }) := rfl
  have hlisted : TaskQueue.Unlisted ({ a with
      program := k (), holds := false, stage := .arrived } : Activity).append :=
    Activity.unlisted_append rfl
  rw [Plane.attempt_of_serve_eq_some rfl hserve, resume_some]
  have hcontents : contents.WellNamed ∧ Agree contents s.accepted ∧ a.holds = true := by
    cases c with
    | free => exact nomatch hallowed
    | held r =>
      obtain ⟨hholds, hregistry, hagree⟩ := hfits
      obtain rfl : contents = r := hallowed
      exact ⟨hregistry ▸ h.named, hagree, hholds⟩
    | queued r spec =>
      obtain ⟨hholds, hregistry, earlier, haccepted, hagree⟩ := hfits
      refine ⟨(hregistry ▸ h.named).of_reflects hallowed, ?_, hholds⟩
      rw [haccepted]
      exact hagree.of_reflects hallowed
  obtain ⟨hnamed, hagree, hholds⟩ := hcontents
  refine h.change hnamed (h.tracks.unlist hlisted) (fun b hb => ?_)
    (.inr (h.locked i a hi hholds).2) (fun b hb hb' => ?_) (fun hc => (nomatch hc))
    (fun _ => hagree)
  · cases hb
    exact ⟨rfl, .free, hnext, rfl⟩
  · cases hb
    exact nomatch hb'

/-- The append of a request that queues next. -/
theorem appends_of_enqueue (hi : s.activities i = some a) {spec : TaskSpec}
    {k : AppendResult → Detection Unit} (hprogram : a.program = .call (.inl (.enqueue spec)) k) :
    s.appends i = some (spec, a.stage) := by
  show (s.activities i).bind Activity.append = _
  rw [hi]
  show a.append = _
  simp only [Activity.append]
  rw [hprogram]

/-- A request that holds the registry goes one step on with its append. -/
theorem Sound.enqueue (h : s.Sound) (hi : s.activities i = some a) {spec : TaskSpec}
    {k : AppendResult → Detection Unit} (hprogram : a.program = .call (.inl (.enqueue spec)) k)
    {r : Registry} (horderly : a.program.Orderly a.request.Admits (.held r))
    (hclosed : (k .closed).Orderly a.request.Admits (.held r))
    (haccepted : (k .accepted).Orderly a.request.Admits (.queued r spec))
    (hfits : (Custody.held r).Fits s.plane.registry s.accepted a.holds) :
    (s.resume i a (.enqueue spec) k (s.plane.attempt a.stage (.enqueue spec))).Sound := by
  obtain ⟨hholds, hregistry, hagree⟩ := hfits
  obtain ⟨hlocked, halone⟩ := h.locked i a hi hholds
  have hcall := appends_of_enqueue hi hprogram
  have htracks := h.tracks.advance hcall
  -- once answered, the request has no append under way
  have hanswered : ∀ result, (s.plane.queue.advance spec a.stage).2.Tracks
      (Function.update s.appends i
        ({ a with program := k result, stage := .arrived } : Activity).append) := by
    intro result
    have hlisted : TaskQueue.Unlisted
        ({ a with program := k result, stage := .arrived } : Activity).append :=
      Activity.unlisted_append rfl
    have hunlisted := htracks.unlist (i := i) hlisted
    rw [Function.update_idem] at hunlisted
    exact hunlisted
  simp only [resume, Plane.attempt]
  rcases (s.plane.queue.advance_step spec a.stage).after_cases (h.orderly i a hi).1 with
    ⟨heffect, hafter⟩ | ⟨heffect, hafter⟩ | ⟨heffect, hafter⟩
  -- the append took effect: what was queued is ahead of the registry now
  · rw [heffect, hafter, if_pos rfl]
    refine h.change h.named (hanswered .accepted) (fun b hb => ?_) (.inr halone)
      (fun _ _ _ => ⟨hlocked, halone⟩) (fun _ => .inl ⟨_, rfl, hholds⟩) (fun hfree => ?_)
    · cases hb
      exact ⟨rfl, .queued r spec, haccepted, hholds, hregistry, s.accepted, rfl, hagree⟩
    · rw [show s.plane.locked = false from hfree] at hlocked
      cases hlocked
  · rw [heffect, hafter, if_neg Bool.false_ne_true, List.append_nil]
    have hkeeps : Keeps s.plane.registry s.accepted
        { a with program := k .closed, stage := .arrived } :=
      ⟨rfl, .held r, hclosed, hholds, hregistry, hagree⟩
    exact h.quiet { s.plane with queue := (s.plane.queue.advance spec a.stage).2 } hi rfl rfl hkeeps
      rfl (hanswered .closed)
  · rw [heffect, if_neg Bool.false_ne_true, List.append_nil]
    -- not answered yet: the request stands before the same call
    generalize hstage : (s.plane.queue.advance spec a.stage).1 = after at hafter htracks
    have hnone : after.result? = none := by
      cases after with
      | ended result => cases hafter
      | _ => rfl
    have hkeeps : Keeps s.plane.registry s.accepted { a with stage := after } :=
      ⟨hafter, .held r, horderly, hholds, hregistry, hagree⟩
    have hnext : ({ a with stage := after } : Activity).append = some (spec, after) := by
      simp only [Activity.append]
      rw [hprogram]
    rw [hnone]
    refine h.quiet { s.plane with queue := (s.plane.queue.advance spec a.stage).2 } hi rfl rfl
      hkeeps rfl ?_
    rw [hnext]
    exact htracks

/-- A request goes one step on with a call to the plane. -/
theorem Sound.call (h : s.Sound) (hi : s.activities i = some a) {e : PlaneCall β}
    {k : β → Detection Unit} (hprogram : a.program = .call (.inl e) k) :
    (s.resume i a e k (s.plane.attempt a.stage e)).Sound := by
  obtain ⟨-, c, horderly, hfits⟩ := h.orderly i a hi
  have hnext := horderly
  rw [hprogram] at hnext
  obtain ⟨hallowed, hnext⟩ := hnext
  cases e with
  | readRegistry => exact h.readRegistry hi (fun r => hnext r trivial) hfits
  | updateRegistry change =>
    obtain ⟨rfl, hchange⟩ := hallowed
    exact h.updateRegistry hi hchange (hnext () trivial) hfits
  | lockRegistry => exact h.lockRegistry hi hnext
  | unlockRegistry contents => exact h.unlockRegistry hi (hnext () trivial) hallowed hfits
  | enqueue spec =>
    obtain ⟨r, rfl⟩ := hallowed
    exact h.enqueue hi hprogram horderly (hnext .closed trivial) (hnext .accepted trivial) hfits
  | queuedCount => exact h.answered hi rfl rfl ⟨_, rfl⟩ rfl (hnext _ trivial) hfits
  | appendHistory task record limit =>
    obtain ⟨answer, store, hserve, -⟩ := s.plane.serve_appendHistory task record limit
    exact h.answered hi rfl hserve ⟨store, rfl⟩ rfl (hnext answer trivial) hfits
  | listHistory task => exact h.answered hi rfl rfl ⟨_, rfl⟩ rfl (hnext _ trivial) hfits

end Calls

/-- A request that has done all it had to do is over. -/
theorem Sound.finish (h : s.Sound) (hi : s.activities i = some a)
    (hprogram : a.program = .done ()) : (s.put i none).Sound := by
  have hholds : ∀ b, s.activities i = some b → b.holds = false := by
    intro b hb
    rw [hi] at hb
    cases hb
    obtain ⟨-, c, horderly, hfits⟩ := h.orderly i a hi
    rw [hprogram] at horderly
    rw [show c = .free from horderly] at hfits
    exact hfits
  exact h.change h.named (h.tracks.unlist fun _ _ hc => (nomatch hc)) (fun _ hb => (nomatch hb))
    (.inl ⟨rfl, rfl, rfl⟩) (fun _ hb => (nomatch hb))
    (fun hlocked => .inr (h.other_holder hholds hlocked)) h.agree

/-- A request is answered from the outside. -/
theorem Sound.hear (h : s.Sound) (hi : s.activities i = some a) {e : OutsideCall β}
    {k : β → Detection Unit} (hprogram : a.program = .call (.inr e) k) (answer : β) :
    (s.put i (some { a with program := k answer, stage := .arrived })).Sound := by
  obtain ⟨-, c, horderly, hfits⟩ := h.orderly i a hi
  rw [hprogram] at horderly
  obtain ⟨rfl, hnext⟩ := horderly
  have hlisted : TaskQueue.Unlisted
      ({ a with program := k answer, stage := .arrived } : Activity).append :=
    Activity.unlisted_append rfl
  have hkeeps : Keeps s.plane.registry s.accepted
      { a with program := k answer, stage := .arrived } := ⟨rfl, .free, hnext answer, hfits⟩
  exact h.quiet s.plane hi rfl rfl hkeeps rfl (h.tracks.unlist hlisted)

theorem Sound.advance (h : s.Sound) (i : Nat) (outside : ∀ {β : Type}, OutsideCall β → β) :
    (s.advance i outside).Sound := by
  simp only [Schedule.advance]
  cases hi : s.activities i with
  | none => exact h
  | some a =>
    dsimp only
    cases hprogram : a.program with
    | done => exact h.finish hi hprogram
    | call e k =>
      cases e with
      | inl e => exact h.call hi hprogram
      | inr e => exact h.hear hi hprogram _

/-! ## Requests that arrive or are given up, and the consumer -/

theorem Sound.begin (h : s.Sound) (d : Detector) (hi : s.activities i = none) (request : Request) :
    (s.put i (some ⟨request, request.program d, false, .arrived⟩)).Sound := by
  have hlisted : TaskQueue.Unlisted
      (⟨request, request.program d, false, .arrived⟩ : Activity).append :=
    Activity.unlisted_append rfl
  refine h.change h.named (h.tracks.unlist hlisted) (fun b hb => ?_) (.inl ⟨rfl, rfl, rfl⟩)
    (fun b hb hb' => ?_) (fun hlocked => .inr (h.other_holder (fun b hb => ?_) hlocked)) h.agree
  · cases hb
    exact ⟨rfl, .free, request.orderly_program d, rfl⟩
  · cases hb
    exact nomatch hb'
  · rw [hi] at hb
    exact nomatch hb

/-- A program that can be given up has queued nothing that it still owes. -/
theorem agree_of_awaits {registry : Registry} {accepted : List TaskSpec}
    (hkeeps : Keeps registry accepted a) (hawaits : a.awaits = true) (hholds : a.holds = true) :
    Agree registry accepted := by
  obtain ⟨-, c, horderly, hfits⟩ := hkeeps
  cases c with
  | free =>
    rw [show a.holds = false from hfits] at hholds
    exact nomatch hholds
  | held r =>
    obtain ⟨-, rfl, hagree⟩ := hfits
    exact hagree
  | queued r spec =>
    -- the only call left to it now is the release, which is no point to give up at
    simp only [Activity.awaits] at hawaits
    cases hprogram : a.program with
    | done =>
      rw [hprogram] at hawaits
      exact nomatch hawaits
    | call e k =>
      rw [hprogram] at horderly hawaits
      cases e with
      | inr e => exact nomatch horderly.1
      | inl e =>
        cases e with
        | unlockRegistry contents => exact nomatch hawaits
        | updateRegistry change => exact nomatch horderly.1.1
        | enqueue spec => exact nomatch horderly.1.choose_spec
        | _ => exact nomatch horderly.1

/-- A request that is given up takes its append out of the queue. -/
theorem Sound.tracks_leave (h : s.Sound) (hi : s.activities i = some a) :
    (a.leave s.plane).queue.Tracks (Function.update s.appends i none) := by
  have hcall : s.appends i = a.append := by
    show (s.activities i).bind Activity.append = _
    rw [hi]
    rfl
  cases happend : a.append with
  | none =>
    have hqueue : (a.leave s.plane).queue = s.plane.queue := by
      simp only [Activity.leave]
      rw [happend]
      cases a.holds with
      | _ => rfl
    rw [hqueue]
    exact h.tracks.unlist TaskQueue.unlisted_none
  | some call =>
    have hqueue : (a.leave s.plane).queue = s.plane.queue.giveUp call.2 := by
      simp only [Activity.leave]
      rw [happend]
      cases a.holds with
      | _ => rfl
    rw [hqueue]
    exact h.tracks.giveUp (hcall.trans happend) TaskQueue.unlisted_none

/-- A request is given up: it leaves the queue and releases the registry. -/
theorem Sound.abandon (h : s.Sound) (i : Nat) : (s.abandon i).Sound := by
  simp only [Schedule.abandon]
  cases hi : s.activities i with
  | none => exact h
  | some a =>
    dsimp only
    cases hawaits : a.awaits with
    | false => exact h
    | true =>
      rw [if_pos rfl]
      have htracks := h.tracks_leave hi
      simp only [Activity.leave] at htracks ⊢
      cases hholds : a.holds with
      | true =>
        rw [hholds] at htracks
        exact h.change h.named htracks (fun _ hb => (nomatch hb)) (.inr (h.locked i a hi hholds).2)
          (fun _ hb => (nomatch hb)) (fun hc => (nomatch hc))
          fun _ => agree_of_awaits (h.orderly i a hi) hawaits hholds
      | false =>
        rw [hholds] at htracks
        refine h.change h.named htracks (fun _ hb => (nomatch hb)) (.inl ⟨rfl, rfl, rfl⟩)
          (fun _ hb => (nomatch hb))
          (fun hlocked => .inr (h.other_holder (fun b hb => ?_) hlocked)) h.agree
        rw [hi] at hb
        cases hb
        exact hholds

/-- The consumer, or whoever writes the store, leaves registry and lock alone. -/
theorem Sound.beside (h : s.Sound) {queue : TaskQueue} (store : Store) (consumer : Consumer)
    (htracks : queue.Tracks s.appends) :
    ({ s with plane := { s.plane with queue, store }, consumer } : Schedule).Sound :=
  ⟨h.named, htracks, h.orderly, h.locked, h.holder, h.agree⟩

/-- Every step keeps the invariant. -/
theorem Sound.step (h : s.Sound) (d : Detector) (action : Action) : (s.step d action).Sound := by
  simp only [Schedule.step]
  cases action with
  | begin i request =>
    dsimp only
    cases hi : s.activities i with
    | none => exact h.begin d hi request
    | some a => exact h
  | advance i outside => exact h.advance i outside
  | abandon i => exact h.abandon i
  | take waits =>
    dsimp only
    cases s.consumer with
    | idle =>
      dsimp only
      by_cases hclosed : s.plane.queue.closed = true
      · rw [if_pos hclosed]
        exact h
      · rw [if_neg hclosed]
        exact h.beside s.plane.store (.receiving waits) h.tracks
    | receiving => exact h
    | received => exact h
  | consume => exact h.beside s.plane.store _ (h.tracks.consume s.consumer)
  | abandonTake => exact h.beside s.plane.store .idle h.tracks
  | close => exact h.beside s.plane.store .idle (h.tracks.of_tickets rfl rfl)
  | write store => exact h.beside store s.consumer h.tracks

/-- Every run keeps the invariant. -/
theorem sound_run (d : Detector) (capacity : Nat) (actions : List Action) :
    (run d capacity actions).Sound :=
  List.foldlRecOn actions (Schedule.step d) (sound_start capacity)
    fun _ h action _ => h.step d action

/-! ## Who enters a task -/

theorem plane_resume (s : Schedule) (i : Nat) (a : Activity) (e : PlaneCall β)
    (k : β → Detection Unit) (served : Served β) :
    (s.resume i a e k served).plane = served.plane := by
  simp only [resume]
  cases served.answer with
  | none => rfl
  | some b => rfl

/-- What a call makes of a task that is not registered. -/
theorem get?_attempt {p : Plane} {stage : AppendStage} {e : PlaneCall β} {accepted : List TaskSpec}
    {admits : String → Prop} {c : Custody} {holds : Bool} {name : String}
    (hallowed : e.Allowed admits c) (hfits : c.Fits p.registry accepted holds)
    (hbefore : p.registry.get? name = none) :
    (p.attempt stage e).plane.registry.get? name = none ∨ admits name := by
  have hwhenFree : ∀ {e : PlaneCall β} {next : β × Plane}, e.isAppend = false →
      p.serve e = p.whenFree next → next.2.registry.get? name = none →
      (p.attempt stage e).plane.registry.get? name = none := by
    intro e next he hserve hnext
    simp only [Plane.whenFree] at hserve
    by_cases hlocked : p.locked = true
    · rw [if_pos hlocked] at hserve
      rw [Plane.attempt_of_serve_eq_none he hserve]
      exact hbefore
    · rw [if_neg hlocked] at hserve
      rw [Plane.attempt_of_serve_eq_some he hserve]
      exact hnext
  cases e with
  | readRegistry => exact .inl (hwhenFree rfl rfl hbefore)
  | updateRegistry change =>
    refine .inl (hwhenFree rfl rfl ?_)
    have hspec := hallowed.2 p.registry name
    rw [hbefore] at hspec
    exact Option.map_eq_none_iff.mp hspec
  | lockRegistry => exact .inl (hwhenFree rfl rfl hbefore)
  | unlockRegistry contents =>
    cases c with
    | free => exact nomatch hallowed
    | held r =>
      obtain ⟨-, rfl, -⟩ := hfits
      obtain rfl : contents = p.registry := hallowed
      exact .inl hbefore
    | queued r spec =>
      obtain ⟨-, rfl, -⟩ := hfits
      have hreflects : Registry.Reflects admits p.registry spec contents := hallowed
      by_cases hname : name = spec.name
      · subst hname
        rcases hreflects.own with ⟨-, -, -, hadmits⟩ | ⟨hnone, -⟩
        · exact .inr (hadmits hbefore)
        · exact .inl hnone
      · exact .inl ((hreflects.others name hname).trans hbefore)
  | enqueue spec => exact .inl hbefore
  | queuedCount => exact .inl hbefore
  | appendHistory task record limit =>
    obtain ⟨answer, store, hserve, -⟩ := p.serve_appendHistory task record limit
    rw [Plane.attempt_of_serve_eq_some rfl hserve]
    exact .inl hbefore
  | listHistory task => exact .inl hbefore

/-- A step of a request enters no task but that which it is to deploy. -/
theorem Sound.get?_advance (h : s.Sound) (i : Nat) (outside : ∀ {β : Type}, OutsideCall β → β)
    {name : String} (hbefore : s.plane.registry.get? name = none) :
    (s.advance i outside).plane.registry.get? name = none ∨
    ∃ a spec, s.activities i = some a ∧ a.request = .deploy spec ∧ spec.name = name := by
  simp only [Schedule.advance]
  cases hi : s.activities i with
  | none => exact .inl hbefore
  | some a =>
    dsimp only
    cases hprogram : a.program with
    | done => exact .inl hbefore
    | call e k =>
      cases e with
      | inr e => exact .inl hbefore
      | inl e =>
        obtain ⟨-, c, horderly, hfits⟩ := h.orderly i a hi
        rw [hprogram] at horderly
        dsimp only
        rw [plane_resume]
        refine (get?_attempt horderly.1 hfits hbefore).imp_right fun hadmits => ?_
        cases hrequest : a.request with
        | deploy spec =>
          rw [hrequest] at hadmits
          exact ⟨a, spec, rfl, hrequest, hadmits.symm⟩
        | _ =>
          rw [hrequest] at hadmits
          cases hadmits

theorem registry_abandon (s : Schedule) (i : Nat) :
    (s.abandon i).plane.registry = s.plane.registry := by
  simp only [Schedule.abandon]
  cases s.activities i with
  | none => rfl
  | some a =>
    dsimp only
    cases a.awaits with
    | false => rfl
    | true =>
      rw [if_pos rfl]
      show (a.leave s.plane).registry = _
      simp only [Activity.leave]
      cases a.holds with
      | true => rfl
      | false => rfl

/-- Only a deploy of a task enters it into the registry. -/
theorem Sound.registers (h : s.Sound) (d : Detector) (action : Action) {name : String}
    (hbefore : s.plane.registry.get? name = none)
    (hafter : (s.step d action).plane.registry.get? name ≠ none) :
    ∃ i outside a spec, action = .advance i outside ∧ s.activities i = some a ∧
      a.request = .deploy spec ∧ spec.name = name := by
  simp only [Schedule.step] at hafter
  cases action with
  | begin i request =>
    dsimp only at hafter
    cases hi : s.activities i with
    | none =>
      rw [hi] at hafter
      exact absurd hbefore hafter
    | some a =>
      rw [hi] at hafter
      exact absurd hbefore hafter
  | advance i outside =>
    obtain ⟨a, spec, hi, hrequest, hname⟩ := (h.get?_advance i outside hbefore).resolve_left hafter
    exact ⟨i, outside, a, spec, rfl, hi, hrequest, hname⟩
  | abandon i =>
    dsimp only at hafter
    rw [registry_abandon] at hafter
    exact absurd hbefore hafter
  | take waits =>
    dsimp only at hafter
    cases hconsumer : s.consumer with
    | idle =>
      rw [hconsumer] at hafter
      dsimp only at hafter
      by_cases hclosed : s.plane.queue.closed = true
      · rw [if_pos hclosed] at hafter
        exact absurd hbefore hafter
      · rw [if_neg hclosed] at hafter
        exact absurd hbefore hafter
    | receiving =>
      rw [hconsumer] at hafter
      exact absurd hbefore hafter
    | received =>
      rw [hconsumer] at hafter
      exact absurd hbefore hafter
  | consume => exact absurd hbefore hafter
  | abandonTake => exact absurd hbefore hafter
  | close => exact absurd hbefore hafter
  | write store => exact absurd hbefore hafter

/-- However requests, takes, cancellations and the end of the consumer are
    interleaved, registry and queue agree whenever nobody holds the
    registry: a registered task has the spec of the last append of its name
    that took effect, and what is not registered was last queued without
    replicas, if at all.  And only a deploy of a task enters it: nothing
    else under way brings a deleted task back. -/
theorem registry_agrees_with_queue (d : Detector) (capacity : Nat) (actions : List Action) :
    let s := run d capacity actions
    (s.plane.locked = false → ∀ name,
      (∀ task, s.plane.registry.get? name = some task →
        lastOf s.accepted name = some task.spec) ∧
      (s.plane.registry.get? name = none →
        ∀ spec, lastOf s.accepted name = some spec → spec.replica = 0)) ∧
    ∀ action name, s.plane.registry.get? name = none →
      (s.step d action).plane.registry.get? name ≠ none →
      ∃ i outside a spec, action = .advance i outside ∧ s.activities i = some a ∧
        a.request = .deploy spec ∧ spec.name = name := by
  intro s
  have h : s.Sound := sound_run d capacity actions
  refine ⟨fun hfree name => ?_,
    fun action name hbefore hafter => h.registers d action hbefore hafter⟩
  exact ⟨(h.agree hfree).registered name, fun hnone spec => (h.agree hfree).gone name spec hnone⟩

end Schedule

end ServingPlane
