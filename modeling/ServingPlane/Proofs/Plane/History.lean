import ServingPlane.Proofs.Plane.Recovery
import ServingPlane.Proofs.Program
import ServingPlane.Proofs.Store.History

/-! # Histories of recoveries

    A task is recovered again and again, each time from what the advisor
    replies.  As long as every fraction is a finite number, each recovery
    that goes through leaves its record, the newest records can be listed,
    and one more can be filed.  A number beyond the four-byte format is
    accepted from the advisor like any other, and the recovery it leads to
    is filed; but from then on the history cannot be read, and no recovery
    of that task is filed again. -/

namespace ServingPlane

/-- A call that puts a record in front of a history. -/
def DetectorCall.Files : {β : Type} → DetectorCall β → Prop
  | _, .inl (.appendHistory ..) => True
  | _, _ => False

/-- How calls are answered while a task is recovered and the advisor replies
    so.  Before the plane serves a call, others may have done to it what
    they like, except to the history of the task. -/
def Meanwhile (task : String) (reply : HttpOutcome) : Environment Plane DetectorCall
  | _, p, .inl e, answer, q => ∃ before : Plane,
    before.store.history.get? task = p.store.history.get? task ∧ before.serve e = some (answer, q)
  | _, p, .inr (.advise _), answer, q => answer = reply ∧ q = p
  | _, p, .inr _, _, q => q = p

/-- How calls are answered while nobody else acts. -/
def Quietly : Environment Plane DetectorCall
  | _, p, .inl e, answer, q => p.serve e = some (answer, q)
  | _, p, .inr _, _, q => q = p

/-- A call that files nothing leaves the store alone. -/
theorem Plane.store_serve {β : Type} {p q : Plane} {e : PlaneCall β} {answer : β}
    (he : ¬ DetectorCall.Files (.inl e)) (h : p.serve e = some (answer, q)) :
    q.store = p.store := by
  have hfree : ∀ {next : β × Plane}, next.2.store = p.store →
      p.whenFree next = some (answer, q) → q.store = p.store := by
    intro next hnext hserve
    simp only [whenFree] at hserve
    split at hserve
    · cases hserve
    · cases hserve
      exact hnext
  cases e with
  | readRegistry => exact hfree rfl h
  | updateRegistry change => exact hfree rfl h
  | lockRegistry => exact hfree rfl h
  | enqueue spec =>
    simp only [serve] at h
    split at h
    · cases h
      rfl
    · cases h
  | appendHistory => exact absurd trivial he
  | _ =>
    cases h
    rfl

section Meanwhile

variable {β : Type} {task : String} {reply : HttpOutcome} {p q : Plane}

theorem history_of_meanwhile {e : DetectorCall β} {answer : β} (he : ¬ DetectorCall.Files e)
    (h : Meanwhile task reply p e answer q) :
    q.store.history.get? task = p.store.history.get? task := by
  cases e with
  | inl e =>
    obtain ⟨before, hsame, hserve⟩ := h
    rw [Plane.store_serve he hserve]
    exact hsame
  | inr e =>
    cases e with
    | advise request => rw [h.2]
    | _ => rw [h]

/-- A program that files nothing leaves the history alone. -/
theorem history_of_runs {program : Detection β} {result : β}
    (hcalls : program.EveryCall fun e => ¬ DetectorCall.Files e)
    (hrun : program.Runs (Meanwhile task reply) p result q) :
    q.store.history.get? task = p.store.history.get? task := by
  have hguarded : program.Guarded (Meanwhile task reply) (fun _ e => ¬ DetectorCall.Files e) p :=
    hcalls.guarded
  refine hguarded.keeps (P := fun u => u.store.history.get? task = p.store.history.get? task)
    ?_ hrun rfl
  intro _ e u v answer he hcall hu
  rw [history_of_meanwhile he hcall]
  exact hu

end Meanwhile

namespace Detector

open Program

variable {α β : Type} {d : Detector} {spec updated : TaskSpec} {task : String}
  {reply : HttpOutcome} {p q : Plane}

/-! ## Programs that file nothing -/

/-- A program that files nothing. -/
abbrev Spares (program : Detection α) : Prop := program.EveryCall fun e => ¬ DetectorCall.Files e

theorem spares_askOutside (call : OutsideCall α) : Spares (askOutside call) :=
  everyCall_ask id

theorem spares_consult (e : Advisor.Endpoint α β) (input : α) : Spares (d.consult e input) :=
  everyCall_interpret (fun | .send _ => spares_askOutside _) _

theorem spares_collect : Spares (d.collect spec) :=
  everyCall_interpret (fun | .now => spares_askOutside _ | .gather _ => spares_askOutside _) _

theorem spares_recommendation : Spares (d.recommendation spec) := by
  refine everyCall_bind spares_collect fun collected => ?_
  cases collected with
  | error cause => trivial
  | ok request => exact everyCall_bind (spares_consult _ _) fun _ => trivial

theorem spares_release {contents : Registry} (a : α) :
    Spares (ask (.unlockRegistry contents) >>= fun _ => pure a) :=
  everyCall_bind (everyCall_ask id) fun _ => trivial

theorem spares_install : Spares (install spec updated) := by
  refine everyCall_bind (everyCall_ask id) fun registry => ?_
  show Spares (if _ then _ else _)
  split
  · refine everyCall_bind (everyCall_ask id) fun answer => ?_
    cases answer with
    | closed => exact spares_release _
    | accepted => exact spares_release _
  · exact spares_release _

/-- A result that does not blame the store. -/
def Blameless (result : Except DetectorError α) : Prop := ∀ cause, result ≠ .error (.store cause)

theorem blameless_recommendation : (d.recommendation spec).Always Blameless := by
  refine always_bind fun collected => ?_
  cases collected with
  | error cause => exact fun _ h => by cases h
  | ok request =>
    refine always_bind fun advice => ?_
    cases advice with
    | error cause => exact fun _ h => by cases h
    | ok recommended => exact fun _ h => by cases h

theorem blameless_install : (install spec updated).Always Blameless := by
  refine always_bind fun registry => ?_
  show Always _ (if _ then _ else _)
  split
  · refine always_bind fun answer => ?_
    cases answer with
    | closed => exact fun _ _ h => by cases h
    | accepted => exact fun _ _ h => by cases h
  · exact fun _ _ h => by cases h

/-! ## One recovery -/

/-- What is recommended is what the advisor replied. -/
theorem readResult_of_runs {recommended : Recommendation}
    (h : (d.recommendation spec).Runs (Meanwhile task reply) p (.ok recommended) q) :
    Advisor.readResult Advisor.recovery.result reply = .ok recommended := by
  obtain ⟨collected, u, -, h⟩ := runs_bind.mp h
  cases collected with
  | error cause => cases h.1
  | ok request =>
    obtain ⟨advice, v, ⟨outcome, w, ⟨rfl, rfl⟩, rfl, rfl⟩, hresult, rfl⟩ := runs_bind.mp h
    cases hadvice : Advisor.readResult Advisor.recovery.result outcome with
    | error cause =>
      rw [hadvice] at hresult
      cases hresult
    | ok advised =>
      rw [hadvice] at hresult
      cases hresult
      rfl

end Detector

/-- A recovery of a task, the advisor's reply to it and how it ended. -/
structure Round where
  spec : TaskSpec
  reply : HttpOutcome
  result : Except DetectorError (Option TaskSpec)

namespace Round

open Program

variable {d : Detector} {r : Round} {record : RecoveryRecord} {p q : Plane}

/-- The recovery went through. -/
def made (r : Round) : Bool :=
  match r.result with
  | .ok (some _) => true
  | _ => false

/-- The record that a recovery files: what was advised, and what was in effect. -/
structure Files (r : Round) (record : RecoveryRecord) : Prop where
  anomaly : record.isAnomaly = true
  advised : Advisor.readResult Advisor.recovery.result r.reply = .ok record.recommended
  replaced : r.spec.currentConfig = some record.previous

/-- Both fractions are finite numbers: the one that was advised and the one in effect. -/
structure Finite (r : Round) : Prop where
  advised : ∀ recommended,
    Advisor.readResult Advisor.recovery.result r.reply = .ok recommended → recommended.Finite
  replaced : ∀ previous, r.spec.currentConfig = some previous → previous.Finite

theorem Files.finite_iff (h : r.Files record) : record.Finite ↔ r.Finite := by
  constructor
  · intro hrecord
    refine ⟨fun recommended hadvised => ?_, fun previous hreplaced => ?_⟩
    · cases h.advised.symm.trans hadvised
      exact hrecord.recommended
    · cases h.replaced.symm.trans hreplaced
      exact hrecord.previous
  · intro hround
    exact ⟨hround.advised _ h.advised, hround.replaced _ h.replaced⟩

/-- How a recovery ends: before it comes to file a record, with its record
    filed, or with the record refused by the store. -/
inductive Ends (r : Round) (p q : Plane) : Prop
  | unfiled (same : q.store.history.get? r.spec.name = p.store.history.get? r.spec.name)
    (unmade : r.made = false) (blameless : Detector.Blameless r.result)
  | filed {record : RecoveryRecord} {before : Plane} (files : r.Files record)
    (same : before.store.history.get? r.spec.name = p.store.history.get? r.spec.name)
    (appended : before.store.appendHistory r.spec.name record Detector.historyLimit = .ok q.store)
    (result : r.result = .ok (some (r.spec.apply record.recommended)))
  | refused {record : RecoveryRecord} {before : Plane} {cause : StoreError} (files : r.Files record)
    (same : before.store.history.get? r.spec.name = p.store.history.get? r.spec.name)
    (refused : before.store.appendHistory r.spec.name record Detector.historyLimit = .error cause)
    (kept : q.store = before.store) (result : r.result = .error (.store cause))

/-- The store takes the record of a recovery, or refuses it. -/
theorem ends_of_serve {before : Plane} {answer : Except StoreError Unit} (files : r.Files record)
    (same : before.store.history.get? r.spec.name = p.store.history.get? r.spec.name)
    (hserve : before.serve (.appendHistory r.spec.name record Detector.historyLimit)
      = some (answer, q))
    (hresult : r.result
      = (answer.mapError .store).map fun _ => some (r.spec.apply record.recommended)) :
    r.Ends p q := by
  simp only [Plane.serve] at hserve
  split at hserve
  · rename_i store happend
    cases hserve
    exact .filed files same happend hresult
  · rename_i cause happend
    cases hserve
    exact .refused files same happend rfl hresult

theorem ends_of_runs
    (h : (d.recover r.spec).Runs (Meanwhile r.spec.name r.reply) p r.result q) : r.Ends p q := by
  obtain ⟨spec, reply, result⟩ := r
  simp only [Detector.recover] at h
  cases hconfig : spec.currentConfig with
  | none =>
    rw [hconfig] at h
    obtain ⟨rfl, rfl⟩ := h
    exact .unfiled rfl rfl fun _ h => by cases h
  | some previous =>
    rw [hconfig] at h
    obtain ⟨advice, u, hadvice, h⟩ := runs_bind.mp h
    have hu := history_of_runs Detector.spares_recommendation hadvice
    cases advice with
    | error cause =>
      obtain ⟨rfl, rfl⟩ := h
      have hblameless := Detector.blameless_recommendation.of_runs hadvice
      exact .unfiled hu rfl fun e he => hblameless e (congrArg _ (Except.error.inj he))
    | ok recommended =>
      have hadvised := Detector.readResult_of_runs hadvice
      obtain ⟨installed, v, hinstall, h⟩ := runs_bind.mp h
      have hv := (history_of_runs Detector.spares_install hinstall).trans hu
      cases installed with
      | error cause =>
        obtain ⟨rfl, rfl⟩ := h
        have hblameless := Detector.blameless_install.of_runs hinstall
        exact .unfiled hv rfl fun e he => hblameless e (congrArg _ (Except.error.inj he))
      | ok there =>
        cases there with
        | false =>
          obtain ⟨rfl, rfl⟩ := h
          exact .unfiled hv rfl fun _ h => by cases h
        | true =>
          obtain ⟨now, _, rfl, answer, t, ⟨before, hsame, hserve⟩, h⟩ := h
          have hfiles : Files ⟨spec, reply, result⟩
              ⟨.ofInt now.millis, true, recommended, previous⟩ := ⟨rfl, hadvised, hconfig⟩
          cases answer with
          | error cause =>
            obtain ⟨rfl, rfl⟩ := h
            exact ends_of_serve hfiles (hsame.trans hv) hserve rfl
          | ok =>
            obtain ⟨rfl, rfl⟩ := h
            exact ends_of_serve hfiles (hsame.trans hv) hserve rfl

end Round

namespace Round

variable {rounds : List Round} {records filed : List RecoveryRecord}

/-- What a listing shows of a recovery: its record, fractions aside. -/
def Listed (r : Round) (record : RecoveryRecord) : Prop :=
  ∃ filed, r.Files filed ∧ record.outline = filed.outline

theorem forall_finite_iff (h : List.Forall₂ Files rounds filed) :
    (∀ record ∈ filed, record.Finite) ↔ ∀ r ∈ rounds, r.Finite := by
  induction h with
  | nil =>
    exact ⟨fun _ _ hr => absurd hr List.not_mem_nil, fun _ _ hr => absurd hr List.not_mem_nil⟩
  | cons hfiles _ ih =>
    rw [List.forall_mem_cons, List.forall_mem_cons, hfiles.finite_iff, ih]

theorem forall₂_listed (h : List.Forall₂ Files rounds filed)
    (hrest : records.map RecoveryRecord.outline = filed.map RecoveryRecord.outline) :
    List.Forall₂ Listed rounds records := by
  have houtline : List.Forall₂ (fun r outline => ∃ filed, Files r filed ∧ outline = filed.outline)
      rounds (filed.map RecoveryRecord.outline) :=
    List.forall₂_map_right_iff.mpr (h.imp fun _ record hfiles => ⟨record, hfiles, rfl⟩)
  rw [← hrest, List.forall₂_map_right_iff] at houtline
  exact houtline

end Round

namespace Detector

open Program

variable {d : Detector} {task : String} {p q : Plane} {rounds : List Round}

/-- Recoveries of a task, one after the other; the newest stands first.
    After each of them, too, others may do what they like to the rest. -/
inductive Recoveries (d : Detector) (task : String) (p : Plane) : List Round → Plane → Prop
  | start : Recoveries d task p [] p
  | others {q t : Plane} {rounds : List Round} (earlier : Recoveries d task p rounds q)
    (same : t.store.history.get? task = q.store.history.get? task) :
    Recoveries d task p rounds t
  | next {q t : Plane} {rounds : List Round} {r : Round}
    (earlier : Recoveries d task p rounds q) (name : r.spec.name = task)
    (run : (d.recover r.spec).Runs (Meanwhile task r.reply) q r.result t) :
    Recoveries d task p (r :: rounds) t

/-- The store keeps track of the recoveries that went through, and as long
    as their fractions are finite it refuses none. -/
structure Tracked (q : Plane) (task : String) (rounds : List Round)
    (filed : List RecoveryRecord) : Prop where
  files : List.Forall₂ Round.Files (rounds.filter Round.made) filed
  tracks : q.store.Tracks task historyLimit filed
  blameless : (∀ r ∈ rounds.filter Round.made, r.Finite) → ∀ r ∈ rounds, Blameless r.result

/-- One more recovery. -/
theorem Tracked.next {filed : List RecoveryRecord} {t : Plane} {r : Round}
    (h : Tracked q r.spec.name rounds filed) (hends : r.Ends q t) :
    ∃ filed, Tracked t r.spec.name (r :: rounds) filed := by
  cases hends with
  | unfiled same unmade blameless =>
    have hmade : (r :: rounds).filter Round.made = rounds.filter Round.made :=
      List.filter_cons_of_neg (by rw [unmade]; exact Bool.false_ne_true)
    refine ⟨filed, hmade ▸ h.files, h.tracks.congr same, fun hfinite => ?_⟩
    rw [hmade] at hfinite
    exact List.forall_mem_cons.mpr ⟨blameless, h.blameless hfinite⟩
  | @filed record before files same appended result =>
    have hmade : (r :: rounds).filter Round.made = r :: rounds.filter Round.made :=
      List.filter_cons_of_pos (by rw [Round.made, result])
    refine ⟨record :: filed, hmade ▸ .cons files h.files,
      (h.tracks.congr same).cons (by decide) appended, fun hfinite => ?_⟩
    rw [hmade] at hfinite
    refine List.forall_mem_cons.mpr ⟨fun cause hcause => ?_, h.blameless fun r hr => ?_⟩
    · rw [result] at hcause
      cases hcause
    · exact hfinite r (List.mem_cons_of_mem _ hr)
  | @refused record before cause files same refused kept result =>
    have hmade : (r :: rounds).filter Round.made = rounds.filter Round.made :=
      List.filter_cons_of_neg (by rw [Round.made, result]; exact Bool.false_ne_true)
    have htracks := h.tracks.congr same
    refine ⟨filed, hmade ▸ h.files, kept ▸ htracks, fun hfinite => ?_⟩
    -- a store that tracks finite fractions refuses nothing
    rw [hmade] at hfinite
    have hfiled := (Round.forall_finite_iff h.files).mpr hfinite
    obtain ⟨store, hok⟩ := htracks.appendHistory hfiled record
    rw [refused] at hok
    cases hok

theorem Recoveries.tracked (hstart : p.store.history.get? task = none)
    (h : d.Recoveries task p rounds q) : ∃ filed, Tracked q task rounds filed := by
  induction h with
  | start => exact ⟨[], .nil, .nil hstart, fun _ _ hr => absurd hr List.not_mem_nil⟩
  | others earlier same ih =>
    obtain ⟨filed, hfiles, htracks, hblameless⟩ := ih
    exact ⟨filed, hfiles, htracks.congr same, hblameless⟩
  | next earlier name run ih =>
    subst name
    obtain ⟨filed, htracked⟩ := ih
    exact htracked.next (Round.ends_of_runs run)

/-- Asked for the history of a task, the detector answers so and nothing changes. -/
def Answers (p : Plane) (task : String)
    (answer : Except DetectorError (Option (List RecoveryRecord))) : Prop :=
  ∀ result q, (history task).Runs Quietly p result q ↔ result = answer ∧ q = p

/-- What is listed, of a registered task whose registry nobody holds. -/
theorem answers_listHistory (hfree : q.locked = false) (hknown : q.registry.contains task = true) :
    Answers q task ((q.store.listHistory task).mapError .store |>.map some) := by
  have hread : q.serve .readRegistry = some (q.registry, q) := by
    simp only [Plane.serve, Plane.whenFree]
    rw [hfree]
    rfl
  intro result t
  constructor
  · intro h
    obtain ⟨registry, u, hserve, h⟩ := runs_bind.mp h
    cases hread.symm.trans (runs_ask.mp hserve)
    rw [if_pos hknown] at h
    obtain ⟨listed, v, hlist, h⟩ := runs_bind.mp h
    cases runs_ask.mp hlist
    cases hlisted : q.store.listHistory task with
    | error cause =>
      rw [hlisted] at h
      exact h
    | ok records =>
      rw [hlisted] at h
      exact h
  · rintro ⟨rfl, rfl⟩
    refine runs_bind.mpr ⟨_, _, runs_ask.mpr hread, ?_⟩
    rw [if_pos hknown]
    refine runs_bind.mpr ⟨_, _, runs_ask.mpr rfl, ?_⟩
    cases t.store.listHistory task with
    | error cause => exact ⟨rfl, rfl⟩
    | ok records => exact ⟨rfl, rfl⟩

section History

variable (hstart : p.store.history.get? task = none) (h : d.Recoveries task p rounds q)
  (hfree : q.locked = false) (hknown : q.registry.contains task = true)
include hstart h hfree hknown

/-- After finite fractions only, the newest records are listed and any record can be filed. -/
theorem Recoveries.listed (hfinite : ∀ r ∈ rounds.filter Round.made, r.Finite) :
    (∀ r ∈ rounds, Blameless r.result) ∧
    (∃ records, Answers q task (.ok (some records)) ∧
      records.length = min historyLimit (rounds.filter Round.made).length ∧
      List.Forall₂ Round.Listed ((rounds.filter Round.made).take historyLimit) records) ∧
    ∀ record, ∃ store, q.store.appendHistory task record historyLimit = .ok store := by
  obtain ⟨filed, hfiles, htracks, hblameless⟩ := h.tracked hstart
  have hfiled := (Round.forall_finite_iff hfiles).mpr hfinite
  obtain ⟨records, hlist, -, hrest⟩ := htracks.listHistory hfiled
  have hlisted := Round.forall₂_listed (List.forall₂_take historyLimit hfiles) hrest
  have hanswers := answers_listHistory hfree hknown
  rw [hlist] at hanswers
  refine ⟨hblameless hfinite, ⟨records, hanswers, ?_, hlisted⟩, htracks.appendHistory hfiled⟩
  rw [← hlisted.length_eq, List.length_take]

/-- After any other fraction, nothing is listed and nothing can be filed. -/
theorem Recoveries.blocked (hspoiled : ∃ r ∈ rounds.filter Round.made, ¬ r.Finite) :
    (∃ cause, Answers q task (.error (.store cause))) ∧
    ∀ record, ∃ cause, q.store.appendHistory task record historyLimit = .error cause := by
  obtain ⟨filed, hfiles, htracks, -⟩ := h.tracked hstart
  have hfiled : ∃ record ∈ filed, ¬ record.Finite := by
    by_contra hnot
    push Not at hnot
    obtain ⟨r, hr, hfraction⟩ := hspoiled
    exact hfraction ((Round.forall_finite_iff hfiles).mp hnot r hr)
  obtain ⟨cause, hlist⟩ := htracks.listHistory_error hfiled
  have hanswers := answers_listHistory hfree hknown
  rw [hlist] at hanswers
  exact ⟨⟨cause, hanswers⟩, htracks.appendHistory_error hfiled⟩

/-- As long as the fractions that were advised and those that were in effect
    are finite numbers, the store refuses no recovery, the history has a
    record of each that went through, up to the limit, and one more can be
    filed.  Once a recovery with any other fraction went through, the
    history cannot be read and nothing can be filed. -/
theorem recoveries_listed_while_finite :
    let made := rounds.filter Round.made
    ((∀ r ∈ made, r.Finite) →
      (∀ r ∈ rounds, Blameless r.result) ∧
      (∃ records, Answers q task (.ok (some records)) ∧
        records.length = min historyLimit made.length ∧
        List.Forall₂ Round.Listed (made.take historyLimit) records) ∧
      ∀ record, ∃ store, q.store.appendHistory task record historyLimit = .ok store) ∧
    ((∃ r ∈ made, ¬ r.Finite) →
      (∃ cause, Answers q task (.error (.store cause))) ∧
      ∀ record, ∃ cause, q.store.appendHistory task record historyLimit = .error cause) :=
  ⟨h.listed hstart hfree hknown, h.blocked hstart hfree hknown⟩

end History

/-- A task whose replicas follow recommendations. -/
def adaptive : TaskSpec := { Schedule.pair with strategy := .auto }

/-- A plane where it is registered and nothing waits. -/
def attended : Plane := { Plane.new 1 with registry := Registry.register .empty adaptive }

/-- The advisor asks for one replica with this part of a card. -/
def advising (fraction : String) : HttpOutcome :=
  .ok ⟨200, "\x7b\"result\": \x7b\"replicas\": 1, \"gpu_memory_utilization\": " ++ fraction
    ++ "\x7d\x7d"⟩

/-- A recovery with which nothing interferes. -/
def undisturbed (reply : HttpOutcome) (recommended : Recommendation) : Round :=
  ⟨adaptive, reply, .ok (some (adaptive.apply recommended))⟩

/-- A recovery to half a card. -/
def halved : Round := undisturbed (advising "0.5") ⟨0, 0, ⟨0x3f000000⟩, 1⟩

/-- A recovery to more of a card than the four-byte format holds; the
    fraction is infinite once it was read. -/
def overflowing : Round := undisturbed (advising "1e39") ⟨0, 0, ⟨0x7f800000⟩, 1⟩

/-- With a reply that the client accepts, the recovery goes through. -/
theorem recoveries_undisturbed {reply : HttpOutcome} {recommended : Recommendation}
    (hadvice : Advisor.readResult Advisor.recovery.result reply = .ok recommended) :
    ∃ q, Schedule.watchful.Recoveries "chat" attended [undisturbed reply recommended] q ∧
      q.locked = false ∧ q.registry.contains "chat" = true := by
  have hrecommendation : (Schedule.watchful.recommendation adaptive).Runs
      (Meanwhile "chat" reply) attended (.ok recommended) attended := by
    refine runs_bind.mpr ⟨_, _, ⟨⟨0, 0⟩, _, rfl, [], _, rfl, rfl, rfl⟩, ?_⟩
    refine runs_bind.mpr ⟨_, _, ⟨reply, _, ⟨rfl, rfl⟩, rfl, rfl⟩, ?_⟩
    rw [hadvice]
    exact ⟨rfl, rfl⟩
  have hinstall : ∃ u, (install adaptive (adaptive.apply recommended)).Runs
      (Meanwhile "chat" reply) attended (.ok true) u ∧
      u.store = attended.store ∧ u.locked = false ∧ u.registry.contains "chat" = true :=
    -- the registry is locked, the spec is queued, and the registry is released
    ⟨_, ⟨_, _, ⟨_, rfl, rfl⟩, _, _, ⟨_, rfl, rfl⟩, _, _, ⟨_, rfl, rfl⟩, rfl, rfl⟩, rfl, rfl, rfl⟩
  obtain ⟨u, hinstall, hstore, hfree, hknown⟩ := hinstall
  obtain ⟨store, hserve⟩ : ∃ store, u.serve (.appendHistory "chat"
      ⟨.ofInt 0, true, recommended, ⟨0, 0, .zero, 2⟩⟩ historyLimit)
        = some (.ok (), { u with store }) := by
    simp only [Plane.serve]
    rw [hstore]
    exact ⟨_, rfl⟩
  refine ⟨{ u with store }, .next .start rfl ?_, hfree, hknown⟩
  refine runs_bind.mpr ⟨_, _, hrecommendation, runs_bind.mpr ⟨_, _, hinstall, ?_⟩⟩
  exact ⟨⟨0, 0⟩, _, rfl, _, _, ⟨u, rfl, hserve⟩, rfl, rfl⟩

theorem advised_halved : Advisor.readResult Advisor.recovery.result halved.reply
    = .ok ⟨0, 0, ⟨0x3f000000⟩, 1⟩ := by
  decide +kernel

theorem advised_overflowing : Advisor.readResult Advisor.recovery.result overflowing.reply
    = .ok ⟨0, 0, ⟨0x7f800000⟩, 1⟩ := by
  decide +kernel

/-- The record of a recovery to half a card is listed. -/
theorem recoveries_listed_while_finite_of_halved :
    attended.store.history.get? "chat" = none ∧ (∀ r ∈ [halved].filter Round.made, r.Finite) ∧
    ∃ q records, Schedule.watchful.Recoveries "chat" attended [halved] q ∧
      q.locked = false ∧ q.registry.contains "chat" = true ∧
      Answers q "chat" (.ok (some records)) ∧ records.length = 1 := by
  have hstart : attended.store.history.get? "chat" = none := rfl
  have hfinite : ∀ r ∈ [halved].filter Round.made, r.Finite := by
    refine List.forall_mem_singleton.mpr ⟨fun recommended hadvised => ?_, fun previous hconfig => ?_⟩
    · cases advised_halved.symm.trans hadvised
      rfl
    · cases hconfig
      rfl
  obtain ⟨q, hrounds, hfree, hknown⟩ := recoveries_undisturbed advised_halved
  obtain ⟨-, ⟨records, hanswers, hlength, -⟩, -⟩ :=
    (recoveries_listed_while_finite hstart hrounds hfree hknown).1 hfinite
  exact ⟨hstart, hfinite, q, records, hrounds, hfree, hknown, hanswers, hlength⟩

/-- The client accepts a fraction beyond the four-byte format, and the
    recovery goes through; but its record is the last one, and nobody can
    read it. -/
theorem history_blocked_by_overflow :
    adaptive.isAutoScaled = true ∧
    (∃ advised, Advisor.readResult Advisor.recovery.result overflowing.reply = .ok advised) ∧
    ∃ q, Schedule.watchful.Recoveries "chat" attended [overflowing] q ∧
      q.locked = false ∧ q.registry.contains "chat" = true ∧
      (∃ cause, Answers q "chat" (.error (.store cause))) ∧
      ∀ record, ∃ cause, q.store.appendHistory "chat" record historyLimit = .error cause := by
  have hspoiled : ∃ r ∈ [overflowing].filter Round.made, ¬ r.Finite :=
    ⟨_, List.mem_singleton.mpr rfl, fun h => by cases h.advised _ advised_overflowing⟩
  obtain ⟨q, hrounds, hfree, hknown⟩ := recoveries_undisturbed advised_overflowing
  obtain ⟨hanswers, happend⟩ := hrounds.blocked rfl hfree hknown hspoiled
  exact ⟨rfl, ⟨_, advised_overflowing⟩, q, hrounds, hfree, hknown, hanswers, happend⟩

end Detector

end ServingPlane
