import ServingPlane.Proofs.Dict
import ServingPlane.Proofs.Numeric.Plain
import ServingPlane.Task.Launch

/-! # Reading a launch command back

    A launch command is a row of flags with values.  It reads from the
    left, two words at a time, so it does not matter what a value looks
    like.  Six flags are always there; of the tunables each one that is
    set has a flag of its own, and what is left are the extra arguments.
    As long as no extra argument goes by the name of a tunable, a launch
    command tells the configuration that it was made from. -/

namespace ServingPlane

open Numeric

/-! ## Tunables -/

/-- The tunables of a vLLM engine. -/
inductive Tunable where
  | maxNumSeqs
  | tensorParallelSize
  | gpuMemoryUtilization
  | mode
  | trustRemoteCode
  deriving DecidableEq, Repr

namespace Tunable

/-- The tunables in the order of their declaration. -/
def all : List Tunable :=
  [.maxNumSeqs, .tensorParallelSize, .gpuMemoryUtilization, .mode, .trustRemoteCode]

/-- The name of a tunable, on the wire and on command lines. -/
def name : Tunable → String
  | maxNumSeqs => "max_num_seqs"
  | tensorParallelSize => "tensor_parallel_size"
  | gpuMemoryUtilization => "gpu_memory_utilization"
  | mode => "vllm_mode"
  | trustRemoteCode => "trust_remote_code"

/-- The flag of a tunable. -/
def flag (t : Tunable) : String := "--" ++ t.name

theorem mem_all (t : Tunable) : t ∈ all := by
  cases t <;> decide

/-- The tunables are the members of the settings, in this order. -/
theorem map_name_all (fraction : Codec Single) :
    all.map name = (VllmSettings.shape fraction).fields.map (·.name) := rfl

theorem name_injective : Function.Injective name := by
  intro t u h
  cases t <;> cases u <;> first | rfl | exact absurd h (by decide)

theorem flag_injective : Function.Injective flag := fun _ _ h =>
  name_injective (String.append_right_inj _ |>.mp h)

end Tunable

namespace VllmSettings

/-- Whether a tunable is set: a number above zero, a text that is not
    empty, a switch that is on. -/
def sets (s : VllmSettings) : Tunable → Bool
  | .maxNumSeqs => s.maxNumSeqs ≠ 0
  | .tensorParallelSize => s.tensorParallelSize ≠ 0
  | .gpuMemoryUtilization => s.gpuMemoryUtilization.isPositive
  | .mode => s.mode ≠ ""
  | .trustRemoteCode => s.trustRemoteCode

/-- A tunable as it stands on a command line. -/
def text (s : VllmSettings) : Tunable → String
  | .maxNumSeqs => natText s.maxNumSeqs.toNat
  | .tensorParallelSize => natText s.tensorParallelSize.toNat
  | .gpuMemoryUtilization => s.gpuMemoryUtilization.plainText
  | .mode => s.mode
  | .trustRemoteCode => "true"

/-- The settings with a fraction that is not above zero taken back. -/
def effective (s : VllmSettings) : VllmSettings :=
  if s.sets .gpuMemoryUtilization then s else { s with gpuMemoryUtilization := .zero }

variable {s r : VllmSettings}

/-- There is one flag for each tunable that is set. -/
theorem launchFlags_eq (s : VllmSettings) :
    s.launchFlags = (Tunable.all.filter s.sets).map fun t => (t.flag, s.text t) := by
  have hcons (t : Tunable) (rest : List Tunable) :
      ((t :: rest).filter s.sets).map (fun t => (t.flag, s.text t))
        = (if s.sets t then [(t.flag, s.text t)] else [])
          ++ (rest.filter s.sets).map fun t => (t.flag, s.text t) := by
    rw [List.filter_cons]
    split <;> rfl
  simp only [Tunable.all, hcons, sets, launchFlags, decide_eq_true_eq, ne_eq, ite_not,
    String.isEmpty_iff, List.append_assoc, List.filter_nil, List.map_nil, List.append_nil]
  rfl

theorem mem_launchFlags {t : Tunable} {value : String} :
    (t.flag, value) ∈ s.launchFlags ↔ s.sets t = true ∧ value = s.text t := by
  rw [launchFlags_eq, List.mem_map]
  constructor
  · rintro ⟨u, hu, heq⟩
    obtain ⟨hflag, rfl⟩ := Prod.mk.inj heq
    obtain rfl := Tunable.flag_injective hflag
    exact ⟨(List.mem_filter.mp hu).2, rfl⟩
  · rintro ⟨hset, rfl⟩
    exact ⟨t, List.mem_filter.mpr ⟨t.mem_all, hset⟩, rfl⟩

theorem sets_effective (t : Tunable) : s.effective.sets t = s.sets t := by
  rw [effective]
  split
  · rfl
  · rename_i hunset
    cases t with
    | gpuMemoryUtilization => exact (Bool.eq_false_iff.mpr hunset).symm
    | _ => rfl

theorem text_effective {t : Tunable} (h : s.sets t = true) : s.effective.text t = s.text t := by
  rw [effective]
  split
  · rfl
  · rename_i hunset
    cases t with
    | gpuMemoryUtilization => exact absurd h hunset
    | _ => rfl

/-- A number that is unset, or has a text, is told from others. -/
theorem eq_of_natText {x y : UInt32} (hset : decide (x ≠ 0) = decide (y ≠ 0))
    (htext : decide (x ≠ 0) = true → natText x.toNat = natText y.toNat) : x = y := by
  by_cases hx : x = 0
  · have hy : ¬ y ≠ 0 := by rwa [← decide_eq_decide.mp hset, not_not]
    rw [hx, not_not.mp hy]
  · exact UInt32.toNat_inj.mp (natText_injective (htext (decide_eq_true hx)))

/-- The settings are told by what is set, and to which text. -/
theorem effective_eq (hsets : ∀ t, s.sets t = r.sets t)
    (htext : ∀ t, s.sets t = true → s.text t = r.text t) : s.effective = r.effective := by
  have hseqs : s.maxNumSeqs = r.maxNumSeqs :=
    eq_of_natText (hsets .maxNumSeqs) (htext .maxNumSeqs)
  have hsize : s.tensorParallelSize = r.tensorParallelSize :=
    eq_of_natText (hsets .tensorParallelSize) (htext .tensorParallelSize)
  have hmode : s.mode = r.mode := by
    by_cases hs : s.mode = ""
    · have hr : ¬ r.mode ≠ "" := by rwa [← decide_eq_decide.mp (hsets .mode), not_not]
      rw [hs, not_not.mp hr]
    · exact htext .mode (decide_eq_true hs)
  have htrust : s.trustRemoteCode = r.trustRemoteCode := hsets .trustRemoteCode
  have hfraction (hset : s.sets .gpuMemoryUtilization = true) :
      s.gpuMemoryUtilization = r.gpuMemoryUtilization :=
    Single.eq_of_plainText_eq hset ((hsets _).symm.trans hset) (htext .gpuMemoryUtilization hset)
  rw [effective, effective, ← hsets .gpuMemoryUtilization]
  obtain ⟨seqs, size, fraction, mode, trust⟩ := s
  obtain ⟨seqs', size', fraction', mode', trust'⟩ := r
  dsimp only at *
  subst hseqs hsize hmode htrust
  split
  · rename_i hset
    rw [hfraction hset]
  · rfl

/-- The flags tell the settings, a fraction that is not above zero apart. -/
theorem launchFlags_eq_iff : s.launchFlags = r.launchFlags ↔ s.effective = r.effective := by
  constructor
  · intro h
    have hmem (t : Tunable) (value : String) :
        s.sets t = true ∧ value = s.text t ↔ r.sets t = true ∧ value = r.text t := by
      rw [← mem_launchFlags, ← mem_launchFlags, h]
    refine effective_eq (fun t => Bool.eq_iff_iff.mpr ⟨fun hset => ?_, fun hset => ?_⟩) ?_
    · exact ((hmem t _).mp ⟨hset, rfl⟩).1
    · exact ((hmem t _).mpr ⟨hset, rfl⟩).1
    · exact fun t hset => ((hmem t _).mp ⟨hset, rfl⟩).2
  · intro h
    have hflags (s : VllmSettings) : s.effective.launchFlags = s.launchFlags := by
      rw [launchFlags_eq, launchFlags_eq, List.filter_congr fun t _ => sets_effective t]
      exact List.map_congr_left fun t ht => by rw [text_effective (List.mem_filter.mp ht).2]
    rw [← hflags s, h, hflags]

end VllmSettings

namespace Engine

/-- Whether a tunable of the engine is set. -/
def sets : Engine → Tunable → Bool
  | vllm s => s.sets

/-- A tunable of the engine as it stands on a command line. -/
def text : Engine → Tunable → String
  | vllm s => s.text

/-- The engine with a fraction that is not above zero taken back. -/
def effective : Engine → Engine
  | vllm s => .vllm s.effective

theorem launchFlags_eq (e : Engine) :
    e.launchFlags = (Tunable.all.filter e.sets).map fun t => (t.flag, e.text t) := by
  cases e with
  | vllm s => exact s.launchFlags_eq

theorem launchFlags_eq_iff {e e' : Engine} :
    e.launchFlags = e'.launchFlags ↔ e.effective = e'.effective := by
  cases e with
  | vllm s =>
    cases e' with
    | vllm r =>
      exact VllmSettings.launchFlags_eq_iff.trans
        ⟨congrArg Engine.vllm, fun heq => Engine.vllm.inj heq⟩

end Engine

/-! ## Rows of flags -/

theorem flagWords_cons (flag value : String) (flags : List (String × String)) :
    flagWords ((flag, value) :: flags) = flag :: value :: flagWords flags := rfl

/-- Read two words at a time, a row gives its flags back, whatever the
    values look like. -/
theorem flagWords_injective : Function.Injective flagWords := by
  intro flags
  induction flags with
  | nil =>
    intro others h
    cases others with
    | nil => rfl
    | cons pair others => cases h
  | cons pair flags ih =>
    intro others h
    cases others with
    | nil => cases h
    | cons other others =>
      obtain ⟨flag, value⟩ := pair
      obtain ⟨flag', value'⟩ := other
      rw [flagWords_cons, flagWords_cons] at h
      obtain ⟨rfl, hvalues⟩ := List.cons.inj h
      obtain ⟨rfl, hrest⟩ := List.cons.inj hvalues
      rw [ih hrest]

namespace TaskSpec

/-- No extra argument goes by the name of a tunable. -/
def PlainExtras (s : TaskSpec) : Prop := ∀ t : Tunable, s.extraArguments.get? t.name = none

variable {s r : TaskSpec} {name endpoint name' endpoint' : String}

theorem extraFlags_injective (h : s.extraFlags = r.extraFlags) :
    s.extraArguments = r.extraArguments := by
  refine Dict.ext_entries (List.map_injective_iff.mpr ?_ h)
  rintro ⟨key, value⟩ ⟨key', value'⟩ heq
  obtain ⟨hkey, rfl⟩ := Prod.mk.inj heq
  rw [String.append_right_inj] at hkey
  rw [hkey]

/-- Whether a flag is that of a tunable. -/
def Tunable.marks (pair : String × String) : Bool := Tunable.all.any (·.flag = pair.1)

theorem filter_engineFlags (e : Engine) : e.launchFlags.filter Tunable.marks = e.launchFlags := by
  refine List.filter_eq_self.mpr fun pair hpair => ?_
  rw [e.launchFlags_eq] at hpair
  obtain ⟨t, -, rfl⟩ := List.mem_map.mp hpair
  exact List.any_eq_true.mpr ⟨t, t.mem_all, decide_eq_true rfl⟩

theorem filter_extraFlags_of_plain (h : s.PlainExtras) : s.extraFlags.filter Tunable.marks = [] := by
  refine List.filter_eq_nil_iff.mpr fun pair hpair htunable => ?_
  obtain ⟨entry, hentry, rfl⟩ := List.mem_map.mp hpair
  obtain ⟨t, -, hflag⟩ := List.any_eq_true.mp htunable
  have hkey : t.name = entry.1 := String.append_right_inj _ |>.mp (of_decide_eq_true hflag)
  refine Dict.get?_eq_none_iff.mp (h t) (List.mem_map.mpr ⟨entry, hentry, hkey.symm⟩)

/-- The flags of the tunables come apart from those of the extra arguments. -/
theorem variableFlags_eq_iff (hs : s.PlainExtras) (hr : r.PlainExtras) :
    s.engine.launchFlags ++ s.extraFlags = r.engine.launchFlags ++ r.extraFlags ↔
      s.engine.effective = r.engine.effective ∧ s.extraArguments = r.extraArguments := by
  constructor
  · intro h
    have hflags : s.engine.launchFlags = r.engine.launchFlags := by
      have hfilter := congrArg (List.filter Tunable.marks) h
      rwa [List.filter_append, List.filter_append, filter_engineFlags, filter_engineFlags,
        filter_extraFlags_of_plain hs, filter_extraFlags_of_plain hr, List.append_nil,
        List.append_nil] at hfilter
    rw [hflags] at h
    exact ⟨Engine.launchFlags_eq_iff.mp hflags, extraFlags_injective (List.append_cancel_left h)⟩
  · rintro ⟨heffective, hextra⟩
    rw [Engine.launchFlags_eq_iff.mpr heffective, extraFlags, extraFlags, hextra]

/-- The six flags in front stand for the values behind them. -/
theorem fixedFlags_append_eq_iff {flags flags' : List (String × String)} :
    s.fixedFlags name endpoint ++ flags = r.fixedFlags name' endpoint' ++ flags' ↔
      (s.model = r.model ∧ s.port = r.port ∧ s.host = r.host ∧ name = name' ∧
        endpoint = endpoint') ∧ flags = flags' := by
  have hkind (e e' : Engine) : e.kind = e'.kind := by
    cases e
    cases e'
    rfl
  simp only [fixedFlags, List.cons_append, List.nil_append, List.cons.injEq, Prod.mk.injEq,
    true_and, natText_injective.eq_iff, UInt16.toNat_inj, hkind s.engine r.engine, and_assoc]

/-- A launch command is the start command, then six fixed flags, one flag
    for each tunable that is set, in the order in which they are declared,
    and one for each extra argument, in the order of their keys.  If no extra argument goes by the name of a
    tunable, two commands are the same exactly if they were made from the
    same model, address, exporter, extra arguments and engine, where a
    fraction that is not above zero counts as unset. -/
theorem launchCommand_determines (startCommand : List String) :
    Tunable.all.map Tunable.name = (VllmSettings.shape .single).fields.map (·.name) ∧
    (∀ (s : TaskSpec) (name endpoint : String),
      s.launchCommand startCommand name endpoint = startCommand ++ flagWords
        ([("--model", s.model), ("--port", natText s.port.toNat), ("--host", s.host),
            ("--backend", s.engine.kind), ("--exporter_service_name", name),
            ("--exporter_endpoint", endpoint)]
          ++ (Tunable.all.filter s.engine.sets).map (fun t => (t.flag, s.engine.text t))
          ++ s.extraArguments.entries.map fun (key, value) => ("--" ++ key, value)) ∧
      s.extraArguments.keys.Pairwise (· < ·)) ∧
    (∀ (s r : TaskSpec) (name endpoint name' endpoint' : String), s.PlainExtras → r.PlainExtras →
      (s.launchCommand startCommand name endpoint = r.launchCommand startCommand name' endpoint' ↔
        s.model = r.model ∧ s.port = r.port ∧ s.host = r.host ∧ name = name' ∧
          endpoint = endpoint' ∧ s.extraArguments = r.extraArguments ∧
          s.engine.effective = r.engine.effective)) := by
  refine ⟨Tunable.map_name_all _, ?_, ?_⟩
  · intro s name endpoint
    refine ⟨?_, s.extraArguments.keys_pairwise⟩
    rw [launchCommand, Engine.launchFlags_eq]
    rfl
  · intro s r name endpoint name' endpoint' hs hr
    rw [launchCommand, launchCommand, List.append_right_inj, flagWords_injective.eq_iff,
      List.append_assoc, List.append_assoc, fixedFlags_append_eq_iff, variableFlags_eq_iff hs hr]
    tauto

/-- A spec with values that are empty, contain spaces or look like flags. -/
def flaglike : TaskSpec :=
  { blank with
    model := "--port"
    port := 8000
    extraArguments := .ofList [("note", "--host a b"), ("", "--")]
    engine := .vllm ⟨4, 0, ⟨0xbf800000⟩, "--vllm_mode", true⟩ }

/-- The same spec without its negative fraction has the same command, and
    with another host it has not. -/
theorem launchCommand_flaglike :
    flaglike.PlainExtras ∧
    { flaglike with engine := .vllm ⟨4, 0, .zero, "--vllm_mode", true⟩ }.launchCommand
      ["serve"] "exporter" "" = flaglike.launchCommand ["serve"] "exporter" "" ∧
    { flaglike with host := "--backend" }.launchCommand ["serve"] "exporter" ""
      ≠ flaglike.launchCommand ["serve"] "exporter" "" := by
  have hplain : flaglike.PlainExtras := fun t => by cases t <;> rfl
  obtain ⟨-, -, hdetermines⟩ := launchCommand_determines ["serve"]
  refine ⟨hplain, (hdetermines _ _ _ _ _ _ hplain hplain).mpr ?_, fun h => ?_⟩
  · exact ⟨rfl, rfl, rfl, rfl, rfl, rfl, by decide⟩
  · obtain ⟨-, -, hhost, -⟩ :=
      (hdetermines { flaglike with host := "--backend" } _ _ _ _ _ hplain hplain).mp h
    exact absurd hhost (by decide)

/-- An extra argument that goes by the name of a tunable is not told from it. -/
example :
    { blank with extraArguments := .ofList [("max_num_seqs", "4")] }.launchCommand [] "" ""
      = { blank with engine := .vllm ⟨4, 0, .zero, "", false⟩ }.launchCommand [] "" "" := by
  decide

end TaskSpec

end ServingPlane
