import TradeOS.Chan.Engine
import TradeOS.Data.LastWrite

/-!
# Configurations of engines

An engine is built with a configuration dict. `_apply_config` takes the module's `DEFAULT_CONFIG`
object, assigns the entries of the dict to its attributes and returns this object. It makes no
copy of it: all engines of a process refer to one object, and a construction changes the
configuration of every engine there is.

So an attribute of an engine's configuration is the last value that any construction of the
process gave it (`configOf_run`), and an engine has the configuration of its own dict exactly if,
for every key, this value is the one of the dict completed by the defaults
(`configuration_own_iff`).
-/

set_option autoImplicit false

namespace TradeOS.Chan

open Store (MarketBar)
open LastWrite

/-! ## Constructions -/

/-- The entries of a configuration dict that the engine reads. -/
structure ConfigDict where
  biMinBars : Option ℤ := none
  segmentBackRatio : Option ℚ := none
  higherTimeframe : Option String := none
  lowerTimeframe : Option String := none
  deriving DecidableEq

/-- The assignments of `_apply_config`, to the attributes of a configuration object. -/
def ConfigDict.assign (config : ConfigDict) (cfg : ChanConfig) : ChanConfig where
  biMinBars := config.biMinBars.getD cfg.biMinBars
  segmentBackRatio := config.segmentBackRatio.getD cfg.segmentBackRatio
  divergenceMacdPeriods := cfg.divergenceMacdPeriods
  higherTimeframe := config.higherTimeframe.getD cfg.higherTimeframe
  lowerTimeframe := config.lowerTimeframe.getD cfg.lowerTimeframe

/-- A dict completed by the declared defaults. -/
def ConfigDict.completed (config : ConfigDict) : ChanConfig := config.assign {}

/-- The address of the object `DEFAULT_CONFIG` of the module. -/
def defaultConfigAddress : ℕ := 0

/-- A process: its configuration objects by their addresses, and for every engine the address
of the configuration that it refers to. -/
structure Process where
  configs : List ChanConfig := [{}]
  engines : List ℕ := []

/-- `_apply_config`: the objects afterwards, and the address of the returned one. -/
def applyConfig (configs : List ChanConfig) (config : ConfigDict) : List ChanConfig × ℕ :=
  let cfg := defaultConfigAddress
  (configs.modify cfg config.assign, cfg)

/-- What happens in a process: an engine is constructed, or an engine analyzes bars. -/
inductive EngineCall where
  | construct (config : ConfigDict)
  | analyze (engine : ℕ) (bars : List MarketBar)

/-- The process after a call. An analysis reads the configuration and does not write it. -/
def Process.step (process : Process) : EngineCall → Process
  | .construct config =>
      let (configs, cfg) := applyConfig process.configs config
      { configs := configs, engines := process.engines ++ [cfg] }
  | .analyze _ _ => process

/-- The process after a list of calls. -/
def Process.run (calls : List EngineCall) : Process := calls.foldl Process.step {}

/-- `self.config` of an engine. -/
def Process.configOf (process : Process) (engine : ℕ) : Option ChanConfig :=
  (process.engines[engine]?).bind fun cfg => process.configs[cfg]?

/-- The analysis by an engine of a process. -/
def Process.analyzeWith (process : Process) (engine : ℕ) (bars : List MarketBar) :
    Option (Except AnalysisError Signal) :=
  (process.configOf engine).map fun config => analyze config bars

/-! ## The shared object -/

/-- The dict of a construction. -/
def EngineCall.dict? : EngineCall → Option ConfigDict
  | .construct config => some config
  | .analyze _ _ => none

/-- The dicts of the constructions of a run. -/
def dicts (calls : List EngineCall) : List ConfigDict := calls.filterMap EngineCall.dict?

theorem dicts_append (earlier later : List EngineCall) :
    dicts (earlier ++ later) = dicts earlier ++ dicts later := List.filterMap_append

theorem dicts_construct (config : ConfigDict) (calls : List EngineCall) :
    dicts (.construct config :: calls) = config :: dicts calls := rfl

/-- After a run there is one configuration object, and every engine refers to it. -/
theorem run_eq (calls : List EngineCall) :
    Process.run calls =
      { configs := [(dicts calls).foldl (fun cfg config => config.assign cfg) {}]
        engines := List.replicate (dicts calls).length defaultConfigAddress } := by
  induction calls using List.reverseRecOn with
  | nil => rfl
  | append_singleton calls call ih =>
      rw [Process.run, List.foldl_append, ← Process.run, ih, dicts_append]
      cases call with
      | construct config =>
          have last : dicts [.construct config] = [config] := rfl
          simp [Process.step, applyConfig, defaultConfigAddress, last, List.replicate_succ']
      | analyze engine bars =>
          have none : dicts [.analyze engine bars] = [] := rfl
          rw [none, List.append_nil]
          rfl

/-- The dict that has, for every key, the last value that a list of dicts gives it. -/
def lastEntries (configs : List ConfigDict) : ConfigDict where
  biMinBars := lastWrite ConfigDict.biMinBars configs
  segmentBackRatio := lastWrite ConfigDict.segmentBackRatio configs
  higherTimeframe := lastWrite ConfigDict.higherTimeframe configs
  lowerTimeframe := lastWrite ConfigDict.lowerTimeframe configs

/-- The shared object after a list of dicts. -/
theorem foldl_assign (configs : List ConfigDict) :
    configs.foldl (fun cfg config => config.assign cfg) {} = (lastEntries configs).completed := by
  induction configs using List.reverseRecOn with
  | nil => rfl
  | append_singleton configs config ih =>
      rw [List.foldl_append, ih]
      simp [ConfigDict.completed, ConfigDict.assign, lastEntries, lastWrite_concat, Option.getD_or]

/-- **Every engine of a process has the configuration that the last entries of all
constructions give.** -/
theorem configOf_run {calls : List EngineCall} {engine : ℕ}
    (constructed : engine < (dicts calls).length) :
    (Process.run calls).configOf engine = some (lastEntries (dicts calls)).completed := by
  rw [run_eq, Process.configOf, foldl_assign, List.getElem?_replicate, if_pos constructed]
  rfl

/-! ## An engine among others -/

/-- For every key, the last value that a list of dicts gives it is the one of the completed
dict. -/
structure KeepsEntries (configs : List ConfigDict) (config : ConfigDict) : Prop where
  biMinBars : ∀ value, lastWrite ConfigDict.biMinBars configs = some value →
    value = config.completed.biMinBars
  segmentBackRatio : ∀ value, lastWrite ConfigDict.segmentBackRatio configs = some value →
    value = config.completed.segmentBackRatio
  higherTimeframe : ∀ value, lastWrite ConfigDict.higherTimeframe configs = some value →
    value = config.completed.higherTimeframe
  lowerTimeframe : ∀ value, lastWrite ConfigDict.lowerTimeframe configs = some value →
    value = config.completed.lowerTimeframe

/-- One key: the last entry, completed, is the completed entry of a dict of the list exactly if
the last entry is. -/
theorem getD_lastWrite_eq_iff {β : Type} {entry : ConfigDict → Option β}
    {configs : List ConfigDict} {config : ConfigDict} (member : config ∈ configs) (fallback : β) :
    (lastWrite entry configs).getD fallback = (entry config).getD fallback ↔
      ∀ value, lastWrite entry configs = some value → value = (entry config).getD fallback := by
  cases last : lastWrite entry configs with
  | none =>
      rw [lastWrite_eq_none_iff.mp last config member]
      exact iff_of_true rfl nofun
  | some value =>
      simp only [Option.getD_some, Option.some.injEq, forall_eq']

theorem completed_lastEntries_eq_iff {configs : List ConfigDict} {config : ConfigDict}
    (member : config ∈ configs) :
    (lastEntries configs).completed = config.completed ↔ KeepsEntries configs config := by
  constructor
  · intro same
    have fields := ChanConfig.mk.inj same
    exact
      { biMinBars := (getD_lastWrite_eq_iff member _).mp fields.1
        segmentBackRatio := (getD_lastWrite_eq_iff member _).mp fields.2.1
        higherTimeframe := (getD_lastWrite_eq_iff member _).mp fields.2.2.2.1
        lowerTimeframe := (getD_lastWrite_eq_iff member _).mp fields.2.2.2.2 }
  · intro kept
    have biMinBars := (getD_lastWrite_eq_iff member 5).mpr kept.biMinBars
    have segmentBackRatio := (getD_lastWrite_eq_iff member (1 / 2)).mpr kept.segmentBackRatio
    have higherTimeframe := (getD_lastWrite_eq_iff member "D").mpr kept.higherTimeframe
    have lowerTimeframe := (getD_lastWrite_eq_iff member "30m").mpr kept.lowerTimeframe
    rw [ConfigDict.completed, ConfigDict.completed, ConfigDict.assign, ConfigDict.assign,
      ChanConfig.mk.injEq]
    exact ⟨biMinBars, segmentBackRatio, rfl, higherTimeframe, lowerTimeframe⟩

/-- **In every run an engine has the configuration of its own dict, and analyzes every series
as it does alone in a process, if and only if for every key the last construction that sets it,
before or after, gives it the value of the engine's own completed dict.** -/
theorem configuration_own_iff (before after : List EngineCall) (config : ConfigDict) :
    ((Process.run (before ++ .construct config :: after)).configOf (dicts before).length =
          some config.completed ∧
        ∀ bars, (Process.run (before ++ .construct config :: after)).analyzeWith
            (dicts before).length bars =
          (Process.run [.construct config]).analyzeWith 0 bars) ↔
      KeepsEntries (dicts (before ++ .construct config :: after)) config := by
  have together : (dicts before).length < (dicts (before ++ .construct config :: after)).length := by
    rw [dicts_append, dicts_construct, List.length_append, List.length_cons]
    omega
  have alone : (Process.run [.construct config]).configOf 0 = some config.completed := rfl
  have member : config ∈ dicts (before ++ .construct config :: after) := by
    rw [dicts_append, dicts_construct]
    exact List.mem_append_right _ List.mem_cons_self
  simp only [Process.analyzeWith, alone, configOf_run together, Option.some.injEq]
  rw [← completed_lastEntries_eq_iff member]
  constructor
  · intro own
    exact own.1
  · intro same
    exact ⟨same, fun bars => by rw [same]⟩

/-- A second engine with longer strokes changes what the first one, built with no entries, does
with the same series: before, three segments and a failed lookup; after, a signal. -/
theorem configuration_not_own :
    (Process.run [.construct {}, .construct { biMinBars := some 100 }]).configOf 0 ≠
        some (ConfigDict.completed {}) ∧
      (Process.run [.construct {}]).analyzeWith 0 waves ≠
        (Process.run [.construct {}, .construct { biMinBars := some 100 }]).analyzeWith 0 waves := by
  have enough : 30 ≤ waves.length := by decide
  have shared : (Process.run [.construct {}, .construct { biMinBars := some 100 }]).configOf 0 =
      some { biMinBars := 100 } := rfl
  refine ⟨?_, fun same => ?_⟩
  · rw [shared]
    decide
  · have long : segmentsOf { biMinBars := 100 } waves = [] := by with_unfolding_all decide
    have analyzed : analyze {} waves = analyze { biMinBars := 100 } waves := Option.some.inj same
    rcases analyze_cases {} enough with ⟨free, -⟩ | ⟨-, failed⟩
    · exact not_overlapFree_waves free
    · rcases analyze_cases { biMinBars := 100 } enough with ⟨-, signal, returned⟩ | ⟨taken, -⟩
      · rw [analyzed, returned] at failed
        cases failed
      · refine taken ?_
        rw [long]
        exact overlapFree_of_length (by decide)

end TradeOS.Chan
