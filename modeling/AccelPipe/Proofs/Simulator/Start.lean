import AccelPipe.Proofs.Memory.Load
import AccelPipe.Proofs.Pipeline.Runs
import AccelPipe.Simulator.Basic

/-! The start of a run: a program under a valid configuration, with data in its memory. -/
namespace AccelPipe

/-- The machine that a run starts on. -/
def Config.machine (c : Config) (program : Image) (data : List (Int × List Int)) : Machine where
  program := program
  memory := pokeAll c.memWords (fun _ => 0) data
  size := c.memWords
  units := Units.fresh c
  pc := c.startPc

/-- Loads all data, in the order in which it was given. -/
def Reference.loadAll (r : Reference) (data : List (Int × List Int)) : Reference :=
  data.foldl (fun r (addr, words) => r.load addr words) r

/-- The reference machine that a run starts on. -/
def Config.reference (c : Config) (program : Image) (data : List (Int × List Int)) : Reference :=
  (Reference.fresh c program).loadAll data

namespace Simulator

/-! A tick and a run of a simulator are those of its pipeline. -/

section Driven

variable {s t : Simulator} {result : Except Failure Unit} {q : Pipeline} {maxCycles : Option Int}

/-- A tick of the simulator is a clock cycle of its pipeline. -/
theorem tick_of_advance (h : advance s.config.maxCycles s.pipeline = (result, q)) :
    s.tick = (result, { s with pipeline := q }) := by
  unfold tick onPipeline
  rw [h]

theorem run_of_advanceToEnd
    (h : advanceToEnd (maxCycles.getD s.config.maxCycles)
      ((maxCycles.getD s.config.maxCycles - s.pipeline.cycle).toNat + 1) s.pipeline = (result, q)) :
    s.run maxCycles = (result, { s with pipeline := q }) := by
  unfold run onPipeline
  dsimp only
  rw [h]

theorem advanceToEnd_of_run (h : s.run maxCycles = (result, t)) :
    advanceToEnd (maxCycles.getD s.config.maxCycles)
        ((maxCycles.getD s.config.maxCycles - s.pipeline.cycle).toNat + 1) s.pipeline =
      (result, t.pipeline) ∧
      t = { s with pipeline := t.pipeline } := by
  obtain ⟨hResult, rfl⟩ := Prod.mk.inj h
  exact ⟨Prod.ext hResult rfl, rfl⟩

end Driven

/-- A simulator before the first tick of a program. -/
def loaded (c : Config) (program : Image) (data : List (Int × List Int)) : Simulator :=
  data.foldl (fun s (addr, words) => s.preload addr words) ((fresh c).load program none).2

/-- Data is loaded into the pipeline, and the configuration stays. -/
theorem preloadAll (s : Simulator) (data : List (Int × List Int)) :
    (data.foldl (fun s (addr, words) => s.preload addr words) s).config = s.config ∧
      (data.foldl (fun s (addr, words) => s.preload addr words) s).pipeline =
        data.foldl preloadInto s.pipeline := by
  induction data generalizing s with
  | nil => exact ⟨rfl, rfl⟩
  | cons d ds ih => exact ih (s.preload d.1 d.2)

variable (c : Config) (program : Image) (data : List (Int × List Int))

theorem loaded_config : (loaded c program data).config = c := (preloadAll _ data).1

/-- The run that has been loaded is the one that a reset builds anew. -/
theorem loaded_pipeline : (loaded c program data).pipeline = build c program data :=
  (preloadAll _ data).2

theorem preloadInto_eq (p : Pipeline) :
    data.foldl preloadInto p =
      { p with
        memory := p.memory.loadAll data
        reference := p.reference.map fun r => r.loadAll data } := by
  induction data generalizing p with
  | nil =>
      change p = { p with reference := p.reference.map id }
      rw [Option.map_id_fun]
      rfl
  | cons d ds ih =>
      rw [List.foldl_cons, ih]
      unfold preloadInto
      dsimp only
      rw [Option.map_map]
      rfl

/-- The pipeline of a loaded simulator is a fresh one, but for the data in its memory. -/
theorem build_eq :
    build c program data =
      { Pipeline.fresh c program none with
        memory := (Memory.fresh c).loadAll data
        reference := if c.checkReference then some (c.reference program data) else none } := by
  unfold build
  rw [preloadInto_eq]
  cases c.checkReference <;> rfl

end Simulator

variable {c : Config}

/-- The machine that sequential execution begins with is sound. -/
theorem Config.Valid.sound_machine (h : c.Valid) (program : Image)
    (data : List (Int × List Int)) : (c.machine program data).Sound := by
  have hMemory := (Memory.sound_fresh h).loadAll data
  have hPeek : ((Memory.fresh c).loadAll data).peek = (c.machine program data).memory :=
    Memory.peek_loaded h data
  refine ⟨h.memWords, ?_, ?_, ?_, Units.fit_fresh h, rfl⟩
  · intro i
    change IsWord (if i = 0 then 0 else ((Vector.replicate 32 (0 : Int))[i]?).getD 0)
    split
    · exact isWord_zero
    · rw [Vector.getElem?_replicate]
      split <;> exact isWord_zero
  · rw [← hPeek]
    exact hMemory.range
  · rw [← hPeek]
    intro addr addr' hWrap
    refine Memory.peek_eq_of_wrap_eq ?_
    unfold Memory.wrap
    rw [Memory.loadAll_size]
    exact hWrap

/-- At the start of a run the pipeline stands for the machine, with its first address in Fetch. -/
theorem Config.Valid.follows_build (h : c.Valid) (program : Image)
    (data : List (Int × List Int)) :
    Follows (c.machine program data) (Simulator.build c program data)
      (Simulator.build c program data).registers (Simulator.build c program data).slots := by
  have hMemory := (Memory.sound_fresh h).loadAll data
  have hPeek : ((Memory.fresh c).loadAll data).peek = (c.machine program data).memory :=
    Memory.peek_loaded h data
  rw [Simulator.build_eq]
  refine ⟨⟨⟨h.sound_machine program data, hMemory, Memory.loadAll_size _ data, hPeek, ?_, ?_⟩, ?_,
    ?_, rfl⟩, rfl, rfl, rfl, rfl, ⟨?_, ?_, rfl, fun _ => rfl⟩⟩
  · intro s hSlot
    cases hSlot
  · intro s hSlot
    cases hSlot
  · intro s hSlot
    cases hSlot
  · intro s hSlot
    cases hSlot
  · intro s hSlot
    cases hSlot
  · intro s hSlot
    obtain rfl := Option.some.inj hSlot
    exact ⟨rfl, rfl, rfl⟩

/-- A loaded simulator has reached the machine that it begins with. -/
theorem Config.Valid.reached_build (h : c.Valid) (program : Image)
    (data : List (Int × List Int)) :
    Reached (c.machine program data) (Simulator.build c program data) := by
  refine .underWay (n := 0) ⟨?_, ?_, nofun⟩ rfl (h.follows_build program data) (.inl ?_) <;>
    rw [Simulator.build_eq] <;> rfl

end AccelPipe
