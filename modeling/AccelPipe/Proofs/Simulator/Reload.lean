import AccelPipe.Proofs.Config.Settings
import AccelPipe.Proofs.Simulator.Start
import AccelPipe.Simulator.Report

/-! Loading a program again, from an address that may be rejected. The configuration, the data and
the run survive a failing load; the program does not. -/
namespace AccelPipe

namespace Simulator

/-- A simulator after any operations, whether they failed or not. -/
inductive Handled : Simulator → Prop
  | fresh {c : Config} (h : c.Accepted) : Handled (fresh c)
  | load {s : Simulator} (h : Handled s) (program : Image) (pc : Option Int) :
      Handled (s.load program pc).2
  | preload {s : Simulator} (h : Handled s) (addr : Int) (words : List Int) :
      Handled (s.preload addr words)
  | tick {s : Simulator} (h : Handled s) : Handled s.tick.2
  | run {s : Simulator} (h : Handled s) (maxCycles : Option Int) : Handled (s.run maxCycles).2
  | reset {s : Simulator} (h : Handled s) : Handled s.reset

variable {s t : Simulator}

section

variable (h : s.config.Accepted) (program : Image) {pc : Int}

include h

/-- A program is loaded from the start of an instruction. -/
theorem load_of_aligned (hEven : pc % 4 = 0) :
    s.load program (some pc) =
      (.ok (), ({ s with program, config := { s.config with startPc := pc } }.reset).announce
        (.loaded program.size pc)) := by
  unfold load
  dsimp only
  rw [Config.replace_startPc h, if_pos hEven]
  rfl

/-- It is not loaded from between two instructions, but the next reset takes it. -/
theorem load_of_unaligned (hUneven : pc % 4 ≠ 0) :
    s.load program (some pc) =
      (.error (.config ⟨"start_pc", .unalignedStart⟩), { s with program }) := by
  unfold load
  dsimp only
  rw [Config.replace_startPc h, if_neg hUneven]
  rfl

end

/-- A load keeps the configuration accepted. -/
theorem accepted_load (h : s.config.Accepted) (program : Image) (pc : Option Int) :
    (s.load program pc).2.config.Accepted := by
  cases pc with
  | none => exact h
  | some pc =>
      by_cases hEven : pc % 4 = 0
      · rw [load_of_aligned h program hEven]
        exact h.startingAt hEven
      · rw [load_of_unaligned h program hEven]
        exact h

theorem Handled.accepted (h : Handled s) : s.config.Accepted := by
  induction h with
  | fresh h => exact h
  | load _ program pc ih => exact accepted_load ih program pc
  | preload _ _ _ ih => exact ih
  | tick _ ih => exact ih
  | run _ _ ih => exact ih
  | reset _ ih => exact ih

/-- A run is told by the configuration and the pipeline. -/
theorem run_congr (hConfig : s.config = t.config) (hPipeline : s.pipeline = t.pipeline)
    (maxCycles : Option Int) :
    (s.run maxCycles).1 = (t.run maxCycles).1 ∧
      (s.run maxCycles).2.report = (t.run maxCycles).2.report := by
  unfold run onPipeline report
  rw [hConfig, hPipeline]
  exact ⟨rfl, rfl⟩

/-- A load without an address succeeds. One with an address fails exactly if that address lies
between two instructions. It then leaves all but the program as it was, so that a reset and a run
give what they give after the program has been loaded without an address. -/
theorem failed_load (h : Handled s) (program : Image) (pc : Option Int) :
    ((s.load program pc).1 = .ok () ∧ ∀ addr, pc = some addr → addr % 4 = 0) ∨
      ∃ addr, pc = some addr ∧ addr % 4 ≠ 0 ∧
        s.load program pc = (.error (.config ⟨"start_pc", .unalignedStart⟩), { s with program }) ∧
          ((s.load program pc).2 = s ↔ program = s.program) ∧
          ∀ maxCycles,
            ((s.load program pc).2.reset.run maxCycles).1 =
                ((s.load program none).2.run maxCycles).1 ∧
              ((s.load program pc).2.reset.run maxCycles).2.report =
                ((s.load program none).2.run maxCycles).2.report := by
  cases pc with
  | none => exact .inl ⟨rfl, nofun⟩
  | some pc =>
      by_cases hEven : pc % 4 = 0
      · rw [load_of_aligned h.accepted program hEven]
        exact .inl ⟨rfl, fun _ hAddr => Option.some.inj hAddr ▸ hEven⟩
      · rw [load_of_unaligned h.accepted program hEven]
        refine .inr ⟨pc, rfl, hEven, rfl, ⟨fun hSame => ?_, fun hSame => ?_⟩, fun _ => run_congr rfl rfl _⟩
        · exact congrArg Simulator.program hSame
        · rw [hSame]

/-- A program that ends at once, and another one that is refused at address 2. -/
theorem failed_load_of_small :
    Handled ((fresh .small).load #[0x73] none).2 ∧
      (((fresh .small).load #[0x73] none).2.load #[0x100093, 0x73] (some 2)).2 =
        { ((fresh .small).load #[0x73] none).2 with program := #[0x100093, 0x73] } ∧
      ((((fresh .small).load #[0x73] none).2.load #[0x100093, 0x73] (some 2)).2.reset.run none).2.report =
        ((((fresh .small).load #[0x73] none).2.load #[0x100093, 0x73] none).2.run none).2.report := by
  have hHeld : Handled ((fresh .small).load #[0x73] none).2 :=
    (Handled.fresh Config.accepted_small).load #[0x73] none
  rcases failed_load hHeld #[0x100093, 0x73] (some 2) with ⟨-, hEven⟩ | ⟨_, -, -, hLoad, -, hRuns⟩
  · cases hEven 2 rfl
  · exact ⟨hHeld, congrArg Prod.snd hLoad, (hRuns none).2⟩

/-- A failing load can change what a reset and a run come to. -/
theorem not_unchanged_of_failed_load :
    ¬ ∀ s : Simulator, Handled s → ∀ (program : Image) (pc : Int) (f : Failure),
      (s.load program (some pc)).1 = .error f →
        (s.load program (some pc)).2.program = s.program ∧
          ((s.load program (some pc)).2.reset.run none).2.report = (s.reset.run none).2.report := by
  intro h
  have hHeld : Handled ((fresh .small).load #[0x73] none).2 :=
    (Handled.fresh Config.accepted_small).load #[0x73] none
  have hLoad := load_of_unaligned hHeld.accepted #[0x100093, 0x73]
    (show (2 : Int) % 4 ≠ 0 by decide)
  obtain ⟨-, hReport⟩ := h _ hHeld #[0x100093, 0x73] 2 _ (congrArg Prod.fst hLoad)
  rw [hLoad] at hReport
  have hRetired := congrArg Report.retired hReport
  revert hRetired
  decide +kernel

end Simulator

end AccelPipe
