import AccelPipe.Monitor.Basic
import AccelPipe.Proofs.Simulator.Ticks

/-! Ways to drive a run. Single ticks, and commands of the monitor that tick so many times, run up
to a budget or a breakpoint, or set breakpoints, only ever tick the simulator, and a run that is over
stays as it is. So all of them bring a run to the same end, which is that of a single run. -/
namespace AccelPipe

open Pipeline

namespace Simulator

variable {s t u : Simulator}

/-- Ticks add up. -/
theorem ticks_add (s : Simulator) (j k : Nat) : s.ticks (j + k) = (s.ticks j).ticks k := by
  induction k with
  | zero => rfl
  | succ k ih => exact congrArg (fun t => t.tick.2) ih

/-- Ticks lead from one simulator to the other. -/
def TicksTo (s t : Simulator) : Prop := ∃ k, t = s.ticks k

namespace TicksTo

theorem refl (s : Simulator) : s.TicksTo s := ⟨0, rfl⟩

/-- A tick, whether it fails or not. -/
theorem tick {result : Except Failure Unit} (h : s.tick = (result, t)) : s.TicksTo t :=
  ⟨1, congrArg Prod.snd h.symm⟩

/-- What further ticks lead to, ticks lead to. -/
theorem trans (h : s.TicksTo t) (h' : t.TicksTo u) : s.TicksTo u := by
  obtain ⟨j, rfl⟩ := h
  obtain ⟨k, rfl⟩ := h'
  exact ⟨j + k, (ticks_add s j k).symm⟩

end TicksTo

/-! A run that is over stays as it is, so it is over in one state only. -/

/-- Behind the end of a run, a tick changes nothing. -/
theorem ticks_of_finished (h : s.status.finished = true) (k : Nat) : s.ticks k = s := by
  induction k with
  | zero => rfl
  | succ k ih =>
      unfold ticks
      rw [ih, tick_of_finished h]

/-- All ticks that end a run end it in the same state. -/
theorem TicksTo.unique (h : s.TicksTo t) (h' : s.TicksTo u) (hT : t.status.finished = true)
    (hU : u.status.finished = true) : t = u := by
  obtain ⟨j, rfl⟩ := h
  obtain ⟨k, rfl⟩ := h'
  rcases Nat.le_total j k with hLess | hLess
  · obtain ⟨n, rfl⟩ := Nat.exists_eq_add_of_le hLess
    rw [ticks_add, ticks_of_finished hT]
  · obtain ⟨n, rfl⟩ := Nat.exists_eq_add_of_le hLess
    rw [ticks_add, ticks_of_finished hU]

/-! Every loop that drives a run ticks. -/

/-- A run is made of ticks, whatever its fuel, -/
theorem ticksTo_advanceToEnd (s : Simulator) (fuel : Nat) :
    s.TicksTo
      { s with pipeline := (advanceToEnd s.config.maxCycles fuel s.pipeline).2 } := by
  induction fuel generalizing s with
  | zero => exact .refl s
  | succ fuel ih =>
      unfold advanceToEnd
      split
      · exact .refl s
      · rcases hAdvance : advance s.config.maxCycles s.pipeline with ⟨result, q⟩
        have hFirst : s.TicksTo { s with pipeline := q } := .tick (tick_of_advance hAdvance)
        cases result with
        | error f => exact hFirst
        | ok u => exact hFirst.trans (ih { s with pipeline := q })

/-- with the budget of its configuration. -/
theorem ticksTo_run (s : Simulator) : s.TicksTo (s.run none).2 := by
  unfold run onPipeline
  exact ticksTo_advanceToEnd s _

end Simulator

namespace Monitor

/-- The line is a command that drives the run, or one that sets or deletes breakpoints. -/
def Steers (line : List Char) : Prop :=
  ∃ c argument, Request.ofLine line = .command c argument ∧
    c ∈ [Command.tick, .run, .setBreakpoint, .deleteBreakpoint]

/-- A tick of the simulator, or such a line. -/
inductive Drive where
  | tick
  | line (text : List Char) (h : Steers text)

/-- The monitor after a drive, whether it failed or not. -/
def drive (files : Files) (m : Monitor) : Drive → Monitor
  | .tick => m.withSimulator m.simulator.tick.2
  | .line text _ => (m.answer files text).monitor

def driveAll (files : Files) (m : Monitor) (drives : List Drive) : Monitor :=
  drives.foldl (drive files) m

/-- The command "tick" is so many ticks, -/
theorem ticksTo_tickTimes (s : Simulator) (n : Nat) : s.TicksTo (tickTimes s n).2 := by
  induction n generalizing s with
  | zero => exact .refl s
  | succ n ih =>
      unfold tickTimes
      rcases hTick : s.tick with ⟨result, t⟩
      have hFirst : s.TicksTo t := .tick hTick
      cases result with
      | ok u => exact hFirst.trans (ih t)
      | error f => cases f <;> exact hFirst

/-- and "run" is ticks up to a breakpoint at most. -/
theorem ticksTo_runTimes (breakpoints : List Int) (s : Simulator) (n : Nat) :
    s.TicksTo (runTimes breakpoints s n).2 := by
  induction n generalizing s with
  | zero => exact .refl s
  | succ n ih =>
      unfold runTimes
      split
      · exact .refl s
      · rcases hTick : s.tick with ⟨result, t⟩
        have hFirst : s.TicksTo t := .tick hTick
        cases result with
        | error f => exact hFirst
        | ok u =>
            dsimp only
            split
            · exact hFirst
            · exact hFirst.trans (ih t)

/-! So does every command that drives it. -/

variable {m : Monitor} {s : Simulator}

/-- A result that may be missing leaves the simulator as it is, or goes on. -/
theorem ticksTo_given {α : Type} {result : Except Failure α} {next : α → Reply}
    (hSame : s.TicksTo m.simulator) (hNext : ∀ a, s.TicksTo (next a).monitor.simulator) :
    s.TicksTo (m.given result next).monitor.simulator := by
  cases result with
  | error f => exact hSame
  | ok a => exact hNext a

/-- Whatever its argument, the first is ticks, -/
theorem ticksTo_tick (m : Monitor) (argument : List Char) :
    m.simulator.TicksTo (m.tick argument).monitor.simulator := by
  refine ticksTo_given (.refl _) fun count => ?_
  have hTicks := ticksTo_tickTimes m.simulator count.toNat
  rcases hDone : tickTimes m.simulator count.toNat with ⟨ended, s⟩
  rw [hDone] at hTicks
  exact ticksTo_given hTicks fun _ => hTicks

/-- and so is the second. -/
theorem ticksTo_run (m : Monitor) (argument : List Char) :
    m.simulator.TicksTo (m.run argument).monitor.simulator := by
  refine ticksTo_given (.refl _) fun budget => ?_
  have hTicks := ticksTo_runTimes m.breakpoints m.simulator budget.toNat
  rcases hDone : runTimes m.breakpoints m.simulator budget.toNat with ⟨hit, s⟩
  rw [hDone] at hTicks
  refine ticksTo_given hTicks fun hit => ?_
  cases hit with
  | none => exact hTicks
  | some pc => exact hTicks

/-- Setting a breakpoint takes no tick, -/
theorem ticksTo_setBreakpoint (m : Monitor) (argument : List Char) :
    m.simulator.TicksTo (m.setBreakpoint argument).monitor.simulator := by
  unfold setBreakpoint
  split
  · exact .refl _
  · exact ticksTo_given (.refl _) fun _ => .refl _

/-- nor does deleting one. -/
theorem ticksTo_deleteBreakpoint (m : Monitor) (argument : List Char) :
    m.simulator.TicksTo (m.deleteBreakpoint argument).monitor.simulator :=
  ticksTo_given (.refl _) fun _ => .refl _

/-- What is said about a refused argument changes nothing. -/
theorem answer_monitor {files : Files} {line argument : List Char} {c : Command}
    (h : Request.ofLine line = .command c argument) :
    (m.answer files line).monitor = (m.perform files c argument).monitor := by
  unfold answer
  rw [h]
  dsimp only
  split <;> rfl

/-- So every drive of a monitor is ticks, -/
theorem ticksTo_drive (files : Files) (m : Monitor) (d : Drive) :
    m.simulator.TicksTo (m.drive files d).simulator := by
  cases d with
  | tick => exact .tick rfl
  | line text h =>
      obtain ⟨c, argument, hLine, hSteers⟩ := h
      change m.simulator.TicksTo (m.answer files text).monitor.simulator
      rw [answer_monitor hLine]
      simp only [List.mem_cons, List.not_mem_nil, or_false] at hSteers
      rcases hSteers with rfl | rfl | rfl | rfl
      · exact m.ticksTo_tick argument
      · exact m.ticksTo_run argument
      · exact m.ticksTo_setBreakpoint argument
      · exact m.ticksTo_deleteBreakpoint argument

/-- and all of them together are. -/
theorem ticksTo_driveAll (files : Files) (m : Monitor) (drives : List Drive) :
    m.simulator.TicksTo (m.driveAll files drives).simulator := by
  induction drives generalizing m with
  | nil => exact .refl _
  | cons d rest ih => exact (ticksTo_drive files m d).trans (ih (m.drive files d))

end Monitor

namespace Simulator

/-- Some drive leads from one simulator to the other. -/
def DrivenTo (s t : Simulator) : Prop :=
  ∃ (files : Files) (m : Monitor) (drives : List Monitor.Drive),
    m.simulator = s ∧ (m.driveAll files drives).simulator = t

variable {s t u : Simulator}

/-- Whatever drives a simulator, ticks lead there. -/
theorem DrivenTo.ticksTo (h : s.DrivenTo t) : s.TicksTo t := by
  obtain ⟨files, m, drives, rfl, rfl⟩ := h
  exact Monitor.ticksTo_driveAll files m drives

/-- Data that is loaded before a run, and windows that stay in the numbers of 64 bits, let no tick
of it fail. -/
theorem unfailing_of_exact {c : Config} (hValid : c.Valid) {program : Image}
    (hSize : program.size < 0x40000000) {data : List (Int × List Int)} {n : Nat}
    (hExact : (c.reference program data).Exact n) : (loaded c program data).Unfailing n := by
  have hStep := hValid.inStep hSize data
  have hStays : ∀ q, Steps (build c program data) q → q.cycle ≤ n →
      Reached (c.machine program data) q ∧
        Compared c.checkReference (c.reference program data) q ∧ q.retired ≤ q.cycle := by
    intro q hSteps
    induction hSteps with
    | refl =>
        intro _
        refine ⟨hValid.reached_build program data, c.compared_build program data, ?_⟩
        rw [build_eq]
        exact Nat.le_refl 0
    | @tick q r _ hRun hTick ih =>
        intro hWithin
        have hCycle := (tick_ok hTick).1
        obtain ⟨hReached, hCompared, hCount⟩ := ih (by omega)
        obtain ⟨r', hSame, hNext, hOne⟩ :=
          hCompared.tick hStep (hExact.mono (by omega)) hReached hRun
        cases hSame.symm.trans hTick
        exact ⟨hReached.tick hRun hTick, hNext, by omega⟩
  intro q hSteps hRun hWithin
  rw [loaded_pipeline] at hSteps
  obtain ⟨hReached, hCompared, hCount⟩ := hStays q hSteps (by omega)
  obtain ⟨r, hTick, -⟩ := hCompared.tick hStep (hExact.mono (by omega)) hReached hRun
  rw [hTick]

/-- All drives that end a run end it in the same state, which is that of a single run unless a tick
of it fails. A run with any budget comes to an end or to a tick that fails, and no fuel beyond the
budget changes that. If none fails, it keeps to its budget; in a run that ticks end, none does. -/
theorem driven_alike (hHandled : Handled s) (hRun : s.status.finished = false) :
    (∀ t u, s.DrivenTo t → s.DrivenTo u → t.status.finished = true → u.status.finished = true →
      t = u ∧ (s.Unfailing s.config.maxCycles → s.run none = (.ok (), t))) ∧
    ∀ budget : Int,
      ((s.run (some budget)).1 = .ok () → (s.run (some budget)).2.status.finished = true) ∧
      (∀ fuel, (budget - s.cycle).toNat < fuel → advanceToEnd budget fuel s.pipeline =
        ((s.run (some budget)).1, (s.run (some budget)).2.pipeline)) ∧
      (∀ q, Steps s.pipeline q → q.status.finished = true → s.Unfailing budget) ∧
      (s.Unfailing budget → ∃ t, s.run (some budget) = (.ok (), t) ∧ s.KeepsBudget budget t) := by
  have hInTime := hHandled.inTime
  refine ⟨fun t u hT hU hEndT hEndU => ⟨hT.ticksTo.unique hU.ticksTo hEndT hEndU, ?_⟩,
    fun budget => ⟨fun hOk => ?_, fun fuel hFuel => ?_,
      fun q hSteps hEnd => unfailing_of_ended hSteps hEnd budget, run_keepsBudget hInTime hRun⟩⟩
  · intro hUnfailing
    have hOk := (run_ok_iff hInTime hRun none).mpr hUnfailing
    have hEnd := (runEnd_run hInTime hRun none).finished hOk
    rw [hT.ticksTo.unique s.ticksTo_run hEndT hEnd, ← hOk]
  · exact (runEnd_run hInTime hRun (some budget)).finished hOk
  · exact (runEnd_advanceToEnd hInTime.sound hRun hFuel).unique
      (runEnd_run hInTime hRun (some budget))

/-- A program that stores a word and loads it again, before its run. -/
def storing : Simulator :=
  loaded .small #[0x00500093, 0x00102023, 0x00002103, 0x00210133, 0x73] []

/-- The lines "bp 4" and "run", a tick, and the line "run 9". -/
def halfway : List Monitor.Drive :=
  [.line ['b', 'p', ' ', '4'] ⟨.setBreakpoint, ['4'], rfl, by decide⟩,
   .line ['r', 'u', 'n'] ⟨.run, [], rfl, by decide⟩, .tick,
   .line ['r', 'u', 'n', ' ', '9'] ⟨.run, ['9'], rfl, by decide⟩]

def noFiles : Files := fun path => .error ⟨.absent, path⟩

/-- A run that is stopped at a breakpoint on its way, and one that is stopped by a budget of five
cycles. -/
theorem driven_alike_of_breakpoint :
    Handled storing ∧ storing.Unfailing storing.config.maxCycles ∧
      storing.run none =
        (.ok (), (Monitor.driveAll noFiles { simulator := storing } halfway).simulator) ∧
      ∃ t, storing.run (some 5) = (.ok (), t) ∧ storing.KeepsBudget 5 t ∧ t.status = .timeout := by
  have hHandled : Handled storing :=
    (Handled.fresh Config.accepted_small).load
      #[0x00500093, 0x00102023, 0x00002103, 0x00210133, 0x73] none
  have hWhole : storing.Unfailing storing.config.maxCycles :=
    unfailing_of_exact Config.valid_small (by decide) (Config.valid_small.exact _ _ (by decide))
  have hShort : storing.Unfailing (5 : Nat) :=
    unfailing_of_exact Config.valid_small (by decide) (Config.valid_small.exact _ _ (by decide))
  obtain ⟨hAlike, hBudgets⟩ := driven_alike hHandled (by rfl)
  refine ⟨hHandled, hWhole, ?_, ?_⟩
  · have hDriven : storing.DrivenTo _ := ⟨noFiles, { simulator := storing }, halfway, rfl, rfl⟩
    have hEnd : (Monitor.driveAll noFiles { simulator := storing }
      halfway).simulator.status.finished = true := by decide +kernel
    exact (hAlike _ _ hDriven hDriven hEnd hEnd).2 hWhole
  · obtain ⟨-, -, -, hRuns⟩ := hBudgets (5 : Nat)
    obtain ⟨t, hRun, hKeeps⟩ := hRuns hShort
    have hTime : (storing.run (some 5)).2.status = .timeout := by decide +kernel
    have hIs : (storing.run (some 5)).2 = t := congrArg Prod.snd hRun
    exact ⟨t, hRun, hKeeps, hIs ▸ hTime⟩

/-- Strides of windows that leave the numbers of 64 bits at the second window. -/
def leaping : Simulator :=
  loaded { Config.small with poolStride := 0x8000000000000000 } #[0x200008f, 0x200010f, 0x73] []

/-- A run one of whose ticks fails does not end, whereas further ticks end it. -/
theorem not_driven_alike_of_leaping :
    ¬ ∀ s t : Simulator, Handled s → s.status.finished = false → s.DrivenTo t →
      t.status.finished = true → s.run none = (.ok (), t) := by
  intro h
  have hAccepted : ({ Config.small with poolStride := 0x8000000000000000 } : Config).Accepted :=
    ⟨by constructor <;> decide, rfl, by decide⟩
  have hHandled : Handled leaping :=
    (Handled.fresh hAccepted).load #[0x200008f, 0x200010f, 0x73] none
  have hDriven : leaping.DrivenTo _ :=
    ⟨noFiles, { simulator := leaping }, .replicate 14 .tick, rfl, rfl⟩
  have hRun := h leaping _ hHandled (by rfl) hDriven (by decide +kernel)
  have hFails : (leaping.run none).1.toBool = false := by decide +kernel
  rw [hRun] at hFails
  cases hFails

end Simulator

end AccelPipe
